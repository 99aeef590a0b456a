import KalshiAutotrader.Md.FeedHandler

/-!
What a step of the feed handler does.

The handlers are read here once. An action either completes an operation of the
current client, with an error or without, or it is about the timer, or it is a
completion of a client that is gone. `Step` lists these cases with what each of
them changes; the invariants are proved by cases on it.
-/

namespace KalshiAutotrader.Md

open Kit KalshiAutotrader.Core Logging Simdjson

/-- The operation an action completes, and the error it reports. -/
def FeedAct.outcome : FeedAct → Option (Op × Option (WsError × Bytes))
  | .resolved ec => some (.resolve, ec.map (.resolveFailed, ·))
  | .connected (some msg) _ => some (.connect, some (.connectFailed, msg))
  | .connected none sni => some (.connect, sni.map (.sslHandshakeFailed, ·))
  | .sslHandshaken ec => some (.sslHandshake, ec.map (.sslHandshakeFailed, ·))
  | .wsHandshaken ec => some (.wsHandshake, ec.map (.wsHandshakeFailed, ·))
  | .read (.error msg) => some (.read, some (.readFailed, msg))
  | .read (.ok _) => some (.read, none)
  | .written ec => some (.write, ec.map (.writeFailed, ·))
  | .control _ _ | .expire | .waited _ | .waitAborted | .discarded _ => none

/-- The operation an action completes with an error. -/
def FeedAct.failing (a : FeedAct) : Option Op :=
  a.outcome.bind fun (op, e) => if e.isSome then some op else none

/-- The message an action brings. -/
def FeedAct.message : FeedAct → Option Bytes
  | .read (.ok msg) => some msg
  | _ => none

/-- The request the current client makes, or is going to make. -/
def RunState.request (s : RunState) : Option HandshakeRequest :=
  s.client.map WsClient.handshakeRequest

/-- The messages of the log events that belong to one message each. -/
def answerNames : List Bytes :=
  [ascii "first_message_received", ascii "unsupported_message_type", ascii "parse_error"]

/-- The outputs that answer a message: what is captured, what the sink gets, and
the log events that belong to it. -/
def Output.answers : Output → Bool
  | .capture _ | .sink _ => true
  | .log event => answerNames.contains event.message

def RunState.answers (s : RunState) : List Output := s.trace.filter Output.answers

/-! ### Reporting an error -/

namespace FeedHandler

section Fail

variable (s : RunState) (err : WsError) (msg : Bytes)

/-- An error either schedules a reconnect or stops the loop. -/
theorem fail_eq : fail s err msg =
    if s.reconnect.enabled then
      { s.updateClient (·.report err) with
        errors := s.errors ++ [err]
        reconnect := s.reconnect.nextDelay.2
        delays := s.delays ++ [s.reconnect.nextDelay.1]
        timer := (s.timer.expiresAfter (toNanoseconds s.reconnect.nextDelay.1)).asyncWait
        trace := s.trace ++ [.log (wsErrorEvent err msg),
          .log (reconnectScheduledEvent s.reconnect.nextDelay.1)] }
    else
      { s.updateClient (·.report err) with
        errors := s.errors ++ [err]
        stopped := true
        trace := s.trace ++ [.log (wsErrorEvent err msg)] } := by
  by_cases henabled : s.reconnect.enabled = true <;>
    simp [fail, onError, scheduleReconnect, RunState.emit, RunState.updateClient, henabled]

@[simp] theorem fail_options : (fail s err msg).options = s.options := by
  rw [fail_eq]
  split <;> rfl

@[simp] theorem fail_remaining : (fail s err msg).remaining = s.remaining := by
  rw [fail_eq]
  split <;> rfl

@[simp] theorem fail_seen : (fail s err msg).seen = s.seen := by
  rw [fail_eq]
  split <;> rfl

@[simp] theorem fail_orphans : (fail s err msg).orphans = s.orphans := by
  rw [fail_eq]
  split <;> rfl

@[simp] theorem fail_errors : (fail s err msg).errors = s.errors ++ [err] := by
  rw [fail_eq]
  split <;> rfl

@[simp] theorem fail_handshakes : (fail s err msg).handshakes = s.handshakes := by
  rw [fail_eq]
  split <;> rfl

@[simp] theorem fail_client :
    (fail s err msg).client = s.client.map (·.report err) := by
  rw [fail_eq]
  split <;> rfl

@[simp] theorem fail_inFlight : (fail s err msg).inFlight = s.inFlight := by
  rw [RunState.inFlight, fail_client, RunState.inFlight]
  cases s.client <;> rfl

@[simp] theorem fail_request : (fail s err msg).request = s.request := by
  rw [RunState.request, fail_client, RunState.request]
  cases s.client <;> rfl

@[simp] theorem fail_enabled : (fail s err msg).reconnect.enabled = s.reconnect.enabled := by
  rw [fail_eq]
  split
  · exact ReconnectState.nextDelay_enabled s.reconnect
  · rfl

@[simp] theorem fail_stopped :
    (fail s err msg).stopped = (s.stopped || !s.reconnect.enabled) := by
  rw [fail_eq]
  split <;> simp_all [RunState.updateClient]

@[simp] theorem fail_timer : (fail s err msg).timer =
    if s.reconnect.enabled then
      (s.timer.expiresAfter (toNanoseconds s.reconnect.nextDelay.1)).asyncWait
    else s.timer := by
  rw [fail_eq]
  split <;> rfl

@[simp] theorem fail_answers : (fail s err msg).answers = s.answers := by
  have herror : Output.answers (.log (wsErrorEvent err msg)) = false :=
    show answerNames.contains (ascii "ws_error") = false by decide +kernel
  have hscheduled (delay) : Output.answers (.log (reconnectScheduledEvent delay)) = false :=
    show answerNames.contains (ascii "reconnect_scheduled") = false by decide +kernel
  rw [fail_eq]
  split <;> simp [RunState.answers, List.filter_append, herror, hscheduled]

end Fail

/-! ### Connecting -/

/-- A new client is resolving its host, or has reported that its URL is no good. -/
theorem connectClient_cases (s : RunState) :
    (∃ url, parseWsUrl s.options.wsUrl = .ok url ∧
      connectClient s = { s with
        client := some ((newClient s.options).connectTo url s.options.headers)
        orphans := s.orphans ++ s.inFlight }) ∨
    (∃ err, parseWsUrl s.options.wsUrl = .error err ∧
      connectClient s = fail { s with
        client := some (newClient s.options)
        orphans := s.orphans ++ s.inFlight } err (ascii "invalid url")) := by
  unfold connectClient
  cases hurl : parseWsUrl s.options.wsUrl with
  | ok url => exact .inl ⟨url, rfl, by simp [hurl, RunState.updateClient]⟩
  | error err => exact .inr ⟨err, rfl, by simp [hurl]⟩

/-- Before it connects, the handler of a wait only changes the headers. -/
theorem onWait_eq (s : RunState) (moment : Moment) :
    ∃ headers logs, onWait s moment = connectClient { s with
        options := { s.options with headers := headers }, trace := s.trace ++ logs } ∧
      (headers = s.options.headers ∨
        ∃ refresh, s.options.refreshHeaders = some refresh ∧ refresh moment = some headers) ∧
      logs.filter Output.answers = [] := by
  unfold onWait
  cases hrefresh : s.options.refreshHeaders with
  | none => exact ⟨s.options.headers, [], by simp, .inl rfl, rfl⟩
  | some refresh =>
      cases hmoment : refresh moment with
      | some refreshed =>
          exact ⟨refreshed, [], by simp [hmoment, hrefresh], .inr ⟨refresh, rfl, hmoment⟩, rfl⟩
      | none =>
          refine ⟨s.options.headers, [.log (logEvent .error (ascii "md.ws_client")
            (ascii "refresh_headers_failed") [])], by simp [hmoment, RunState.log, RunState.emit],
            .inl rfl, ?_⟩
          decide +kernel

/-! ### Messages -/

/-- How a message is disposed of: it is handed to the sink, or it has a type of
its own, or it does not parse. -/
inductive Disposed (iterate : ℕ → Bytes → Except SimdError Document) (includeRaw : Bool)
    (msg : Bytes) : Output → Prop
  | sink {call : SinkCall} (h : Md.onMessage iterate msg = (.ok (), [call])) :
      Disposed iterate includeRaw msg (.sink call)
  | unsupported (h : Md.onMessage iterate msg = (.error .unsupportedType, [])) :
      Disposed iterate includeRaw msg (.log unsupportedEvent)
  | parseError {error : ParseError} (h : Md.onMessage iterate msg = (.error error, []))
      (hne : error ≠ .unsupportedType) :
      Disposed iterate includeRaw msg (.log (parseErrorEvent error msg includeRaw))

variable (iterate : ℕ → Bytes → Except SimdError Document) (s : RunState) (msg : Bytes)

/-- The log event of the first message. -/
def firstOutput (seen : ℕ) : List Output := if seen = 0 then [.log firstMessageEvent] else []

/-- The log event of the last message. -/
def lastOutput (remaining : ℕ) : List Output :=
  if remaining = 1 then [.log maxMessagesEvent] else []

/-- A message as it came, if such messages are logged. -/
def rawOutput (logged : Bool) (msg : Bytes) (seen : ℕ) : List Output :=
  if logged then [.log (wsMessageEvent msg seen)] else []

theorem logRawMessage_eq :
    logRawMessage s msg =
      { s with trace := s.trace ++ rawOutput s.options.logRawMessages msg s.seen } := by
  unfold logRawMessage rawOutput
  split <;> simp [RunState.emit]

theorem logFirstMessage_eq :
    logFirstMessage s = { s with trace := s.trace ++ firstOutput s.seen } := by
  unfold logFirstMessage firstOutput
  split <;> simp [RunState.emit]

theorem onMessage_eq :
    ∃ output, Disposed iterate s.options.includeRawOnParseError msg output ∧
      onMessage iterate s msg = countDown { s with
        seen := s.seen + 1
        trace := s.trace ++ .capture (msg ++ [newline]) ::
          (rawOutput s.options.logRawMessages msg s.seen ++ firstOutput s.seen ++ [output]) } := by
  unfold onMessage dispatchMessage
  simp only [logRawMessage_eq, logFirstMessage_eq]
  rcases onMessage_cases iterate msg with ⟨call, hcall⟩ | ⟨error, herror⟩
  · exact ⟨.sink call, .sink hcall, by simp [hcall, RunState.emit]⟩
  · by_cases hunsupported : error = .unsupportedType
    · subst hunsupported
      exact ⟨_, .unsupported herror, by simp [herror, RunState.emit]⟩
    · exact ⟨_, .parseError herror hunsupported,
        by simp [herror, RunState.emit, hunsupported]⟩

/-- The countdown closes the client and stops the loop at the last message. -/
theorem countDown_eq : countDown s =
    if s.remaining = 1 then
      { s.updateClient WsClient.close with
        remaining := 0
        stopped := true
        trace := s.trace ++ [.log maxMessagesEvent] }
    else { s with remaining := s.remaining - 1 } := by
  unfold countDown
  by_cases hlast : s.remaining = 1
  · simp [hlast, RunState.emit, RunState.updateClient]
  · by_cases hzero : s.remaining = 0
    · have hsame : s.remaining - 1 = s.remaining := by omega
      rw [if_neg (by omega), if_neg hlast, hsame]
    · have hmore : ¬ s.remaining - 1 = 0 := by omega
      have hpos : 0 < s.remaining := by omega
      simp [hlast, hmore, hpos]

end FeedHandler

/-! ### One step -/

/-- The operation `op` has completed, and the client goes on. -/
structure Proceeds (op : Op) (s s' : RunState) : Prop where
  inFlight : ∃ ops, s'.inFlight = s.inFlight.erase op ++ ops ∧
    (op ≠ .write → ∃ op' ∈ ops, op' ≠ .write)
  reported : s'.reported = s.reported
  request : s'.request = s.request
  timer : s'.timer = s.timer
  orphans : s'.orphans = s.orphans
  options : s'.options = s.options
  enabled : s'.reconnect.enabled = s.reconnect.enabled
  errors : s'.errors = s.errors
  handshakes : ∀ r ∈ s'.handshakes, r ∈ s.handshakes ∨ s.request = some r

/-- No message has been received. The loop is only stopped by an error. -/
structure Unanswered (s s' : RunState) : Prop where
  answers : s'.answers = s.answers
  seen : s'.seen = s.seen
  remaining : s'.remaining = s.remaining
  stopped : ∃ errs, s'.errors = s.errors ++ errs ∧
    (s'.stopped = true ↔ s.stopped = true ∨ (s.reconnect.enabled = false ∧ errs ≠ []))

theorem Unanswered.of_eq {s s' : RunState} (hanswers : s'.answers = s.answers)
    (hseen : s'.seen = s.seen) (hremaining : s'.remaining = s.remaining)
    (hstopped : s'.stopped = s.stopped) (herrors : s'.errors = s.errors) : Unanswered s s' :=
  ⟨hanswers, hseen, hremaining, [], by simp [herrors], by simp [hstopped]⟩

/-- The message `msg` has been captured, counted and disposed of. -/
structure Answered (iterate : ℕ → Bytes → Except SimdError Document) (msg : Bytes)
    (s s' : RunState) : Prop where
  answers : ∃ output,
    FeedHandler.Disposed iterate s.options.includeRawOnParseError msg output ∧
    s'.answers = s.answers ++
      .capture (msg ++ [newline]) :: (FeedHandler.firstOutput s.seen ++ [output])
  seen : s'.seen = s.seen + 1
  remaining : s'.remaining = s.remaining - 1
  stopped : s'.stopped = (s.stopped || s.remaining == 1)

/-- What an action does to a state in which it can happen. -/
inductive Step (iterate : ℕ → Bytes → Except SimdError Document) (s : RunState) :
    FeedAct → RunState → Prop
  | failed {a : FeedAct} {op : Op} {err : WsError} {msg : Bytes}
      (houtcome : a.outcome = some (op, some (err, msg))) (hop : op ∈ s.inFlight) :
      Step iterate s a (FeedHandler.fail (s.updateClient (·.finish op)) err msg)
  | proceeded {a : FeedAct} {op : Op} {s' : RunState} (houtcome : a.outcome = some (op, none))
      (hmessage : a.message = none) (hop : op ∈ s.inFlight) (hproceeds : Proceeds op s s')
      (hunanswered : Unanswered s s') : Step iterate s a s'
  | received {msg : Bytes} {s' : RunState} (hop : .read ∈ s.inFlight)
      (hproceeds : Proceeds .read s s') (hanswered : Answered iterate msg s s') :
      Step iterate s (.read (.ok msg)) s'
  | controlled {kind : FeedHandler.FrameType} {payload : Bytes} (hop : .read ∈ s.inFlight) :
      Step iterate s (.control kind payload) (FeedHandler.onControl s kind payload)
  | expired (harmed : s.timer.armed = true) :
      Step iterate s .expire { s with timer := s.timer.expire }
  | waited {moment : Moment} (hexpired : 0 < s.timer.expired) :
      Step iterate s (.waited moment) (FeedHandler.onWait
        { s with timer := { s.timer with expired := s.timer.expired - 1 } } moment)
  | aborted (haborted : 0 < s.timer.aborted) :
      Step iterate s .waitAborted
        { s with timer := { s.timer with aborted := s.timer.aborted - 1 } }
  | discarded {op : Op} (hop : op ∈ s.orphans) :
      Step iterate s (.discarded op) { s with orphans := s.orphans.erase op }

/-- A handler is called for an operation that is in flight. -/
theorem finish_map_eq_some {s s' : RunState} {op : Op} {handler : RunState → RunState} :
    (s.finish op).map handler = some s' ↔
      op ∈ s.inFlight ∧ handler (s.updateClient (·.finish op)) = s' := by
  unfold RunState.finish
  split <;> simp_all

/-- What is in flight is in flight on a client. -/
theorem exists_client_of_mem {s : RunState} {op : Op} (h : op ∈ s.inFlight) :
    ∃ client, s.client = some client ∧ op ∈ client.inFlight := by
  unfold RunState.inFlight at h
  cases hclient : s.client with
  | none => simp [hclient] at h
  | some client => exact ⟨client, rfl, by simpa [hclient] using h⟩

namespace FeedHandler

section Proceed

variable {s : RunState} {op : Op}

/-- A change of the client alone. -/
theorem proceeds_updateClient (hop : op ∈ s.inFlight) {f : WsClient → WsClient} {ops : List Op}
    (hops : op ≠ .write → ∃ op' ∈ ops, op' ≠ .write)
    (hflight : ∀ c, (f c).inFlight = c.inFlight.erase op ++ ops)
    (hreported : ∀ c, (f c).reported = c.reported)
    (hrequest : ∀ c, (f c).handshakeRequest = c.handshakeRequest) :
    Proceeds op s (s.updateClient f) := by
  obtain ⟨client, hclient, -⟩ := exists_client_of_mem hop
  refine ⟨⟨ops, ?_, hops⟩, ?_, ?_, rfl, rfl, rfl, rfl, rfl, fun r hr => .inl hr⟩
  · simp [RunState.inFlight, RunState.updateClient, hclient, hflight]
  · simp [RunState.reported, RunState.updateClient, hclient, hreported]
  · simp [RunState.request, RunState.updateClient, hclient, hrequest]

theorem updateClient_updateClient (f g : WsClient → WsClient) :
    (s.updateClient f).updateClient g = s.updateClient fun c => g (f c) := by
  simp [RunState.updateClient, Function.comp_def]

theorem proceeds_onResolve (hop : .resolve ∈ s.inFlight) :
    Proceeds .resolve s (onResolve (s.updateClient (·.finish .resolve)) none) := by
  rw [onResolve, updateClient_updateClient]
  exact proceeds_updateClient hop (by simp) (fun _ => rfl) (fun _ => rfl)
    fun _ => rfl

theorem proceeds_onConnect (hop : .connect ∈ s.inFlight) :
    Proceeds .connect s (onConnect (s.updateClient (·.finish .connect)) none none) := by
  rw [onConnect, updateClient_updateClient]
  exact proceeds_updateClient hop (by simp) (fun _ => rfl) (fun _ => rfl) fun _ => rfl

theorem proceeds_onSslHandshake (hop : .sslHandshake ∈ s.inFlight) :
    Proceeds .sslHandshake s
      (onSslHandshake (s.updateClient (·.finish .sslHandshake)) none) := by
  have h : Proceeds .sslHandshake s ((s.updateClient (·.finish .sslHandshake)).updateClient
      (·.begin .wsHandshake)) := by
    rw [updateClient_updateClient]
    exact proceeds_updateClient hop (by simp) (fun _ => rfl) (fun _ => rfl) fun _ => rfl
  refine { h with handshakes := fun r hr => ?_ }
  rcases List.mem_append.mp hr with hr | hr
  · exact .inl hr
  · obtain ⟨client, hclient, -⟩ := exists_client_of_mem hop
    obtain rfl : r = client.handshakeRequest := by
      simpa [RunState.updateClient, hclient] using hr
    exact .inr (by simp [RunState.request, hclient])

/-- `on_open` sends the subscribe command, if there is one, before the first read. -/
theorem onWsHandshake_eq :
    onWsHandshake s none =
      { s.updateClient fun c =>
          let c := { c with opened := true }
          (if s.options.subscribeCmd ≠ [] then c.sendText s.options.subscribeCmd else c).begin
            .read with
        trace := s.trace ++ [.log wsOpenEvent]
        reconnect := s.reconnect.reset
        delays := [] } := by
  by_cases hcmd : s.options.subscribeCmd = [] <;>
    simp [onWsHandshake, onOpen, doRead, RunState.emit, RunState.updateClient, hcmd,
      Function.comp_def]

theorem proceeds_onWsHandshake (hop : .wsHandshake ∈ s.inFlight) :
    Proceeds .wsHandshake s (onWsHandshake (s.updateClient (·.finish .wsHandshake)) none) := by
  rw [onWsHandshake_eq, updateClient_updateClient]
  have h (cmd : Bytes) : Proceeds .wsHandshake s (s.updateClient fun c =>
      let c := { c.finish .wsHandshake with opened := true }
      (if cmd ≠ [] then c.sendText cmd else c).begin .read) := by
    by_cases hcmd : cmd = []
    · simp only [hcmd, ne_eq, not_true_eq_false, if_false]
      exact proceeds_updateClient hop (by simp) (fun _ => rfl) (fun _ => rfl) fun _ => rfl
    · simp only [ne_eq, hcmd, not_false_eq_true, if_true]
      refine proceeds_updateClient hop ?_ (fun c => List.append_assoc _ [Op.write] [Op.read])
        (fun _ => rfl) fun _ => rfl
      exact fun _ => ⟨.read, by simp, by simp⟩
  exact { h s.options.subscribeCmd with }

section Receive

variable (iterate : ℕ → Bytes → Except SimdError Document) (msg : Bytes)

/-- A message: it is captured, counted and disposed of, and the last one closes
the client and stops the loop. Then the next read starts. -/
theorem onRead_eq : ∃ output, Disposed iterate s.options.includeRawOnParseError msg output ∧
    onRead iterate s (.ok msg) =
      { s.updateClient fun c =>
          let c := { c with dispatched := c.dispatched + 1 }
          (if s.remaining = 1 then c.close else c).begin .read with
        seen := s.seen + 1
        remaining := s.remaining - 1
        stopped := s.stopped || s.remaining == 1
        trace := s.trace ++ .capture (msg ++ [newline]) ::
            (rawOutput s.options.logRawMessages msg s.seen ++ firstOutput s.seen ++ [output]) ++
          lastOutput s.remaining } := by
  obtain ⟨output, hdisposed, heq⟩ := onMessage_eq iterate
    (s.updateClient fun c => { c with dispatched := c.dispatched + 1 }) msg
  refine ⟨output, hdisposed, ?_⟩
  rw [onRead, heq, countDown_eq]
  by_cases hlast : s.remaining = 1 <;>
    simp [doRead, RunState.updateClient, hlast, Function.comp_def, lastOutput]

theorem proceeds_onRead (hop : .read ∈ s.inFlight) :
    Proceeds .read s (onRead iterate (s.updateClient (·.finish .read)) (.ok msg)) := by
  obtain ⟨output, -, heq⟩ := onRead_eq (s := s.updateClient (·.finish .read)) iterate msg
  rw [heq, updateClient_updateClient]
  have h (last : Prop) [Decidable last] : Proceeds .read s (s.updateClient fun c =>
      let c := { c.finish .read with dispatched := c.dispatched + 1 }
      (if last then c.close else c).begin .read) := by
    by_cases hlast : last <;> simp only [hlast, if_true, if_false] <;>
      exact proceeds_updateClient hop (by simp) (fun _ => rfl) (fun _ => rfl) fun _ => rfl
  exact { h (s.remaining = 1) with }

theorem answered_onRead :
    Answered iterate msg s (onRead iterate (s.updateClient (·.finish .read)) (.ok msg)) := by
  obtain ⟨output, hdisposed, heq⟩ := onRead_eq (s := s.updateClient (·.finish .read)) iterate msg
  rw [heq]
  refine ⟨⟨output, hdisposed, ?_⟩, rfl, rfl, rfl⟩
  -- of what is added to the trace, the raw message and the last event answer nothing
  have hlast : (lastOutput s.remaining).filter Output.answers = [] := by
    unfold lastOutput
    split
    · decide +kernel
    · rfl
  have hraw : (rawOutput s.options.logRawMessages msg s.seen).filter Output.answers = [] := by
    have hname : Output.answers (.log (wsMessageEvent msg s.seen)) = false :=
      show answerNames.contains (ascii "ws_message") = false by decide +kernel
    unfold rawOutput
    split <;> simp [hname]
  have hfirst : (firstOutput s.seen).filter Output.answers = firstOutput s.seen := by
    have hname : Output.answers (.log firstMessageEvent) = true := by decide +kernel
    unfold firstOutput
    split <;> simp [hname]
  have houtput : output.answers = true := by
    cases hdisposed with
    | sink => rfl
    | unsupported => decide +kernel
    | parseError =>
        unfold parseErrorEvent
        split <;> exact show answerNames.contains (ascii "parse_error") = true by decide +kernel
  have hcapture : Output.answers (.capture (msg ++ [newline])) = true := rfl
  simp only [RunState.answers, RunState.updateClient, List.filter_append, hlast, hraw, hfirst,
    List.filter_cons, hcapture, houtput, if_true, List.filter_nil, List.nil_append,
    List.append_nil]

end Receive

end Proceed

/-- Every step is one of the cases of `Step`, and there is none once the loop is
stopped. -/
theorem step_of_next {iterate : ℕ → Bytes → Except SimdError Document} {s s' : RunState}
    {a : FeedAct} (h : next iterate s a = some s') : s.stopped = false ∧ Step iterate s a s' := by
  unfold next at h
  split at h
  · cases h
  next hstopped =>
  refine ⟨by simpa using hstopped, ?_⟩
  cases a with
  | resolved ec =>
      obtain ⟨hop, rfl⟩ := finish_map_eq_some.mp h
      cases ec with
      | some text => exact .failed rfl hop
      | none =>
          exact .proceeded rfl rfl hop (proceeds_onResolve hop) (.of_eq rfl rfl rfl rfl rfl)
  | connected ec sni =>
      obtain ⟨hop, rfl⟩ := finish_map_eq_some.mp h
      cases ec with
      | some text => exact .failed rfl hop
      | none =>
          cases sni with
          | some text => exact .failed rfl hop
          | none =>
              exact .proceeded rfl rfl hop (proceeds_onConnect hop) (.of_eq rfl rfl rfl rfl rfl)
  | sslHandshaken ec =>
      obtain ⟨hop, rfl⟩ := finish_map_eq_some.mp h
      cases ec with
      | some text => exact .failed rfl hop
      | none =>
          exact .proceeded rfl rfl hop (proceeds_onSslHandshake hop) (.of_eq rfl rfl rfl rfl rfl)
  | wsHandshaken ec =>
      obtain ⟨hop, rfl⟩ := finish_map_eq_some.mp h
      cases ec with
      | some text => exact .failed rfl hop
      | none =>
          apply Step.proceeded rfl rfl hop (proceeds_onWsHandshake hop)
          have hopen : Output.answers (.log wsOpenEvent) = false := by decide +kernel
          simp only [onWsHandshake_eq]
          exact .of_eq (by simp [RunState.answers, RunState.updateClient, hopen]) rfl rfl rfl rfl
  | read result =>
      obtain ⟨hop, rfl⟩ := finish_map_eq_some.mp h
      cases result with
      | error text => exact .failed rfl hop
      | ok msg =>
          exact .received hop (proceeds_onRead iterate msg hop) (answered_onRead iterate msg)
  | written ec =>
      obtain ⟨hop, rfl⟩ := finish_map_eq_some.mp h
      cases ec with
      | some text => exact .failed rfl hop
      | none =>
          -- nothing follows a write
          refine .proceeded rfl rfl hop ?_ (.of_eq rfl rfl rfl rfl rfl)
          exact proceeds_updateClient hop (by simp) (fun c => (List.append_nil _).symm)
            (fun _ => rfl) fun _ => rfl
  | control kind payload =>
      obtain ⟨hop, heq⟩ := Option.ite_none_right_eq_some.mp h
      obtain rfl := Option.some.inj heq
      exact .controlled hop
  | expire =>
      obtain ⟨harmed, heq⟩ := Option.ite_none_right_eq_some.mp h
      obtain rfl := Option.some.inj heq
      exact .expired harmed
  | waited moment =>
      obtain ⟨hexpired, heq⟩ := Option.ite_none_right_eq_some.mp h
      obtain rfl := Option.some.inj heq
      exact .waited hexpired
  | waitAborted =>
      obtain ⟨haborted, heq⟩ := Option.ite_none_right_eq_some.mp h
      obtain rfl := Option.some.inj heq
      exact .aborted haborted
  | discarded op =>
      obtain ⟨hop, heq⟩ := Option.ite_none_right_eq_some.mp h
      obtain rfl := Option.some.inj heq
      exact .discarded hop

theorem unanswered_fail (s : RunState) (err : WsError) (msg : Bytes) :
    Unanswered s (fail s err msg) :=
  ⟨by simp, by simp, by simp, [err], by simp, by simp⟩

theorem unanswered_connectClient (s : RunState) : Unanswered s (connectClient s) := by
  rcases connectClient_cases s with ⟨url, -, heq⟩ | ⟨err, -, heq⟩ <;> rw [heq]
  · exact .of_eq rfl rfl rfl rfl rfl
  · exact { unanswered_fail _ err _ with }

theorem unanswered_onWait (s : RunState) (moment : Moment) :
    Unanswered s (onWait s moment) := by
  obtain ⟨headers, logs, heq, -, hlogs⟩ := onWait_eq s moment
  have hsame : (s.trace ++ logs).filter Output.answers = s.trace.filter Output.answers := by
    rw [List.filter_append, hlogs, List.append_nil]
  rw [heq]
  exact { unanswered_connectClient _ with
    answers := (unanswered_connectClient _).answers.trans hsame }

theorem message_of_fails {a : FeedAct} {op : Op} {e : WsError × Bytes}
    (h : a.outcome = some (op, some e)) : a.message = none := by
  cases a with
  | read result =>
      cases result with
      | error => rfl
      | ok => cases h
  | _ => rfl

/-- A step receives a message, or it does not. -/
theorem step_messages {iterate : ℕ → Bytes → Except SimdError Document} {s s' : RunState}
    {a : FeedAct} (h : Step iterate s a s') :
    (∃ msg, a.message = some msg ∧ Answered iterate msg s s' ∧ s'.errors = s.errors ∧
        s'.reconnect.enabled = s.reconnect.enabled) ∨
      (a.message = none ∧ Unanswered s s') := by
  cases h with
  | failed houtcome =>
      exact .inr ⟨message_of_fails houtcome, { unanswered_fail (s.updateClient _) _ _ with }⟩
  | proceeded _ hmessage _ _ hunanswered => exact .inr ⟨hmessage, hunanswered⟩
  | received _ hproceeds hanswered =>
      exact .inl ⟨_, rfl, hanswered, hproceeds.errors, hproceeds.enabled⟩
  | @controlled kind payload =>
      have hname : answerNames.contains (controlMessage kind) = false := by
        cases kind <;> decide +kernel
      refine .inr ⟨rfl, .of_eq ?_ rfl rfl rfl rfl⟩
      simpa [RunState.answers, onControl, RunState.log, RunState.emit, Output.answers, logEvent]
        using hname
  | waited => exact .inr ⟨rfl, { unanswered_onWait { s with timer := _ } _ with }⟩
  | _ => exact .inr ⟨rfl, .of_eq rfl rfl rfl rfl rfl⟩

end FeedHandler

/-! ### What a run keeps -/

/-- The options of a run stay as they are but for the headers. -/
structure RunsWith (options : RunOptions) (s : RunState) : Prop where
  configured : ∃ headers, s.options = { options with headers := headers }
  enabled : s.reconnect.enabled = options.autoReconnect

namespace FeedHandler

variable {iterate : ℕ → Bytes → Except SimdError Document} {options : RunOptions}

theorem runsWith_fail {s : RunState} (h : RunsWith options s) (err : WsError) (msg : Bytes) :
    RunsWith options (fail s err msg) :=
  ⟨by simpa using h.configured, by simpa using h.enabled⟩

theorem runsWith_connectClient {s : RunState} (h : RunsWith options s) :
    RunsWith options (connectClient s) := by
  rcases connectClient_cases s with ⟨url, -, heq⟩ | ⟨err, -, heq⟩ <;> rw [heq]
  · exact ⟨h.configured, h.enabled⟩
  · refine runsWith_fail ?_ _ _
    exact ⟨h.configured, h.enabled⟩

theorem runsWith_onWait {s : RunState} (h : RunsWith options s) (moment : Moment) :
    RunsWith options (onWait s moment) := by
  obtain ⟨headers, logs, heq, -⟩ := onWait_eq s moment
  obtain ⟨headers', hoptions⟩ := h.configured
  rw [heq]
  exact runsWith_connectClient ⟨⟨headers, by simp [hoptions]⟩, h.enabled⟩

theorem runsWith_step {s s' : RunState} {a : FeedAct} (hs : RunsWith options s)
    (h : Step iterate s a s') : RunsWith options s' := by
  cases h with
  | failed =>
      refine runsWith_fail ?_ _ _
      exact ⟨hs.configured, hs.enabled⟩
  | proceeded _ _ _ hproceeds =>
      exact ⟨hproceeds.options ▸ hs.configured, hproceeds.enabled.trans hs.enabled⟩
  | received _ hproceeds =>
      exact ⟨hproceeds.options ▸ hs.configured, hproceeds.enabled.trans hs.enabled⟩
  | waited =>
      refine runsWith_onWait ?_ _
      exact ⟨hs.configured, hs.enabled⟩
  | _ => exact ⟨hs.configured, hs.enabled⟩

theorem runsWith_of_reachable {s : RunState} (h : (feed iterate options).Reachable s) :
    RunsWith options s :=
  h.invariant (runsWith_connectClient ⟨⟨options.headers, rfl⟩, rfl⟩)
    fun hs _ hnext => runsWith_step hs (step_of_next hnext).2

end FeedHandler

end KalshiAutotrader.Md
