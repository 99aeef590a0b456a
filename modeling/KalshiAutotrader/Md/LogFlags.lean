import KalshiAutotrader.Md.FeedSteps

/-!
The flags that say what is logged.

`include_raw_on_parse_error` and `log_raw_messages` are about the log and about nothing
else. A handler is blind to them if what it does to the rest of the state is a function of
the rest of the state; blindness is kept by composition and by a case distinction on
anything that is not of the log, and each handler is put together this way.
-/

namespace KalshiAutotrader.Md

open Kit KalshiAutotrader.Core Logging Simdjson FeedHandler

/-- The options without the flags. -/
def RunOptions.unlogged (options : RunOptions) : RunOptions :=
  { options with includeRawOnParseError := false, logRawMessages := false }

def Output.isLog : Output → Bool
  | .log _ => true
  | _ => false

/-- The state without the flags, and without what has been logged. -/
def RunState.unlogged (s : RunState) : RunState :=
  { s with options := s.options.unlogged, trace := s.trace.filter (!·.isLog) }

@[simp] theorem unlogged_unlogged (s : RunState) : s.unlogged.unlogged = s.unlogged := by
  simp [RunState.unlogged, RunOptions.unlogged]

/-! ### Blindness -/

/-- The rest of the result depends on the rest of the state only. -/
def Blind (h : RunState → RunState) : Prop := ∀ s, (h s).unlogged = (h s.unlogged).unlogged

/-- Something about a state that is neither a flag nor of the log. -/
def Unlogged {β : Type} (f : RunState → β) : Prop := ∀ s, f s.unlogged = f s

theorem Blind.comp {g h : RunState → RunState} (hg : Blind g) (hh : Blind h) :
    Blind fun s => g (h s) := by
  intro s
  calc (g (h s)).unlogged = (g (h s).unlogged).unlogged := hg (h s)
    _ = (g (h s.unlogged).unlogged).unlogged := by rw [hh s]
    _ = (g (h s.unlogged)).unlogged := (hg (h s.unlogged)).symm

/-- A function that looks at something other than the log first. -/
theorem Blind.of {β : Type} {f : RunState → β} {h : β → RunState → RunState} (hf : Unlogged f)
    (hh : ∀ b, Blind (h b)) : Blind fun s => h (f s) s := by
  intro s
  show (h (f s) s).unlogged = (h (f s.unlogged) s.unlogged).unlogged
  rw [hf s]
  exact hh (f s) s

theorem blind_id : Blind fun s => s := fun s => (unlogged_unlogged s).symm

theorem blind_emit (output : Output) : Blind (·.emit output) := by
  intro s
  cases output <;> simp [RunState.unlogged, RunState.emit, RunOptions.unlogged, Output.isLog]

/-- What is logged may be anything. -/
theorem blind_log (event : RunState → LogEvent) : Blind fun s => s.emit (.log (event s)) := by
  intro s
  simp [RunState.unlogged, RunState.emit, RunOptions.unlogged, Output.isLog]

theorem blind_emitAll (outputs : List Output) :
    Blind fun s => { s with trace := s.trace ++ outputs } := by
  intro s
  simp [RunState.unlogged, RunOptions.unlogged]

theorem blind_updateClient (f : WsClient → WsClient) : Blind (·.updateClient f) := by
  intro s
  simp [RunState.unlogged, RunState.updateClient, RunOptions.unlogged]

/-! ### Errors and connecting -/

theorem blind_fail (err : WsError) (msg : Bytes) : Blind (fail · err msg) := by
  intro s
  show (fail s err msg).unlogged = (fail s.unlogged err msg).unlogged
  have henabled : s.unlogged.reconnect.enabled = s.reconnect.enabled := rfl
  rw [fail_eq, fail_eq, henabled]
  split <;> simp [RunState.unlogged, RunState.updateClient, RunOptions.unlogged, Output.isLog]

theorem blind_connectClient : Blind connectClient := by
  let replace : RunState → RunState := fun s =>
    { s with client := some (newClient s.options), orphans := s.orphans ++ s.inFlight }
  have hreplace : Blind replace := fun s => by
    simp [replace, RunState.unlogged, RunState.inFlight, newClient, RunOptions.unlogged]
  intro s
  have hsame : parseWsUrl s.unlogged.options.wsUrl = parseWsUrl s.options.wsUrl := rfl
  rcases connectClient_cases s with ⟨url, hurl, heq⟩ | ⟨err, herr, heq⟩
  · rcases connectClient_cases s.unlogged with ⟨url', hurl', heq'⟩ | ⟨err', herr', -⟩
    · obtain rfl := Except.ok.inj (hurl.symm.trans (hsame.symm.trans hurl'))
      rw [heq, heq']
      exact (blind_updateClient (·.connectTo url s.options.headers)).comp hreplace s
    · cases hurl.symm.trans (hsame.symm.trans herr')
  · rcases connectClient_cases s.unlogged with ⟨url', hurl', -⟩ | ⟨err', herr', heq'⟩
    · cases herr.symm.trans (hsame.symm.trans hurl')
    · obtain rfl := Except.error.inj (herr.symm.trans (hsame.symm.trans herr'))
      rw [heq, heq']
      exact (blind_fail err (ascii "invalid url")).comp hreplace s

/-- The state in which a wait connects. -/
def refreshedBy (refreshHeaders : Option (Moment → Option SignedHeaders)) (moment : Moment)
    (s : RunState) : RunState :=
  refreshHeaders.elim s fun refresh =>
    (refresh moment).elim (s.log .error (ascii "md.ws_client") (ascii "refresh_headers_failed"))
      fun headers => { s with options := { s.options with headers := headers } }

theorem onWait_eq_refreshedBy (s : RunState) (moment : Moment) :
    onWait s moment = connectClient (refreshedBy s.options.refreshHeaders moment s) := by
  unfold onWait refreshedBy
  cases s.options.refreshHeaders with
  | none => rfl
  | some refresh => cases hmoment : refresh moment <;> simp [hmoment]

theorem blind_refreshedBy (refreshHeaders : Option (Moment → Option SignedHeaders))
    (moment : Moment) : Blind (refreshedBy refreshHeaders moment) := by
  have hheaders (headers : SignedHeaders) :
      Blind fun s => { s with options := { s.options with headers := headers } } := fun s => by
    simp [RunState.unlogged, RunOptions.unlogged]
  unfold refreshedBy
  cases refreshHeaders with
  | none => exact blind_id
  | some refresh =>
      simp only [Option.elim_some]
      cases refresh moment with
      | none => exact blind_emit _
      | some headers => exact hheaders headers

theorem blind_onWait (moment : Moment) : Blind (onWait · moment) := by
  simp only [onWait_eq_refreshedBy]
  exact blind_connectClient.comp (.of (f := fun s => s.options.refreshHeaders) (fun _ => rfl)
    fun refreshHeaders => blind_refreshedBy refreshHeaders moment)

/-! ### Messages -/

theorem blind_countDown : Blind countDown := by
  intro s
  by_cases hlimit : 0 < s.remaining <;> by_cases hlast : s.remaining - 1 = 0 <;>
    simp [countDown, RunState.unlogged, RunState.emit, RunState.updateClient,
      RunOptions.unlogged, Output.isLog, hlimit, hlast]

theorem blind_logRawMessage (msg : Bytes) : Blind (logRawMessage · msg) := by
  intro s
  by_cases hflag : s.options.logRawMessages = true <;>
    simp [logRawMessage, RunState.unlogged, RunState.emit, RunOptions.unlogged, Output.isLog,
      hflag]

theorem blind_logFirstMessage : Blind logFirstMessage := by
  intro s
  by_cases hseen : s.seen = 0 <;>
    simp [logFirstMessage, RunState.unlogged, RunState.emit, RunOptions.unlogged, Output.isLog,
      hseen]

variable (iterate : ℕ → Bytes → Except SimdError Document)

/-- A message is dispatched alike, whatever is logged about it. -/
theorem blind_dispatchMessage (msg : Bytes) :
    Blind fun s => match dispatchMessage iterate s msg s.options.includeRawOnParseError with
      | (.error .unsupportedType, s) => countDown (s.emit (.log unsupportedEvent))
      | (_, s) => countDown s := by
  have hcalls : Blind fun s =>
      { s with trace := s.trace ++ (Md.onMessage iterate msg).2.map .sink } := blind_emitAll _
  have hparse (error : ParseError) : Blind fun s : RunState => s.emit
      (.log (parseErrorEvent error msg s.options.includeRawOnParseError)) := blind_log _
  unfold dispatchMessage
  cases hanswer : Md.onMessage iterate msg with
  | mk dispatched calls =>
      rw [hanswer] at hcalls
      cases dispatched with
      | ok => exact blind_countDown.comp hcalls
      | error error =>
          by_cases herror : error = .unsupportedType
          · subst herror
            exact blind_countDown.comp ((blind_emit _).comp hcalls)
          · have hlogged := blind_countDown.comp ((hparse error).comp hcalls)
            intro s
            simpa [herror] using hlogged s

theorem blind_onMessage (msg : Bytes) : Blind (FeedHandler.onMessage iterate · msg) := by
  have hcount : Blind fun s => { s with seen := s.seen + 1 } := fun s => by
    simp [RunState.unlogged, RunOptions.unlogged]
  exact (blind_dispatchMessage iterate msg).comp <| hcount.comp <| blind_logFirstMessage.comp <|
    (blind_logRawMessage msg).comp (blind_emit _)

/-! ### The handlers -/

theorem blind_onRead (result : Except Bytes Bytes) : Blind (onRead iterate · result) := by
  cases result with
  | error msg => exact blind_fail _ msg
  | ok msg =>
      exact (blind_updateClient _).comp <| (blind_onMessage iterate msg).comp
        (blind_updateClient _)

theorem blind_onOpen : Blind onOpen := by
  have hreset : Blind fun s => { s with reconnect := s.reconnect.reset, delays := [] } := by
    intro s
    simp [RunState.unlogged, RunOptions.unlogged]
  refine (Blind.of (f := fun s => s.options.subscribeCmd)
    (h := fun cmd s => if cmd ≠ [] then s.updateClient (·.sendText cmd) else s) (fun _ => rfl)
    fun cmd => ?_).comp (hreset.comp (blind_emit _))
  by_cases hcmd : cmd = []
  · simpa [hcmd] using blind_id
  · simpa [hcmd] using blind_updateClient (·.sendText cmd)

theorem blind_onResolve (ec : ErrorCode) : Blind (onResolve · ec) := by
  cases ec with
  | some msg => exact blind_fail _ msg
  | none => exact blind_updateClient _

theorem blind_onConnect (ec sni : ErrorCode) : Blind (onConnect · ec sni) := by
  cases ec with
  | some msg => exact blind_fail _ msg
  | none =>
      cases sni with
      | some msg => exact blind_fail _ msg
      | none => exact blind_updateClient _

theorem blind_onSslHandshake (ec : ErrorCode) : Blind (onSslHandshake · ec) := by
  cases ec with
  | some msg => exact blind_fail _ msg
  | none =>
      intro s
      simp [onSslHandshake, RunState.unlogged, RunState.updateClient, RunOptions.unlogged]

theorem blind_onWsHandshake (ec : ErrorCode) : Blind (onWsHandshake · ec) := by
  cases ec with
  | some msg => exact blind_fail _ msg
  | none => exact (blind_updateClient _).comp (blind_onOpen.comp (blind_updateClient _))

theorem blind_onWrite (ec : ErrorCode) : Blind (onWrite · ec) := by
  cases ec with
  | some msg => exact blind_fail _ msg
  | none => exact blind_id

/-! ### Runs -/

variable {iterate} {options options' : RunOptions} {s t : RunState}

/-- What completes an operation. -/
theorem unlogged_finish {h : RunState → RunState} (op : Op) (hh : Blind h) (s : RunState) :
    ((s.finish op).map h).map RunState.unlogged =
      ((s.unlogged.finish op).map h).map RunState.unlogged := by
  have hflight : s.unlogged.inFlight = s.inFlight := rfl
  have hfinish := hh.comp (blind_updateClient (·.finish op)) s
  unfold RunState.finish
  rw [hflight]
  by_cases hop : op ∈ s.inFlight
  · simpa [hop] using hfinish
  · simp [hop]

/-- What is done if a condition holds that is not of the log. -/
theorem unlogged_guarded {h : RunState → RunState} {p : Prop} [Decidable p] (hh : Blind h)
    (s : RunState) : (if p then some (h s) else none).map RunState.unlogged =
      (if p then some (h s.unlogged) else none).map RunState.unlogged := by
  split
  · exact congrArg some (hh s)
  · rfl

theorem unlogged_next (s : RunState) (a : FeedAct) :
    (next iterate s a).map RunState.unlogged =
      (next iterate s.unlogged a).map RunState.unlogged := by
  unfold next
  by_cases hstopped : s.stopped = true
  · have hstopped' : s.unlogged.stopped = true := hstopped
    rw [if_pos hstopped, if_pos hstopped']
  · have hrunning : ¬ s.unlogged.stopped = true := hstopped
    rw [if_neg hstopped, if_neg hrunning]
    cases a with
    | resolved ec => exact unlogged_finish .resolve (blind_onResolve ec) s
    | connected ec sni => exact unlogged_finish .connect (blind_onConnect ec sni) s
    | sslHandshaken ec => exact unlogged_finish .sslHandshake (blind_onSslHandshake ec) s
    | wsHandshaken ec => exact unlogged_finish .wsHandshake (blind_onWsHandshake ec) s
    | read result => exact unlogged_finish .read (blind_onRead iterate result) s
    | written ec => exact unlogged_finish .write (blind_onWrite ec) s
    | control kind payload => exact unlogged_guarded (blind_emit _) s
    | expire =>
        refine unlogged_guarded (h := fun s => { s with timer := s.timer.expire }) (fun s => ?_) s
        simp [RunState.unlogged, RunOptions.unlogged]
    | waited moment =>
        have htaken : Blind fun s =>
            { s with timer := { s.timer with expired := s.timer.expired - 1 } } := fun s => by
          simp [RunState.unlogged, RunOptions.unlogged]
        exact unlogged_guarded ((blind_onWait moment).comp htaken) s
    | waitAborted =>
        refine unlogged_guarded (h := fun s =>
          { s with timer := { s.timer with aborted := s.timer.aborted - 1 } }) (fun s => ?_) s
        simp [RunState.unlogged, RunOptions.unlogged]
    | discarded op =>
        refine unlogged_guarded (h := fun s => { s with orphans := s.orphans.erase op })
          (fun s => ?_) s
        simp [RunState.unlogged, RunOptions.unlogged]

/-- The options with other flags. -/
def RunOptions.flagged (options : RunOptions) (includeRaw logRaw : Bool) : RunOptions :=
  { options with includeRawOnParseError := includeRaw, logRawMessages := logRaw }

/-- The flags about the log change nothing but the log. Whatever they are, the same runs are
possible, and what such a run captures, hands to the sink, sends, schedules and reports is
the same, in the same order. -/
theorem log_flags_only_log (iterate : ℕ → Bytes → Except SimdError Document)
    (options : RunOptions) (includeRaw logRaw : Bool) (acts : List FeedAct) :
    ((feed iterate (options.flagged includeRaw logRaw)).exec
        (feed iterate (options.flagged includeRaw logRaw)).start acts).map RunState.unlogged =
      ((feed iterate options).exec (feed iterate options).start acts).map RunState.unlogged := by
  refine Machine.exec_lockstep (fun {s t a} hst => ?_) ?_
  · calc (next iterate s a).map RunState.unlogged
        = (next iterate s.unlogged a).map RunState.unlogged := unlogged_next s a
      _ = (next iterate t.unlogged a).map RunState.unlogged := by rw [hst]
      _ = (next iterate t a).map RunState.unlogged := (unlogged_next t a).symm
  · have hinitial : (RunState.initial (options.flagged includeRaw logRaw)).unlogged =
        (RunState.initial options).unlogged := rfl
    calc (connectClient (.initial (options.flagged includeRaw logRaw))).unlogged
        = (connectClient
            (RunState.initial (options.flagged includeRaw logRaw)).unlogged).unlogged :=
          blind_connectClient _
      _ = (connectClient (RunState.initial options).unlogged).unlogged := by rw [hinitial]
      _ = (connectClient (.initial options)).unlogged := (blind_connectClient _).symm

end KalshiAutotrader.Md
