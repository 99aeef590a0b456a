import KalshiAutotrader.Md.ClientSteps
import KalshiAutotrader.Md.Liveness

/-!
How a client uses its stream, and how a run gets back to serving.

A websocket stream allows one read and one write at a time, and neither before its
handshake. What a client has in flight is always one of a few lists, so it keeps to that.
The same lists say how far a client is, and from each of them it takes a handful of
successful completions to get to an open connection.
-/

namespace KalshiAutotrader.Md

open Kit KalshiAutotrader.Core Logging Simdjson FeedHandler

/-- The texts a client is sent when it opens. -/
def greeting (cmd : Bytes) : List Bytes := if cmd = [] then [] else [cmd]

theorem greeting_of_ne_nil {cmd : Bytes} (h : cmd ≠ []) : greeting cmd = [cmd] := if_neg h

/-- A client that is not open has at most one operation of connecting in flight, and has
sent and dispatched nothing; an open one has a read, a write, both or neither. -/
structure UsesStream (cmd : Bytes) (c : WsClient) : Prop where
  connecting : c.opened = false → c.sent = [] ∧ c.dispatched = 0 ∧
    (c.inFlight = [] ∨ ∃ op, c.inFlight = [op] ∧ op ≠ .read ∧ op ≠ .write)
  reading : c.opened = true →
    c.sent = greeting cmd ∧ c.inFlight ∈ [[.write, .read], [.read], [.write], []]

variable {iterate : ℕ → Bytes → Except SimdError Document} {options : RunOptions} {cmd : Bytes}
  {c c' : WsClient} {op : Op}

theorem usesStream_fresh (h : c.Fresh) : UsesStream cmd c := by
  cases h with
  | connecting => exact ⟨fun _ => ⟨rfl, rfl, .inr ⟨.resolve, rfl, by simp⟩⟩, fun h => by cases h⟩
  | rejected => exact ⟨fun _ => ⟨rfl, rfl, .inl rfl⟩, fun h => by cases h⟩

/-- The operations of an open client are reads and writes. -/
theorem UsesStream.data_of_open (h : UsesStream cmd c) (hopened : c.opened = true)
    (hop : op ∈ c.inFlight) : op = .read ∨ op = .write := by
  have hflight := (h.reading hopened).2
  simp only [List.mem_cons, List.not_mem_nil, or_false] at hflight
  rcases hflight with heq | heq | heq | heq <;> rw [heq] at hop <;> simp at hop <;> tauto

/-- An operation of connecting is alone in flight. -/
theorem UsesStream.alone (h : UsesStream cmd c) (hop : op ∈ c.inFlight) (hread : op ≠ .read)
    (hwrite : op ≠ .write) :
    c.opened = false ∧ c.inFlight = [op] ∧ c.sent = [] ∧ c.dispatched = 0 := by
  cases hopened : c.opened with
  | true => exact absurd (h.data_of_open hopened hop) (by simp [hread, hwrite])
  | false =>
      obtain ⟨hsent, hnone, hempty | ⟨op', hsingle, -⟩⟩ := h.connecting hopened
      · rw [hempty] at hop
        cases hop
      · rw [hsingle, List.mem_singleton] at hop
        exact ⟨rfl, hop ▸ hsingle, hsent, hnone⟩

/-- Only an open client reads or writes. -/
theorem UsesStream.open_of_mem (h : UsesStream cmd c) (hop : op ∈ c.inFlight)
    (hdata : op = .read ∨ op = .write) : c.opened = true := by
  by_contra hopened
  obtain ⟨-, -, hempty | ⟨op', hsingle, hread, hwrite⟩⟩ := h.connecting (by simpa using hopened)
  · rw [hempty] at hop
    cases hop
  · rw [hsingle, List.mem_singleton] at hop
    rcases hdata with rfl | rfl <;> simp_all

/-- An operation that completes leaves one of the other lists. -/
theorem UsesStream.erase (h : UsesStream cmd c) (hop : op ∈ c.inFlight)
    (hopened : c'.opened = c.opened) (hsent : c'.sent = c.sent)
    (hdispatched : c'.dispatched = c.dispatched)
    (hflight : c'.inFlight = c.inFlight.erase op) : UsesStream cmd c' := by
  refine ⟨fun hnot => ?_, fun hopen => ?_⟩
  · obtain ⟨hnothing, hnone, hempty | ⟨op', hsingle, -⟩⟩ :=
      h.connecting (hopened.symm.trans hnot)
    · rw [hempty] at hop
      cases hop
    · rw [hsingle, List.mem_singleton] at hop
      exact ⟨hsent.trans hnothing, hdispatched.trans hnone,
        .inl (by simp [hflight, hsingle, hop])⟩
  · obtain ⟨hgreeted, hlist⟩ := h.reading (hopened.symm.trans hopen)
    refine ⟨hsent.trans hgreeted, ?_⟩
    simp only [List.mem_cons, List.not_mem_nil, or_false] at hlist
    rw [hflight]
    rcases hlist with heq | heq | heq | heq <;> rw [heq] at hop ⊢ <;> simp at hop
    · rcases hop with rfl | rfl <;> decide
    · subst hop
      decide
    · subst hop
      decide

/-- One step of connecting follows another. -/
theorem UsesStream.next {after : Op} (h : UsesStream cmd c) (hop : op ∈ c.inFlight)
    (hdata : op ≠ .read ∧ op ≠ .write) (hafter : after ≠ .read ∧ after ≠ .write)
    (hopened : c'.opened = c.opened) (hsent : c'.sent = c.sent)
    (hdispatched : c'.dispatched = c.dispatched)
    (hflight : c'.inFlight = c.inFlight.erase op ++ [after]) : UsesStream cmd c' := by
  obtain ⟨hnot, hsingle, hnothing, hnone⟩ := h.alone hop hdata.1 hdata.2
  refine ⟨fun _ => ⟨hsent.trans hnothing, hdispatched.trans hnone, .inr ⟨after, ?_, hafter⟩⟩,
    fun hopen => ?_⟩
  · simp [hflight, hsingle]
  · rw [hopened, hnot] at hopen
    cases hopen

theorem usesStream_advance {a : FeedAct} (hadvances : c.Advances a c') (h : UsesStream cmd c) :
    UsesStream cmd c' := by
  cases hadvances with
  | resolved hop => exact h.next hop (by simp) (by simp) rfl rfl rfl rfl
  | connected hop => exact h.next hop (by simp) (by simp) rfl rfl rfl rfl
  | sslHandshaken hop => exact h.next hop (by simp) (by simp) rfl rfl rfl rfl
  | received closed hop =>
      have hopened := h.open_of_mem hop (.inl rfl)
      obtain ⟨hsent, hlist⟩ := h.reading hopened
      refine ⟨fun hnot => absurd (hnot.symm.trans hopened) Bool.false_ne_true, fun _ => ⟨hsent, ?_⟩⟩
      simp only [List.mem_cons, List.not_mem_nil, or_false] at hlist
      simp only [WsClient.begin, WsClient.finish]
      rcases hlist with heq | heq | heq | heq <;> rw [heq] at hop ⊢ <;> simp at hop <;> decide
  | written hop => exact h.erase hop rfl rfl rfl rfl

theorem usesStream_open (hop : .wsHandshake ∈ c.inFlight) (h : UsesStream cmd c) :
    UsesStream cmd (c.openedWith cmd) := by
  obtain ⟨-, hsingle, hsent, -⟩ := h.alone hop (by simp) (by simp)
  by_cases hcmd : cmd = []
  · refine ⟨fun hnot => ?_, fun _ => ?_⟩ <;>
      simp_all [WsClient.openedWith, WsClient.begin, WsClient.finish, greeting]
  · refine ⟨fun hnot => ?_, fun _ => ?_⟩ <;>
      simp_all [WsClient.openedWith, WsClient.begin, WsClient.finish, WsClient.sendText, greeting]

theorem usesStream_of_reachable {s : RunState} (h : (feed iterate options).Reachable s) :
    ∃ c, s.client = some c ∧ UsesStream options.subscribeCmd c :=
  client_invariant (fun hfresh => usesStream_fresh hfresh.fresh)
    (fun hop hc => hc.erase hop rfl rfl rfl rfl) usesStream_advance
    (fun _ hop hc => usesStream_open hop hc) h

/-- What is in flight belongs to a client that keeps to its stream. -/
theorem usesStream_of_mem {s : RunState} (h : (feed iterate options).Reachable s)
    (hop : op ∈ s.inFlight) :
    ∃ c, s.client = some c ∧ op ∈ c.inFlight ∧ UsesStream options.subscribeCmd c := by
  obtain ⟨c, hc, huses⟩ := usesStream_of_reachable h
  exact ⟨c, hc, by simpa [RunState.inFlight, hc] using hop, huses⟩

/-- Every client of every run keeps to what a websocket stream allows: no operation is
started while one of its kind is in flight, before the handshake is through there is one
operation at a time and neither a read nor a write among them, and after it nothing but
reads and writes. -/
theorem stream_used_correctly (iterate : ℕ → Bytes → Except SimdError Document)
    (options : RunOptions) (s : RunState) (h : (feed iterate options).Reachable s) :
    ∃ c, s.client = some c ∧ c.inFlight.Nodup ∧
      (c.opened = false → c.sent = [] ∧ c.inFlight.length ≤ 1 ∧
        ∀ op ∈ c.inFlight, op ≠ .read ∧ op ≠ .write) ∧
      (c.opened = true → ∀ op ∈ c.inFlight, op = .read ∨ op = .write) := by
  obtain ⟨c, hc, huses⟩ := usesStream_of_reachable h
  refine ⟨c, hc, ?_, fun hopened => ?_, fun hopened op => huses.data_of_open hopened⟩
  · cases hopened : c.opened with
    | true =>
        have hlist := (huses.reading hopened).2
        simp only [List.mem_cons, List.not_mem_nil, or_false] at hlist
        rcases hlist with heq | heq | heq | heq <;> rw [heq] <;> decide
    | false =>
        obtain ⟨-, -, hempty | ⟨op, hsingle, -⟩⟩ := huses.connecting hopened
        · simp [hempty]
        · simp [hsingle]
  · obtain ⟨hsent, -, hempty | ⟨op, hsingle, hop⟩⟩ := huses.connecting hopened
    · simp [hsent, hempty]
    · simpa [hsent, hsingle] using hop

/-- A connection that is lost after it has opened. -/
def lostConnection : List FeedAct := opening ++ [.read (.error (ascii "reset"))]

theorem exec_lostConnection :
    ∃ s, (feed eager localOptions).exec (feed eager localOptions).start lostConnection = some s ∧
      s.stopped = false := by
  obtain ⟨s, hexec, hrunning⟩ := Option.map_eq_some_iff.mp
    (show ((feed eager localOptions).exec (feed eager localOptions).start lostConnection).map
      RunState.stopped = some false by decide +kernel)
  exact ⟨s, hexec, hrunning⟩

theorem stream_used_correctly_lostConnection :
    ∃ s, (feed eager localOptions).exec (feed eager localOptions).start lostConnection = some s ∧
      ∃ c, s.client = some c ∧ c.inFlight.Nodup := by
  obtain ⟨s, hexec, -⟩ := exec_lostConnection
  obtain ⟨c, hc, hnodup, -⟩ :=
    stream_used_correctly eager localOptions s (Machine.reachable_of_exec hexec)
  exact ⟨s, hexec, c, hc, hnodup⟩

/-! ### Getting back to an open connection -/

/-- The loop runs, and the current client is at this operation of connecting. -/
structure AtOp (cmd : Bytes) (op : Op) (s : RunState) : Prop where
  running : s.stopped = false
  command : s.options.subscribeCmd = cmd
  client : ∃ c, s.client = some c ∧ c.inFlight = [op] ∧ c.opened = false ∧ c.sent = []

/-- The current client is open, has been sent the command, and reads. -/
structure Serving (cmd : Bytes) (s : RunState) : Prop where
  running : s.stopped = false
  client : ∃ c, s.client = some c ∧ c.opened = true ∧ c.sent = greeting cmd ∧ .read ∈ c.inFlight

variable {s : RunState}

/-- What is in flight completes. -/
theorem exists_finish (h : AtOp cmd op s) :
    ∃ s₁ c, s.finish op = some s₁ ∧ s₁.stopped = false ∧ s₁.options.subscribeCmd = cmd ∧
      s₁.client = some c ∧ c.inFlight = [] ∧ c.opened = false ∧ c.sent = [] := by
  obtain ⟨c, hc, hflight, hopened, hsent⟩ := h.client
  have hop : op ∈ s.inFlight := by simp [RunState.inFlight, hc, hflight]
  refine ⟨s.updateClient (·.finish op), c.finish op, if_pos hop, h.running, h.command, ?_, ?_,
    hopened, hsent⟩
  · simp [RunState.updateClient, hc]
  · simp [WsClient.finish, hflight]

theorem exists_resolved (iterate : ℕ → Bytes → Except SimdError Document)
    (h : AtOp cmd .resolve s) :
    ∃ s', next iterate s (.resolved none) = some s' ∧ AtOp cmd .connect s' := by
  obtain ⟨s₁, c, hfinish, hrunning, hcommand, hc, hflight, hopened, hsent⟩ := exists_finish h
  refine ⟨onResolve s₁ none, by simp [next, h.running, hfinish], hrunning, hcommand, ?_⟩
  simp [onResolve, RunState.updateClient, hc, WsClient.begin, hflight, hopened, hsent]

theorem exists_connected (iterate : ℕ → Bytes → Except SimdError Document)
    (h : AtOp cmd .connect s) :
    ∃ s', next iterate s (.connected none none) = some s' ∧ AtOp cmd .sslHandshake s' := by
  obtain ⟨s₁, c, hfinish, hrunning, hcommand, hc, hflight, hopened, hsent⟩ := exists_finish h
  refine ⟨onConnect s₁ none none, by simp [next, h.running, hfinish], hrunning, hcommand, ?_⟩
  simp [onConnect, RunState.updateClient, hc, WsClient.begin, hflight, hopened, hsent]

theorem exists_sslHandshaken (iterate : ℕ → Bytes → Except SimdError Document)
    (h : AtOp cmd .sslHandshake s) :
    ∃ s', next iterate s (.sslHandshaken none) = some s' ∧ AtOp cmd .wsHandshake s' := by
  obtain ⟨s₁, c, hfinish, hrunning, hcommand, hc, hflight, hopened, hsent⟩ := exists_finish h
  refine ⟨onSslHandshake s₁ none, by simp [next, h.running, hfinish], hrunning, hcommand, ?_⟩
  simp [onSslHandshake, RunState.updateClient, hc, WsClient.begin, hflight, hopened, hsent]

theorem exists_wsHandshaken (iterate : ℕ → Bytes → Except SimdError Document)
    (h : AtOp cmd .wsHandshake s) :
    ∃ s', next iterate s (.wsHandshaken none) = some s' ∧ Serving cmd s' := by
  obtain ⟨s₁, c, hfinish, hrunning, hcommand, hc, hflight, hopened, hsent⟩ := exists_finish h
  refine ⟨onWsHandshake s₁ none, by simp [next, h.running, hfinish], ?_⟩
  rw [onWsHandshake_eq]
  refine ⟨hrunning, ?_⟩
  by_cases hcmd : cmd = [] <;>
    simp [RunState.updateClient, hc, hcommand, hcmd, hsent, greeting, WsClient.begin,
      WsClient.sendText]

/-- The completions from an operation of connecting on. -/
def openingFrom : Op → List FeedAct
  | .resolve => opening
  | .connect => opening.drop 1
  | .sslHandshake => opening.drop 2
  | .wsHandshake => opening.drop 3
  | .read | .write => []

/-- From an operation of connecting, the completions that are left open the connection. -/
theorem exec_openingFrom (iterate : ℕ → Bytes → Except SimdError Document)
    (options : RunOptions) (h : AtOp cmd op s) (hread : op ≠ .read) (hwrite : op ≠ .write) :
    ∃ s', (feed iterate options).exec s (openingFrom op) = some s' ∧ Serving cmd s' := by
  have hwsHandshake (s : RunState) (h : AtOp cmd .wsHandshake s) :
      ∃ s', (feed iterate options).exec s (openingFrom .wsHandshake) = some s' ∧
        Serving cmd s' := by
    obtain ⟨s', hnext, hserving⟩ := exists_wsHandshaken iterate h
    exact ⟨s', Machine.exec_cons_eq_some.mpr ⟨s', hnext, rfl⟩, hserving⟩
  have hsslHandshake (s : RunState) (h : AtOp cmd .sslHandshake s) :
      ∃ s', (feed iterate options).exec s (openingFrom .sslHandshake) = some s' ∧
        Serving cmd s' := by
    obtain ⟨m, hnext, hm⟩ := exists_sslHandshaken iterate h
    obtain ⟨s', hexec, hserving⟩ := hwsHandshake m hm
    exact ⟨s', Machine.exec_cons_eq_some.mpr ⟨m, hnext, hexec⟩, hserving⟩
  have hconnect (s : RunState) (h : AtOp cmd .connect s) :
      ∃ s', (feed iterate options).exec s (openingFrom .connect) = some s' ∧ Serving cmd s' := by
    obtain ⟨m, hnext, hm⟩ := exists_connected iterate h
    obtain ⟨s', hexec, hserving⟩ := hsslHandshake m hm
    exact ⟨s', Machine.exec_cons_eq_some.mpr ⟨m, hnext, hexec⟩, hserving⟩
  cases op with
  | resolve =>
      obtain ⟨m, hnext, hm⟩ := exists_resolved iterate h
      obtain ⟨s', hexec, hserving⟩ := hconnect m hm
      exact ⟨s', Machine.exec_cons_eq_some.mpr ⟨m, hnext, hexec⟩, hserving⟩
  | connect => exact hconnect s h
  | sslHandshake => exact hsslHandshake s h
  | wsHandshake => exact hwsHandshake s h
  | read => exact absurd rfl hread
  | write => exact absurd rfl hwrite

/-- The handler of an expired wait starts over. -/
theorem exists_waited (iterate : ℕ → Bytes → Except SimdError Document) {url : WsUrl}
    (hurl : parseWsUrl s.options.wsUrl = .ok url) (hrunning : s.stopped = false)
    (hexpired : 0 < s.timer.expired) (moment : Moment) :
    ∃ s', next iterate s (.waited moment) = some s' ∧
      AtOp s.options.subscribeCmd .resolve s' := by
  let taken : RunState := { s with timer := { s.timer with expired := s.timer.expired - 1 } }
  have hnext : next iterate s (.waited moment) = some (onWait taken moment) := by
    rw [next, if_neg (by simp [hrunning])]
    exact if_pos hexpired
  obtain ⟨headers, logs, heq, -⟩ := onWait_eq taken moment
  refine ⟨_, hnext, ?_⟩
  rw [heq]
  rcases connectClient_cases { taken with
      options := { taken.options with headers := headers },
      trace := taken.trace ++ logs } with ⟨url', -, hconnect⟩ | ⟨err, herr, -⟩
  · rw [hconnect]
    exact ⟨hrunning, rfl, _, rfl, rfl, rfl, rfl⟩
  · exact absurd (hurl.symm.trans herr) (by simp)

/-- No state of a run is a dead end. From wherever it gets to, as long as the loop is
not stopped, at most six completions bring a run of a valid URL to a connection that is
open, has been sent the command, and reads. -/
theorem recovers_from_anywhere (iterate : ℕ → Bytes → Except SimdError Document)
    (options : RunOptions) (url : WsUrl) (hurl : parseWsUrl options.wsUrl = .ok url)
    (s : RunState) (h : (feed iterate options).Reachable s) (hrunning : s.stopped = false) :
    ∃ acts s', (feed iterate options).exec s acts = some s' ∧ acts.length ≤ 6 ∧
      Serving options.subscribeCmd s' := by
  obtain ⟨headers, hoptions⟩ := (runsWith_of_reachable h).configured
  have hcommand : s.options.subscribeCmd = options.subscribeCmd := by rw [hoptions]
  have hsurl : parseWsUrl s.options.wsUrl = .ok url := by rw [hoptions]; exact hurl
  -- a wait that has expired starts a new client
  have hexpired (s : RunState) (hcommand : s.options.subscribeCmd = options.subscribeCmd)
      (hsurl : parseWsUrl s.options.wsUrl = .ok url) (hrunning : s.stopped = false)
      (hpos : 0 < s.timer.expired) :
      ∃ s', (feed iterate options).exec s (.waited ⟨0, 0⟩ :: openingFrom .resolve) = some s' ∧
        Serving options.subscribeCmd s' := by
    obtain ⟨m, hnext, hm⟩ := exists_waited iterate hsurl hrunning hpos ⟨0, 0⟩
    rw [hcommand] at hm
    obtain ⟨s', hexec, hserving⟩ := exec_openingFrom iterate options hm (by simp) (by simp)
    exact ⟨s', Machine.exec_cons_eq_some.mpr ⟨m, hnext, hexec⟩, hserving⟩
  rcases alive_of_reachable h with hstopped | ⟨op, hop, hwrite⟩ | harmed | hpos
  · rw [hrunning] at hstopped
    cases hstopped
  · obtain ⟨c, hc, hopc, huses⟩ := usesStream_of_mem h hop
    by_cases hread : op = .read
    · subst hread
      have hopened := huses.open_of_mem hopc (.inl rfl)
      exact ⟨[], s, rfl, by simp, hrunning, c, hc, hopened, (huses.reading hopened).1, hopc⟩
    · obtain ⟨hopened, hsingle, hsent, -⟩ := huses.alone hopc hread hwrite
      obtain ⟨s', hexec, hserving⟩ := exec_openingFrom iterate options
        ⟨hrunning, hcommand, c, hc, hsingle, hopened, hsent⟩ hread hwrite
      refine ⟨_, s', hexec, ?_, hserving⟩
      cases op <;> decide
  · let m : RunState := { s with timer := s.timer.expire }
    have hnext : (feed iterate options).next s .expire = some m := by
      simp [feed, next, hrunning, harmed, m]
    obtain ⟨s', hexec, hserving⟩ := hexpired m hcommand hsurl hrunning (by simp [m])
    exact ⟨.expire :: .waited ⟨0, 0⟩ :: openingFrom .resolve, s',
      Machine.exec_cons_eq_some.mpr ⟨m, hnext, hexec⟩, by decide, hserving⟩
  · obtain ⟨s', hexec, hserving⟩ := hexpired s hcommand hsurl hrunning hpos
    exact ⟨_, s', hexec, by decide, hserving⟩

theorem recovers_from_lostConnection :
    ∃ s, (feed eager localOptions).exec (feed eager localOptions).start lostConnection = some s ∧
      ∃ acts s', (feed eager localOptions).exec s acts = some s' ∧ acts.length ≤ 6 ∧
        Serving localOptions.subscribeCmd s' := by
  obtain ⟨s, hexec, hrunning⟩ := exec_lostConnection
  exact ⟨s, hexec, recovers_from_anywhere eager localOptions
    ⟨ascii "localhost", ascii "443", ascii "/"⟩ (by decide) s (Machine.reachable_of_exec hexec)
    hrunning⟩

end KalshiAutotrader.Md
