import KalshiAutotrader.Md.StreamUse

/-!
Each client subscribes once.

The command goes out in the step that completes the websocket handshake, before the
first read is started. A client uses its stream for one operation at a time until then,
and only for reads and writes from then on, so there is no second handshake and no
message without a command before it.
-/

namespace KalshiAutotrader.Md

open Kit KalshiAutotrader.Core Logging Simdjson FeedHandler

variable {iterate : ℕ → Bytes → Except SimdError Document} {options : RunOptions}

/-- What the current client has been sent. -/
def RunState.sent (s : RunState) : List Bytes := (s.client.map WsClient.sent).getD []

variable {cmd : Bytes} {c : WsClient}

theorem openedWith_eq (hcmd : cmd ≠ []) : c.openedWith cmd =
    { c.finish .wsHandshake with
      opened := true
      sent := c.sent ++ [cmd]
      inFlight := c.inFlight.erase .wsHandshake ++ [.write] ++ [.read] } := by
  simp [WsClient.openedWith, hcmd, WsClient.sendText, WsClient.begin, WsClient.finish]

/-! ### One step -/

theorem sent_of_client {s : RunState} (h : s.client = some c) : s.sent = c.sent := by
  simp [RunState.sent, h]

theorem sent_onWait (s : RunState) (moment : Moment) : (onWait s moment).sent = [] := by
  obtain ⟨c, hc, hfresh⟩ := fresh_onWait s moment
  rw [sent_of_client hc]
  cases hfresh <;> rfl

/-- What a step sends, and to whom. -/
theorem sent_of_next {s s' : RunState} {a : FeedAct} (hcmd : s.options.subscribeCmd ≠ [])
    (h : next iterate s a = some s') :
    (a = .wsHandshaken none ∧ .wsHandshake ∈ s.inFlight ∧
        s'.sent = s.sent ++ [s.options.subscribeCmd]) ∨
      (∃ moment, a = .waited moment ∧ s'.sent = []) ∨
      (a ≠ .wsHandshaken none ∧ (∀ moment, a ≠ .waited moment) ∧ s'.sent = s.sent) := by
  cases effect_of_next h with
  | failed houtcome hop =>
      obtain ⟨c, hc, -⟩ := exists_client_of_mem hop
      refine .inr (.inr ⟨?_, ?_, ?_⟩)
      · rintro rfl
        simp [FeedAct.outcome] at houtcome
      · rintro moment rfl
        cases houtcome
      · simp [RunState.sent, RunState.updateClient, hc, WsClient.report, WsClient.finish]
  | advanced hc hadvances hc' =>
      rw [sent_of_client hc, sent_of_client hc']
      refine .inr (.inr ?_)
      cases hadvances <;> exact ⟨by simp, by simp, rfl⟩
  | opened hc hop hc' =>
      rw [sent_of_client hc, sent_of_client hc', openedWith_eq hcmd]
      exact .inl ⟨rfl, by simpa [RunState.inFlight, hc] using hop, rfl⟩
  | waited => exact .inr (.inl ⟨_, rfl, sent_onWait _ _⟩)
  | other houtcome hwaited hc =>
      refine .inr (.inr ⟨?_, hwaited, by rw [RunState.sent, hc, RunState.sent]⟩)
      rintro rfl
      cases houtcome

theorem mem_of_read {s s' : RunState} {msg : Bytes}
    (h : next iterate s (.read (.ok msg)) = some s') : .read ∈ s.inFlight := by
  unfold next at h
  split at h
  · cases h
  · exact (finish_map_eq_some.mp h).1

/-- In every run of a handler with a subscribe command, whatever comes in which order,
each client is sent the command once, when it is open, and nothing before. The step
that sends it completes a websocket handshake, of the client that is sent the command.
A step that dispatches a message finds the command sent. -/
theorem subscribes_once (iterate : ℕ → Bytes → Except SimdError Document) (options : RunOptions)
    (hcmd : options.subscribeCmd ≠ []) :
    (∀ s, (feed iterate options).Reachable s → ∃ c, s.client = some c ∧
      c.sent = (if c.opened then [options.subscribeCmd] else []) ∧
      (0 < c.dispatched → c.sent = [options.subscribeCmd])) ∧
    (∀ s a s', (feed iterate options).Reachable s → (feed iterate options).next s a = some s' →
      (a = .wsHandshaken none ∧ .wsHandshake ∈ s.inFlight ∧ s.sent = [] ∧
          s'.sent = [options.subscribeCmd]) ∨
        (∃ moment, a = .waited moment ∧ s'.sent = []) ∨
        (a ≠ .wsHandshaken none ∧ (∀ moment, a ≠ .waited moment) ∧ s'.sent = s.sent)) ∧
    ∀ s msg s', (feed iterate options).Reachable s →
      (feed iterate options).next s (.read (.ok msg)) = some s' →
      s.sent = [options.subscribeCmd] := by
  refine ⟨fun s h => ?_, fun s a s' h hnext => ?_, fun s msg s' h hnext => ?_⟩
  · obtain ⟨c, hc, huses⟩ := usesStream_of_reachable h
    refine ⟨c, hc, ?_⟩
    cases hopened : c.opened with
    | true =>
        have hsent := (huses.reading hopened).1
        rw [greeting_of_ne_nil hcmd] at hsent
        exact ⟨hsent, fun _ => hsent⟩
    | false =>
        obtain ⟨hsent, hnone, -⟩ := huses.connecting hopened
        exact ⟨hsent, fun hsome => absurd hsome (by omega)⟩
  · obtain ⟨headers, hoptions⟩ := (runsWith_of_reachable h).configured
    have hsame : s.options.subscribeCmd = options.subscribeCmd := by rw [hoptions]
    rcases sent_of_next (hsame ▸ hcmd) hnext with ⟨rfl, hop, hsent⟩ | hrest
    · obtain ⟨c, hc, hopc, huses⟩ := usesStream_of_mem h hop
      obtain ⟨-, -, hnothing, -⟩ := huses.alone hopc (by simp) (by simp)
      rw [← sent_of_client hc] at hnothing
      refine .inl ⟨rfl, hop, hnothing, ?_⟩
      rw [hsent, hnothing, hsame]
      rfl
    · exact .inr hrest
  · obtain ⟨c, hc, hop, huses⟩ := usesStream_of_mem h (mem_of_read hnext)
    rw [sent_of_client hc, ← greeting_of_ne_nil hcmd]
    exact (huses.reading (huses.open_of_mem hop (.inl rfl))).1

/-- Two connections of one run, the first one lost after a message. -/
theorem subscribes_once_local :
    ∃ s, (feed eager localOptions).exec (feed eager localOptions).start
        (opening ++ [.read (.ok []), .read (.error (ascii "reset")), .expire, .waited ⟨0, 0⟩] ++
          opening) = some s ∧
      ∃ c, s.client = some c ∧
        c.sent = (if c.opened then [localOptions.subscribeCmd] else []) ∧
        (0 < c.dispatched → c.sent = [localOptions.subscribeCmd]) := by
  obtain ⟨s, hexec⟩ := Option.isSome_iff_exists.mp
    (show ((feed eager localOptions).exec (feed eager localOptions).start
      (opening ++ [.read (.ok []), .read (.error (ascii "reset")), .expire, .waited ⟨0, 0⟩] ++
        opening)).isSome = true by decide +kernel)
  exact ⟨s, hexec, (subscribes_once eager localOptions (by decide)).1 s
    (Machine.reachable_of_exec hexec)⟩

end KalshiAutotrader.Md
