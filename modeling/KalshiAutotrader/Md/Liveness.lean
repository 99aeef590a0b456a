import KalshiAutotrader.Md.MessageFlow

/-!
The feed never dies silently.

`io_context::run` returns when the loop is stopped, or when nothing is
outstanding. The second cannot happen: every handler either starts the next
operation of its client or reports an error, and an error either arms the timer
or stops the loop.
-/

namespace KalshiAutotrader.Md

open Kit KalshiAutotrader.Core Logging Simdjson FeedHandler

variable {iterate : ℕ → Bytes → Except SimdError Document} {options : RunOptions}

/-- The current client is connecting or reading. -/
def RunState.Busy (s : RunState) : Prop := ∃ op ∈ s.inFlight, op ≠ .write

/-- The loop is stopped, or the client is at work, or a reconnect is due. -/
def RunState.Alive (s : RunState) : Prop :=
  s.stopped = true ∨ s.Busy ∨ s.timer.Pending

/-- `io_context::run` has nothing to wait for. -/
def RunState.OutOfWork (s : RunState) : Prop :=
  s.inFlight = [] ∧ s.orphans = [] ∧ s.timer.armed = false ∧ s.timer.expired = 0 ∧
    s.timer.aborted = 0

/-- `io_context::run` returns. -/
def RunState.Returns (s : RunState) : Prop := s.stopped = true ∨ s.OutOfWork

/-- After an error a reconnect is due or the loop is stopped. -/
theorem alive_fail (s : RunState) (err : WsError) (msg : Bytes) : (fail s err msg).Alive := by
  cases henabled : s.reconnect.enabled with
  | true => exact .inr (.inr (.inl (by simp [henabled])))
  | false => exact .inl (by simp [henabled])

theorem alive_connectClient (s : RunState) : (connectClient s).Alive := by
  rcases connectClient_cases s with ⟨url, -, heq⟩ | ⟨err, -, heq⟩ <;> rw [heq]
  · exact .inr (.inl ⟨.resolve, by simp [RunState.inFlight, WsClient.connectTo, WsClient.begin],
      by simp⟩)
  · exact alive_fail _ _ _

/-- An operation other than a write is followed by another one. -/
theorem alive_of_proceeds {op : Op} {s s' : RunState} (halive : s.Busy ∨ s.timer.Pending)
    (h : Proceeds op s s') : s'.Alive := by
  obtain ⟨ops, hflight, hops⟩ := h.inFlight
  rcases halive with ⟨op', hop', hne'⟩ | hpending
  -- a write leaves the other operation in place
  · by_cases hwrite : op = .write
    · refine .inr (.inl ⟨op', ?_, hne'⟩)
      rw [hflight]
      exact List.mem_append_left ops ((List.mem_erase_of_ne (hwrite ▸ hne')).mpr hop')
    · obtain ⟨next, hnext, hne⟩ := hops hwrite
      exact .inr (.inl ⟨next, by rw [hflight]; exact List.mem_append_right _ hnext, hne⟩)
  · exact .inr (.inr (h.timer ▸ hpending))

theorem alive_step {s s' : RunState} {a : FeedAct} (hs : s.Alive)
    (h : next iterate s a = some s') : s'.Alive := by
  obtain ⟨hstopped, hstep⟩ := step_of_next h
  have halive : s.Busy ∨ s.timer.Pending := by
    rcases hs with hstop | hrest
    · rw [hstopped] at hstop
      cases hstop
    · exact hrest
  cases hstep with
  | failed => exact alive_fail _ _ _
  | proceeded _ _ _ hproceeds => exact alive_of_proceeds halive hproceeds
  | received _ hproceeds => exact alive_of_proceeds halive hproceeds
  | controlled hop => exact .inr halive
  | expired => exact .inr (.inr (.inr (by simp)))
  | waited =>
      obtain ⟨headers, logs, heq, -⟩ := onWait_eq
        { s with timer := { s.timer with expired := s.timer.expired - 1 } } _
      rw [heq]
      exact alive_connectClient _
  | aborted => exact .inr halive
  | discarded => exact .inr halive

theorem alive_of_reachable {s : RunState} (h : (feed iterate options).Reachable s) : s.Alive :=
  h.invariant (alive_connectClient _) fun hs _ hnext => alive_step hs hnext

/-- A loop out of work is not alive, unless it is stopped. -/
theorem stopped_of_outOfWork {s : RunState} (halive : s.Alive) (h : s.OutOfWork) :
    s.stopped = true := by
  obtain ⟨hflight, -, harmed, hexpired, -⟩ := h
  rcases halive with hstopped | ⟨op, hop, -⟩ | hpending | hpending
  · exact hstopped
  · rw [hflight] at hop
    cases hop
  · rw [harmed] at hpending
    cases hpending
  · omega

/-- In every state of every run the loop is stopped, or the client is connecting or
reading, or a reconnect is due. A run that reconnects and has no limit never
returns. -/
theorem never_dies_silently (iterate : ℕ → Bytes → Except SimdError Document)
    (options : RunOptions) :
    (∀ s, (feed iterate options).Reachable s → s.Alive) ∧
    (options.autoReconnect = true → options.maxMessages = 0 →
      ∀ s, (feed iterate options).Reachable s → ¬ s.Returns) := by
  refine ⟨fun s h => alive_of_reachable h, fun hauto hlimit s h hreturns => ?_⟩
  have hstopped : s.stopped = true := by
    rcases hreturns with hstopped | hidle
    · exact hstopped
    · exact stopped_of_outOfWork (alive_of_reachable h) hidle
  obtain ⟨acts, hexec⟩ := Machine.exists_exec_of_reach h
  obtain ⟨-, hcounted⟩ := counted_of_exec hexec
  -- only a countdown or an error could have stopped the loop
  rcases hcounted.stopped.mp hstopped with ⟨hpos, -⟩ | ⟨hoff, -⟩
  · omega
  · rw [hauto] at hoff
    cases hoff

end KalshiAutotrader.Md
