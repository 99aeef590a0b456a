import KalshiAutotrader.Md.ClientSteps

/-!
The deadline of the connect phase.

`on_resolve` sets a deadline on the lowest layer, and no handler after it sets
another one or clears it. Whatever a connected client has in flight, it has it under
`CONNECT_TIMEOUT`: the handshakes, and after them every read and write.
-/

namespace KalshiAutotrader.Md

open Kit KalshiAutotrader.Core Logging Simdjson FeedHandler

variable {iterate : ℕ → Bytes → Except SimdError Document} {options : RunOptions}

/-- On an open connection no deadline of the lowest layer is armed. -/
def DeadlineCleared (s : RunState) : Prop := ∀ c ∈ s.client, c.opened = true → c.deadline = none

instance (s : RunState) : Decidable (DeadlineCleared s) :=
  inferInstanceAs (Decidable (∀ c ∈ s.client, _ → _))

/-- No step of the run completes a websocket handshake. -/
def NeverOpens (_ : RunState) (a : FeedAct) : Prop := a ≠ .wsHandshaken none

/-- Every operation after the resolve runs under the deadline. -/
structure Timed (c : WsClient) : Prop where
  inFlight : ∀ op ∈ c.inFlight, op ≠ .resolve → c.deadline = some connectTimeout
  opened : c.opened = true → c.deadline = some connectTimeout

variable {c c' : WsClient} {op : Op}

theorem timed_fresh (h : c.Fresh) : Timed c := by
  cases h with
  | connecting =>
      refine ⟨fun op hop hne => ?_, (fun h => by cases h)⟩
      obtain rfl : op = .resolve := List.mem_singleton.mp hop
      exact absurd rfl hne
  | rejected => exact ⟨(fun op hop => by cases hop), (fun h => by cases h)⟩

theorem timed_fail {err : WsError} (h : Timed c) : Timed ((c.finish op).report err) :=
  ⟨fun op' hop' => h.inFlight op' (List.mem_of_mem_erase hop'), h.opened⟩

theorem timed_advance {a : FeedAct} (hadvances : c.Advances a c') (h : Timed c) : Timed c' := by
  cases hadvances with
  | resolved => exact ⟨fun _ _ _ => rfl, fun _ => rfl⟩
  | connected hop | sslHandshaken hop | received _ hop | written hop =>
      have hset := h.inFlight _ hop (by simp)
      exact ⟨fun _ _ _ => hset, fun _ => hset⟩

theorem openedWith_deadline (c : WsClient) (cmd : Bytes) :
    (c.openedWith cmd).deadline = c.deadline := by
  unfold WsClient.openedWith
  split <;> rfl

theorem openedWith_opened (c : WsClient) (cmd : Bytes) : (c.openedWith cmd).opened = true := by
  unfold WsClient.openedWith
  split <;> rfl

theorem read_mem_openedWith (c : WsClient) (cmd : Bytes) :
    .read ∈ (c.openedWith cmd).inFlight := by
  simp [WsClient.openedWith, WsClient.begin]

theorem timed_open {cmd : Bytes} (hop : .wsHandshake ∈ c.inFlight) (h : Timed c) :
    Timed (c.openedWith cmd) := by
  have hset := (openedWith_deadline c cmd).trans (h.inFlight _ hop (by simp))
  exact ⟨fun _ _ _ => hset, fun _ => hset⟩

theorem timed_of_reachable {s : RunState} (h : (feed iterate options).Reachable s) :
    ∃ c, s.client = some c ∧ Timed c :=
  client_invariant (fun hfresh => timed_fresh hfresh.fresh) (fun _ => timed_fail) timed_advance
    (fun _ hop hc => timed_open hop hc) h

/-- Without a websocket handshake no client is open. -/
theorem unopened_of_reach {s : RunState} (h : (feed iterate options).Reach NeverOpens s) :
    ∃ c, s.client = some c ∧ c.opened = false := by
  refine client_invariant (I := fun c => c.opened = false) (fun hfresh => ?_) (fun _ hc => hc)
    (fun hadvances hc => ?_) (fun hnever => absurd rfl hnever) h
  · cases hfresh <;> rfl
  · cases hadvances <;> exact hc

/-- No deadline of the connect phase is armed on an open connection of a run in which
no websocket handshake succeeds. Wherever one does, the connection is read under
`CONNECT_TIMEOUT`. -/
theorem deadline_cleared (iterate : ℕ → Bytes → Except SimdError Document)
    (options : RunOptions) :
    (∀ s, (feed iterate options).Reach NeverOpens s → DeadlineCleared s) ∧
    ∀ s a s', (feed iterate options).Reachable s → (feed iterate options).next s a = some s' →
      ¬ NeverOpens s a →
      ∃ c, s'.client = some c ∧ c.opened = true ∧ .read ∈ c.inFlight ∧
        c.deadline = some connectTimeout ∧ ¬ DeadlineCleared s' := by
  refine ⟨fun s h c hc hopened => ?_, fun s a s' h hnext hopens => ?_⟩
  · obtain ⟨c', hc', hnot⟩ := unopened_of_reach h
    obtain rfl := Option.some.inj (hc'.symm.trans hc)
    rw [hnot] at hopened
    cases hopened
  · obtain rfl : a = .wsHandshaken none := Classical.not_not.mp hopens
    obtain ⟨c, hc, htimed⟩ := timed_of_reachable (.step h trivial hnext)
    have hnext' : next iterate s (.wsHandshaken none) = some s' := hnext
    have hopen : ∃ c₀ cmd, s'.client = some (WsClient.openedWith c₀ cmd) := by
      cases effect_of_next hnext' with
      | failed houtcome => simp [FeedAct.outcome] at houtcome
      | advanced _ hadvances => cases hadvances
      | opened _ _ hc' => exact ⟨_, _, hc'⟩
      | other houtcome => cases houtcome
    obtain ⟨c₀, cmd, hc₀⟩ := hopen
    obtain rfl := Option.some.inj (hc.symm.trans hc₀)
    have hset := htimed.opened (openedWith_opened c₀ cmd)
    refine ⟨_, hc, openedWith_opened c₀ cmd, read_mem_openedWith c₀ cmd, hset, fun hcleared => ?_⟩
    have hnone := hcleared _ hc (openedWith_opened c₀ cmd)
    rw [hset] at hnone
    cases hnone

/-- The first connection of a run is read under the deadline it was connected under. -/
theorem opening_deadline :
    ((feed eager localOptions).exec (feed eager localOptions).start opening).map
        (fun s => s.client.map fun c => (c.opened, c.inFlight, c.deadline)) =
      some (some (true, [.write, .read], some connectTimeout)) ∧
    ((feed eager localOptions).exec (feed eager localOptions).start opening).map
        (fun s => decide (DeadlineCleared s)) = some false := by
  exact ⟨by decide +kernel, by decide +kernel⟩

end KalshiAutotrader.Md
