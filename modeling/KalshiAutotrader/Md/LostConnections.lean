import KalshiAutotrader.Md.Retries

/-!
What a lost connection costs.

Every error of a connection asks for the next delay. A read and a write that fail
one after the other are one lost connection and two steps of the back-off. The
delays keep step with the clients that fail exactly as long as no error comes while
a reconnect is due already.
-/

namespace KalshiAutotrader.Md

open Kit KalshiAutotrader.Core Logging Simdjson FeedHandler

variable {iterate : ℕ → Bytes → Except SimdError Document} {options : RunOptions}
  {s s' : RunState} {a : FeedAct}

/-! ### The tally of a run -/

/-- Whether the current client has failed, as a number. -/
def RunState.lost (s : RunState) : ℕ := if s.reported = [] then 0 else 1

/-- History: how many clients have failed since the last open, and how many delays
the current one has asked for. -/
structure Tally where
  failed : ℕ
  asked : ℕ
  deriving DecidableEq

/-- A new client is counted as failed if it has reported an error already. -/
def Tally.replaced (failed : ℕ) (s s' : RunState) : Tally where
  failed := failed + s'.lost
  asked := s'.delays.length - s.delays.length

def Tally.update (t : Tally) (s : RunState) (a : FeedAct) (s' : RunState) : Tally :=
  match a with
  | .waited _ => .replaced t.failed s s'
  | .wsHandshaken none => { t with failed := 0 }
  | _ =>
      { failed := t.failed + (s'.lost - s.lost)
        asked := t.asked + (s'.delays.length - s.delays.length) }

/-- The event loop with its tally. -/
def tallied (iterate : ℕ → Bytes → Except SimdError Document) (options : RunOptions) :
    Machine (RunState × Tally) FeedAct :=
  (feed iterate options).withHistory (.replaced 0 (.initial options) (feed iterate options).start)
    Tally.update

/-- One lost connection, one step of the back-off: no client asks for a second delay,
and the delays scheduled since the last open are the first ones of the back-off, one
for each client that has failed. -/
structure OneStepEach (backoff : ReconnectState) (p : RunState × Tally) : Prop where
  asked : p.2.asked ≤ 1
  delays : p.1.delays = (List.range p.2.failed).map backoff.delay

instance (backoff : ReconnectState) (p : RunState × Tally) : Decidable (OneStepEach backoff p) :=
  decidable_of_iff (p.2.asked ≤ 1 ∧ p.1.delays = (List.range p.2.failed).map backoff.delay)
    ⟨fun h => ⟨h.1, h.2⟩, fun h => ⟨h.asked, h.delays⟩⟩

/-- No operation fails while a reconnect is due. -/
def NoErrorWhileDue (s : RunState) (a : FeedAct) : Prop := ∀ op ∈ a.failing, ¬ s.timer.Pending

instance (s : RunState) (a : FeedAct) : Decidable (NoErrorWhileDue s a) :=
  inferInstanceAs (Decidable (∀ op ∈ a.failing, _))

/-! ### One step -/

/-- What a step does to the errors of the current client, the timer and the delays. -/
inductive Toll (s : RunState) : FeedAct → RunState → Prop
  | failed {a : FeedAct} {op : Op} (err : WsError) (msg : Bytes) (hfailing : a.failing = some op)
      (hop : op ∈ s.inFlight) : Toll s a (fail (s.updateClient (·.finish op)) err msg)
  | opened {s' : RunState} (hreported : s'.reported = s.reported) (htimer : s'.timer = s.timer)
      (hdelays : s'.delays = []) : Toll s (.wsHandshaken none) s'
  | waited {moment : Moment} (hexpired : 0 < s.timer.expired) :
      Toll s (.waited moment) (onWait
        { s with timer := { s.timer with expired := s.timer.expired - 1 } } moment)
  | kept {a : FeedAct} {s' : RunState} (hopens : a ≠ .wsHandshaken none)
      (hwaited : ∀ moment, a ≠ .waited moment) (hreported : s'.reported = s.reported)
      (hdue : s.timer.Pending → s'.timer.Pending) (hdelays : s'.delays = s.delays) : Toll s a s'

theorem delays_of_effect (h : Effect s a s') (hopens : a ≠ .wsHandshaken none)
    (hwaited : ∀ moment, a ≠ .waited moment) (hfailing : a.failing = none) :
    s'.delays = s.delays := by
  cases h with
  | failed houtcome =>
      rw [failing_of_outcome houtcome] at hfailing
      cases hfailing
  | advanced _ _ _ hsame => exact hsame.delays
  | opened => exact absurd rfl hopens
  | waited => exact absurd rfl (hwaited _)
  | other _ _ _ hsame => exact hsame.delays

theorem delays_of_opened (h : Effect s (.wsHandshaken none) s') : s'.delays = [] := by
  cases h with
  | failed houtcome => simp [FeedAct.outcome] at houtcome
  | advanced _ hadvances => cases hadvances
  | opened _ _ _ _ hdelays => exact hdelays
  | other houtcome => cases houtcome

theorem toll_of_next (h : next iterate s a = some s') : Toll s a s' := by
  have heffect := effect_of_next h
  obtain ⟨-, hstep⟩ := step_of_next h
  cases hstep with
  | failed houtcome hop => exact .failed _ _ (failing_of_outcome houtcome) hop
  | proceeded houtcome _ _ hproceeds =>
      have hfailing : a.failing = none := by simp [FeedAct.failing, houtcome]
      by_cases hopens : a = .wsHandshaken none
      · subst hopens
        exact .opened hproceeds.reported hproceeds.timer (delays_of_opened heffect)
      · have hwaited (moment : Moment) : a ≠ .waited moment := by
          rintro rfl
          cases houtcome
        exact .kept hopens hwaited hproceeds.reported (fun hdue => hproceeds.timer ▸ hdue)
          (delays_of_effect heffect hopens hwaited hfailing)
  | received _ hproceeds =>
      exact .kept (by simp) (by simp) hproceeds.reported (fun hdue => hproceeds.timer ▸ hdue)
        (delays_of_effect heffect (by simp) (by simp) rfl)
  | expired => exact .kept (by simp) (by simp) rfl (fun _ => .inr (Nat.succ_pos _)) rfl
  | waited hexpired => exact .waited hexpired
  | _ => exact .kept (by simp) (by simp) rfl id rfl

theorem ne_of_failing {op : Op} (hfailing : a.failing = some op) :
    a ≠ .wsHandshaken none ∧ ∀ moment, a ≠ .waited moment := by
  refine ⟨?_, fun moment => ?_⟩ <;> rintro rfl <;> cases hfailing

/-- Between an open and the next client, the tally adds up. -/
theorem update_eq (t : Tally) (hopens : a ≠ .wsHandshaken none)
    (hwaited : ∀ moment, a ≠ .waited moment) :
    t.update s a s' =
      { failed := t.failed + (s'.lost - s.lost)
        asked := t.asked + (s'.delays.length - s.delays.length) } := by
  cases a with
  | waited moment => exact absurd rfl (hwaited moment)
  | wsHandshaken ec =>
      cases ec with
      | none => exact absurd rfl hopens
      | some text => rfl
  | _ => rfl

/-! ### The errors of a client -/

theorem reported_fail {client : WsClient} (hclient : s.client = some client) (err : WsError)
    (msg : Bytes) : (fail s err msg).reported = s.reported ++ [err] := by
  simp [RunState.reported, hclient, WsClient.report]

theorem delays_fail (hauto : s.reconnect.enabled = true) (err : WsError) (msg : Bytes) :
    (fail s err msg).delays.length = s.delays.length + 1 := by
  rw [fail_eq, if_pos hauto]
  exact List.length_append

/-- An error of a handler that reconnects is one error and one delay more, and a
reconnect is due. -/
theorem charge_of_fail {op : Op} (hauto : s.reconnect.enabled = true) (hop : op ∈ s.inFlight)
    (err : WsError) (msg : Bytes) :
    (fail (s.updateClient (·.finish op)) err msg).reported = s.reported ++ [err] ∧
      (fail (s.updateClient (·.finish op)) err msg).timer.Pending ∧
      (fail (s.updateClient (·.finish op)) err msg).delays.length = s.delays.length + 1 := by
  obtain ⟨client, hclient, -⟩ := exists_client_of_mem hop
  have hcurrent : (s.updateClient (·.finish op)).client = some (client.finish op) := by
    simp [RunState.updateClient, hclient]
  have hreported : (s.updateClient (·.finish op)).reported = s.reported := by
    simp [RunState.reported, RunState.updateClient, hclient, WsClient.finish]
  have hauto' : (s.updateClient (·.finish op)).reconnect.enabled = true := hauto
  refine ⟨?_, .inl ?_, delays_fail hauto' err msg⟩
  · rw [reported_fail hcurrent, hreported]
  · rw [fail_timer, if_pos hauto', ReconnectTimer.asyncWait_armed]

theorem lost_eq (honce : s.reported.length ≤ 1) : s.lost = s.reported.length := by
  unfold RunState.lost
  split
  · next hnone => rw [hnone, List.length_nil]
  · next hsome =>
    have hpos := List.length_pos_iff.mpr hsome
    omega

/-- A new client in place of the one there was, before any of its operations completes. -/
structure Renewed (s s' : RunState) : Prop where
  once : s'.reported.length ≤ 1
  due : s'.reported ≠ [] → s'.timer.Pending
  delays : s'.delays.length = s.delays.length + s'.reported.length

theorem renewed_connectClient (hauto : s.reconnect.enabled = true) :
    Renewed s (connectClient s) := by
  rcases connectClient_cases s with ⟨url, -, heq⟩ | ⟨err, -, heq⟩ <;> rw [heq]
  · exact ⟨Nat.zero_le 1, fun hsome => absurd rfl hsome, rfl⟩
  · refine ⟨?_, fun _ => .inl ?_, ?_⟩
    · rw [reported_fail rfl]
      exact Nat.le_refl 1
    · rw [fail_timer, if_pos hauto, ReconnectTimer.asyncWait_armed]
    · rw [reported_fail rfl, delays_fail]
      · rfl
      · exact hauto

theorem renewed_onWait (hauto : s.reconnect.enabled = true) (moment : Moment) :
    Renewed s (onWait s moment) := by
  obtain ⟨headers, logs, heq, -⟩ := onWait_eq s moment
  rw [heq]
  obtain ⟨honce, hdue, hdelays⟩ := @renewed_connectClient
    { s with options := { s.options with headers := headers }, trace := s.trace ++ logs } hauto
  exact ⟨honce, hdue, hdelays⟩

/-! ### Runs without errors while a reconnect is due -/

/-- The current client has reported one error at most, the reconnect for it is due, and
the tally agrees with the errors and the delays. -/
structure Paced (s : RunState) (t : Tally) : Prop where
  once : s.reported.length ≤ 1
  due : s.reported ≠ [] → s.timer.Pending
  asked : t.asked = s.reported.length
  failed : t.failed = s.delays.length

theorem paced_of_renewed (h : Renewed s s') {n : ℕ} (hn : n = s.delays.length) :
    Paced s' (.replaced n s s') := by
  obtain ⟨honce, hdue, hdelays⟩ := h
  have hlost := lost_eq honce
  refine ⟨honce, hdue, ?_, ?_⟩
  · simp only [Tally.replaced]
    omega
  · simp only [Tally.replaced]
    omega

/-- The first error of a client. -/
theorem paced_of_error {t : Tally} (hs : Paced s t) (hnone : s.reported = [])
    (hreported : s'.reported.length = 1) (hdue : s'.timer.Pending)
    (hdelays : s'.delays.length = s.delays.length + 1) :
    Paced s' { failed := t.failed + (s'.lost - s.lost)
               asked := t.asked + (s'.delays.length - s.delays.length) } := by
  obtain ⟨honce, -, hasked, hfailed⟩ := hs
  have hlost := lost_eq honce
  have hlost' := @lost_eq s' (Nat.le_of_eq hreported)
  rw [hnone, List.length_nil] at hlost hasked
  refine ⟨Nat.le_of_eq hreported, fun _ => hdue, ?_, ?_⟩
  · show t.asked + _ = _
    omega
  · show t.failed + _ = _
    omega

theorem paced_of_kept {t : Tally} (hs : Paced s t) (hreported : s'.reported = s.reported)
    (hdue : s.timer.Pending → s'.timer.Pending) (hdelays : s'.delays = s.delays) :
    Paced s' { failed := t.failed + (s'.lost - s.lost)
               asked := t.asked + (s'.delays.length - s.delays.length) } := by
  have hlost : s'.lost = s.lost := by rw [RunState.lost, hreported, RunState.lost]
  rw [hlost, hdelays, Nat.sub_self, Nat.sub_self]
  refine ⟨?_, ?_, ?_, ?_⟩
  · rw [hreported]
    exact hs.once
  · rw [hreported]
    exact fun hsome => hdue (hs.due hsome)
  · rw [hreported]
    exact hs.asked
  · rw [hdelays]
    exact hs.failed

theorem paced_step {t : Tally} (hs : Paced s t) (hauto : s.reconnect.enabled = true)
    (hidle : NoErrorWhileDue s a) (h : next iterate s a = some s') :
    Paced s' (t.update s a s') := by
  cases toll_of_next h with
  | @failed _ op err msg hfailing hop =>
      obtain ⟨hopens, hwaited⟩ := ne_of_failing hfailing
      obtain ⟨hreported, hdue, hdelays⟩ := charge_of_fail hauto hop err msg
      have hnone : s.reported = [] :=
        Classical.not_not.mp fun hsome => hidle op hfailing (hs.due hsome)
      rw [update_eq t hopens hwaited]
      apply paced_of_error hs hnone
      · rw [hreported, hnone]
        rfl
      · exact hdue
      · exact hdelays
  | opened hreported htimer hdelays =>
      refine ⟨?_, ?_, ?_, ?_⟩
      · rw [hreported]
        exact hs.once
      · rw [hreported, htimer]
        exact hs.due
      · rw [hreported]
        exact hs.asked
      · rw [hdelays]
        rfl
  | @waited moment =>
      obtain ⟨honce, hdue, hdelays⟩ := @renewed_onWait
        { s with timer := { s.timer with expired := s.timer.expired - 1 } } hauto moment
      exact paced_of_renewed ⟨honce, hdue, hdelays⟩ hs.failed
  | kept hopens hwaited hreported hdue hdelays =>
      rw [update_eq t hopens hwaited]
      exact paced_of_kept hs hreported hdue hdelays

variable {p p' : RunState × Tally}

theorem paced_of_reach (hauto : options.autoReconnect = true)
    (h : (tallied iterate options).Reach (fun p => NoErrorWhileDue p.1) p) : Paced p.1 p.2 := by
  induction h with
  | start =>
      apply paced_of_renewed
      · exact renewed_connectClient hauto
      · rfl
  | step hreach hidle hnext ih =>
      obtain ⟨s', hs', rfl⟩ := Machine.withHistory_next.mp hnext
      have henabled := (runsWith_of_reachable hreach.forget.reachable).enabled.trans hauto
      exact paced_step ih henabled hidle hs'

/-- An error while a reconnect is due comes from a client that has paid for one already. -/
theorem two_le_asked {t : Tally} {op : Op} (hs : Paced s t) (hauto : s.reconnect.enabled = true)
    (hblamed : Blamed s) (hfailing : a.failing = some op) (hdue : s.timer.Pending)
    (h : next iterate s a = some s') : 2 ≤ (t.update s a s').asked := by
  obtain ⟨hopens, hwaited⟩ := ne_of_failing hfailing
  obtain ⟨-, hop, err, msg, rfl⟩ := fail_of_failing hfailing h
  obtain ⟨-, -, hdelays⟩ := charge_of_fail hauto hop err msg
  have hpaid : 0 < s.reported.length := List.length_pos_iff.mpr (hblamed.blamed hdue)
  rw [update_eq t hopens hwaited, hs.asked, hdelays]
  show 2 ≤ _ + _
  omega

/-- Where no operation fails while a reconnect is due, every lost connection is one step
of the back-off; and wherever one does for the first time, its client asks for a second
delay. -/
theorem one_step_each (iterate : ℕ → Bytes → Except SimdError Document) (options : RunOptions)
    (hauto : options.autoReconnect = true) :
    (∀ p, (tallied iterate options).Reach (fun p => NoErrorWhileDue p.1) p →
      OneStepEach options.backoff p) ∧
    ∀ p a p', (tallied iterate options).Reach (fun p => NoErrorWhileDue p.1) p →
      (tallied iterate options).next p a = some p' → ¬ NoErrorWhileDue p.1 a →
      2 ≤ p'.2.asked ∧ ¬ OneStepEach options.backoff p' := by
  refine ⟨fun p h => ?_, fun p a p' h hnext hbad => ?_⟩
  · obtain ⟨honce, -, hasked, hfailed⟩ := paced_of_reach hauto h
    refine ⟨hasked ▸ honce, ?_⟩
    rw [hfailed]
    exact (backedOff_of_reachable h.forget.reachable).delays
  · obtain ⟨s', hs', rfl⟩ := Machine.withHistory_next.mp hnext
    simp only [NoErrorWhileDue, Option.mem_def, not_forall, not_not] at hbad
    obtain ⟨op, hfailing, hdue⟩ := hbad
    have hblamed := blamed_of_reach (h.forget.mono fun s a hidle op hfailing =>
      (ReconnectTimer.not_pending_iff.mp (hidle op hfailing)).2)
    have htwo := two_le_asked (paced_of_reach hauto h)
      ((runsWith_of_reachable h.forget.reachable).enabled.trans hauto) hblamed hfailing hdue hs'
    exact ⟨htwo, fun heach => absurd heach.asked (Nat.not_le.mpr htwo)⟩

theorem one_step_each_local : localOptions.autoReconnect = true ∧
    ∀ p, (tallied eager localOptions).Reach (fun p => NoErrorWhileDue p.1) p →
      OneStepEach localOptions.backoff p :=
  ⟨rfl, (one_step_each eager localOptions rfl).1⟩

/-- One connection that is lost and asks for two delays: its write fails, and then its
read. -/
def twoErrorsRun : List FeedAct :=
  opening ++ [.written (some (ascii "broken pipe")), .read (.error (ascii "end of stream"))]

theorem twoErrorsRun_asks_twice :
    ((tallied eager localOptions).exec (tallied eager localOptions).start twoErrorsRun).map
        (fun p => (p.2.failed, p.2.asked, p.1.delays)) = some (1, 2, [500, 1000]) ∧
    ((tallied eager localOptions).exec (tallied eager localOptions).start twoErrorsRun).map
        (fun p => decide (OneStepEach localOptions.backoff p)) = some false := by
  exact ⟨by decide +kernel, by decide +kernel⟩

end KalshiAutotrader.Md
