import KalshiAutotrader.Md.Backoff
import KalshiAutotrader.Md.ClientSteps
import KalshiAutotrader.Md.Replacement

/-!
The delays of a row of errors.

While no connection opens, the delays that are scheduled are those of the back-off,
one after the other. They settle at the maximum if the initial delay is not zero, which
is accepted and which doubling leaves as it is. Whether the timer is given the maximum
is another matter: it has to fit a count of nanoseconds.
-/

namespace KalshiAutotrader.Md

open Kit KalshiAutotrader.Core Logging Simdjson FeedHandler

/-! ### The sequence of delays -/

namespace ReconnectState

/-- The state after `k` delays have been asked for. -/
def after (s : ReconnectState) : ℕ → ReconnectState
  | 0 => s
  | k + 1 => (s.after k).nextDelay.2

/-- The delay that is asked for after `k` others. -/
def delay (s : ReconnectState) (k : ℕ) : Milliseconds := (s.after k).nextDelay.1

variable {enabled : Bool} {initial max : Milliseconds} {k : ℕ}

@[simp] theorem nextDelay_reset (s : ReconnectState) : s.nextDelay.2.reset = s.reset := by
  unfold nextDelay
  split <;> rfl

/-- What a delay leaves as it is, any number of them does. -/
theorem after_eq {β : Type} {f : ReconnectState → β} (h : ∀ s, f s.nextDelay.2 = f s)
    (s : ReconnectState) (k : ℕ) : f (s.after k) = f s := by
  induction k with
  | zero => rfl
  | succ k ih => exact (h _).trans ih

@[simp] theorem after_reset (s : ReconnectState) (k : ℕ) : (s.after k).reset = s.reset :=
  after_eq nextDelay_reset s k

@[simp] theorem after_enabled (s : ReconnectState) (k : ℕ) : (s.after k).enabled = s.enabled :=
  after_eq nextDelay_enabled s k

/-- With a maximum that the timer can take, every delay is exact. -/
theorem at_after (h0 : 0 ≤ initial.toInt) (hle : initial.toInt ≤ max.toInt)
    (hfits : max.toInt * 10 ^ 6 < 2 ^ 63) (k : ℕ) :
    At initial max k ((make enabled initial max).after k) := by
  induction k with
  | zero => exact ⟨rfl, rfl, by simp [after, make]; omega⟩
  | succ k ih => exact ih.next h0 (by omega)

theorem toInt_delay (h0 : 0 ≤ initial.toInt) (hle : initial.toInt ≤ max.toInt)
    (hfits : max.toInt * 10 ^ 6 < 2 ^ 63) (k : ℕ) :
    ((make enabled initial max).delay k).toInt = min (initial.toInt * 2 ^ k) max.toInt :=
  (at_after h0 hle hfits k).current

theorem exists_le_mul_two_pow {a : ℤ} (ha : 0 < a) (b : ℤ) : ∃ k : ℕ, b ≤ a * 2 ^ k := by
  refine ⟨b.toNat, ?_⟩
  have hgrows : ((b.toNat : ℕ) : ℤ) < 2 ^ b.toNat := by exact_mod_cast Nat.lt_two_pow_self
  have hscaled : (1 : ℤ) * 2 ^ b.toNat ≤ a * 2 ^ b.toNat :=
    Int.mul_le_mul_of_nonneg_right ha (Int.pow_nonneg (by decide))
  omega

/-- An initial delay that is not zero comes to the maximum, and no delay gets past it. -/
theorem exists_delay_eq_max (hpos : 0 < initial.toInt) (hle : initial.toInt ≤ max.toInt)
    (hfits : max.toInt * 10 ^ 6 < 2 ^ 63) :
    ∃ B, ∀ k, B ≤ k → (make enabled initial max).delay k = max := by
  obtain ⟨B, hB⟩ := exists_le_mul_two_pow hpos max.toInt
  refine ⟨B, fun k hk => Int64.toInt_inj.mp ?_⟩
  have hgrows : initial.toInt * 2 ^ B ≤ initial.toInt * 2 ^ k :=
    Int.mul_le_mul_of_nonneg_left (by exact_mod_cast Nat.pow_le_pow_right Nat.two_pos hk)
      (Int.le_of_lt hpos)
  rw [toInt_delay (Int.le_of_lt hpos) hle hfits]
  omega

/-- Doubling leaves zero as it is. -/
theorem toInt_delay_of_zero (hzero : initial.toInt = 0) (hmax : 0 < max.toInt)
    (hfits : max.toInt * 10 ^ 6 < 2 ^ 63) (k : ℕ) :
    ((make enabled initial max).delay k).toInt = 0 := by
  rw [toInt_delay (by omega) (by omega) hfits, hzero, Int.zero_mul]
  omega

end ReconnectState

/-! ### The delays of a run -/

variable {iterate : ℕ → Bytes → Except SimdError Document} {options : RunOptions}
  {s s' : RunState} {a : FeedAct}

/-- The back-off of a run before its first error. -/
def RunOptions.backoff (options : RunOptions) : ReconnectState :=
  .make options.autoReconnect options.reconnectInitialDelay options.reconnectMaxDelay

/-- The delays since the last open are the first ones of the back-off, the timer was given
the last of them, and there are none without it. -/
structure BackedOff (backoff : ReconnectState) (s : RunState) : Prop where
  reconnect : s.reconnect = backoff.after s.delays.length
  delays : s.delays = (List.range s.delays.length).map backoff.delay
  duration : ∀ delay ∈ s.delays.getLast?, s.timer.duration = toNanoseconds delay
  off : backoff.enabled = false → s.delays = []

theorem backedOff_of_same {backoff : ReconnectState} (hs : BackedOff backoff s)
    (hsame : SameBackoff s s') : BackedOff backoff s' := by
  obtain ⟨hreconnect, hdelays, hduration⟩ := hsame
  refine ⟨?_, ?_, ?_, ?_⟩ <;> rw [hdelays]
  · exact hreconnect.trans hs.reconnect
  · exact hs.delays
  · exact fun delay hdelay => hduration.trans (hs.duration delay hdelay)
  · exact hs.off

theorem backedOff_reset {backoff : ReconnectState} (hs : BackedOff backoff s)
    (hfirst : backoff.reset = backoff) (hreconnect : s'.reconnect = s.reconnect.reset)
    (hdelays : s'.delays = []) : BackedOff backoff s' := by
  refine ⟨?_, ?_, ?_, fun _ => hdelays⟩ <;> rw [hdelays]
  · rw [hreconnect, hs.reconnect, ReconnectState.after_reset, hfirst]
    rfl
  · rfl
  · exact fun _ hnone => by cases hnone

/-- An error of a handler that reconnects asks for the next delay. -/
theorem backedOff_fail {backoff : ReconnectState} (hs : BackedOff backoff s) (err : WsError)
    (msg : Bytes) : BackedOff backoff (fail s err msg) := by
  rw [fail_eq]
  split
  · next henabled =>
    rw [hs.reconnect, ReconnectState.after_enabled] at henabled
    refine ⟨?_, ?_, fun delay hdelay => ?_, fun hoff => absurd henabled (by simp [hoff])⟩
    · show s.reconnect.nextDelay.2 = _
      rw [List.length_append, hs.reconnect]
      rfl
    · show s.delays ++ [s.reconnect.nextDelay.1] = _
      rw [List.length_append, List.length_singleton, List.range_succ, List.map_append, ← hs.delays,
        hs.reconnect]
      rfl
    · obtain rfl : s.reconnect.nextDelay.1 = delay := by simpa using hdelay
      simp
  · exact ⟨hs.reconnect, hs.delays, hs.duration, hs.off⟩

theorem backedOff_connectClient {backoff : ReconnectState} (hs : BackedOff backoff s) :
    BackedOff backoff (connectClient s) := by
  rcases connectClient_cases s with ⟨url, -, heq⟩ | ⟨err, -, heq⟩ <;> rw [heq]
  · exact backedOff_of_same hs ⟨rfl, rfl, rfl⟩
  · apply backedOff_fail
    exact backedOff_of_same hs ⟨rfl, rfl, rfl⟩

theorem backedOff_onWait {backoff : ReconnectState} (hs : BackedOff backoff s) (moment : Moment) :
    BackedOff backoff (onWait s moment) := by
  obtain ⟨headers, logs, heq, -⟩ := onWait_eq s moment
  rw [heq]
  apply backedOff_connectClient
  exact backedOff_of_same hs ⟨rfl, rfl, rfl⟩

theorem backedOff_step {backoff : ReconnectState} (hfirst : backoff.reset = backoff)
    (hs : BackedOff backoff s) (h : next iterate s a = some s') : BackedOff backoff s' := by
  cases effect_of_next h with
  | failed =>
      apply backedOff_fail
      exact backedOff_of_same hs ⟨rfl, rfl, rfl⟩
  | advanced _ _ _ hsame => exact backedOff_of_same hs hsame
  | opened _ _ _ hreconnect hdelays => exact backedOff_reset hs hfirst hreconnect hdelays
  | waited =>
      apply backedOff_onWait
      exact backedOff_of_same hs ⟨rfl, rfl, rfl⟩
  | other _ _ _ hsame => exact backedOff_of_same hs hsame

theorem backedOff_of_reachable (h : (feed iterate options).Reachable s) :
    BackedOff options.backoff s := by
  refine h.invariant ?_ fun hs _ hnext => backedOff_step rfl hs hnext
  exact backedOff_connectClient ⟨rfl, rfl, (fun _ hnone => by cases hnone), fun _ => rfl⟩

/-! ### Rows of errors of any length -/

/-- A reconnect is due, after `n` errors since the last open. -/
structure Retrying (n : ℕ) (s : RunState) : Prop where
  live : s.stopped = false
  enabled : s.reconnect.enabled = true
  armed : s.timer.armed = true
  delays : s.delays.length = n

theorem retrying_fail {n : ℕ} (hlive : s.stopped = false) (hauto : s.reconnect.enabled = true)
    (hdelays : s.delays.length = n) (err : WsError) (msg : Bytes) :
    Retrying (n + 1) (fail s err msg) := by
  obtain ⟨hstopped, harmed, -⟩ := fail_arms hlive hauto err msg
  refine ⟨hstopped, by simpa using hauto, harmed, ?_⟩
  rw [fail_eq, if_pos hauto, ← hdelays]
  exact List.length_append

/-- A host that is not found is reported. -/
theorem exec_resolve_fails (hlive : s.stopped = false) (hop : .resolve ∈ s.inFlight) (msg : Bytes) :
    (feed iterate options).exec s [.resolved (some msg)] =
      some (fail (s.updateClient (·.finish .resolve)) .resolveFailed msg) := by
  simp [Machine.exec, feed, next, hlive, RunState.finish, hop, onResolve]

/-- Connecting can fail: at once if the URL is bad, else when the host is looked up. -/
theorem exists_exec_connectClient {n : ℕ} (hlive : s.stopped = false)
    (hauto : s.reconnect.enabled = true) (hdelays : s.delays.length = n) :
    ∃ as s', (feed iterate options).exec (connectClient s) as = some s' ∧ Retrying (n + 1) s' := by
  rcases connectClient_cases s with ⟨url, -, heq⟩ | ⟨err, -, heq⟩ <;> rw [heq]
  · refine ⟨[.resolved (some [])], _, exec_resolve_fails ?_ ?_ _, ?_⟩
    · exact hlive
    · exact List.mem_singleton_self _
    · apply retrying_fail
      · exact hlive
      · exact hauto
      · exact hdelays
  · refine ⟨[], _, rfl, ?_⟩
    apply retrying_fail
    · exact hlive
    · exact hauto
    · exact hdelays

/-- A reconnect that is due can fail as well. -/
theorem Retrying.again {n : ℕ} (h : Retrying n s) :
    ∃ as s', (feed iterate options).exec s as = some s' ∧ Retrying (n + 1) s' := by
  obtain ⟨headers, logs, heq, -⟩ :=
    onWait_eq { s with timer := { s.timer with armed := false } } ⟨0, 0⟩
  obtain ⟨as, s', hexec, hretrying⟩ := @exists_exec_connectClient iterate options
    { s with
      timer := { s.timer with armed := false }
      options := { s.options with headers := headers }, trace := s.trace ++ logs }
    n h.live h.enabled h.delays
  refine ⟨[.expire, .waited ⟨0, 0⟩] ++ as, s', ?_, hretrying⟩
  rw [Machine.exec_append, exec_expire_waited h.live h.armed, heq]
  exact hexec

theorem exists_retrying (hauto : options.autoReconnect = true) (n : ℕ) :
    ∃ s, (feed iterate options).Reachable s ∧ Retrying (n + 1) s := by
  refine Machine.exists_reachable_of_stages (I := fun n => Retrying (n + 1)) ?_
    (fun h => h.again) n
  obtain ⟨as, s, hexec, hretrying⟩ :=
    @exists_exec_connectClient iterate options (.initial options) 0 rfl hauto rfl
  exact ⟨s, Machine.reachable_of_exec hexec, hretrying⟩

/-! ### Settling -/

/-- After some number of errors in a row, every delay is the maximum, and so is what the
timer is given, over the integers. -/
def Settles (iterate : ℕ → Bytes → Except SimdError Document) (options : RunOptions) : Prop :=
  ∃ B : ℕ, ∀ s, (feed iterate options).Reachable s →
    (∀ i delay, B ≤ i → s.delays[i]? = some delay → delay = options.reconnectMaxDelay) ∧
    (B < s.delays.length →
      s.timer.duration.toInt = options.reconnectMaxDelay.toInt * 10 ^ 6)

theorem BackedOff.getElem? {backoff : ReconnectState} (h : BackedOff backoff s) {i : ℕ}
    (hi : i < s.delays.length) : s.delays[i]? = some (backoff.delay i) := by
  rw [h.delays, List.getElem?_map, List.getElem?_range hi, Option.map_some]

/-- The delay that is scheduled last is the one that the timer has been given. -/
theorem BackedOff.last {backoff : ReconnectState} (h : BackedOff backoff s) {n : ℕ}
    (hn : s.delays.length = n + 1) : s.timer.duration = toNanoseconds (backoff.delay n) := by
  apply h.duration
  rw [Option.mem_def, List.getLast?_eq_getElem?, hn]
  exact h.getElem? (by omega)

theorem settles_iff (h0 : 0 ≤ options.reconnectInitialDelay.toInt)
    (hle : options.reconnectInitialDelay.toInt ≤ options.reconnectMaxDelay.toInt)
    (hmax : 0 < options.reconnectMaxDelay.toInt) :
    Settles iterate options ↔ options.autoReconnect = false ∨
      0 < options.reconnectInitialDelay.toInt ∧
        options.reconnectMaxDelay.toInt * 10 ^ 6 < 2 ^ 63 := by
  constructor
  · rintro ⟨B, hB⟩
    by_cases hauto : options.autoReconnect = true
    · obtain ⟨s, hs, hretrying⟩ := @exists_retrying iterate options hauto B
      have hlength : B < s.delays.length := by
        rw [hretrying.delays]
        exact B.lt_succ_self
      obtain ⟨hdelays, hduration⟩ := hB s hs
      have hfits : options.reconnectMaxDelay.toInt * 10 ^ 6 < 2 ^ 63 := by
        rw [← hduration hlength]
        exact s.timer.duration.toInt_lt
      refine .inr ⟨?_, hfits⟩
      by_contra hnot
      have hlast := (backedOff_of_reachable hs).getElem? hlength
      have hdelay := hdelays B _ (Nat.le_refl B) hlast
      have hzero : (options.backoff.delay B).toInt = 0 :=
        ReconnectState.toInt_delay_of_zero (by omega) hmax hfits B
      rw [hdelay] at hzero
      omega
    · exact .inl (by simpa using hauto)
  · rintro (hoff | ⟨hpos, hfits⟩)
    · refine ⟨0, fun s hs => ?_⟩
      rw [(backedOff_of_reachable hs).off hoff]
      exact ⟨(fun i delay _ hi => by cases hi), fun hsome => by cases hsome⟩
    · obtain ⟨B, hB⟩ : ∃ B, ∀ k, B ≤ k → options.backoff.delay k = options.reconnectMaxDelay :=
        ReconnectState.exists_delay_eq_max hpos hle hfits
      refine ⟨B, fun s hs => ⟨fun i delay hi hdelay => ?_, fun hlength => ?_⟩⟩
      · obtain ⟨hlength, -⟩ := List.getElem?_eq_some_iff.mp hdelay
        rw [(backedOff_of_reachable hs).getElem? hlength] at hdelay
        exact (Option.some.inj hdelay).symm.trans (hB i hi)
      · obtain ⟨n, hn⟩ := Nat.exists_eq_add_of_lt hlength
        rw [(backedOff_of_reachable hs).last hn, hB (B + n) (Nat.le_add_right B n)]
        exact (toInt_toNanoseconds_iff (Int.le_of_lt hmax)).mpr hfits

end KalshiAutotrader.Md
