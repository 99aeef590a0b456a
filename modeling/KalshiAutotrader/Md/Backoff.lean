import KalshiAutotrader.Core.Config
import KalshiAutotrader.Kit.JsonRender
import KalshiAutotrader.Md.Reconnect

/-!
The delays of the back-off.

Each delay is twice the one before, up to the maximum, and the first one after a
reset is the initial one. The doubling is done before it is clamped, in 64 bits, and the
timer takes the delay in nanoseconds, in 64 bits again. That is where it overflows first,
with a delay of more than 292 years.
-/

namespace KalshiAutotrader.Md

open Kit

theorem toInt_min (a b : Int64) : (min a b).toInt = min a.toInt b.toInt := by
  rw [Std.min_eq_if]
  split
  · next h =>
    rw [Int64.le_iff_toInt_le] at h
    omega
  · next h =>
    rw [Int64.le_iff_toInt_le] at h
    omega

namespace ReconnectState

inductive Call | reset | nextDelay

/-- For each `next_delay` of the calls, how many come before it since the last reset. -/
def places : ℕ → List Call → List ℕ
  | _, [] => []
  | _, .reset :: calls => places 0 calls
  | k, .nextDelay :: calls => k :: places (k + 1) calls

/-- Each `next_delay` of the calls: its place, and the state it is called in. -/
def requests : ReconnectState → ℕ → List Call → List (ℕ × ReconnectState)
  | _, _, [] => []
  | s, _, .reset :: calls => s.reset.requests 0 calls
  | s, k, .nextDelay :: calls => (k, s) :: s.nextDelay.2.requests (k + 1) calls

/-- The delays are the doubled initial delay, clamped, over the integers, and the timer is
given these delays. -/
structure Exact (initial max : Milliseconds) (made : List (ℕ × ReconnectState)) : Prop where
  delay : ∀ r ∈ made, r.2.nextDelay.1.toInt = min (initial.toInt * 2 ^ r.1) max.toInt
  fits : ∀ r ∈ made, r.2.current < r.2.max → r.2.current.toInt * 2 < 2 ^ 63
  bounds : ∀ r ∈ made, initial.toInt ≤ r.2.nextDelay.1.toInt ∧ r.2.nextDelay.1.toInt ≤ max.toInt
  handed : ∀ r ∈ made, ∀ timer : ReconnectTimer,
    (timer.expiresAfter (toNanoseconds r.2.nextDelay.1)).duration.toInt =
      r.2.nextDelay.1.toInt * 10 ^ 6
  monotone : ∀ r ∈ made, ∀ r' ∈ made, r.1 ≤ r'.1 →
    r.2.nextDelay.1.toInt ≤ r'.2.nextDelay.1.toInt

/-- The state in which the delay of this place is the exact one. -/
structure At (initial max : Milliseconds) (k : ℕ) (s : ReconnectState) : Prop where
  first : s.initial = initial
  limit : s.max = max
  current : s.current.toInt = min (initial.toInt * 2 ^ k) max.toInt

variable {initial max : Milliseconds} {k : ℕ} {s : ReconnectState} {calls : List Call}

theorem At.reset (h : At initial max k s) (hle : initial.toInt ≤ max.toInt) :
    At initial max 0 s.reset := by
  refine ⟨h.first, h.limit, ?_⟩
  show s.initial.toInt = _
  rw [h.first]
  omega

/-- A delay that the timer can take is doubled without an overflow. -/
theorem At.next (h : At initial max k s) (h0 : 0 ≤ initial.toInt)
    (hfits : min (initial.toInt * 2 ^ k) max.toInt * 10 ^ 6 < 2 ^ 63) :
    At initial max (k + 1) s.nextDelay.2 := by
  have hcurrent := h.current
  have hdouble : initial.toInt * 2 ^ (k + 1) = initial.toInt * 2 ^ k * 2 := by
    rw [Int.pow_succ, Int.mul_assoc]
  have hpos : 0 ≤ initial.toInt * 2 ^ k := Int.mul_nonneg h0 (Int.pow_nonneg (by decide))
  rw [← h.limit] at hfits hcurrent
  generalize initial.toInt * 2 ^ k = d at *
  unfold nextDelay
  split
  · next hlt =>
    rw [Int64.lt_iff_toInt_lt] at hlt
    have hmul : (s.current * 2).toInt = s.current.toInt * 2 := by
      rw [Int64.toInt_mul, show (2 : Int64).toInt = 2 from rfl]
      exact Int.bmod_eq_of_le (by omega) (by omega)
    refine ⟨h.first, h.limit, ?_⟩
    show (min (s.current * 2) s.max).toInt = _
    rw [toInt_min, hmul, hdouble, ← h.limit]
    omega
  · next hnot =>
    rw [Int64.lt_iff_toInt_lt] at hnot
    refine ⟨h.first, h.limit, ?_⟩
    show s.current.toInt = _
    rw [hdouble, ← h.limit]
    omega

/-- Where the timer can take the delays, every one is asked for in the exact state. -/
theorem At.requests (h0 : 0 ≤ initial.toInt) (hle : initial.toInt ≤ max.toInt)
    (hfits : ∀ p ∈ places k calls, min (initial.toInt * 2 ^ p) max.toInt * 10 ^ 6 < 2 ^ 63)
    (h : At initial max k s) :
    ∀ r ∈ s.requests k calls, At initial max r.1 r.2 ∧ r.1 ∈ places k calls := by
  induction calls generalizing k s with
  | nil => exact fun r hr => by cases hr
  | cons call calls ih =>
      cases call with
      | reset => exact ih hfits (h.reset hle)
      | nextDelay =>
          simp only [places, List.forall_mem_cons] at hfits
          intro r hr
          rcases List.mem_cons.mp hr with rfl | hr
          · exact ⟨h, List.mem_cons_self⟩
          · obtain ⟨hat, hplace⟩ := ih hfits.2 (h.next h0 hfits.1) r hr
            exact ⟨hat, List.mem_cons_of_mem _ hplace⟩

/-- Every place is asked for. -/
theorem exists_request : ∀ p ∈ places k calls, ∃ s', (p, s') ∈ s.requests k calls := by
  induction calls generalizing k s with
  | nil => exact fun p hp => by cases hp
  | cons call calls ih =>
      cases call with
      | reset => exact ih
      | nextDelay =>
          intro p hp
          rcases List.mem_cons.mp hp with rfl | hp
          · exact ⟨s, List.mem_cons_self⟩
          · obtain ⟨s', hs'⟩ := ih p hp
            exact ⟨s', List.mem_cons_of_mem _ hs'⟩

theorem exact_of_at {made : List (ℕ × ReconnectState)} (h0 : 0 ≤ initial.toInt)
    (hle : initial.toInt ≤ max.toInt)
    (hat : ∀ r ∈ made, At initial max r.1 r.2 ∧
      min (initial.toInt * 2 ^ r.1) max.toInt * 10 ^ 6 < 2 ^ 63) :
    Exact initial max made := by
  have hgrows {k k' : ℕ} (hkk : k ≤ k') : initial.toInt * 2 ^ k ≤ initial.toInt * 2 ^ k' :=
    Int.mul_le_mul_of_nonneg_left (by exact_mod_cast Nat.pow_le_pow_right Nat.two_pos hkk) h0
  have hdelay : ∀ r ∈ made, r.2.nextDelay.1.toInt = min (initial.toInt * 2 ^ r.1) max.toInt :=
    fun r hr => (hat r hr).1.current
  refine ⟨hdelay, fun r hr hlt => ?_, fun r hr => ?_, fun r hr timer => ?_,
    fun r hr r' hr' hle' => ?_⟩
  · obtain ⟨hr, hfits⟩ := hat r hr
    have hcurrent := hr.current
    rw [hr.limit, Int64.lt_iff_toInt_lt] at hlt
    omega
  · have hfirst := hgrows (Nat.zero_le r.1)
    rw [hdelay r hr]
    omega
  · have hfirst := hgrows (Nat.zero_le r.1)
    rw [ReconnectTimer.expiresAfter_duration, toInt_toNanoseconds_iff (by rw [hdelay r hr]; omega),
      hdelay r hr]
    exact (hat r hr).2
  · have hmore := hgrows hle'
    rw [hdelay r hr, hdelay r' hr']
    omega

/-- For delays that a configuration may have, the delays returned are exact, no
doubling overflows, the delays stay in range and never decrease, and the timer is given
these very delays, exactly when each of them fits the nanoseconds of the timer. -/
theorem backoff_exact_iff (enabled : Bool) (initial max : Milliseconds) (h0 : 0 ≤ initial.toInt)
    (hle : initial.toInt ≤ max.toInt) (calls : List Call) :
    Exact initial max ((make enabled initial max).requests 0 calls) ↔
      ∀ k ∈ places 0 calls, min (initial.toInt * 2 ^ k) max.toInt * 10 ^ 6 < 2 ^ 63 := by
  have hstart : At initial max 0 (make enabled initial max) := ⟨rfl, rfl, by simp [make]; omega⟩
  constructor
  · intro hexact k hk
    obtain ⟨s, hs⟩ := exists_request (s := make enabled initial max) k hk
    have hhanded := hexact.handed (k, s) hs {}
    rw [hexact.delay (k, s) hs] at hhanded
    rw [← hhanded]
    exact Int64.toInt_lt _
  · intro hfits
    apply exact_of_at h0 hle
    intro r hr
    obtain ⟨hat, hplace⟩ := hstart.requests h0 hle hfits r hr
    exact ⟨hat, hfits r.1 hplace⟩

/-- The default delays, asked for across a reset. -/
theorem backoff_exact_default : Exact 500 30000 ((make true 500 30000).requests 0
    [.nextDelay, .nextDelay, .reset, .nextDelay]) := by
  refine (backoff_exact_iff true 500 30000 (by decide) (by decide) _).mpr fun k _ => ?_
  have hmax : (30000 : Int64).toInt = 30000 := rfl
  omega

/-- A configuration file with these delays. -/
def delaysFile (initial max : ℕ) : Bytes :=
  Json.render (.obj [
    (ascii "env", .str (ascii "demo")),
    (ascii "ws_url", .str (ascii "wss://localhost")),
    (ascii "subscription", .obj [
      (ascii "channels", .arr [.str (ascii "trade")]),
      (ascii "market_tickers", .arr [])]),
    (ascii "ws", .obj [
      (ascii "reconnect_initial_delay_ms", .int false initial),
      (ascii "reconnect_max_delay_ms", .int false max)])])

/-- The file is accepted, and the doubling of its initial delay overflows: the second
delay is negative. A delay that is never doubled may overflow as well, when the timer is
given it. -/
theorem backoff_overflows :
    (Core.loadConfig (Simdjson.eager 0) (some (delaysFile (2 ^ 62) (2 ^ 63 - 1)))).map
        (fun c => (c.ws.reconnectInitialDelayMs, c.ws.reconnectMaxDelayMs)) =
      .ok (4611686018427387904, 9223372036854775807) ∧
    ((make true 4611686018427387904 9223372036854775807).requests 0
        [.nextDelay, .nextDelay]).map (fun r => r.2.nextDelay.1) =
      [4611686018427387904, -9223372036854775808] ∧
    ¬ Exact 4611686018427387904 9223372036854775807
      ((make true 4611686018427387904 9223372036854775807).requests 0
        [.nextDelay, .nextDelay]) ∧
    (Core.loadConfig (Simdjson.eager 0) (some (delaysFile (10 ^ 13) (10 ^ 13)))).map
        (fun c => (c.ws.reconnectInitialDelayMs, c.ws.reconnectMaxDelayMs)) =
      .ok (10000000000000, 10000000000000) ∧
    ((make true 10000000000000 10000000000000).requests 0 [.nextDelay]).map
        (fun r => toNanoseconds r.2.nextDelay.1) = [-8446744073709551616] ∧
    ¬ Exact 10000000000000 10000000000000
      ((make true 10000000000000 10000000000000).requests 0 [.nextDelay]) := by
  refine ⟨by decide +kernel, by decide +kernel, fun hexact => ?_, by decide +kernel,
    by decide +kernel, fun hexact => ?_⟩
  · exact absurd (hexact.fits _ List.mem_cons_self (by decide)) (by decide)
  · exact absurd (hexact.handed _ List.mem_cons_self {}) (by decide)

end ReconnectState

end KalshiAutotrader.Md
