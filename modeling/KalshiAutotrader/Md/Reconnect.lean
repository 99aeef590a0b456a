import Mathlib.Algebra.Ring.Int.Defs

/-!
Reconnecting: the back-off, and the timer.

Delays are signed 64-bit counts of milliseconds, and the timer takes them as 64-bit
counts of nanoseconds. It is a `steady_timer` with its waits: at most one that has not
expired, and any number of completions that are queued, successful or aborted.
-/

namespace KalshiAutotrader.Md

/-- A duration in milliseconds, `std::chrono::milliseconds`. -/
abbrev Milliseconds := Int64

/-- A duration of the clock, `std::chrono::steady_clock::duration`. -/
abbrev Nanoseconds := Int64

/-- The conversion from the one to the other, which may overflow. -/
def toNanoseconds (ms : Milliseconds) : Nanoseconds := ms * 1000000

/-- Without an overflow it is exact, and never with one. -/
theorem toInt_toNanoseconds_iff {ms : Milliseconds} (h0 : 0 ≤ ms.toInt) :
    (toNanoseconds ms).toInt = ms.toInt * 10 ^ 6 ↔ ms.toInt * 10 ^ 6 < 2 ^ 63 := by
  constructor
  · intro heq
    rw [← heq]
    exact (toNanoseconds ms).toInt_lt
  · intro hfits
    rw [toNanoseconds, Int64.toInt_mul, show (1000000 : Int64).toInt = 10 ^ 6 from rfl]
    exact Int.bmod_eq_of_le (by omega) (by omega)

structure ReconnectState where
  enabled : Bool
  initial : Milliseconds
  max : Milliseconds
  current : Milliseconds
  deriving DecidableEq

namespace ReconnectState

/-- The constructor of three arguments. -/
def make (enabled : Bool) (initial max : Milliseconds) : ReconnectState :=
  { enabled := enabled, initial := initial, max := max, current := initial }

def reset (s : ReconnectState) : ReconnectState := { s with current := s.initial }

/-- The delay, and the state after it. -/
def nextDelay (s : ReconnectState) : Milliseconds × ReconnectState :=
  (s.current, if s.current < s.max then { s with current := min (s.current * 2) s.max } else s)

@[simp] theorem nextDelay_enabled (s : ReconnectState) : s.nextDelay.2.enabled = s.enabled := by
  unfold nextDelay
  split <;> rfl

end ReconnectState

/-- A timer that has not been made yet has no waits. -/
structure ReconnectTimer where
  /-- What the last `expires_after` was given. -/
  duration : Nanoseconds := 0
  /-- There is a wait that has neither expired nor been cancelled. -/
  armed : Bool := false
  /-- Waits that have expired, with their handlers queued. -/
  expired : ℕ := 0
  /-- Waits that have been cancelled, with their handlers queued. -/
  aborted : ℕ := 0
  deriving DecidableEq

namespace ReconnectTimer

/-- `expires_after` cancels the wait that has not expired. -/
def expiresAfter (t : ReconnectTimer) (duration : Nanoseconds) : ReconnectTimer :=
  if t.armed then { t with duration := duration, armed := false, aborted := t.aborted + 1 }
  else { t with duration := duration }

def asyncWait (t : ReconnectTimer) : ReconnectTimer := { t with armed := true }

/-- The time comes: the handler of the wait is queued. -/
def expire (t : ReconnectTimer) : ReconnectTimer :=
  { t with armed := false, expired := t.expired + 1 }

/-- A wait is there that has not been cancelled. -/
def Pending (t : ReconnectTimer) : Prop := t.armed = true ∨ 0 < t.expired

instance (t : ReconnectTimer) : Decidable t.Pending := inferInstanceAs (Decidable (_ ∨ _))

/-- There is one wait at most that has not been cancelled. -/
structure Single (t : ReconnectTimer) : Prop where
  armed : t.armed = true → t.expired = 0
  expired : t.expired ≤ 1

@[simp] theorem expiresAfter_expired (t : ReconnectTimer) (duration : Nanoseconds) :
    (t.expiresAfter duration).expired = t.expired := by
  unfold expiresAfter
  split <;> rfl

@[simp] theorem expiresAfter_duration (t : ReconnectTimer) (duration : Nanoseconds) :
    (t.expiresAfter duration).duration = duration := by
  unfold expiresAfter
  split <;> rfl

@[simp] theorem asyncWait_duration (t : ReconnectTimer) : t.asyncWait.duration = t.duration := rfl

@[simp] theorem asyncWait_armed (t : ReconnectTimer) : t.asyncWait.armed = true := rfl

@[simp] theorem asyncWait_expired (t : ReconnectTimer) : t.asyncWait.expired = t.expired := rfl

@[simp] theorem expire_armed (t : ReconnectTimer) : t.expire.armed = false := rfl

@[simp] theorem expire_expired (t : ReconnectTimer) : t.expire.expired = t.expired + 1 := rfl

theorem not_pending_iff {t : ReconnectTimer} :
    ¬ t.Pending ↔ t.armed = false ∧ t.expired = 0 := by
  simp [Pending]

theorem single_of_not_pending {t : ReconnectTimer} (h : ¬ t.Pending) : t.Single where
  armed _ := (not_pending_iff.mp h).2
  expired := by simp [(not_pending_iff.mp h).2]

/-- Arming a timer without waits that have expired leaves one wait. -/
theorem single_rearm {t : ReconnectTimer} (h : t.expired = 0) (duration : Nanoseconds) :
    (t.expiresAfter duration).asyncWait.Single where
  armed _ := by simpa using h
  expired := by simp [h]

theorem Single.expire {t : ReconnectTimer} (h : t.Single) (harmed : t.armed = true) :
    t.expire.Single where
  armed hoff := absurd hoff Bool.false_ne_true
  expired := by simp [h.armed harmed]

/-- When the only wait is taken off the queue, none is left. -/
theorem Single.idle_after {t : ReconnectTimer} (h : t.Single) (hexpired : 0 < t.expired) :
    ¬ ReconnectTimer.Pending { t with expired := t.expired - 1 } := by
  rintro (harmed | hmore)
  · have := h.armed harmed
    omega
  · have := h.expired
    simp only at hmore
    omega

end ReconnectTimer

end KalshiAutotrader.Md
