import KalshiAutotrader.Logging.Delivery

/-!
When shutting down can hang.

The destructor stores the flag and notifies without taking the mutex. The worker
holds the mutex from the test of its predicate until it blocks, so the mutex
would have closed the gap; as the code is, both steps of the destructor can fall
into it. The notification then finds no one waiting, the worker blocks after it,
and the destructor waits in `join` for a worker that nothing will wake.

This is the only gap. A notification that comes before the test is preceded by
the flag, which the test sees, and one that comes after the worker has blocked
wakes it.
-/

namespace KalshiAutotrader.Logging

open Kit

/-- The destructor is in `join`, it has notified, and the worker is blocked. -/
def Deadlocked (s : LoggerState) : Prop := s.destructor = .join ∧ s.worker = .blocked

instance (s : LoggerState) : Decidable (Deadlocked s) :=
  inferInstanceAs (Decidable (_ ∧ _))

/-- No notification is left to come: without calls of `log` and without spurious
wake-ups, nothing can happen. -/
theorem next_eq_none_of_deadlocked (options : AsyncJsonLoggerOptions) {s : LoggerState}
    {a : LoggerAct} (h : Deadlocked s) (horderly : Orderly s a) (hspurious : a ≠ .wakeup) :
    (logger options).next s a = none := by
  obtain ⟨hdest, hworker⟩ := h
  cases a with
  | log event now =>
      have hidle : s.destructor = .idle := horderly
      rw [hdest] at hidle
      cases hidle
  | work now => simp [logger, LoggerState.next, run, hworker]
  | wakeup => exact absurd rfl hspurious
  | destroy => simp [logger, LoggerState.next, destroy, hdest, hworker]

/-- The destructor does not notify between the worker's test and its block. -/
def NotifiesOutside (s : LoggerState) (a : LoggerAct) : Prop :=
  a = .destroy → s.destructor = .notify → s.worker ≠ .block

instance (s : LoggerState) (a : LoggerAct) : Decidable (NotifiesOutside s a) :=
  inferInstanceAs (Decidable (_ → _ → _))

/-- Once the destructor has notified, the worker is not on its way into the wait. -/
structure Awake (s : LoggerState) : Prop where
  flag : s.destructor ≠ .idle → s.stop = true
  notified : s.destructor = .join ∨ s.destructor = .done →
    s.worker ≠ .block ∧ s.worker ≠ .blocked

theorem enqueue_worker (options : AsyncJsonLoggerOptions) (s : LoggerState) (event : LogEvent) :
    (enqueue options s event).worker = s.worker ∨
      (enqueue options s event).worker = .woken := by
  have hnotified : ∀ w : Worker, (if w = .blocked then Worker.woken else w) = w ∨
      (if w = .blocked then Worker.woken else w) = .woken := by
    intro w
    by_cases hw : w = .blocked <;> simp [hw]
  rcases enqueue_cases options s event with
    ⟨-, heq⟩ | ⟨-, -, heq⟩ | ⟨-, -, heq⟩ <;> rw [heq]
  · simpa [LoggerState.push, LoggerState.notify_eq] using hnotified s.worker
  · simpa [LoggerState.push, LoggerState.notify_eq, LoggerState.countDrop] using hnotified s.worker
  · exact .inl rfl

/-- The worker only goes to block when it has found the flag unset. -/
theorem run_worker {s s' : LoggerState} {now : UInt64} (hstop : s.stop = true)
    (hblock : s.worker ≠ .block) (h : run s now = some s') :
    s'.worker ≠ .block ∧ s'.worker ≠ .blocked := by
  unfold run at h
  cases hw : s.worker with
  | write batch | drainWrite batch =>
      cases batch <;> simp only [hw, Option.some.injEq] at h <;> subst h <;> simp
  | block => exact absurd hw hblock
  | blocked | exited => simp [hw] at h
  | loop | test | check | drainCheck | exchange =>
      simp only [hw] at h
      split at h <;> obtain rfl := Option.some.inj h <;> simp_all
  | lock | woken | swap | drainSwap | summary =>
      simp only [hw, Option.some.injEq] at h
      subst h
      simp

theorem awake_next {options : AsyncJsonLoggerOptions} {s s' : LoggerState} {a : LoggerAct}
    (hs : Awake s) (hoff : NotifiesOutside s a) (h : (logger options).next s a = some s') :
    Awake s' := by
  cases a with
  | log event now =>
      rcases log_cases h with ⟨-, rfl⟩ | ⟨-, -, rfl⟩
      · exact hs
      · obtain ⟨hstop, hdest, -, -⟩ := enqueue_frame options s (stamp event now)
        refine ⟨by rw [hstop, hdest]; exact hs.flag, fun hnotified => ?_⟩
        rw [hdest] at hnotified
        rcases enqueue_worker options s (stamp event now) with hw | hw <;> rw [hw]
        · exact hs.notified hnotified
        · exact ⟨by simp, by simp⟩
  | work now =>
      obtain ⟨-, -, hstop, hdest, -, -, -⟩ := run_conserves h
      refine ⟨by rw [hstop, hdest]; exact hs.flag, fun hnotified => ?_⟩
      rw [hdest] at hnotified
      have hflag : s.stop = true := hs.flag (by rcases hnotified with hd | hd <;> simp [hd])
      exact run_worker hflag (hs.notified hnotified).1 h
  | wakeup =>
      obtain ⟨-, rfl⟩ := wakeup_eq options h
      exact ⟨hs.flag, fun _ => ⟨by simp, by simp⟩⟩
  | destroy =>
      have hdestroy : destroy s = some s' := h
      unfold destroy at hdestroy
      cases hd : s.destructor with
      | idle =>
          simp only [hd, Option.some.injEq] at hdestroy
          subst hdestroy
          exact ⟨fun _ => rfl, by simp⟩
      | notify =>
          have hflag : s.stop = true := hs.flag (by simp [hd])
          have hblock : s.worker ≠ .block := hoff rfl hd
          simp only [hd, Option.some.injEq] at hdestroy
          subst hdestroy
          -- a worker that is blocked already is the one the notification wakes
          simp only [LoggerState.notify_eq]
          refine ⟨fun _ => hflag, fun _ => ?_⟩
          split <;> simp_all
      | join =>
          simp only [hd] at hdestroy
          split at hdestroy
          · next hexited =>
            obtain rfl := Option.some.inj hdestroy
            exact ⟨fun _ => hs.flag (by simp [hd]), fun _ => by simp [hexited]⟩
          · cases hdestroy
      | done => simp [hd] at hdestroy

/-- Shutting down cannot hang in any run whose destructor does not notify into
the gap; wherever an orderly run lets it, two more steps hang; and what hangs stays so,
since no notification is left to come. -/
theorem shutdown_deadlock_free (options : AsyncJsonLoggerOptions) :
    (∀ s, (logger options).Reach NotifiesOutside s → ¬ Deadlocked s) ∧
    (∀ s, (logger options).Reach Orderly s → ¬ NotifiesOutside s .destroy →
      ∃ s', (logger options).exec s [.destroy, .work 0] = some s' ∧
        (logger options).Reach Orderly s' ∧ Deadlocked s') ∧
    (∀ s a, Deadlocked s → Orderly s a → a ≠ .wakeup → (logger options).next s a = none) := by
  refine ⟨fun s h hdead => ?_, fun s h hinside => ?_, fun s a hdead horderly hspurious => ?_⟩
  · have hawake : Awake s := h.invariant ⟨by simp [logger, LoggerState.initial],
      by simp [logger, LoggerState.initial]⟩ awake_next
    exact (hawake.notified (.inl hdead.1)).2 hdead.2
  · obtain ⟨hdest, hworker⟩ : s.destructor = .notify ∧ s.worker = .block := by
      simpa [NotifiesOutside] using hinside
    have hexec : (logger options).exec s [.destroy, .work 0] =
        some { s with destructor := .join, worker := .blocked } := by
      simp [Machine.exec, logger, LoggerState.next, destroy, run, LoggerState.notify, hdest,
        hworker]
    have halong : (logger options).Along Orderly s [.destroy, .work 0] :=
      ⟨trivial, fun _ _ => ⟨trivial, fun _ _ => trivial⟩⟩
    exact ⟨_, hexec, h.exec halong hexec, rfl, rfl⟩
  · exact next_eq_none_of_deadlocked options hdead horderly hspurious

/-- A run into the gap. The worker finds the flag unset and the queue empty; the
destructor stores, notifies and joins; the worker blocks. -/
def lostNotification : List LoggerAct :=
  [.work 0, .work 0, .work 0, .destroy, .destroy, .work 0]

theorem shutdown_deadlocks :
    (logger {}).Along Orderly .initial lostNotification ∧
      (((logger {}).exec .initial lostNotification).map fun s =>
        (s.destructor, s.worker, s.queue)) = some (.join, .blocked, []) := by
  exact ⟨by decide +kernel, by decide +kernel⟩

end KalshiAutotrader.Logging
