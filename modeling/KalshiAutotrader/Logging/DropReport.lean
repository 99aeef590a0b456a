import KalshiAutotrader.Logging.Delivery

/-!
Which drops are reported.

The worker reports drops once per batch, inside its loop. The drain after the
loop writes events and no summary, so a drop that is still on the counter when
the worker leaves the loop is never reported. `overflowRun` is such a run. The
theorem says that this is the only way to lose a report: over the runs in which
no call overlaps the destructor, the summary lines add up to the number of drops
exactly when the counter is zero at the step that leaves the loop.
-/

namespace KalshiAutotrader.Logging

open Kit

/-- The step takes the worker out of its loop. -/
def leavesLoop (s : LoggerState) : LoggerAct → Bool
  | .work _ => s.leaving
  | _ => false

/-- A step that takes the worker out of its loop finds the drop counter at zero. -/
def ReportsFirst (s : LoggerState) (a : LoggerAct) : Prop :=
  leavesLoop s a = true → s.droppedCount = 0

instance (s : LoggerState) (a : LoggerAct) : Decidable (ReportsFirst s a) :=
  inferInstanceAs (Decidable (leavesLoop s a = true → s.droppedCount = 0))

theorem next_leftLoop {options : AsyncJsonLoggerOptions} {s s' : LoggerState} {a : LoggerAct}
    (h : (logger options).next s a = some s') :
    s'.worker.leftLoop = (s.worker.leftLoop || leavesLoop s a) := by
  cases a with
  | log event now =>
      rcases log_cases h with ⟨-, rfl⟩ | ⟨-, -, rfl⟩
      · simp [leavesLoop]
      · simp [leavesLoop, (enqueue_frame options s (stamp event now)).2.2.1]
  | work now => exact run_leftLoop h
  | wakeup =>
      obtain ⟨hw, rfl⟩ := wakeup_eq options h
      simp [Worker.leftLoop, leavesLoop, hw]
  | destroy => simp [leavesLoop, (destroy_leftLoop h)]

/-- Outside the loop nothing reports, and without calls nothing drops: the
counter keeps the value it had when the worker left. -/
theorem droppedCount_of_leftLoop {options : AsyncJsonLoggerOptions} {s s' : LoggerState}
    {a : LoggerAct} (hs : Stopping s) (horderly : Orderly s a)
    (hleft : s.worker.leftLoop = true) (h : (logger options).next s a = some s') :
    s'.droppedCount = s.droppedCount := by
  cases a with
  | log event now => exact absurd horderly (hs.flag.mp (hs.left hleft))
  | work now =>
      have hrun : run s now = some s' := h
      unfold run at hrun
      cases hw : s.worker with
      | drainWrite batch =>
          cases batch <;> simp only [hw, Option.some.injEq] at hrun <;> subst hrun <;> rfl
      | drainCheck | drainSwap =>
          simp only [hw, Option.some.injEq] at hrun
          subst hrun
          rfl
      | exited => simp [hw] at hrun
      | _ => simp [hw, Worker.leftLoop] at hleft
  | wakeup =>
      obtain ⟨-, rfl⟩ := wakeup_eq options h
      rfl
  | destroy => exact (destroy_conserves h).2.2.2.1

/-- Leaving the loop takes nothing off the counter. -/
theorem droppedCount_of_leaves {options : AsyncJsonLoggerOptions} {s s' : LoggerState}
    {a : LoggerAct} (hleaves : leavesLoop s a = true) (h : (logger options).next s a = some s') :
    s'.droppedCount = s.droppedCount := by
  cases a with
  | work now =>
      have hleaving : s.leaving = true := hleaves
      have hrun : run s now = some s' := h
      unfold run at hrun
      cases hw : s.worker with
      | loop | check =>
          simp only [hw, Option.some.injEq] at hrun
          subst hrun
          rfl
      | _ => simp [LoggerState.leaving, hw] at hleaving
  | _ => simp [leavesLoop] at hleaves

theorem not_leaves_of_leftLoop {s : LoggerState} {a : LoggerAct}
    (hleft : s.worker.leftLoop = true) : leavesLoop s a = false := by
  cases a with
  | work now =>
      cases hw : s.worker <;> simp_all [leavesLoop, LoggerState.leaving, Worker.leftLoop]
  | _ => rfl

/-- Inside the loop a run has left nothing unreported; outside it has exactly
when the counter is not zero. -/
theorem reportsFirst_of_exec {options : AsyncJsonLoggerOptions} {s : LoggerState}
    {acts : List LoggerAct} (horderly : (logger options).Along Orderly .initial acts)
    (h : (logger options).exec .initial acts = some s) :
    (s.worker.leftLoop = false → (logger options).Along ReportsFirst .initial acts) ∧
    (s.worker.leftLoop = true →
      ((logger options).Along ReportsFirst .initial acts ↔ s.droppedCount = 0)) := by
  revert horderly
  refine Machine.run_induction (M := logger options)
    (C := fun acts s => (logger options).Along Orderly .initial acts →
      (s.worker.leftLoop = false → (logger options).Along ReportsFirst .initial acts) ∧
      (s.worker.leftLoop = true →
        ((logger options).Along ReportsFirst .initial acts ↔ s.droppedCount = 0)))
    (fun _ => ⟨fun _ => trivial, fun hleft => by cases hleft⟩) ?_ h
  intro acts s a s' hexec ih hnext halong
  obtain ⟨hbefore, hlast⟩ := Machine.along_snoc.mp halong
  have hs : Stopping s := stopping_of_reach (Machine.reach_of_exec hbefore hexec)
  obtain ⟨hinside, houtside⟩ := ih hbefore
  have hsnoc : (logger options).Along ReportsFirst .initial (acts ++ [a]) ↔
      (logger options).Along ReportsFirst .initial acts ∧ ReportsFirst s a := by
    rw [Machine.along_snoc, show (logger options).exec .initial acts = some s from hexec]
    simp
  rw [hsnoc, next_leftLoop hnext]
  cases hleft : s.worker.leftLoop with
  | true =>
      have hstay : ReportsFirst s a := fun hleaves => by
        rw [not_leaves_of_leftLoop hleft] at hleaves
        cases hleaves
      rw [droppedCount_of_leftLoop hs (hlast s hexec) hleft hnext]
      exact ⟨by simp, fun _ => (and_iff_left hstay).trans (houtside hleft)⟩
  | false =>
      cases hleaves : leavesLoop s a with
      | true =>
          rw [droppedCount_of_leaves hleaves hnext]
          refine ⟨by simp, fun _ => (and_iff_right (hinside hleft)).trans ?_⟩
          exact ⟨fun hfirst => hfirst hleaves, fun hzero _ => hzero⟩
      | false =>
          exact ⟨fun _ => ⟨hinside hleft, fun h => by rw [hleaves] at h; cases h⟩, by simp⟩

/-- The summaries of a finished run add up to the number of drops exactly when
the worker left its loop with the counter at zero. -/
theorem reported_eq_drops_iff (options : AsyncJsonLoggerOptions) (acts : List LoggerAct)
    (s : LoggerState) (horderly : (logger options).Along Orderly .initial acts)
    (h : (logger options).exec .initial acts = some s) (hexited : s.worker = .exited) :
    s.reported = s.drops ↔ (logger options).Along ReportsFirst .initial acts := by
  have hleft : s.worker.leftLoop = true := by rw [hexited]; rfl
  have hdrops : s.drops = s.droppedCount + 0 + s.reported := by
    have := drops_eq (Machine.reachable_of_exec h)
    rwa [hexited] at this
  rw [(reportsFirst_of_exec horderly h).2 hleft]
  omega

/-- A run that ends with a drop nobody reports: the destructor sets the flag
before the worker has gone round its loop once. -/
theorem overflow_unreported :
    (logger { queueSize := 1 }).Along Orderly .initial overflowRun ∧
      (logger { queueSize := 1 }).exec .initial overflowRun = some overflowEnd ∧
      overflowEnd.worker = .exited ∧ overflowEnd.reported = 0 ∧ overflowEnd.drops = 1 := by
  refine ⟨by decide +kernel, exec_overflowRun, rfl, rfl, rfl⟩

/-- The worker swaps the queue out and reports the drop before the destructor
begins. -/
def reportedRun : List LoggerAct :=
  let trade := logEvent .info (ascii "md.sink") (ascii "trade") []
  [.log trade 1, .log trade 2, .work 3, .work 3, .work 3, .work 3, .work 3, .work 3, .work 3,
    .work 3, .work 3, .destroy, .destroy, .work 4, .work 4]

theorem reported_eq_drops_reportedRun :
    ∃ s, (logger { queueSize := 1 }).exec .initial reportedRun = some s ∧
      s.worker = .exited ∧ s.drops = 1 ∧ s.reported = s.drops := by
  obtain ⟨s, hs, hexited, hdrops⟩ : ∃ s,
      (logger { queueSize := 1 }).exec .initial reportedRun = some s ∧
        s.worker = .exited ∧ s.drops = 1 := by
    exact ⟨_, rfl, by decide +kernel, by decide +kernel⟩
  exact ⟨s, hs, hexited, hdrops, (reported_eq_drops_iff _ _ s (by decide +kernel) hs hexited).mpr
    (by decide +kernel)⟩

end KalshiAutotrader.Logging
