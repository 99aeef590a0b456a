import KalshiAutotrader.Kit.LossyFifo
import KalshiAutotrader.Logging.AsyncJsonLogger
import Mathlib.Algebra.Ring.Nat

/-!
What the logger delivers: it refines a lossy channel.

The events the logger has kept are the ones written, then the ones in the
worker's hand, then the queue. No step of the worker or of the destructor
changes that sequence; a call of `log` changes it by one offer of
`Kit.Fifo`. Order, multiplicity and the count of what is missing are therefore
the channel's, and only the bound on the queue and the two drop policies are
left to be read off the code.
-/

namespace KalshiAutotrader.Logging

open Kit

/-- The events written so far, without the summary lines. -/
def LoggerState.events (s : LoggerState) : List LogEvent := s.written.filterMap Line.event?

/-- The drops reported so far. -/
def LoggerState.reported (s : LoggerState) : ℕ := (s.written.map Line.reported).sum

/-- The events that are written, in the worker's hand or queued. -/
def LoggerState.kept (s : LoggerState) : List LogEvent :=
  s.events ++ s.worker.hand ++ s.queue

/-! ### One step

What each kind of action can do is said once here; the invariants below use
these lemmas and do not look into the code again. -/

theorem LoggerState.notify_eq (s : LoggerState) :
    s.notify = { s with worker := if s.worker = .blocked then .woken else s.worker } := by
  unfold LoggerState.notify
  split <;> rfl

/-- A notification takes nothing out of the worker's hand. -/
@[simp] theorem hand_notified (w : Worker) :
    (if w = .blocked then Worker.woken else w).hand = w.hand := by
  split <;> simp_all [Worker.hand]

@[simp] theorem unreported_notified (w : Worker) :
    (if w = .blocked then Worker.woken else w).unreported = w.unreported := by
  split <;> simp_all [Worker.unreported]

@[simp] theorem leftLoop_notified (w : Worker) :
    (if w = .blocked then Worker.woken else w).leftLoop = w.leftLoop := by
  split <;> simp_all [Worker.leftLoop]

theorem log_cases {options : AsyncJsonLoggerOptions} {s s' : LoggerState} {event : LogEvent}
    {now : UInt64} (h : log options s event now = some s') :
    (shouldLog event.level options.level = false ∧ s' = s) ∨
      (shouldLog event.level options.level = true ∧ s.worker.holdsMutex = false ∧
        s' = enqueue options s (stamp event now)) := by
  unfold log at h
  split at h
  · next hlevel =>
    split at h
    · cases h
    · next hmutex => exact .inr ⟨hlevel, by simpa using hmutex, by simpa using h.symm⟩
  · next hlevel => exact .inl ⟨by simpa using hlevel, by simpa using h.symm⟩

theorem popFront_eq (s : LoggerState) : s.popFront =
    { s with queue := s.queue.tail, poppedEmpty := s.poppedEmpty || s.queue.isEmpty } := by
  obtain ⟨queue, _⟩ := s
  cases queue <;> simp [LoggerState.popFront]

/-- The three outcomes of `enqueue`: there was room, the oldest event went, or
the new one did. -/
theorem enqueue_cases (options : AsyncJsonLoggerOptions) (s : LoggerState) (event : LogEvent) :
    (s.queue.length < options.queueSize ∧ enqueue options s event =
      { s with offered := s.offered ++ [event] }.push event) ∨
    (options.queueSize ≤ s.queue.length ∧ options.dropPolicy = .dropOldest ∧
      enqueue options s event =
        { s with
          offered := s.offered ++ [event]
          queue := s.queue.tail
          poppedEmpty := s.poppedEmpty || s.queue.isEmpty }.countDrop.push event) ∨
    (options.queueSize ≤ s.queue.length ∧ options.dropPolicy = .dropNewest ∧
      enqueue options s event = { s with offered := s.offered ++ [event] }.countDrop) := by
  unfold enqueue
  by_cases hfull : options.queueSize ≤ s.queue.length
  · cases hpolicy : options.dropPolicy <;> simp [hfull, popFront_eq]
  · exact .inl ⟨by omega, by simp [hfull]⟩

/-- The worker moves events and counts along, and loses none. -/
theorem run_conserves {s s' : LoggerState} {now : UInt64} (h : run s now = some s') :
    s'.offered = s.offered ∧ s'.drops = s.drops ∧ s'.stop = s.stop ∧
      s'.destructor = s.destructor ∧ s'.kept = s.kept ∧
      s'.droppedCount + s'.worker.unreported + s'.reported =
        s.droppedCount + s.worker.unreported + s.reported ∧
      (s'.queue = s.queue ∨ s'.queue = []) := by
  unfold run at h
  cases hw : s.worker with
  | write batch | drainWrite batch =>
      cases batch <;> simp only [hw, Option.some.injEq] at h <;> subst h <;>
        simp [LoggerState.kept, LoggerState.events, LoggerState.reported, Worker.hand,
          Worker.unreported, Line.event?, Line.reported, hw]
  | blocked | exited => simp [hw] at h
  | exchange =>
      simp only [hw, Option.some.injEq] at h
      subst h
      by_cases hzero : 0 < s.droppedCount <;>
        simp [LoggerState.kept, LoggerState.events, LoggerState.reported, Worker.hand,
          Worker.unreported, hw, hzero]
      omega
  | summary dropped =>
      simp only [hw, Option.some.injEq] at h
      subst h
      simp [LoggerState.kept, LoggerState.events, LoggerState.reported, Worker.hand,
        Worker.unreported, Line.event?, Line.reported, hw]
      omega
  | loop | test | check | drainCheck =>
      simp only [hw] at h
      split at h <;> obtain rfl := Option.some.inj h <;>
        simp [LoggerState.kept, LoggerState.events, LoggerState.reported, Worker.hand,
          Worker.unreported, hw]
  | lock | block | woken | swap | drainSwap =>
      simp only [hw, Option.some.injEq] at h
      subst h
      simp [LoggerState.kept, LoggerState.events, LoggerState.reported, Worker.hand,
        Worker.unreported, hw]

/-- Neither a notification nor the destructor touches what is kept or counted. -/
theorem destroy_conserves {s s' : LoggerState} (h : destroy s = some s') :
    s'.offered = s.offered ∧ s'.drops = s.drops ∧ s'.kept = s.kept ∧
      s'.droppedCount = s.droppedCount ∧ s'.worker.unreported = s.worker.unreported ∧
      s'.reported = s.reported ∧ s'.queue = s.queue := by
  unfold destroy at h
  cases hd : s.destructor with
  | idle =>
      simp only [hd, Option.some.injEq] at h
      subst h
      exact ⟨rfl, rfl, rfl, rfl, rfl, rfl, rfl⟩
  | notify =>
      simp only [hd, Option.some.injEq] at h
      subst h
      simp [LoggerState.notify_eq, LoggerState.kept, LoggerState.events, LoggerState.reported]
  | join =>
      simp only [hd] at h
      split at h
      · obtain rfl := Option.some.inj h
        exact ⟨rfl, rfl, rfl, rfl, rfl, rfl, rfl⟩
      · cases h
  | done => simp [hd] at h

theorem destroy_leftLoop {s s' : LoggerState} (h : destroy s = some s') :
    s'.worker.leftLoop = s.worker.leftLoop := by
  unfold destroy at h
  split at h
  · obtain rfl := Option.some.inj h
    rfl
  · obtain rfl := Option.some.inj h
    simp [LoggerState.notify_eq]
  · split at h
    · obtain rfl := Option.some.inj h
      rfl
    · cases h
  · cases h

theorem wakeup_eq (options : AsyncJsonLoggerOptions) {s s' : LoggerState}
    (h : LoggerState.next options s .wakeup = some s') :
    s.worker = .blocked ∧ s' = { s with worker := .woken } := by
  simp only [LoggerState.next] at h
  split at h
  · next hw =>
    refine ⟨hw, ?_⟩
    rw [LoggerState.notify_eq, if_pos hw] at h
    exact (Option.some.inj h).symm
  · cases h

/-- A step that offers nothing: everything kept and counted stays. -/
structure Quiet (s s' : LoggerState) : Prop where
  offered : s'.offered = s.offered
  drops : s'.drops = s.drops
  kept : s'.kept = s.kept
  counter : s'.droppedCount + s'.worker.unreported + s'.reported =
    s.droppedCount + s.worker.unreported + s.reported
  queue : s'.queue = s.queue ∨ s'.queue = []

theorem Quiet.refl (s : LoggerState) : Quiet s s := ⟨rfl, rfl, rfl, rfl, .inl rfl⟩

/-- Every step is quiet, or it is a level-passing call of `log`. -/
theorem next_cases {options : AsyncJsonLoggerOptions} {s s' : LoggerState} {a : LoggerAct}
    (h : LoggerState.next options s a = some s') :
    Quiet s s' ∨ ∃ event now, a = .log event now ∧
      shouldLog event.level options.level = true ∧
      s' = enqueue options s (stamp event now) := by
  cases a with
  | log event now =>
      rcases log_cases h with ⟨-, rfl⟩ | ⟨hlevel, -, rfl⟩
      · exact .inl (.refl s')
      · exact .inr ⟨event, now, rfl, hlevel, rfl⟩
  | work now =>
      obtain ⟨hoffered, hdrops, -, -, hkept, hcounter, hqueue⟩ := run_conserves h
      exact .inl ⟨hoffered, hdrops, hkept, hcounter, hqueue⟩
  | wakeup =>
      obtain ⟨hw, rfl⟩ := wakeup_eq options h
      refine .inl ⟨rfl, rfl, ?_, ?_, .inl rfl⟩ <;>
        simp [LoggerState.kept, LoggerState.events, LoggerState.reported, hw, Worker.hand,
          Worker.unreported]
  | destroy =>
      obtain ⟨hoffered, hdrops, hkept, hcount, hheld, hreported, hqueue⟩ := destroy_conserves h
      exact .inl ⟨hoffered, hdrops, hkept, by rw [hcount, hheld, hreported], .inl hqueue⟩

@[simp] theorem push_offered (s : LoggerState) (event : LogEvent) :
    (s.push event).offered = s.offered := by
  simp [LoggerState.push, LoggerState.notify_eq]

@[simp] theorem push_queue (s : LoggerState) (event : LogEvent) :
    (s.push event).queue = s.queue ++ [event] := by
  simp [LoggerState.push, LoggerState.notify_eq]

@[simp] theorem push_drops (s : LoggerState) (event : LogEvent) :
    (s.push event).drops = s.drops := by
  simp [LoggerState.push, LoggerState.notify_eq]

@[simp] theorem push_kept (s : LoggerState) (event : LogEvent) :
    (s.push event).kept = s.kept ++ [event] := by
  simp [LoggerState.push, LoggerState.notify_eq, LoggerState.kept, LoggerState.events,
    List.append_assoc]

@[simp] theorem push_counter (s : LoggerState) (event : LogEvent) :
    (s.push event).droppedCount = s.droppedCount ∧
      (s.push event).worker.unreported = s.worker.unreported ∧
      (s.push event).written = s.written := by
  simp [LoggerState.push, LoggerState.notify_eq]

/-- The level-passing event an action offers. -/
def LoggerAct.offer (options : AsyncJsonLoggerOptions) : LoggerAct → Option LogEvent
  | .log event now =>
      if shouldLog event.level options.level then some (stamp event now) else none
  | _ => none

theorem enqueue_offered (options : AsyncJsonLoggerOptions) (s : LoggerState) (event : LogEvent) :
    (enqueue options s event).offered = s.offered ++ [event] := by
  rcases enqueue_cases options s event with
    ⟨-, heq⟩ | ⟨-, -, heq⟩ | ⟨-, -, heq⟩ <;> rw [heq] <;> simp [LoggerState.countDrop]

theorem next_offered {options : AsyncJsonLoggerOptions} {s s' : LoggerState} {a : LoggerAct}
    (h : LoggerState.next options s a = some s') :
    s'.offered = s.offered ++ (a.offer options).toList := by
  cases a with
  | log event now =>
      rcases log_cases h with ⟨hlevel, rfl⟩ | ⟨hlevel, -, rfl⟩
      · simp [LoggerAct.offer, hlevel]
      · simp [LoggerAct.offer, hlevel, enqueue_offered]
  | work now => simpa [LoggerAct.offer] using (run_conserves h).1
  | wakeup =>
      obtain ⟨-, rfl⟩ := wakeup_eq options h
      simp [LoggerAct.offer]
  | destroy => simpa [LoggerAct.offer] using (destroy_conserves h).1

/-- What has been offered is what the run's level-passing calls offered, in their
order. -/
theorem offered_of_exec {options : AsyncJsonLoggerOptions} {s : LoggerState}
    {acts : List LoggerAct} (h : (logger options).exec .initial acts = some s) :
    s.offered = acts.filterMap (LoggerAct.offer options) := by
  refine Machine.run_induction (M := logger options)
    (C := fun acts s => s.offered = acts.filterMap (LoggerAct.offer options)) rfl ?_ h
  intro acts s a s' _ ih hnext
  rw [next_offered hnext, ih, List.filterMap_append]
  cases hoffer : a.offer options <;> simp [hoffer]

/-! ### The refinement -/

/-- The logger's history, read as that of a lossy channel. -/
structure Delivers (s : LoggerState) (c : Fifo LogEvent) : Prop where
  offered : c.offered = s.offered
  kept : c.kept = s.kept
  lost : c.lost = s.drops

/-- A call that gets as far as `enqueue` is one offer of the channel. -/
theorem enqueue_refines {options : AsyncJsonLoggerOptions} (hsize : 1 ≤ options.queueSize)
    {s : LoggerState} {c : Fifo LogEvent} (hc : Delivers s c) (event : LogEvent) :
    ∃ c', Fifo.Step c c' ∧ Delivers (enqueue options s event) c' := by
  rcases enqueue_cases options s event with
    ⟨-, heq⟩ | ⟨hfull, -, heq⟩ | ⟨-, -, heq⟩ <;> rw [heq]
  · refine ⟨c.keep event, .keep c event, ?_, ?_, ?_⟩
    · simp [Fifo.keep, hc.offered]
    · rw [push_kept]
      exact congrArg (· ++ [event]) hc.kept
    · simpa [Fifo.keep] using hc.lost
  · cases hq : s.queue with
    | nil => simp [hq] at hfull; omega
    | cons oldest rest =>
        have hkept : c.kept = (s.events ++ s.worker.hand) ++ oldest :: rest := by
          rw [hc.kept, LoggerState.kept, hq]
        refine ⟨_, .evict c event _ oldest rest hkept, ?_, ?_, ?_⟩
        · simp [Fifo.evict, hc.offered, LoggerState.countDrop]
        · rw [push_kept]
          simp [Fifo.evict, LoggerState.kept, LoggerState.events, LoggerState.countDrop]
        · simp [Fifo.evict, hc.lost, LoggerState.countDrop]
  · refine ⟨c.refuse event, .refuse c event, ?_, ?_, ?_⟩
    · simp [Fifo.refuse, hc.offered, LoggerState.countDrop]
    · exact hc.kept
    · simp [Fifo.refuse, hc.lost, LoggerState.countDrop]

/-- The logger refines the lossy channel, under every schedule. -/
theorem logger_refines_fifo {options : AsyncJsonLoggerOptions} (hsize : 1 ≤ options.queueSize)
    {s : LoggerState} (h : (logger options).Reachable s) :
    ∃ c, Relation.ReflTransGen Fifo.Step .empty c ∧ Delivers s c := by
  refine h.simulates (R := Delivers) ⟨rfl, rfl, rfl⟩ ?_
  intro s a s' c hc _ hnext
  rcases next_cases hnext with hquiet | ⟨event, now, -, -, rfl⟩
  · exact ⟨c, .refl, hc.offered.trans hquiet.offered.symm, hc.kept.trans hquiet.kept.symm,
      hc.lost.trans hquiet.drops.symm⟩
  · obtain ⟨c', hstep, hc'⟩ := enqueue_refines hsize hc (stamp event now)
    exact ⟨c', .single hstep, hc'⟩

/-! ### The bound and the two policies -/

theorem queue_length_le {options : AsyncJsonLoggerOptions} (hsize : 1 ≤ options.queueSize)
    {s : LoggerState} (h : (logger options).Reachable s) :
    s.queue.length ≤ options.queueSize := by
  refine h.invariant (I := fun s => s.queue.length ≤ options.queueSize) (Nat.zero_le _) ?_
  intro s a s' ih _ hnext
  rcases next_cases hnext with hquiet | ⟨event, now, -, -, rfl⟩
  · rcases hquiet.queue with hq | hq <;> simp [hq, ih]
  · rcases enqueue_cases options s (stamp event now) with
      ⟨hroom, heq⟩ | ⟨hfull, -, heq⟩ | ⟨-, -, heq⟩ <;> rw [heq]
    · simpa [Nat.succ_le_iff] using hroom
    · simp [LoggerState.countDrop]
      omega
    · exact ih

/-- Under `DropOldest` the queue is the most recent part of what was offered. -/
theorem queue_suffix_offered {options : AsyncJsonLoggerOptions}
    (hpolicy : options.dropPolicy = .dropOldest) {s : LoggerState}
    (h : (logger options).Reachable s) : s.queue <:+ s.offered := by
  refine h.invariant (I := fun s => s.queue <:+ s.offered) List.nil_suffix ?_
  intro s a s' ih _ hnext
  rcases next_cases hnext with hquiet | ⟨event, now, -, -, rfl⟩
  · rcases hquiet.queue with hq | hq
    · rwa [hq, hquiet.offered]
    · rw [hq]
      exact List.nil_suffix
  · rcases enqueue_cases options s (stamp event now) with
      ⟨-, heq⟩ | ⟨-, -, heq⟩ | ⟨-, hnewest, -⟩
    · rw [heq]
      obtain ⟨front, hfront⟩ := ih
      exact ⟨front, by simp [← hfront, List.append_assoc]⟩
    · rw [heq]
      obtain ⟨front, hfront⟩ := (List.tail_suffix s.queue).trans ih
      exact ⟨front, by simp [← hfront, List.append_assoc, LoggerState.countDrop]⟩
    · rw [hpolicy] at hnewest
      cases hnewest

/-- Under `DropNewest` a step only ever appends to what is kept. -/
theorem kept_prefix_of_next {options : AsyncJsonLoggerOptions}
    (hpolicy : options.dropPolicy = .dropNewest) {s s' : LoggerState} {a : LoggerAct}
    (h : (logger options).next s a = some s') : s.kept <+: s'.kept := by
  rcases next_cases h with hquiet | ⟨event, now, -, -, rfl⟩
  · exact hquiet.kept ▸ List.prefix_refl _
  · rcases enqueue_cases options s (stamp event now) with
      ⟨-, heq⟩ | ⟨-, holdest, -⟩ | ⟨-, -, heq⟩
    · rw [heq, push_kept]
      exact List.prefix_append _ _
    · rw [hpolicy] at holdest
      cases holdest
    · rw [heq]
      exact List.prefix_refl _

theorem kept_prefix_of_exec {options : AsyncJsonLoggerOptions}
    (hpolicy : options.dropPolicy = .dropNewest) {s s' : LoggerState} {acts : List LoggerAct}
    (h : (logger options).exec s acts = some s') : s.kept <+: s'.kept :=
  Machine.exec_rel (R := fun s s' => s.kept <+: s'.kept) (fun _ => List.prefix_refl _)
    List.IsPrefix.trans (kept_prefix_of_next hpolicy) h

/-! ### Shutting down

When every call of `log` has returned before the destructor begins, nothing can
be offered once the flag is set, and the worker leaves its loop only after it
has seen the flag. What it finds in the queue then is all there is to drain. -/

/-- No call of `log` after the destructor has begun. -/
def Orderly (s : LoggerState) : LoggerAct → Prop
  | .log _ _ => s.destructor = .idle
  | _ => True

instance (s : LoggerState) : ∀ a, Decidable (Orderly s a)
  | .log _ _ => inferInstanceAs (Decidable (s.destructor = .idle))
  | .work _ | .wakeup | .destroy => isTrue trivial

/-- The worker has swapped the queue out for the last time. -/
def Worker.drained : Worker → Bool
  | .drainWrite _ | .exited => true
  | _ => false

structure Stopping (s : LoggerState) : Prop where
  flag : s.stop = true ↔ s.destructor ≠ .idle
  left : s.worker.leftLoop = true → s.stop = true
  drained : s.worker.drained = true → s.queue = []

theorem leftLoop_of_drained {w : Worker} (h : w.drained = true) : w.leftLoop = true := by
  cases w <;> simp_all [Worker.drained, Worker.leftLoop]

@[simp] theorem drained_notified (w : Worker) :
    (if w = .blocked then Worker.woken else w).drained = w.drained := by
  split <;> simp_all [Worker.drained]

/-- What `enqueue` leaves alone. -/
theorem enqueue_frame (options : AsyncJsonLoggerOptions) (s : LoggerState) (event : LogEvent) :
    (enqueue options s event).stop = s.stop ∧
      (enqueue options s event).destructor = s.destructor ∧
      (enqueue options s event).worker.leftLoop = s.worker.leftLoop ∧
      (enqueue options s event).worker.drained = s.worker.drained := by
  rcases enqueue_cases options s event with
    ⟨-, heq⟩ | ⟨-, -, heq⟩ | ⟨-, -, heq⟩ <;> rw [heq] <;>
    simp [LoggerState.push, LoggerState.notify_eq, LoggerState.countDrop]

/-- The worker's next step takes it out of the loop: it sees the flag in the
loop condition, or it breaks out with nothing queued. -/
def LoggerState.leaving (s : LoggerState) : Bool :=
  match s.worker with
  | .loop => s.stop
  | .check => s.stop && s.queue.isEmpty
  | _ => false

theorem stop_of_leaving {s : LoggerState} (h : s.leaving = true) : s.stop = true := by
  unfold LoggerState.leaving at h
  split at h <;> simp_all

theorem run_leftLoop {s s' : LoggerState} {now : UInt64} (h : run s now = some s') :
    s'.worker.leftLoop = (s.worker.leftLoop || s.leaving) := by
  unfold run at h
  cases hw : s.worker with
  | write batch | drainWrite batch =>
      cases batch <;> simp only [hw, Option.some.injEq] at h <;> subst h <;>
        simp [Worker.leftLoop, LoggerState.leaving, hw]
  | blocked | exited => simp [hw] at h
  | loop | test | check | drainCheck | exchange =>
      simp only [hw] at h
      split at h <;> obtain rfl := Option.some.inj h <;>
        simp_all [Worker.leftLoop, LoggerState.leaving]
  | lock | block | woken | swap | drainSwap | summary =>
      simp only [hw, Option.some.injEq] at h
      subst h
      simp [Worker.leftLoop, LoggerState.leaving, hw]

/-- The worker comes to drained program points with an empty queue only. -/
theorem run_drained {s s' : LoggerState} {now : UInt64} (h : run s now = some s')
    (hd : s'.worker.drained = true) : s.worker.drained = true ∨ s'.queue = [] := by
  unfold run at h
  cases hw : s.worker with
  | write batch =>
      cases batch <;> simp only [hw, Option.some.injEq] at h <;> subst h <;>
        simp [Worker.drained] at hd
  | drainWrite | exited => exact .inl rfl
  | blocked => simp [hw] at h
  | loop | test | check | drainCheck | exchange =>
      simp only [hw] at h
      split at h <;> obtain rfl := Option.some.inj h <;> simp_all [Worker.drained]
  | lock | block | woken | swap | drainSwap | summary =>
      simp only [hw, Option.some.injEq] at h
      subst h
      simp_all [Worker.drained]

theorem stopping_next {options : AsyncJsonLoggerOptions} {s s' : LoggerState} {a : LoggerAct}
    (hs : Stopping s) (horderly : Orderly s a) (h : (logger options).next s a = some s') :
    Stopping s' := by
  cases a with
  | log event now =>
      have hidle : s.stop ≠ true := fun hstop => hs.flag.mp hstop horderly
      rcases log_cases h with ⟨-, rfl⟩ | ⟨-, -, rfl⟩
      · exact hs
      · obtain ⟨hstop, hdest, hleft, hdrained⟩ := enqueue_frame options s (stamp event now)
        refine ⟨by rw [hstop, hdest]; exact hs.flag, ?_, ?_⟩
        · rw [hleft, hstop]
          exact hs.left
        · intro hd
          rw [hdrained] at hd
          exact absurd (hs.left (leftLoop_of_drained hd)) hidle
  | work now =>
      have hrun : run s now = some s' := h
      obtain ⟨-, -, hstop, hdest, -, -, hqueue⟩ := run_conserves hrun
      refine ⟨by rw [hstop, hdest]; exact hs.flag, ?_, ?_⟩
      · rw [run_leftLoop hrun, hstop, Bool.or_eq_true]
        exact Or.rec hs.left stop_of_leaving
      · intro hd
        rcases run_drained hrun hd with hbefore | hempty
        · exact hqueue.elim (fun hq => hq.trans (hs.drained hbefore)) id
        · exact hempty
  | wakeup =>
      obtain ⟨-, rfl⟩ := wakeup_eq options h
      exact ⟨hs.flag, by simp [Worker.leftLoop], by simp [Worker.drained]⟩
  | destroy =>
      have hdestroy : destroy s = some s' := h
      unfold destroy at hdestroy
      cases hd : s.destructor with
      | idle =>
          simp only [hd, Option.some.injEq] at hdestroy
          subst hdestroy
          exact ⟨by simp, fun _ => rfl, hs.drained⟩
      | notify =>
          have hflag : s.stop = true := hs.flag.mpr (by simp [hd])
          simp only [hd, Option.some.injEq] at hdestroy
          subst hdestroy
          refine ⟨?_, ?_, ?_⟩ <;> simp only [LoggerState.notify_eq, drained_notified]
          · simp [hflag]
          · exact fun _ => hflag
          · exact hs.drained
      | join =>
          have hflag : s.stop = true := hs.flag.mpr (by simp [hd])
          simp only [hd] at hdestroy
          split at hdestroy
          · obtain rfl := Option.some.inj hdestroy
            exact ⟨by simp [hflag], hs.left, hs.drained⟩
          · cases hdestroy
      | done => simp [hd] at hdestroy

theorem stopping_of_reach {options : AsyncJsonLoggerOptions} {s : LoggerState}
    (h : (logger options).Reach Orderly s) : Stopping s :=
  h.invariant ⟨by simp [logger, LoggerState.initial], by simp [logger, LoggerState.initial,
    Worker.leftLoop], by simp [logger, LoggerState.initial]⟩ stopping_next

/-! ### The laws of delivery -/

/-- Every increment of the drop counter is still on it, in the worker's hand, or
reported. -/
theorem drops_eq {options : AsyncJsonLoggerOptions} {s : LoggerState}
    (h : (logger options).Reachable s) :
    s.drops = s.droppedCount + s.worker.unreported + s.reported := by
  refine h.invariant
    (I := fun s => s.drops = s.droppedCount + s.worker.unreported + s.reported) rfl ?_
  intro s a s' ih _ hnext
  rcases next_cases hnext with hquiet | ⟨event, now, -, -, rfl⟩
  · rw [hquiet.drops, hquiet.counter]
    exact ih
  · rcases enqueue_cases options s (stamp event now) with
      ⟨-, heq⟩ | ⟨-, -, heq⟩ | ⟨-, -, heq⟩ <;> rw [heq]
    · simpa [LoggerState.reported] using ih
    · simp [LoggerState.countDrop, LoggerState.reported] at ih ⊢
      omega
    · simp [LoggerState.countDrop, LoggerState.reported] at ih ⊢
      omega

/-- The laws of delivery. What a run has offered are its level-passing calls. In
every reachable state the queue is within its bound; what is kept is in order and
without repetition; the offered events are the written, the held, the queued and
the dropped ones; and each policy drops at its own end. When no call overlaps the
destructor, nothing is left behind by a worker that has exited. -/
theorem logger_delivery (options : AsyncJsonLoggerOptions) (hsize : 1 ≤ options.queueSize) :
    (∀ acts s, (logger options).exec .initial acts = some s →
      s.offered = acts.filterMap (LoggerAct.offer options)) ∧
    (∀ s, (logger options).Reachable s →
      s.queue.length ≤ options.queueSize ∧
      (s.events ++ s.worker.hand ++ s.queue).Sublist s.offered ∧
      (s.offered.Nodup → (s.events ++ s.worker.hand ++ s.queue).Nodup) ∧
      s.offered.length =
        s.events.length + s.worker.hand.length + s.queue.length + s.drops ∧
      s.drops = s.droppedCount + s.worker.unreported + s.reported ∧
      (options.dropPolicy = .dropNewest → ∀ acts s', (logger options).exec s acts = some s' →
        s.events ++ s.worker.hand ++ s.queue <+: s'.events ++ s'.worker.hand ++ s'.queue) ∧
      (options.dropPolicy = .dropOldest → s.queue <:+ s.offered)) ∧
    (∀ s, (logger options).Reach Orderly s → s.worker = .exited →
      s.worker.hand = [] ∧ s.queue = [] ∧ s.events.Sublist s.offered ∧
      s.offered.length = s.events.length + s.drops) := by
  have hlaws : ∀ s, (logger options).Reachable s → s.kept.Sublist s.offered ∧
      (s.offered.Nodup → s.kept.Nodup) ∧ s.offered.length = s.kept.length + s.drops := by
    intro s h
    obtain ⟨c, -, hc⟩ := logger_refines_fifo hsize h
    rw [← hc.offered, ← hc.kept, ← hc.lost]
    exact ⟨c.ordered, c.nodup_kept, c.counted⟩
  have hlength : ∀ s : LoggerState,
      s.kept.length = s.events.length + s.worker.hand.length + s.queue.length := by
    intro s
    simp [LoggerState.kept, Nat.add_assoc]
  refine ⟨fun acts s h => offered_of_exec h, fun s h => ?_, fun s h hexited => ?_⟩
  · obtain ⟨hsub, hnodup, hcount⟩ := hlaws s h
    rw [hlength] at hcount
    exact ⟨queue_length_le hsize h, hsub, hnodup, hcount, drops_eq h,
      fun hpolicy _ _ => kept_prefix_of_exec hpolicy, fun hpolicy => queue_suffix_offered hpolicy h⟩
  · have hqueue : s.queue = [] := (stopping_of_reach h).drained (by rw [hexited]; rfl)
    have hhand : s.worker.hand = [] := by rw [hexited]; rfl
    obtain ⟨hsub, -, hcount⟩ := hlaws s h.reachable
    rw [hlength, hhand, hqueue] at hcount
    rw [LoggerState.kept, hhand, hqueue] at hsub
    exact ⟨hhand, hqueue, by simpa using hsub, by simpa using hcount⟩

/-- Two events for a queue of one, and the destructor before the worker has
looked at the queue at all. -/
def overflowRun : List LoggerAct :=
  let trade := logEvent .info (ascii "md.sink") (ascii "trade") []
  [.log trade 1, .log trade 2, .destroy, .destroy, .work 3, .work 3, .work 3, .work 3, .work 3,
    .destroy]

/-- The state `overflowRun` ends in: the second event is written, the first one
is counted as dropped. -/
def overflowEnd : LoggerState where
  queue := []
  stop := true
  droppedCount := 1
  worker := .exited
  destructor := .done
  written := [.event (stamp (logEvent .info (ascii "md.sink") (ascii "trade") []) 2)]
  offered := [stamp (logEvent .info (ascii "md.sink") (ascii "trade") []) 1,
    stamp (logEvent .info (ascii "md.sink") (ascii "trade") []) 2]
  drops := 1
  poppedEmpty := false

theorem exec_overflowRun :
    (logger { queueSize := 1 }).exec .initial overflowRun = some overflowEnd := by
  decide +kernel

theorem reach_overflowEnd : (logger { queueSize := 1 }).Reach Orderly overflowEnd :=
  Machine.reach_of_exec (by decide +kernel) exec_overflowRun

theorem logger_delivery_overflow :
    overflowEnd.queue.length ≤ 1 ∧ overflowEnd.events.Sublist overflowEnd.offered ∧
      overflowEnd.offered.length = overflowEnd.events.length + overflowEnd.drops :=
  have hlaws := logger_delivery { queueSize := 1 } (by decide)
  have hend := hlaws.2.2 overflowEnd reach_overflowEnd rfl
  ⟨(hlaws.2.1 overflowEnd reach_overflowEnd.reachable).1, hend.2.2.1, hend.2.2.2⟩

end KalshiAutotrader.Logging
