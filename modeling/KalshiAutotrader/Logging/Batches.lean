import KalshiAutotrader.Kit.BoundedBuffer
import KalshiAutotrader.Logging.Delivery

/-!
What is lost, batch by batch.

The worker takes the queue as a whole, so the offers of a run fall into batches:
those before it took the queue for the first time, those until the next time, and
so on. Which events a batch loses depends on the batch alone, and not on how the
calls of `log` and the steps of the worker were interleaved.
-/

namespace KalshiAutotrader.Logging

open Kit

/-- Which end of the queue a policy drops at. -/
def DropPolicy.evict : DropPolicy → Evict
  | .dropOldest => .oldest
  | .dropNewest => .newest

/-- The worker's next step takes the queue. -/
def Worker.takesQueue : Worker → Bool
  | .swap | .drainSwap => true
  | _ => false

/-- The offers of a run, cut where the worker took the queue. -/
structure Batches where
  past : List (List LogEvent)
  current : List LogEvent
  deriving DecidableEq

def Batches.update (options : AsyncJsonLoggerOptions) (b : Batches) (s : LoggerState)
    (a : LoggerAct) (_ : LoggerState) : Batches :=
  match a with
  | .work _ => if s.worker.takesQueue then ⟨b.past ++ [b.current], []⟩ else b
  | a => { b with current := b.current ++ (a.offer options).toList }

/-- The logger, with its offers in batches. -/
def batched (options : AsyncJsonLoggerOptions) : Machine (LoggerState × Batches) LoggerAct :=
  (logger options).withHistory ⟨[], []⟩ (Batches.update options)

/-! ### One step -/

theorem run_queue {s s' : LoggerState} {now : UInt64} (h : run s now = some s') :
    s'.queue = if s.worker.takesQueue then [] else s.queue := by
  unfold run at h
  cases hw : s.worker with
  | write batch | drainWrite batch =>
      cases batch <;> simp only [hw, Option.some.injEq] at h <;> subst h <;> rfl
  | blocked | exited => simp [hw] at h
  | loop | test | check | drainCheck | exchange =>
      simp only [hw] at h
      split at h <;> obtain rfl := Option.some.inj h <;> rfl
  | lock | block | woken | swap | drainSwap | summary =>
      simp only [hw, Option.some.injEq] at h
      subst h
      rfl

/-- What has left the queue: the events written, and the ones in the worker's hand. -/
def LoggerState.taken (s : LoggerState) : List LogEvent := s.events ++ s.worker.hand

/-- The worker's step moves the queue, or nothing, into its hand. -/
theorem run_taken {s s' : LoggerState} {now : UInt64} (h : run s now = some s') :
    s'.taken = s.taken ++ if s.worker.takesQueue then s.queue else [] := by
  obtain ⟨-, -, -, -, hkept, -⟩ := run_conserves h
  rw [LoggerState.kept, LoggerState.kept, run_queue h] at hkept
  split at hkept
  next htakes => rw [if_pos htakes, LoggerState.taken, ← List.append_nil (_ ++ _), hkept,
    LoggerState.taken]
  next htakes => rw [if_neg htakes, List.append_nil]; exact List.append_cancel_right hkept

/-- A call of `log` that gets to the queue is one offer to a bounded buffer. -/
theorem enqueue_offer (options : AsyncJsonLoggerOptions) (s : LoggerState) (event : LogEvent) :
    (enqueue options s event).queue =
        options.dropPolicy.evict.offer options.queueSize s.queue event ∧
      (enqueue options s event).drops =
        s.drops + (if options.queueSize ≤ s.queue.length then 1 else 0) ∧
      (enqueue options s event).taken = s.taken := by
  have htaken (t : LoggerState) : (t.push event).taken = t.taken := by
    simp [LoggerState.taken, LoggerState.events, LoggerState.push, LoggerState.notify_eq]
  rcases enqueue_cases options s event with
    ⟨hroom, heq⟩ | ⟨hfull, hpolicy, heq⟩ | ⟨hfull, hpolicy, heq⟩ <;> rw [heq]
  · rw [if_neg (by omega), htaken]
    simp [Evict.offer, Nat.not_le.mpr hroom, LoggerState.taken, LoggerState.events]
  · rw [if_pos hfull, htaken]
    simp [Evict.offer, hfull, hpolicy, DropPolicy.evict, LoggerState.countDrop,
      LoggerState.taken, LoggerState.events]
  · rw [if_pos hfull]
    simp [Evict.offer, hfull, hpolicy, DropPolicy.evict, LoggerState.countDrop,
      LoggerState.taken, LoggerState.events]

/-! ### Every run -/

/-- The queue is the window of the current batch, what has been taken is the windows
of the past ones, and the drops are what the batches have too many. -/
structure Windowed (options : AsyncJsonLoggerOptions) (s : LoggerState) (b : Batches) : Prop where
  offered : s.offered = b.past.flatten ++ b.current
  queue : s.queue = options.dropPolicy.evict.window options.queueSize b.current
  taken : s.taken = b.past.flatMap (options.dropPolicy.evict.window options.queueSize)
  drops : s.drops = (b.past.map (Evict.overflow options.queueSize)).sum +
    Evict.overflow options.queueSize b.current

variable {options : AsyncJsonLoggerOptions} {s s' : LoggerState} {b : Batches}

theorem windowed_enqueue (hsize : 1 ≤ options.queueSize) (hs : Windowed options s b)
    (event : LogEvent) :
    Windowed options (enqueue options s event) { b with current := b.current ++ [event] } := by
  obtain ⟨hqueue, hdrops, htaken⟩ := enqueue_offer options s event
  refine ⟨?_, ?_, htaken.trans hs.taken, ?_⟩
  · rw [enqueue_offered, hs.offered, List.append_assoc]
  · rw [hqueue, hs.queue, Evict.window_snoc _ hsize]
  · rw [hdrops, hs.drops, Evict.overflow_snoc options.dropPolicy.evict, hs.queue, Nat.add_assoc]

theorem windowed_run {now : UInt64} (hs : Windowed options s b) (h : run s now = some s') :
    Windowed options s' (b.update options s (.work now) s') := by
  obtain ⟨hoffered, hdrops, -⟩ := run_conserves h
  have hqueue := run_queue h
  have htaken := run_taken h
  unfold Batches.update
  split at hqueue
  next htakes =>
    rw [if_pos htakes] at htaken ⊢
    refine ⟨?_, ?_, ?_, ?_⟩
    · rw [hoffered, hs.offered, List.flatten_append, List.flatten_singleton, List.append_nil]
    · rw [hqueue, Evict.window_nil]
    · rw [htaken, hs.taken, hs.queue, List.flatMap_append, List.flatMap_singleton]
    · simp [hdrops, hs.drops]
  next htakes =>
    rw [if_neg htakes] at htaken ⊢
    refine ⟨hoffered.trans hs.offered, hqueue.trans hs.queue, ?_, hdrops.trans hs.drops⟩
    rw [htaken, List.append_nil, hs.taken]

theorem windowed_of_quiet (hs : Windowed options s b) (hoffered : s'.offered = s.offered)
    (hdrops : s'.drops = s.drops) (hqueue : s'.queue = s.queue) (htaken : s'.taken = s.taken) :
    Windowed options s' b :=
  ⟨hoffered.trans hs.offered, hqueue.trans hs.queue, htaken.trans hs.taken, hdrops.trans hs.drops⟩

theorem windowed_next (hsize : 1 ≤ options.queueSize) {a : LoggerAct} (hs : Windowed options s b)
    (h : (logger options).next s a = some s') : Windowed options s' (b.update options s a s') := by
  cases a with
  | log event now =>
      rcases log_cases h with ⟨hlevel, rfl⟩ | ⟨hlevel, -, rfl⟩
      · simpa [Batches.update, LoggerAct.offer, hlevel] using hs
      · simpa [Batches.update, LoggerAct.offer, hlevel] using
          windowed_enqueue hsize hs (stamp event now)
  | work now => exact windowed_run hs h
  | wakeup =>
      obtain ⟨hw, rfl⟩ := wakeup_eq options h
      have hkept : Windowed options { s with worker := .woken } b :=
        windowed_of_quiet hs rfl rfl rfl
          (by simp [LoggerState.taken, LoggerState.events, hw, Worker.hand])
      simpa [Batches.update, LoggerAct.offer] using hkept
  | destroy =>
      obtain ⟨hoffered, hdrops, hkept, -, -, -, hqueue⟩ := destroy_conserves h
      have htaken : s'.taken = s.taken := by
        rw [LoggerState.kept, LoggerState.kept, hqueue] at hkept
        exact List.append_cancel_right hkept
      simpa [Batches.update, LoggerAct.offer] using
        windowed_of_quiet hs hoffered hdrops hqueue htaken

theorem windowed_of_reachable (hsize : 1 ≤ options.queueSize)
    (h : (batched options).Reachable (s, b)) : Windowed options s b := by
  refine h.invariant (I := fun p => Windowed options p.1 p.2) ⟨rfl, ?_, rfl, ?_⟩ ?_
  · exact (Evict.window_nil _ _).symm
  · simp [batched, Machine.withHistory, logger, LoggerState.initial]
  · rintro ⟨s, b⟩ a p hs - hnext
    obtain ⟨s', hs', rfl⟩ := Machine.withHistory_next.mp hnext
    exact windowed_next hsize hs hs'

/-- A logger that is offered no more than fits its queue drops nothing. -/
theorem drops_eq_zero_of_fits (hsize : 1 ≤ options.queueSize) (h : (logger options).Reachable s)
    (hfits : s.offered.length ≤ options.queueSize) : s.drops = 0 := by
  obtain ⟨b, hb⟩ := h.remember ⟨[], []⟩ (Batches.update options)
  have hs : Windowed options s b := windowed_of_reachable hsize hb
  have hbatch : ∀ batch ∈ b.past, batch.length ≤ options.queueSize := by
    intro batch hbatch
    have hsub := (List.sublist_flatten_of_mem hbatch).length_le
    rw [hs.offered, List.length_append] at hfits
    omega
  have hcurrent : b.current.length ≤ options.queueSize := by
    rw [hs.offered, List.length_append] at hfits
    omega
  rw [hs.drops, Evict.sum_overflow_eq_zero_iff.mpr hbatch,
    Evict.overflow_eq_zero_iff.mpr hcurrent]

/-- Whatever the schedule, what is written, in the worker's hand and queued are the
windows of the batches: the last `queue_size` events of each under `drop_oldest`, and
the first under `drop_newest`. So events are dropped exactly when a batch has more
than `queue_size` of them. -/
theorem logger_batches (options : AsyncJsonLoggerOptions) (hsize : 1 ≤ options.queueSize)
    (s : LoggerState) (b : Batches) (h : (batched options).Reachable (s, b)) :
    s.offered = b.past.flatten ++ b.current ∧
    s.events ++ s.worker.hand =
      b.past.flatMap (options.dropPolicy.evict.window options.queueSize) ∧
    s.queue = options.dropPolicy.evict.window options.queueSize b.current ∧
    s.drops = (b.past.map fun batch => batch.length - options.queueSize).sum +
      (b.current.length - options.queueSize) ∧
    (s.drops = 0 ↔ ∀ batch ∈ b.past ++ [b.current], batch.length ≤ options.queueSize) := by
  have hs := windowed_of_reachable hsize h
  refine ⟨hs.offered, hs.taken, hs.queue, hs.drops, ?_⟩
  rw [hs.drops, Nat.add_eq_zero_iff, Evict.sum_overflow_eq_zero_iff, Evict.overflow_eq_zero_iff,
    List.forall_mem_append, List.forall_mem_singleton]

/-- Two events for a queue of one, which the worker then takes, and a third one. -/
def twoBatches : List LoggerAct :=
  let trade := logEvent .info (ascii "md.sink") (ascii "trade") []
  [.log trade 1, .log trade 2, .work 3, .work 3, .work 3, .work 3, .work 3, .log trade 4]

theorem logger_batches_twoBatches :
    ∃ s b, (batched { queueSize := 1 }).exec (batched { queueSize := 1 }).start twoBatches =
        some (s, b) ∧
      b.past.map List.length = [2] ∧ b.current.length = 1 ∧ s.drops = 1 := by
  obtain ⟨⟨s, b⟩, hexec, hlengths⟩ := Option.map_eq_some_iff.mp
    (show ((batched { queueSize := 1 }).exec (batched { queueSize := 1 }).start twoBatches).map
      (fun p => (p.2.past.map List.length, p.2.current.length)) = some ([2], 1) by decide +kernel)
  obtain ⟨hpast, hcurrent⟩ := Prod.mk.inj hlengths
  obtain ⟨-, -, -, hdrops, -⟩ :=
    logger_batches { queueSize := 1 } (by decide) s b (Machine.reachable_of_exec hexec)
  refine ⟨s, b, hexec, hpast, hcurrent, ?_⟩
  have hpast' : b.past.map (fun batch => batch.length - 1) = [1] := by
    have hsplit : b.past.map (fun batch => batch.length - 1) =
        (b.past.map List.length).map fun n => n - 1 := by simp
    rw [hsplit, hpast]
    rfl
  rw [hdrops, hpast', hcurrent]
  rfl

end KalshiAutotrader.Logging
