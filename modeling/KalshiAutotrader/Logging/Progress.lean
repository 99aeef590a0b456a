import KalshiAutotrader.Logging.Shutdown
import Mathlib.Data.List.Count

/-!
That the worker gets its work done.

Safety first: a worker that is on its way to sleep has found nothing to do, and keeps
the mutex until it sleeps, so no offer can slip past it. Then the progress that follows.
A queued event costs the worker a bounded number of its own steps, however the calls of
`log` fall between them, and once the destructor has notified the whole logger runs down
in a bounded number of steps of anyone.
-/

namespace KalshiAutotrader.Logging

open Kit

variable {options : AsyncJsonLoggerOptions} {s s' : LoggerState}

/-! ### A sleeping worker has nothing to do -/

/-- What the worker has seen of the queue, at the program points where it relies on it. -/
structure Noticed (s : LoggerState) : Prop where
  asleep : s.worker = .block ∨ s.worker = .blocked → s.queue = []
  check : s.worker = .check → s.stop = true ∨ s.queue ≠ []
  swap : s.worker = .swap → s.queue ≠ []

theorem noticed_enqueue (hs : Noticed s) (hmutex : s.worker.holdsMutex = false)
    (event : LogEvent) : Noticed (enqueue options s event) := by
  have hblock : s.worker ≠ .block := by rintro h; simp [h, Worker.holdsMutex] at hmutex
  have hcheck : s.worker ≠ .check := by rintro h; simp [h, Worker.holdsMutex] at hmutex
  have hswap : s.worker ≠ .swap := by rintro h; simp [h, Worker.holdsMutex] at hmutex
  -- whoever pushes has woken the worker
  have hpush (t : LoggerState) (ht : t.worker = s.worker) : Noticed (t.push event) := by
    constructor <;> simp only [LoggerState.push, LoggerState.notify_eq, ht] <;> split <;>
      simp_all
  rcases enqueue_cases options s event with
    ⟨-, heq⟩ | ⟨-, -, heq⟩ | ⟨-, -, heq⟩ <;> rw [heq]
  · exact hpush _ rfl
  · exact hpush _ rfl
  · exact ⟨hs.asleep, hs.check, hs.swap⟩

theorem noticed_run {now : UInt64} (hs : Noticed s) (h : run s now = some s') : Noticed s' := by
  unfold run at h
  cases hw : s.worker with
  | write batch | drainWrite batch =>
      cases batch <;> simp only [hw, Option.some.injEq] at h <;> subst h <;>
        constructor <;> simp
  | blocked | exited => simp [hw] at h
  | block =>
      simp only [hw, Option.some.injEq] at h
      subst h
      have hempty : s.queue = [] := hs.asleep (.inl hw)
      constructor <;> simp [hempty]
  | check =>
      have hseen := hs.check hw
      simp only [hw] at h
      split at h <;> obtain rfl := Option.some.inj h
      · constructor <;> simp
      · next hgoes =>
        refine ⟨by simp, by simp, fun _ hempty => ?_⟩
        simp_all
  | loop | test | drainCheck | exchange =>
      simp only [hw] at h
      split at h <;> obtain rfl := Option.some.inj h <;> constructor <;> simp_all
  | lock | woken | swap | drainSwap | summary =>
      simp only [hw, Option.some.injEq] at h
      subst h
      constructor <;> simp

theorem noticed_next {a : LoggerAct} (hs : Noticed s) (h : (logger options).next s a = some s') :
    Noticed s' := by
  cases a with
  | log event now =>
      rcases log_cases h with ⟨-, rfl⟩ | ⟨-, hmutex, rfl⟩
      · exact hs
      · exact noticed_enqueue hs hmutex _
  | work now => exact noticed_run hs h
  | wakeup =>
      obtain ⟨-, rfl⟩ := wakeup_eq options h
      constructor <;> simp
  | destroy =>
      have hdestroy : destroy s = some s' := h
      unfold destroy at hdestroy
      cases hd : s.destructor with
      | idle =>
          simp only [hd, Option.some.injEq] at hdestroy
          subst hdestroy
          exact ⟨hs.asleep, fun _ => .inl rfl, hs.swap⟩
      | notify =>
          simp only [hd, Option.some.injEq] at hdestroy
          subst hdestroy
          obtain ⟨hasleep, hcheck, hswap⟩ := hs
          constructor <;> simp only [LoggerState.notify_eq] <;> split <;> simp_all
      | join =>
          simp only [hd] at hdestroy
          split at hdestroy
          · obtain rfl := Option.some.inj hdestroy
            exact ⟨hs.asleep, hs.check, hs.swap⟩
          · cases hdestroy
      | done => simp [hd] at hdestroy

theorem noticed_of_reachable (h : (logger options).Reachable s) : Noticed s := by
  refine h.invariant (I := Noticed) ?_ fun hs _ hnext => noticed_next hs hnext
  constructor <;> simp [logger, LoggerState.initial]

/-- The worker comes to `exchange` before it can wait. -/
def Worker.reportsNext : Worker → Bool
  | .write _ | .exchange => true
  | _ => false

@[simp] theorem reportsNext_notified (w : Worker) :
    (if w = .blocked then Worker.woken else w).reportsNext = w.reportsNext := by
  split <;> simp_all [Worker.reportsNext]

/-- A drop that is still on the counter is one the worker will come to, or it has left
its loop. -/
def Owed (s : LoggerState) : Prop :=
  0 < s.droppedCount →
    s.queue ≠ [] ∨ s.worker.reportsNext = true ∨ s.worker.leftLoop = true

theorem owed_enqueue (hsize : 1 ≤ options.queueSize) (s : LoggerState) (event : LogEvent) :
    Owed (enqueue options s event) := by
  rcases enqueue_cases options s event with
    ⟨-, heq⟩ | ⟨-, -, heq⟩ | ⟨hfull, -, heq⟩ <;> rw [heq]
  · exact fun _ => .inl (by simp)
  · exact fun _ => .inl (by simp)
  · refine fun _ => .inl fun hempty => ?_
    have hnil : s.queue = [] := hempty
    simp [hnil] at hfull
    omega

theorem owed_run {now : UInt64} (hs : Owed s) (h : run s now = some s') : Owed s' := by
  unfold Owed at hs ⊢
  unfold run at h
  cases hw : s.worker with
  | write batch | drainWrite batch =>
      cases batch <;> simp only [hw, Option.some.injEq] at h <;> subst h <;>
        simp_all [Worker.reportsNext, Worker.leftLoop]
  | blocked | exited => simp [hw] at h
  | loop | test | check | drainCheck | exchange =>
      simp only [hw] at h
      split at h <;> obtain rfl := Option.some.inj h <;>
        simp_all [Worker.reportsNext, Worker.leftLoop]
  | lock | block | woken | swap | drainSwap | summary =>
      simp only [hw, Option.some.injEq] at h
      subst h
      simp_all [Worker.reportsNext, Worker.leftLoop]

theorem owed_next (hsize : 1 ≤ options.queueSize) {a : LoggerAct} (hs : Owed s)
    (h : (logger options).next s a = some s') : Owed s' := by
  cases a with
  | log event now =>
      rcases log_cases h with ⟨-, rfl⟩ | ⟨-, -, rfl⟩
      · exact hs
      · exact owed_enqueue hsize s _
  | work now => exact owed_run hs h
  | wakeup =>
      obtain ⟨hw, rfl⟩ := wakeup_eq options h
      simpa [Owed, hw, Worker.reportsNext, Worker.leftLoop] using hs
  | destroy =>
      obtain ⟨-, -, -, hcount, -, -, hqueue⟩ := destroy_conserves h
      have hworker : s'.worker.reportsNext = s.worker.reportsNext := by
        have hdestroy : destroy s = some s' := h
        unfold destroy at hdestroy
        split at hdestroy
        · obtain rfl := Option.some.inj hdestroy
          rfl
        · obtain rfl := Option.some.inj hdestroy
          simp [LoggerState.notify_eq]
        · split at hdestroy
          · obtain rfl := Option.some.inj hdestroy
            rfl
          · cases hdestroy
        · cases hdestroy
      rw [Owed, hcount, hqueue, hworker, destroy_leftLoop h]
      exact hs

theorem owed_of_reachable (hsize : 1 ≤ options.queueSize) (h : (logger options).Reachable s) :
    Owed s :=
  h.invariant (I := Owed) (fun hpos => absurd hpos (Nat.lt_irrefl 0))
    fun hs _ hnext => owed_next hsize hs hnext

/-- Under every schedule, the worker never swaps out an empty queue, and when it sleeps
nothing is left to do: every event offered so far is in the file or counted in one of
its summaries. -/
theorem sleeping_worker_done (options : AsyncJsonLoggerOptions) (hsize : 1 ≤ options.queueSize)
    (s : LoggerState) (h : (logger options).Reachable s) :
    (s.worker = .swap → s.queue ≠ []) ∧
    (s.worker = .blocked →
      s.queue = [] ∧ s.droppedCount = 0 ∧ s.events.Sublist s.offered ∧
      s.offered.length = s.events.length + s.reported) := by
  have hnoticed := noticed_of_reachable h
  refine ⟨hnoticed.swap, fun hblocked => ?_⟩
  have hqueue : s.queue = [] := hnoticed.asleep (.inr hblocked)
  have hcount : s.droppedCount = 0 := by
    by_contra hne
    have howed := owed_of_reachable hsize h (Nat.pos_of_ne_zero hne)
    simp [hqueue, hblocked, Worker.reportsNext, Worker.leftLoop] at howed
  have hkept : s.kept = s.events := by
    simp [LoggerState.kept, hqueue, hblocked, Worker.hand]
  have hdrops : s.drops = s.reported := by
    simpa [hcount, hblocked, Worker.unreported] using drops_eq h
  obtain ⟨c, -, hc⟩ := logger_refines_fifo hsize h
  have hordered := c.ordered
  have hcounted := c.counted
  rw [hc.offered, hc.kept, hkept] at hordered hcounted
  rw [hc.lost, hdrops] at hcounted
  exact ⟨hqueue, hcount, hordered, hcounted⟩

/-- A call of `log`, and the worker until it sleeps again. -/
def oneEvent : List LoggerAct :=
  .log (logEvent .info (ascii "md.sink") (ascii "trade") []) 1 :: List.replicate 12 (.work 2)

theorem sleeping_worker_done_oneEvent :
    ∃ s, (logger {}).exec .initial oneEvent = some s ∧ s.worker = .blocked ∧
      s.offered.length = s.events.length + s.reported := by
  obtain ⟨s, hexec, hworker⟩ := Option.map_eq_some_iff.mp
    (show ((logger {}).exec .initial oneEvent).map LoggerState.worker = some .blocked by
      decide +kernel)
  obtain ⟨-, -, -, hcounted⟩ :=
    (sleeping_worker_done {} (by decide) s (Machine.reachable_of_exec hexec)).2 hworker
  exact ⟨s, hexec, hworker, hcounted⟩

/-! ### Bounded delivery -/

/-- The worker's steps from here until it has taken a queue that is not empty. -/
def Worker.distance : Worker → ℕ
  | .write batch => batch.length + 8
  | .exchange => 7
  | .summary _ => 6
  | .loop => 5
  | .lock | .woken => 4
  | .test => 3
  | .check | .drainCheck => 2
  | .swap | .drainSwap => 1
  | .drainWrite remaining => remaining.length
  | .block | .blocked | .exited => 0

theorem Worker.length_hand_le_distance (w : Worker) : w.hand.length ≤ w.distance := by
  cases w <;> simp [Worker.hand, Worker.distance]

theorem Worker.distance_le (w : Worker) : w.distance ≤ w.hand.length + 8 := by
  cases w <;> simp [Worker.hand, Worker.distance]

/-- Apart from the first `held` events in the worker's hand and the first `queued` ones in
the queue, everything unwritten was offered after `before`; and the worker has written these
after `n` of its steps. -/
structure Waiting (before : List LogEvent) (s : LoggerState) (held queued n : ℕ) : Prop where
  held_le : held ≤ s.worker.hand.length
  queued_le : queued ≤ s.queue.length
  all_held : 0 < queued → held = s.worker.hand.length
  since : ∃ new, s.offered = before ++ new ∧
    (s.worker.hand.drop held ++ s.queue.drop queued).Sublist new
  bound : (if queued = 0 then held else s.worker.distance + queued) ≤ n

variable {before : List LogEvent} {held queued n : ℕ}

/-- A sleeping worker keeps nothing waiting, so a notification does not change how far it
is from the queue. -/
theorem distance_notified (hs : Noticed s) (hqueued : queued ≤ s.queue.length)
    (hpos : 0 < queued) :
    (if s.worker = .blocked then Worker.woken else s.worker).distance = s.worker.distance := by
  split
  · next hblocked =>
    rw [hs.asleep (.inr hblocked), List.length_nil] at hqueued
    omega
  · rfl

/-- An offer that leaves the first `queued'` events of the queue where they are. -/
theorem waiting_offer {event : LogEvent} {queued' : ℕ} (hs : Waiting before s held queued n)
    (hoffered : s'.offered = s.offered ++ [event]) (hhand : s'.worker.hand = s.worker.hand)
    (hle : queued' ≤ queued) (hqueue : queued' ≤ s'.queue.length)
    (hrest : (s'.queue.drop queued').Sublist (s.queue.drop queued ++ [event]))
    (hdistance : 0 < queued' → s'.worker.distance = s.worker.distance) :
    Waiting before s' held queued' n := by
  obtain ⟨new, hnew, hsub⟩ := hs.since
  refine ⟨by rw [hhand]; exact hs.held_le, hqueue, fun hpos => ?_, ⟨new ++ [event], ?_, ?_⟩, ?_⟩
  · rw [hhand]
    exact hs.all_held (by omega)
  · rw [hoffered, hnew, List.append_assoc]
  · rw [hhand]
    refine ((List.append_sublist_append_left _).mpr hrest).trans ?_
    rw [← List.append_assoc]
    exact hsub.append_right [event]
  · have hbound := hs.bound
    by_cases hzero : queued' = 0
    · rw [if_pos hzero]
      split at hbound
      · exact hbound
      · next hq =>
        -- what the worker holds is on its way, and it is no more than the way to the queue
        have hheld := hs.all_held (by omega)
        have hway := s.worker.length_hand_le_distance
        omega
    · rw [if_neg hzero, hdistance (by omega)]
      rw [if_neg (by omega)] at hbound
      omega

theorem waiting_enqueue (hnoticed : Noticed s) (hs : Waiting before s held queued n)
    (event : LogEvent) :
    ∃ queued', Waiting before (enqueue options s event) held queued' n := by
  have hoffered := enqueue_offered options s event
  have hwoken := distance_notified hnoticed hs.queued_le
  rcases enqueue_cases options s event with
    ⟨-, heq⟩ | ⟨-, -, heq⟩ | ⟨-, -, heq⟩
  · refine ⟨queued, waiting_offer hs hoffered ?_ le_rfl ?_ ?_ ?_⟩ <;> rw [heq]
    · simp [LoggerState.push, LoggerState.notify_eq]
    · have hle := hs.queued_le
      simp
      omega
    · simp [List.drop_append_of_le_length hs.queued_le]
    · simpa [LoggerState.push, LoggerState.notify_eq] using hwoken
  · -- the oldest event gives way: it is one of the waiting ones as long as there are any
    refine ⟨queued - 1, waiting_offer hs hoffered ?_ (Nat.sub_le _ _) ?_ ?_ ?_⟩ <;> rw [heq]
    · simp [LoggerState.push, LoggerState.notify_eq, LoggerState.countDrop]
    · have hle := hs.queued_le
      simp [LoggerState.countDrop]
      omega
    · have hle := hs.queued_le
      simp only [push_queue, LoggerState.countDrop]
      rw [List.drop_append_of_le_length (by simp; omega)]
      refine List.Sublist.append_right ?_ [event]
      rw [← List.drop_one, List.drop_drop]
      exact List.drop_sublist_drop_left _ (by omega)
    · intro hpos
      simpa [LoggerState.push, LoggerState.notify_eq, LoggerState.countDrop] using
        hwoken (by omega)
  · refine ⟨queued, waiting_offer hs hoffered ?_ le_rfl ?_ ?_ ?_⟩ <;> rw [heq]
    · rfl
    · exact hs.queued_le
    · exact List.sublist_append_left _ _
    · exact fun _ => rfl

/-- A step that only brings the worker nearer to the queue. -/
theorem waiting_move (hs : Waiting before s held queued n) (hoffered : s'.offered = s.offered)
    (hqueue : s'.queue = s.queue) (hhand : s.worker.hand = []) (hhand' : s'.worker.hand = [])
    (hnearer : s.queue ≠ [] → s'.worker.distance + 1 ≤ s.worker.distance) :
    Waiting before s' held queued (n - 1) := by
  have hheld : held = 0 := by simpa [hhand] using hs.held_le
  refine ⟨by simp [hheld], by rw [hqueue]; exact hs.queued_le, fun _ => by simp [hheld, hhand'],
    ?_, ?_⟩
  · obtain ⟨new, hnew, hsub⟩ := hs.since
    refine ⟨new, hoffered.trans hnew, ?_⟩
    rwa [hhand', hqueue, ← hhand]
  · have hbound := hs.bound
    by_cases hzero : queued = 0
    · simp [hzero, hheld]
    · have hfull : s.queue ≠ [] := by
        rintro hempty
        have hle := hs.queued_le
        rw [hempty, List.length_nil] at hle
        omega
      have hcloser := hnearer hfull
      rw [if_neg hzero] at hbound ⊢
      omega

/-- The worker writes the first event in its hand. -/
theorem waiting_write {event : LogEvent} {rest : List LogEvent}
    (hs : Waiting before s held queued n) (hoffered : s'.offered = s.offered)
    (hqueue : s'.queue = s.queue) (hhand : s.worker.hand = event :: rest)
    (hhand' : s'.worker.hand = rest) (hnearer : s'.worker.distance + 1 = s.worker.distance) :
    Waiting before s' (held - 1) queued (n - 1) := by
  have hheld := hs.held_le
  rw [hhand, List.length_cons] at hheld
  refine ⟨by rw [hhand']; omega, by rw [hqueue]; exact hs.queued_le, fun hpos => ?_, ?_, ?_⟩
  · rw [hs.all_held hpos, hhand, hhand', List.length_cons, Nat.add_sub_cancel]
  · obtain ⟨new, hnew, hsub⟩ := hs.since
    refine ⟨new, hoffered.trans hnew, List.Sublist.trans ?_ hsub⟩
    rw [hhand, hhand', hqueue]
    refine List.Sublist.append_right ?_ _
    cases held with
    | zero => exact List.sublist_cons_self event rest
    | succ held => exact List.Sublist.refl _
  · have hbound := hs.bound
    split at hbound <;> simp_all <;> omega

/-- The worker takes the queue. -/
theorem waiting_take (hs : Waiting before s held queued n) (hoffered : s'.offered = s.offered)
    (hqueue : s'.queue = []) (hhand : s.worker.hand = []) (hhand' : s'.worker.hand = s.queue)
    (hnear : s.worker.distance = 1) : Waiting before s' queued 0 (n - 1) := by
  have hheld : held = 0 := by simpa [hhand] using hs.held_le
  refine ⟨by rw [hhand']; exact hs.queued_le, Nat.zero_le _, fun hpos => absurd hpos (by omega),
    ?_, ?_⟩
  · obtain ⟨new, hnew, hsub⟩ := hs.since
    refine ⟨new, hoffered.trans hnew, ?_⟩
    rw [hhand', hqueue, List.drop_nil, List.append_nil]
    exact (List.sublist_append_right _ _).trans hsub
  · have hbound := hs.bound
    rw [if_pos rfl]
    split at hbound <;> omega

theorem waiting_run {now : UInt64} (hnoticed : Noticed s) (hstopping : Stopping s)
    (hs : Waiting before s held queued n) (h : run s now = some s') :
    ∃ held' queued', Waiting before s' held' queued' (n - 1) := by
  unfold run at h
  cases hw : s.worker with
  | write batch =>
      cases batch <;> simp only [hw, Option.some.injEq] at h <;> subst h
      · exact ⟨_, _, waiting_move hs rfl rfl (by rw [hw]; rfl) rfl fun _ => by rw [hw]; rfl⟩
      · exact ⟨_, _, waiting_write hs rfl rfl (by rw [hw]; rfl) rfl
          (by simp [hw, Worker.distance])⟩
  | drainWrite remaining =>
      have hempty : s.queue = [] := hstopping.drained (by rw [hw]; rfl)
      cases remaining <;> simp only [hw, Option.some.injEq] at h <;> subst h
      · exact ⟨_, _, waiting_move hs rfl rfl (by rw [hw]; rfl) rfl fun hne => absurd hempty hne⟩
      · exact ⟨_, _, waiting_write hs rfl rfl (by rw [hw]; rfl) rfl
          (by simp [hw, Worker.distance])⟩
  | swap | drainSwap =>
      simp only [hw, Option.some.injEq] at h
      subst h
      exact ⟨_, _, waiting_take hs rfl rfl (by rw [hw]; rfl) rfl (by rw [hw]; rfl)⟩
  | blocked | exited => simp [hw] at h
  | block =>
      have hempty : s.queue = [] := hnoticed.asleep (.inl hw)
      simp only [hw, Option.some.injEq] at h
      subst h
      exact ⟨_, _, waiting_move hs rfl rfl (by rw [hw]; rfl) rfl fun hne => absurd hempty hne⟩
  | loop | test | check | drainCheck | exchange =>
      simp only [hw] at h
      split at h <;> obtain rfl := Option.some.inj h <;>
        refine ⟨_, _, waiting_move hs rfl rfl (by rw [hw]; rfl) rfl fun hne => ?_⟩ <;>
        simp_all [Worker.distance]
  | lock | woken | summary =>
      simp only [hw, Option.some.injEq] at h
      subst h
      exact ⟨_, _, waiting_move hs rfl rfl (by rw [hw]; rfl) rfl fun _ => by rw [hw]; rfl⟩

theorem waiting_of_quiet (hs : Waiting before s held queued n)
    (hoffered : s'.offered = s.offered) (hqueue : s'.queue = s.queue)
    (hhand : s'.worker.hand = s.worker.hand)
    (hdistance : 0 < queued → s'.worker.distance = s.worker.distance) :
    Waiting before s' held queued n := by
  refine ⟨by rw [hhand]; exact hs.held_le, by rw [hqueue]; exact hs.queued_le,
    by rw [hhand]; exact hs.all_held, by rw [hoffered, hqueue, hhand]; exact hs.since, ?_⟩
  by_cases hzero : queued = 0
  · simpa [hzero] using hs.bound
  · rw [hdistance (by omega)]
    exact hs.bound

/-- The worker's own steps. -/
def LoggerAct.isWork : LoggerAct → Bool
  | .work _ => true
  | _ => false

theorem waiting_next {a : LoggerAct} (hnoticed : Noticed s) (hstopping : Stopping s)
    (hs : Waiting before s held queued n) (h : (logger options).next s a = some s') :
    ∃ held' queued', Waiting before s' held' queued' (n - if a.isWork then 1 else 0) := by
  cases a with
  | log event now =>
      rcases log_cases h with ⟨-, rfl⟩ | ⟨-, -, rfl⟩
      · exact ⟨held, queued, hs⟩
      · obtain ⟨queued', hs'⟩ := waiting_enqueue hnoticed hs (stamp event now)
        exact ⟨held, queued', hs'⟩
  | work now => exact waiting_run hnoticed hstopping hs h
  | wakeup =>
      obtain ⟨hw, rfl⟩ := wakeup_eq options h
      refine ⟨held, queued, waiting_of_quiet hs rfl rfl (by simp [hw, Worker.hand]) fun hpos => ?_⟩
      simpa [hw] using distance_notified hnoticed hs.queued_le hpos
  | destroy =>
      have hdestroy : destroy s = some s' := h
      unfold destroy at hdestroy
      refine ⟨held, queued, ?_⟩
      split at hdestroy
      · obtain rfl := Option.some.inj hdestroy
        exact waiting_of_quiet hs rfl rfl rfl fun _ => rfl
      · obtain rfl := Option.some.inj hdestroy
        refine waiting_of_quiet hs ?_ ?_ ?_ ?_ <;> simp only [LoggerState.notify_eq, hand_notified]
        exact distance_notified hnoticed hs.queued_le
      · split at hdestroy
        · obtain rfl := Option.some.inj hdestroy
          exact waiting_of_quiet hs rfl rfl rfl fun _ => rfl
        · cases hdestroy
      · cases hdestroy

theorem run_isSome (now : UInt64) (hblocked : s.worker ≠ .blocked) (hexited : s.worker ≠ .exited) :
    (run s now).isSome := by
  unfold run
  split <;> simp_all

/-- Under every schedule of an orderly run, an event is pending for a bounded number of the
worker's steps: after as many as there are events in its hand and in the queue, and eight
more, all that is unwritten was offered since. And as long as something is pending the
worker can take a step. -/
theorem pending_events_bounded (options : AsyncJsonLoggerOptions) (s : LoggerState)
    (h : (logger options).Reach Orderly s) :
    (∀ acts s', (logger options).Along Orderly s acts → (logger options).exec s acts = some s' →
      s.worker.hand.length + s.queue.length + 8 ≤ acts.countP LoggerAct.isWork →
      ∃ new, s'.offered = s.offered ++ new ∧ (s'.worker.hand ++ s'.queue).Sublist new) ∧
    (s.worker.hand ++ s.queue ≠ [] → ∀ now, (run s now).isSome) := by
  refine ⟨fun acts s' halong hexec hsteps => ?_, fun hpending now => run_isSome now ?_ ?_⟩
  · have hall : Waiting s.offered s s.worker.hand.length s.queue.length
        (s.worker.hand.length + s.queue.length + 8) := by
      refine ⟨le_rfl, le_rfl, fun _ => rfl, ⟨[], by simp, by simp⟩, ?_⟩
      have hway := s.worker.distance_le
      split <;> omega
    obtain ⟨held, queued, hend⟩ := h.exec_rank LoggerAct.isWork
      (R := fun s n => ∃ held queued, Waiting _ s held queued n)
      (fun hreach ⟨_, _, hs⟩ _ hnext => waiting_next (noticed_of_reachable hreach.reachable)
        (stopping_of_reach hreach) hs hnext) ⟨_, _, hall⟩ halong hexec
    have hbound := hend.bound
    rw [Nat.sub_eq_zero_of_le hsteps] at hbound
    have hzero : held = 0 ∧ queued = 0 := by
      split at hbound <;> omega
    obtain ⟨new, hnew, hsub⟩ := hend.since
    refine ⟨new, hnew, ?_⟩
    rwa [hzero.1, hzero.2, List.drop_zero, List.drop_zero] at hsub
  · rintro hblocked
    have hempty := (noticed_of_reachable h.reachable).asleep (.inr hblocked)
    simp [hblocked, hempty, Worker.hand] at hpending
  · rintro hexited
    have hempty := (stopping_of_reach h).drained (by rw [hexited]; rfl)
    simp [hexited, hempty, Worker.hand] at hpending

theorem pending_events_bounded_oneEvent :
    ∃ s s', (logger {}).exec .initial (oneEvent.take 1) = some s ∧ s.queue.length = 1 ∧
      (logger {}).exec s (List.replicate 9 (.work 2)) = some s' ∧
      ∃ new, s'.offered = s.offered ++ new ∧ (s'.worker.hand ++ s'.queue).Sublist new := by
  let works : List LoggerAct := List.replicate 9 (.work 2)
  obtain ⟨s, hexec, hstart⟩ := Option.map_eq_some_iff.mp
    (show ((logger {}).exec .initial (oneEvent.take 1)).map
      (fun s => (s.worker.hand.length, s.queue.length, ((logger {}).exec s works).isSome,
        decide ((logger {}).Along Orderly s works))) = some (0, 1, true, true) by
      decide +kernel)
  obtain ⟨hhand, hqueue, hworks, halong⟩ : s.worker.hand.length = 0 ∧ s.queue.length = 1 ∧
      ((logger {}).exec s works).isSome = true ∧ (logger {}).Along Orderly s works := by
    simpa using hstart
  obtain ⟨s', hexec'⟩ := Option.isSome_iff_exists.mp hworks
  have hreach : (logger {}).Reach Orderly s := Machine.reach_of_exec (by decide +kernel) hexec
  refine ⟨s, s', hexec, hqueue, hexec', ?_⟩
  refine (pending_events_bounded {} s hreach).1 works s' halong hexec' ?_
  rw [hhand, hqueue]
  decide

/-! ### Shutting down -/

/-- How far the worker is from the end of a batch, and where it is without one. -/
def Worker.rank : Worker → ℕ
  | .write batch => batch.length + 10
  | .exchange => 9
  | .summary _ => 8
  | .loop => 7
  | .lock | .woken => 6
  | .test => 5
  | .check => 4
  | .drainCheck => 3
  | .drainSwap => 2
  | .drainWrite remaining => remaining.length + 1
  | .block => 1
  | .swap | .blocked | .exited => 0

theorem Worker.rank_le (w : Worker) : w.rank ≤ w.hand.length + 10 := by
  cases w <;> simp [Worker.hand, Worker.rank]

/-- What the worker still has to do when nobody calls `log` any more. A queued event
counts for the way back to the queue after it as well. -/
def LoggerState.toDo (s : LoggerState) : ℕ := s.worker.rank + 12 * s.queue.length

theorem toDo_run {now : UInt64} (hnoticed : Noticed s) (h : run s now = some s') :
    s'.toDo < s.toDo := by
  unfold LoggerState.toDo
  unfold run at h
  cases hw : s.worker with
  | write batch | drainWrite batch =>
      cases batch <;> simp only [hw, Option.some.injEq] at h <;> subst h <;> simp [Worker.rank]
  | swap =>
      have hpos : 0 < s.queue.length := List.length_pos_of_ne_nil (hnoticed.swap hw)
      simp only [hw, Option.some.injEq] at h
      subst h
      simp only [Worker.rank, List.length_nil]
      omega
  | blocked | exited => simp [hw] at h
  | loop | test | check | drainCheck | exchange =>
      simp only [hw] at h
      split at h <;> obtain rfl := Option.some.inj h <;> simp [Worker.rank]
  | drainSwap =>
      simp only [hw, Option.some.injEq] at h
      subst h
      simp only [Worker.rank, List.length_nil]
      omega
  | lock | block | woken | summary =>
      simp only [hw, Option.some.injEq] at h
      subst h
      simp [Worker.rank]

/-- What the worker has to do, and the return of `join`. -/
def LoggerState.toEnd (s : LoggerState) : ℕ :=
  s.toDo + if s.destructor = .join then 1 else 0

/-- `join` returns when the worker has exited, and then it stays so. -/
theorem exited_of_done (h : (logger options).Reachable s) (hdone : s.destructor = .done) :
    s.worker = .exited := by
  refine h.invariant (I := fun s => s.destructor = .done → s.worker = .exited)
    (fun hd => by cases hd) ?_ hdone
  intro s a s' ih _ hnext hdone
  cases a with
  | log event now =>
      rcases log_cases hnext with ⟨-, rfl⟩ | ⟨-, -, rfl⟩
      · exact ih hdone
      · rw [(enqueue_frame options s (stamp event now)).2.1] at hdone
        rcases enqueue_cases options s (stamp event now) with
          ⟨-, heq⟩ | ⟨-, -, heq⟩ | ⟨-, -, heq⟩ <;> rw [heq] <;>
          simp [LoggerState.push, LoggerState.notify_eq, LoggerState.countDrop, ih hdone]
  | work now =>
      obtain ⟨-, -, -, hdest, -⟩ := run_conserves hnext
      have hrun : run s now = some s' := hnext
      simp [run, ih (hdest.symm.trans hdone)] at hrun
  | wakeup =>
      obtain ⟨hblocked, rfl⟩ := wakeup_eq options hnext
      have hexited := ih hdone
      rw [hblocked] at hexited
      cases hexited
  | destroy =>
      have hdestroy : destroy s = some s' := hnext
      unfold destroy at hdestroy
      cases hd : s.destructor with
      | idle | notify =>
          simp only [hd, Option.some.injEq] at hdestroy
          subst hdestroy
          simp [LoggerState.notify_eq] at hdone
      | join =>
          simp only [hd] at hdestroy
          split at hdestroy
          · next hexited =>
            obtain rfl := Option.some.inj hdestroy
            exact hexited
          · cases hdestroy
      | done => simp [hd] at hdestroy

/-- A step of an orderly run whose destructor does not notify into the gap. -/
def Graceful (s : LoggerState) (a : LoggerAct) : Prop := Orderly s a ∧ NotifiesOutside s a

instance (s : LoggerState) (a : LoggerAct) : Decidable (Graceful s a) :=
  inferInstanceAs (Decidable (_ ∧ _))

/-- The destructor has notified, and `kept` is what there is to write. -/
structure Ending (kept : List LogEvent) (s : LoggerState) : Prop where
  awake : Awake s
  noticed : Noticed s
  stopping : Stopping s
  joins : s.destructor = .join ∨ s.destructor = .done ∧ s.worker = .exited
  kept_eq : s.kept = kept

/-- From then on whatever happens is a step of the worker towards its end, or the return
of `join`. -/
theorem ending_next {kept : List LogEvent} {a : LoggerAct} (hs : Ending kept s)
    (hstep : Orderly s a) (h : (logger options).next s a = some s') :
    Ending kept s' ∧ s'.toEnd < s.toEnd := by
  have hnotified : s.destructor = .join ∨ s.destructor = .done := hs.joins.imp_right And.left
  have hawake : Awake s' := awake_next hs.awake (by rintro - hd; simp [hd] at hnotified) h
  have hstopping := stopping_next hs.stopping hstep h
  have hnoticed := noticed_next hs.noticed h
  cases a with
  | log event now =>
      have hidle : s.destructor = .idle := hstep
      simp [hidle] at hnotified
  | work now =>
      obtain ⟨-, -, -, hdest, hkept, -, -⟩ := run_conserves h
      have hrun : run s now = some s' := h
      have hjoin : s.destructor = .join := by
        refine hs.joins.resolve_right fun hdone => ?_
        simp [run, hdone.2] at hrun
      refine ⟨⟨hawake, hnoticed, hstopping, .inl (hdest.trans hjoin),
        hkept.trans hs.kept_eq⟩, ?_⟩
      have hless := toDo_run hs.noticed h
      unfold LoggerState.toEnd
      rw [hdest]
      omega
  | wakeup => exact absurd (wakeup_eq options h).1 (hs.awake.notified hnotified).2
  | destroy =>
      obtain ⟨-, -, hkept, -⟩ := destroy_conserves h
      have hdestroy : destroy s = some s' := h
      unfold destroy at hdestroy
      rcases hnotified with hd | hd
      · simp only [hd] at hdestroy
        split at hdestroy
        · next hexited =>
          obtain rfl := Option.some.inj hdestroy
          exact ⟨⟨hawake, hnoticed, hstopping, .inr ⟨rfl, hexited⟩, hkept.trans hs.kept_eq⟩,
            by simp [LoggerState.toEnd, LoggerState.toDo, hd]⟩
        · cases hdestroy
      · simp [hd] at hdestroy

/-- Shutting down ends. From the moment the destructor is in `join`, in any run that did
not notify into the gap, every schedule takes it to its end in a bounded number of steps:
nothing else can go on forever, nothing can get stuck before, and by then whatever was
pending is in the file. -/
theorem shutdown_terminates (options : AsyncJsonLoggerOptions) (s : LoggerState)
    (h : (logger options).Reach Graceful s) (hjoin : s.destructor = .join) :
    ∀ acts s', (logger options).Along Orderly s acts → (logger options).exec s acts = some s' →
      acts.length ≤ s.worker.hand.length + 12 * s.queue.length + 11 ∧
      (s'.destructor = .done → s'.events = s.events ++ s.worker.hand ++ s.queue) ∧
      (s'.destructor ≠ .done →
        ∃ a s'', Orderly s' a ∧ (logger options).next s' a = some s'') := by
  intro acts s' halong hexec
  have hending : Ending s.kept s := by
    refine ⟨?_, noticed_of_reachable h.reachable,
      stopping_of_reach (h.mono fun _ _ hstep => hstep.1), .inl hjoin, rfl⟩
    exact h.invariant ⟨by simp [logger, LoggerState.initial],
      by simp [logger, LoggerState.initial]⟩ fun hs hstep hnext => awake_next hs hstep.2 hnext
  obtain ⟨hend, hlength⟩ := Machine.length_le_of_variant (fun hs hstep hnext =>
    ending_next hs hstep hnext) hending halong hexec
  refine ⟨?_, fun hdone => ?_, fun hdone => ?_⟩
  · have hrank := s.worker.rank_le
    unfold LoggerState.toEnd LoggerState.toDo at hlength
    rw [if_pos hjoin] at hlength
    omega
  · obtain ⟨-, hexited⟩ := hend.joins.resolve_left (by simp [hdone])
    have hempty : s'.queue = [] := hend.stopping.drained (by rw [hexited]; rfl)
    have hkept := hend.kept_eq
    simpa [LoggerState.kept, hempty, hexited, Worker.hand] using hkept
  · have hjoin' : s'.destructor = .join := hend.joins.resolve_right fun hd => hdone hd.1
    by_cases hexited : s'.worker = .exited
    · exact ⟨.destroy, { s' with destructor := .done }, trivial,
        by simp [logger, LoggerState.next, destroy, hjoin', hexited]⟩
    · have hblocked : s'.worker ≠ .blocked := (hend.awake.notified (.inl hjoin')).2
      obtain ⟨s'', hs''⟩ := Option.isSome_iff_exists.mp
        (run_isSome 0 hblocked hexited)
      exact ⟨.work 0, s'', trivial, hs''⟩

/-- An event, and the destructor up to its call of `join`, before the worker has begun. -/
def earlyShutdown : List LoggerAct := oneEvent.take 1 ++ [.destroy, .destroy]

theorem shutdown_terminates_earlyShutdown :
    ∃ s, (logger {}).exec .initial earlyShutdown = some s ∧ s.destructor = .join ∧
      ∀ acts s', (logger {}).Along Orderly s acts → (logger {}).exec s acts = some s' →
        acts.length ≤ 23 := by
  obtain ⟨s, hexec, hend⟩ := Option.map_eq_some_iff.mp
    (show ((logger {}).exec .initial earlyShutdown).map
      (fun s => (s.destructor, s.worker.hand.length, s.queue.length)) = some (.join, 0, 1) by
      decide +kernel)
  obtain ⟨hjoin, hhand, hqueue⟩ : s.destructor = .join ∧ s.worker.hand.length = 0 ∧
      s.queue.length = 1 := by
    simpa using hend
  have hreach : (logger {}).Reach Graceful s := Machine.reach_of_exec (by decide +kernel) hexec
  refine ⟨s, hexec, hjoin, fun acts s' halong hacts => ?_⟩
  have hlength := (shutdown_terminates {} s hreach hjoin acts s' halong hacts).1
  rwa [hhand, hqueue] at hlength

end KalshiAutotrader.Logging
