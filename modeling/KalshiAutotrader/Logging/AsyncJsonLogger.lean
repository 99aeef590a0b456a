import KalshiAutotrader.Kit.Machine
import KalshiAutotrader.Logging.Event

/-!
The asynchronous logger as a machine.

Three parties share the queue: any number of threads that call `log`, the worker
in `run`, and the thread that destroys the logger. What one of them does while
it holds `mutex_` is one action, except for the worker around its wait: it holds
the mutex from the test of the wait predicate until it blocks or has swapped the
queue out, and the destructor, which takes no mutex, may act in between. The
worker's program points are therefore the values of `Worker`, with the local
variables that are alive there.

The condition variable has at most one waiter. A notification turns a blocked
worker into a woken one and does nothing otherwise; `wakeup` is the spurious
wake-up that the standard allows.
-/

namespace KalshiAutotrader.Logging

open Kit

structure AsyncJsonLoggerOptions where
  level : LogLevel := .info
  queueSize : ℕ := 10000
  dropPolicy : DropPolicy := .dropOldest
  outputPath : Bytes := ascii "logs/kalshi.log.json"
  deriving DecidableEq

/-- Where the worker is in `run`. -/
inductive Worker
  /-- At `while (!stop_.load())`. -/
  | loop
  /-- About to take the mutex for the wait. -/
  | lock
  /-- Holds the mutex, about to test the wait predicate. -/
  | test
  /-- Holds the mutex, found the predicate false, about to release and block. -/
  | block
  | blocked
  /-- Was notified and is about to take the mutex again. -/
  | woken
  /-- Holds the mutex, at `if (stop_.load() && queue_.empty())`. -/
  | check
  /-- Holds the mutex, at `batch.swap(queue_)`. -/
  | swap
  /-- In `write_batch`, with these events still to write. -/
  | write (batch : List LogEvent)
  /-- At `dropped_count_.exchange(0)`. -/
  | exchange
  /-- About to write the summary of this many drops, and to flush. -/
  | summary (dropped : ℕ)
  /-- Out of the loop, at `if (!queue_.empty())`. -/
  | drainCheck
  /-- About to take the mutex and to swap the queue out for the last time. -/
  | drainSwap
  /-- In the last `write_batch`. -/
  | drainWrite (remaining : List LogEvent)
  | exited
  deriving DecidableEq

/-- The worker holds `mutex_`. -/
def Worker.holdsMutex : Worker → Bool
  | .test | .block | .check | .swap => true
  | _ => false

/-- The events in the worker's hand. -/
def Worker.hand : Worker → List LogEvent
  | .write batch => batch
  | .drainWrite remaining => remaining
  | _ => []

/-- The drops the worker has taken off the counter and not reported yet. -/
def Worker.unreported : Worker → ℕ
  | .summary dropped => dropped
  | _ => 0

/-- The worker has left its loop. -/
def Worker.leftLoop : Worker → Bool
  | .drainCheck | .drainSwap | .drainWrite _ | .exited => true
  | _ => false

/-- Where the destructor is: not begun, about to notify, in `join`, returned. -/
inductive Destructor | idle | notify | join | done
  deriving DecidableEq

/-- A line of the log file: an event, or the summary of dropped ones. -/
inductive Line
  | event (e : LogEvent)
  | dropped (tsMs : UInt64) (count : ℕ)
  deriving DecidableEq

def Line.event? : Line → Option LogEvent
  | .event e => some e
  | .dropped _ _ => none

/-- The drops a line reports. -/
def Line.reported : Line → ℕ
  | .event _ => 0
  | .dropped _ count => count

/-- The event `write_event` is given for a line. -/
def Line.toEvent : Line → LogEvent
  | .event e => e
  | .dropped tsMs count =>
      { logEvent .warn (ascii "logging") (ascii "dropped_logs")
          (LogFields.addUint [] (ascii "dropped") (UInt64.ofNat count)) with tsMs := tsMs }

structure LoggerState where
  queue : List LogEvent
  stop : Bool
  droppedCount : ℕ
  worker : Worker
  destructor : Destructor
  /-- The lines written so far. -/
  written : List Line
  /-- History: the level-passing events in the order they took the mutex. -/
  offered : List LogEvent
  /-- History: how often `dropped_count_` was incremented. -/
  drops : ℕ
  /-- History: `pop_front` was called on an empty queue. -/
  poppedEmpty : Bool
  deriving DecidableEq

inductive LoggerAct
  /-- A call of `log`; `now` is what the clock reads. -/
  | log (event : LogEvent) (now : UInt64)
  /-- The worker's next step. -/
  | work (now : UInt64)
  | wakeup
  /-- The destructor's next step. -/
  | destroy
  deriving DecidableEq

def LoggerState.initial : LoggerState where
  queue := []
  stop := false
  droppedCount := 0
  worker := .loop
  destructor := .idle
  written := []
  offered := []
  drops := 0
  poppedEmpty := false

/-- `cv_.notify_one()` and `cv_.notify_all()`: only the worker ever waits. -/
def LoggerState.notify (s : LoggerState) : LoggerState :=
  if s.worker = .blocked then { s with worker := .woken } else s

/-- `queue_.push_back` and the notification after it. -/
def LoggerState.push (s : LoggerState) (event : LogEvent) : LoggerState :=
  { s with queue := s.queue ++ [event] }.notify

/-- `queue_.pop_front()`. An empty queue has no front, and the call no meaning. -/
def LoggerState.popFront (s : LoggerState) : LoggerState :=
  match s.queue with
  | [] => { s with poppedEmpty := true }
  | _ :: queue => { s with queue := queue }

/-- `dropped_count_.fetch_add(1)`. -/
def LoggerState.countDrop (s : LoggerState) : LoggerState :=
  { s with droppedCount := s.droppedCount + 1, drops := s.drops + 1 }

def enqueue (options : AsyncJsonLoggerOptions) (s : LoggerState) (event : LogEvent) :
    LoggerState :=
  let s := { s with offered := s.offered ++ [event] }
  if options.queueSize ≤ s.queue.length then
    match options.dropPolicy with
    | .dropOldest => s.popFront.countDrop.push event
    | .dropNewest => s.countDrop
  else s.push event

/-- `log` gives an event without a time the current one. -/
def stamp (event : LogEvent) (now : UInt64) : LogEvent :=
  if event.tsMs = 0 then { event with tsMs := now } else event

/-- A call of `log`. A level-passing event has to wait for the mutex. -/
def log (options : AsyncJsonLoggerOptions) (s : LoggerState) (event : LogEvent)
    (now : UInt64) : Option LoggerState :=
  if shouldLog event.level options.level then
    if s.worker.holdsMutex then none
    else some (enqueue options s (stamp event now))
  else some s

/-- The worker's next step in `run`. -/
def run (s : LoggerState) (now : UInt64) : Option LoggerState :=
  match s.worker with
  | .loop => some { s with worker := if s.stop then .drainCheck else .lock }
  | .lock | .woken => some { s with worker := .test }
  | .test => some { s with worker := if s.stop || !s.queue.isEmpty then .check else .block }
  | .block => some { s with worker := .blocked }
  | .blocked => none
  | .check => some { s with worker := if s.stop && s.queue.isEmpty then .drainCheck else .swap }
  | .swap => some { s with worker := .write s.queue, queue := [] }
  | .write (event :: batch) =>
      some { s with worker := .write batch, written := s.written ++ [.event event] }
  | .write [] => some { s with worker := .exchange }
  | .exchange =>
      some { s with
        worker := if 0 < s.droppedCount then .summary s.droppedCount else .loop
        droppedCount := 0 }
  | .summary dropped =>
      some { s with worker := .loop, written := s.written ++ [.dropped now dropped] }
  | .drainCheck => some { s with worker := if s.queue.isEmpty then .exited else .drainSwap }
  | .drainSwap => some { s with worker := .drainWrite s.queue, queue := [] }
  | .drainWrite (event :: remaining) =>
      some { s with worker := .drainWrite remaining, written := s.written ++ [.event event] }
  -- the drain does not come back to `exchange`
  | .drainWrite [] => some { s with worker := .exited }
  | .exited => none

/-- The destructor's next step: store the flag, notify, join. -/
def destroy (s : LoggerState) : Option LoggerState :=
  match s.destructor with
  | .idle => some { s with stop := true, destructor := .notify }
  | .notify => some { s with destructor := .join }.notify
  | .join => if s.worker = .exited then some { s with destructor := .done } else none
  | .done => none

def LoggerState.next (options : AsyncJsonLoggerOptions) (s : LoggerState) :
    LoggerAct → Option LoggerState
  | .log event now => log options s event now
  | .work now => run s now
  | .wakeup => if s.worker = .blocked then some s.notify else none
  | .destroy => destroy s

/-- The logger built with these options. -/
def logger (options : AsyncJsonLoggerOptions) : Machine LoggerState LoggerAct where
  start := .initial
  next := LoggerState.next options

end KalshiAutotrader.Logging
