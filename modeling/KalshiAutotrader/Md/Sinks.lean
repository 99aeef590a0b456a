import KalshiAutotrader.Kit.Broadcast
import KalshiAutotrader.Md.MessageFlow
import KalshiAutotrader.Md.ValidEvents
import Mathlib.Data.List.Nodup

/-!
Sinks, and what a run gives them.

The state of a sink after a run is a function of the messages received, whatever else has
happened: it does not depend on how they were spread over connections, nor on errors,
control frames and timers in between.
-/

namespace KalshiAutotrader.Md

open Kit Simdjson FeedHandler

/-! ### Sinks -/

inductive MarketStatus | unopened | opened | paused | closed | settled
  deriving DecidableEq

structure MarketStatusUpdate where
  marketTicker : Bytes
  status : MarketStatus
  ts : Timestamp
  deriving DecidableEq

/-- A type that is a `MarketSink`: what its callbacks do to an object of it. -/
structure MarketSink (σ : Type) where
  onSnapshot : σ → OrderbookSnapshot → σ
  onDelta : σ → OrderbookDelta → σ
  onTrade : σ → TradeEvent → σ
  onStatus : σ → MarketStatusUpdate → σ

/-- The callback that a call of the dispatcher is. -/
def MarketSink.accept {σ : Type} (sink : MarketSink σ) (state : σ) : SinkCall → σ
  | .onSnapshot s => sink.onSnapshot state s
  | .onDelta d => sink.onDelta state d
  | .onTrade t => sink.onTrade state t

/-- What the sink is after these calls. -/
def MarketSink.acceptAll {σ : Type} (sink : MarketSink σ) (state : σ) (calls : List SinkCall) :
    σ :=
  calls.foldl sink.accept state

variable {ι : Type} {σ : ι → Type} [DecidableEq ι]

/-- `FanoutSink`, with references to these sinks. -/
def fanoutSink (sinks : ∀ i, MarketSink (σ i)) (refs : List ι) : MarketSink (∀ i, σ i) where
  onSnapshot := broadcast (fun i => (sinks i).onSnapshot) refs
  onDelta := broadcast (fun i => (sinks i).onDelta) refs
  onTrade := broadcast (fun i => (sinks i).onTrade) refs
  onStatus := broadcast (fun i => (sinks i).onStatus) refs

theorem accept_fanoutSink (sinks : ∀ i, MarketSink (σ i)) (refs : List ι) :
    (fanoutSink sinks refs).accept = broadcast (fun i => (sinks i).accept) refs := by
  funext state call
  cases call <;> rfl

/-- Each sink gets the calls as often as it is referred to. -/
theorem acceptAll_fanoutSink (sinks : ∀ i, MarketSink (σ i)) (refs : List ι) (state : ∀ i, σ i)
    (calls : List SinkCall) (i : ι) :
    (fanoutSink sinks refs).acceptAll state calls i =
      (sinks i).acceptAll (state i) (calls.flatMap (List.replicate (refs.count i))) := by
  rw [MarketSink.acceptAll, accept_fanoutSink, foldl_broadcast]
  rfl

/-! ### The calls of a run -/

def Output.sinkCall : Output → Option SinkCall
  | .sink call => some call
  | _ => none

/-- The calls the sink has been given. -/
def RunState.sinkCalls (s : RunState) : List SinkCall := s.trace.filterMap Output.sinkCall

/-- The calls these messages are answered by. -/
def decoded (iterate : ℕ → Bytes → Except SimdError Document) (msgs : List Bytes) :
    List SinkCall :=
  msgs.flatMap fun msg => (onMessage iterate msg).2

variable {iterate : ℕ → Bytes → Except SimdError Document} {options : RunOptions}

theorem decoded_concat (msgs : List Bytes) (msg : Bytes) :
    decoded iterate (msgs ++ [msg]) = decoded iterate msgs ++ (onMessage iterate msg).2 := by
  simp [decoded]

/-- Calls of the sink are answers. -/
theorem sinkCalls_eq (s : RunState) : s.sinkCalls = s.answers.filterMap Output.sinkCall := by
  unfold RunState.sinkCalls RunState.answers
  rw [List.filterMap_filter]
  refine List.filterMap_congr fun output _ => ?_
  cases output with
  | sink call => rfl
  | capture bytes => rfl
  | log event => simp [Output.sinkCall]

theorem sinkCall_firstOutput (seen : ℕ) : (firstOutput seen).filterMap Output.sinkCall = [] := by
  unfold firstOutput
  split <;> rfl

/-- A disposition is the call a message is answered by, or the message is answered by none. -/
theorem sinkCall_of_disposed {includeRaw : Bool} {msg : Bytes} {output : Output}
    (h : Disposed iterate includeRaw msg output) :
    [output].filterMap Output.sinkCall = (onMessage iterate msg).2 := by
  cases h with
  | sink h => rw [h]; rfl
  | unsupported h => rw [h]; rfl
  | parseError h => rw [h]; rfl

theorem sinkCalls_of_accounts {includeRaw : Bool} {msgs : List Bytes} {outputs : List Output}
    (h : Accounts iterate includeRaw msgs outputs) :
    outputs.filterMap Output.sinkCall = decoded iterate msgs := by
  induction h with
  | nil => rfl
  | @snoc msgs outputs msg output _ hdisposed ih =>
      have hcapture : Output.sinkCall (.capture (msg ++ [newline])) = none := rfl
      rw [List.filterMap_append, ih, List.filterMap_cons_none hcapture, List.filterMap_append,
        sinkCall_firstOutput, List.nil_append, sinkCall_of_disposed hdisposed, decoded_concat]

/-- Over a run the sink is given what the messages received are answered by, in order. -/
theorem sinkCalls_of_exec {acts : List FeedAct} {s : RunState}
    (h : (feed iterate options).exec (feed iterate options).start acts = some s) :
    s.sinkCalls = decoded iterate (received acts) := by
  rw [sinkCalls_eq]
  exact sinkCalls_of_accounts (counted_of_exec h).2.accounts

/-- Every event that reaches the sink, in any run and whatever the library makes of the
messages, has passed the checks of its parser. -/
theorem sink_calls_valid (iterate : ℕ → Bytes → Except SimdError Document) (options : RunOptions)
    (s : RunState) (h : (feed iterate options).Reachable s) : ∀ call ∈ s.sinkCalls, call.Valid := by
  obtain ⟨acts, hexec⟩ := Machine.exists_exec_of_reach h
  rw [sinkCalls_of_exec hexec]
  intro call hcall
  obtain ⟨msg, -, hanswer⟩ := List.mem_flatMap.mp hcall
  exact valid_of_onMessage hanswer

/-- A trade on one connection, and an order of the user's own on the next. -/
def twoEvents : List FeedAct :=
  opening ++ [.read (.ok (Json.render (.obj tradeMessage))), .read (.error (ascii "reset")),
    .expire, .waited ⟨0, 0⟩] ++
    opening ++ [.read (.ok (Json.render (.obj (SinkCall.members 0 (.onDelta ownOrder)))))]

theorem exec_twoEvents :
    ∃ s, (feed eager localOptions).exec (feed eager localOptions).start twoEvents = some s ∧
      s.sinkCalls =
        [.onTrade ⟨ascii "KX", 40, 60, 7, .no, 3000000000⟩, .onDelta ownOrder] := by
  obtain ⟨s, hexec, hcalls⟩ := Option.map_eq_some_iff.mp
    (show ((feed eager localOptions).exec (feed eager localOptions).start twoEvents).map
      RunState.sinkCalls = some
        [.onTrade ⟨ascii "KX", 40, 60, 7, .no, 3000000000⟩, .onDelta ownOrder] by decide +kernel)
  exact ⟨s, hexec, hcalls⟩

theorem sink_calls_valid_twoEvents :
    ∃ s, (feed eager localOptions).exec (feed eager localOptions).start twoEvents = some s ∧
      s.sinkCalls.length = 2 ∧ ∀ call ∈ s.sinkCalls, call.Valid := by
  obtain ⟨s, hexec, hcalls⟩ := exec_twoEvents
  exact ⟨s, hexec, by rw [hcalls]; rfl,
    sink_calls_valid eager localOptions s (Machine.reachable_of_exec hexec)⟩

/-! ### Sinks over a run -/

/-- A sink that counts its calls. -/
def countingSink : MarketSink ℕ where
  onSnapshot count _ := count + 1
  onDelta count _ := count + 1
  onTrade count _ := count + 1
  onStatus count _ := count + 1

/-- A sink that keeps its calls. -/
def keepingSink : MarketSink (List SinkCall) where
  onSnapshot calls s := calls ++ [.onSnapshot s]
  onDelta calls d := calls ++ [.onDelta d]
  onTrade calls t := calls ++ [.onTrade t]
  onStatus calls _ := calls

/-- Behind a fan-out each sink goes through the run as if it were the only one: it ends in
the state that the messages received lead to, each taken as often as the fan-out refers
to the sink. -/
theorem fanout_run (iterate : ℕ → Bytes → Except SimdError Document) (options : RunOptions)
    (sinks : ∀ i, MarketSink (σ i)) (refs : List ι) (state : ∀ i, σ i) (acts : List FeedAct)
    (s : RunState) (h : (feed iterate options).exec (feed iterate options).start acts = some s)
    (i : ι) :
    (fanoutSink sinks refs).acceptAll state s.sinkCalls i = (sinks i).acceptAll (state i)
      ((decoded iterate (received acts)).flatMap (List.replicate (refs.count i))) := by
  rw [acceptAll_fanoutSink, sinkCalls_of_exec h]

/-- Two counters, of which the fan-out refers to one twice. -/
theorem fanout_run_twoEvents :
    ∃ s, (feed eager localOptions).exec (feed eager localOptions).start twoEvents = some s ∧
      (fanoutSink (fun _ : Bool => countingSink) [true, false, true]).acceptAll (fun _ => 0)
        s.sinkCalls true = 4 := by
  obtain ⟨s, hexec, -⟩ := exec_twoEvents
  refine ⟨s, hexec, ?_⟩
  rw [fanout_run eager localOptions _ _ _ twoEvents s hexec true]
  decide +kernel

/-- The seconds of an event. -/
def SinkCall.seconds : SinkCall → Int64
  | .onTrade t => .ofInt (t.ts.toInt / 1000000000)
  | _ => 0

/-- The message of an event. -/
def SinkCall.text (call : SinkCall) : Bytes := Json.render (.obj (call.members call.seconds))

/-- An event that has a message: it passes the checks, its time is in whole seconds and
its strings are in UTF-8. -/
structure SinkCall.Sendable (call : SinkCall) : Prop where
  valid : call.Valid
  seconds : call.At call.seconds
  texts : ∀ text ∈ call.texts, ValidUtf8 text

theorem decoded_texts (hreads : Reads iterate) {calls : List SinkCall}
    (h : ∀ call ∈ calls, call.Sendable) : decoded iterate (calls.map SinkCall.text) = calls := by
  induction calls with
  | nil => rfl
  | cons call calls ih =>
      obtain ⟨hcall, hcalls⟩ := List.forall_mem_cons.mp h
      have hanswer := onMessage_members hreads hcall.valid hcall.seconds hcall.texts
      rw [decoded, List.map_cons, List.flatMap_cons, ← decoded, ih hcalls, SinkCall.text, hanswer]
      rfl

/-- Events that are sent arrive: when the messages of a run, over however many connections,
are those of a list of events, every sink ends in the state these events lead to. -/
theorem events_delivered (iterate : ℕ → Bytes → Except SimdError Document)
    (hreads : Reads iterate) (options : RunOptions) (calls : List SinkCall)
    (hsend : ∀ call ∈ calls, call.Sendable) (acts : List FeedAct)
    (hreceived : received acts = calls.map SinkCall.text) (s : RunState)
    (h : (feed iterate options).exec (feed iterate options).start acts = some s) :
    s.sinkCalls = calls ∧ ∀ (sinks : ∀ i, MarketSink (σ i)) (refs : List ι) (state : ∀ i, σ i),
      refs.Nodup → ∀ i ∈ refs, (fanoutSink sinks refs).acceptAll state s.sinkCalls i =
        (sinks i).acceptAll (state i) calls := by
  have hcalls : s.sinkCalls = calls := by
    rw [sinkCalls_of_exec h, hreceived, decoded_texts hreads hsend]
  refine ⟨hcalls, fun sinks refs state hnodup i hi => ?_⟩
  have honce : calls.flatMap (List.replicate 1) = calls := List.flatMap_singleton' calls
  rw [acceptAll_fanoutSink, List.count_eq_one_of_mem hnodup hi, hcalls, honce]

theorem sendable_ownOrder : (SinkCall.onDelta ownOrder).Sendable := by
  have hascii : ∀ text ∈ (SinkCall.onDelta ownOrder).texts, isAscii text = true := by decide
  exact ⟨⟨by decide, rfl⟩, trivial, fun text htext => validUtf8_of_isAscii (hascii text htext)⟩

/-- One order, received on two connections. -/
def ownOrderTwice : List FeedAct :=
  opening ++ [.read (.ok (SinkCall.onDelta ownOrder).text), .read (.error (ascii "reset")),
    .expire, .waited ⟨0, 0⟩] ++ opening ++ [.read (.ok (SinkCall.onDelta ownOrder).text)]

theorem events_delivered_ownOrderTwice :
    ∃ s, (feed eager localOptions).exec (feed eager localOptions).start ownOrderTwice = some s ∧
      (fanoutSink (fun _ : Bool => keepingSink) [true, false]).acceptAll (fun _ => [])
        s.sinkCalls false = [.onDelta ownOrder, .onDelta ownOrder] := by
  obtain ⟨s, hexec⟩ := Option.isSome_iff_exists.mp
    (show ((feed eager localOptions).exec (feed eager localOptions).start ownOrderTwice).isSome by
      decide +kernel)
  have hsend : ∀ call ∈ [SinkCall.onDelta ownOrder, .onDelta ownOrder], call.Sendable := by
    simpa using sendable_ownOrder
  have hdelivered := (events_delivered eager reads_eager localOptions _ hsend ownOrderTwice rfl s
    hexec).2 (fun _ : Bool => keepingSink) [true, false] (fun _ => []) (by decide) false (by decide)
  exact ⟨s, hexec, hdelivered⟩

end KalshiAutotrader.Md
