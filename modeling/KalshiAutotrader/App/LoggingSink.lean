import KalshiAutotrader.Md.Vocabulary

/-!
The sink of the program: every call of the dispatcher becomes a call of the logger.

A message is then answered in the log by one event, whichever way it is disposed of.
-/

namespace KalshiAutotrader.App

open Kit KalshiAutotrader.Core Logging Md Simdjson

namespace LoggingSink

def onSnapshot (snapshot : OrderbookSnapshot) : LogEvent :=
  let fields := LogFields.addString [] (ascii "market_ticker") snapshot.marketTicker
  let fields := fields.addUint (ascii "sequence") snapshot.sequence
  logEvent .info (ascii "md.sink") (ascii "orderbook_snapshot") fields

def onDelta (delta : OrderbookDelta) : LogEvent :=
  let fields := LogFields.addString [] (ascii "market_ticker") delta.marketTicker
  let fields := fields.addUint (ascii "sequence") delta.sequence
  let fields := fields.addUint (ascii "price") delta.price.toUInt64
  let fields := fields.addInt (ascii "delta") delta.delta.toInt64
  logEvent .debug (ascii "md.sink") (ascii "orderbook_delta") fields

def onTrade (trade : TradeEvent) : LogEvent :=
  let fields := LogFields.addString [] (ascii "market_ticker") trade.marketTicker
  let fields := fields.addUint (ascii "yes_price") trade.yesPrice.toUInt64
  let fields := fields.addUint (ascii "no_price") trade.noPrice.toUInt64
  let fields := fields.addUint (ascii "count") trade.count.toUInt64
  logEvent .debug (ascii "md.sink") (ascii "trade") fields

/-- The event a call of the sink is logged as. -/
def event : SinkCall → LogEvent
  | .onSnapshot snapshot => onSnapshot snapshot
  | .onDelta delta => onDelta delta
  | .onTrade trade => onTrade trade

end LoggingSink

/-- The log call an output comes to. -/
def Output.event : Output → Option LogEvent
  | .capture _ => none
  | .log event => some event
  | .sink call => some (LoggingSink.event call)

/-- What a message is answered by in the log. -/
def answerEvents (iterate : ℕ → Bytes → Except SimdError Document) (includeRaw : Bool)
    (msg : Bytes) : List LogEvent :=
  match onMessage iterate msg with
  | (.ok (), calls) => calls.map LoggingSink.event
  | (.error .unsupportedType, _) => [FeedHandler.unsupportedEvent]
  | (.error error, _) => [FeedHandler.parseErrorEvent error msg includeRaw]

/-- The sink and the dispatcher log nothing but answers. -/
def answerComponents : List Bytes := [ascii "md.sink", ascii "md.dispatcher"]

def isAnswer (event : LogEvent) : Bool := answerComponents.contains event.component

/-- The answer an output is. -/
def Output.answer (output : Output) : Option LogEvent :=
  (Output.event output).filter isAnswer

variable {iterate : ℕ → Bytes → Except SimdError Document} {includeRaw : Bool} {msg : Bytes}

theorem component_parseErrorEvent (error : ParseError) (raw : Bytes) (includeRaw : Bool) :
    (FeedHandler.parseErrorEvent error raw includeRaw).component = ascii "md.dispatcher" := by
  unfold FeedHandler.parseErrorEvent
  split <;> rfl

theorem isAnswer_event (call : SinkCall) : isAnswer (LoggingSink.event call) = true := by
  cases call <;> exact show answerComponents.contains (ascii "md.sink") = true by decide +kernel

theorem isAnswer_parseError (error : ParseError) (raw : Bytes) (includeRaw : Bool) :
    isAnswer (FeedHandler.parseErrorEvent error raw includeRaw) = true := by
  rw [isAnswer, component_parseErrorEvent]
  decide +kernel

/-- A message has one disposition, and that is what answers it. -/
theorem answer_of_disposed {output : Output}
    (h : FeedHandler.Disposed iterate includeRaw msg output) :
    (Output.answer output).toList = answerEvents iterate includeRaw msg := by
  cases h with
  | sink h =>
      simp [Output.answer, Output.event, answerEvents, h, Option.filter, isAnswer_event]
  | unsupported h =>
      have hanswer : isAnswer FeedHandler.unsupportedEvent = true := by decide +kernel
      simp [Output.answer, Output.event, answerEvents, h, Option.filter, hanswer]
  | parseError h hne =>
      simp [Output.answer, Output.event, answerEvents, h, Option.filter, isAnswer_parseError]

/-- Each message has one answer. -/
theorem length_answerEvents (iterate : ℕ → Bytes → Except SimdError Document)
    (includeRaw : Bool) (msg : Bytes) : (answerEvents iterate includeRaw msg).length = 1 := by
  unfold answerEvents
  rcases onMessage_cases iterate msg with ⟨call, hcall⟩ | ⟨error, herror⟩
  · simp [hcall]
  · rw [herror]
    cases error <;> rfl

theorem isAnswer_logEvent {level : LogLevel} {component message : Bytes} {fields : LogFields}
    (h : answerComponents.contains component = false) :
    isAnswer (logEvent level component message fields) = false := h

theorem answer_log {event : LogEvent} (h : isAnswer event = false) :
    Output.answer (.log event) = none := by
  simp [Output.answer, Output.event, Option.filter, h]

/-- Whatever else the handler says is no answer. -/
theorem answer_of_said {output : Output} (h : Says output) (hother : output.answers = false) :
    Output.answer output = none := by
  have hclient : answerComponents.contains (ascii "md.ws_client") = false := by decide +kernel
  have hhandler : answerComponents.contains (ascii "md.feed_handler") = false := by
    decide +kernel
  cases h with
  | capture | sink => cases hother
  | wsError | reconnectScheduled | refreshFailed | wsOpen | control | wsMessage =>
      exact answer_log hclient
  | firstMessage | maxMessages =>
      exact answer_log hhandler
  | unsupported => exact absurd hother (by decide +kernel)
  | parseError error raw includeRaw =>
      refine absurd hother ?_
      unfold FeedHandler.parseErrorEvent
      split <;> exact show ¬ answerNames.contains (ascii "parse_error") = false by decide +kernel

/-- The answers in the trace of a run are those of its messages, in order. -/
theorem filterMap_answer_trace {options : RunOptions} {acts : List FeedAct} {s : RunState}
    (h : (feed iterate options).exec (feed iterate options).start acts = some s) :
    s.trace.filterMap Output.answer =
      (received acts).flatMap (answerEvents iterate options.includeRawOnParseError) := by
  have hspoken := says_of_reachable (Machine.reachable_of_exec h)
  -- only the outputs that answer a message matter
  have hfilter (outputs : List Output) (hout : ∀ o ∈ outputs, Says o) :
      outputs.filterMap Output.answer =
        (outputs.filter Output.answers).filterMap Output.answer := by
    induction outputs with
    | nil => rfl
    | cons output outputs ih =>
        obtain ⟨hhead, htail⟩ := List.forall_mem_cons.mp hout
        cases hanswers : output.answers with
        | true => rw [List.filter_cons_of_pos hanswers, List.filterMap_cons, List.filterMap_cons,
            ih htail]
        | false =>
            rw [List.filter_cons_of_neg (by simp [hanswers]),
              List.filterMap_cons_none (answer_of_said hhead hanswers), ih htail]
  have haccounts := (counted_of_exec h).2.accounts
  rw [hfilter s.trace hspoken, ← RunState.answers]
  generalize s.answers = outputs at haccounts
  generalize received acts = msgs at haccounts ⊢
  induction haccounts with
  | nil => rfl
  | @snoc msgs outputs msg output _ hdisposed ih =>
      have hcapture : Output.answer (.capture (msg ++ [newline])) = none := rfl
      have hfirst : (FeedHandler.firstOutput msgs.length).filterMap Output.answer = [] := by
        unfold FeedHandler.firstOutput
        split
        · decide +kernel
        · rfl
      have hlast : [output].filterMap Output.answer =
          answerEvents iterate options.includeRawOnParseError msg := by
        rw [← answer_of_disposed hdisposed]
        cases hone : Output.answer output <;> simp [hone]
      rw [List.filterMap_append, ih, List.filterMap_cons_none hcapture, List.filterMap_append,
        hfirst, hlast, List.nil_append, List.flatMap_append, List.flatMap_singleton]

end KalshiAutotrader.App
