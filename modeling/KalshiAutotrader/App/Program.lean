import KalshiAutotrader.App.LoggerOptions
import KalshiAutotrader.App.LoggingSink
import KalshiAutotrader.Logging.LogLine
import KalshiAutotrader.Md.Liveness

/-!
The program: `main`, and the two threads it runs on.

The main thread starts up, is in the event loop, and destroys the logger when the loop
has returned. Whatever it does is a handler followed by calls of `log`, and between any
two of those the worker of the logger may take steps. So the program is the feed handler
and the logger side by side, and the calls that are still to be made are what is between
them.
-/

namespace KalshiAutotrader.App

open Kit KalshiAutotrader.Core Logging Md Simdjson

/-! ### Starting up -/

def AppContext.logConfig (ctx : AppContext) : List LogEvent :=
  let wsFields := LogFields.addString [] (ascii "ws_url") ctx.wsUrl
  let subFields := LogFields.addStringList [] (ascii "channels") ctx.subscription.request.channels
  let subFields :=
    subFields.addStringList (ascii "market_tickers") ctx.subscription.request.marketTickers
  [logEvent .info (ascii "core.config") (ascii "ws_url") wsFields,
    logEvent .info (ascii "core.config") (ascii "subscription") subFields]

/-- What the closure `refresh_headers` logs before it returns. -/
def AppContext.refreshEvents (ctx : AppContext) (sign : Signer) : FeedAct → List LogEvent
  | .waited moment =>
      match buildHeaders sign ctx.auth moment with
      | .error (_, .log event) => [event]
      | _ => []
  | _ => []

/-- The logger that `build` makes, before it looks at anything but the configuration. -/
def buildLogger (host : Host) (file : Option Bytes) : Option AsyncJsonLoggerOptions :=
  match loadConfig (host.iterate 0) file with
  | .error _ => none
  | .ok config => (buildLoggerOptions config).toOption

def Diagnostic.line? : Diagnostic → Option Bytes
  | .stderr line => some line
  | .log _ => none

def Diagnostic.event? : Diagnostic → Option LogEvent
  | .stderr _ => none
  | .log event => some event

/-- Where `main` is when it enters the event loop, or is about to return without. -/
structure Launch where
  stderr : List Bytes
  /-- The logger, if there is one. -/
  logger : Option AsyncJsonLoggerOptions
  /-- The calls of `log` up to here. -/
  calls : List LogEvent
  /-- The context, and the state in which the loop starts. -/
  loop : Option (AppContext × RunState)
  exitCode : ℕ

def runFailedEvent : LogEvent :=
  logEvent .error (ascii "md.feed_handler") (ascii "run_failed") []

/-- `main`, up to the event loop. -/
def main (host : Host) (fs : FileSystem) (file : Option Bytes) (moment : Moment) : Launch :=
  match AppContext.build host file moment with
  | .error (_, diagnostic) =>
      { stderr := diagnostic.line?.toList, logger := buildLogger host file,
        calls := diagnostic.event?.toList, loop := none, exitCode := 1 }
  | .ok ctx =>
      match FeedHandler.run fs (ctx.buildRunOptions host.sign) with
      | .error (_, event) =>
          { stderr := [], logger := some ctx.logger,
            calls := ctx.logConfig ++ [event, runFailedEvent], loop := none, exitCode := 1 }
      | .ok state =>
          { stderr := [], logger := some ctx.logger,
            calls := ctx.logConfig ++ state.trace.filterMap Output.event,
            loop := some (ctx, state), exitCode := 0 }

/-! ### The two threads -/

structure ProgramState where
  loop : Option (AppContext × RunState)
  logger : LoggerState
  /-- The calls of `log` the main thread has to make before it goes on. -/
  pending : List LogEvent
  /-- History: all calls of the main thread, the pending ones included. -/
  said : List LogEvent

inductive ProgramAct
  /-- The event loop calls a handler. -/
  | handle (a : FeedAct)
  /-- The main thread makes its next call of `log`. -/
  | call (now : UInt64)
  /-- The worker's next step. -/
  | work (now : UInt64)
  | wakeup
  /-- The next step of the logger's destructor. -/
  | destroy

instance (s : RunState) : Decidable s.OutOfWork := inferInstanceAs (Decidable (_ ∧ _))

instance (s : RunState) : Decidable s.Returns := inferInstanceAs (Decidable (_ ∨ _))

/-- The main thread is at the end of `main`. -/
def ProgramState.atEnd (s : ProgramState) : Bool :=
  s.pending = [] && s.loop.all fun (_, feed) => decide feed.Returns

/-- The calls a handler comes to: those of the closure, then those of the handler. -/
def handlerEvents (host : Host) (ctx : AppContext) (feed feed' : RunState) (a : FeedAct) :
    List LogEvent :=
  ctx.refreshEvents host.sign a ++
    (feed'.trace.drop feed.trace.length).filterMap Output.event

def ProgramState.withLogger (s : ProgramState) (logger : LoggerState) : ProgramState :=
  { s with logger := logger }

def ProgramState.next (host : Host) (options : AsyncJsonLoggerOptions) (s : ProgramState) :
    ProgramAct → Option ProgramState
  | .handle a =>
      if s.pending = [] ∧ s.logger.destructor = .idle then
        s.loop.bind fun (ctx, feed) =>
          (FeedHandler.next host.iterate feed a).map fun feed' =>
            let events := handlerEvents host ctx feed feed' a
            { s with loop := some (ctx, feed'), pending := events, said := s.said ++ events }
      else none
  | .call now =>
      match s.pending with
      | [] => none
      | event :: rest =>
          (log options s.logger event now).map fun logger =>
            { s with logger := logger, pending := rest }
  | .work now => (run s.logger now).map s.withLogger
  | .wakeup => ((Logging.logger options).next s.logger .wakeup).map s.withLogger
  | .destroy => if s.atEnd then (destroy s.logger).map s.withLogger else none

/-- The program from where it is launched, with the logger it has made. -/
def program (host : Host) (options : AsyncJsonLoggerOptions) (launch : Launch) :
    Machine ProgramState ProgramAct where
  start := { loop := launch.loop, logger := .initial, pending := launch.calls,
             said := launch.calls }
  next := ProgramState.next host options

/-- The handler an action calls. -/
def ProgramAct.handled : ProgramAct → Option FeedAct
  | .handle a => some a
  | _ => none

/-- A step of the program is a handler, or has no part in what is said. -/
theorem next_cases {host : Host} {options : AsyncJsonLoggerOptions} {s s' : ProgramState}
    {a : ProgramAct} (h : s.next host options a = some s') :
    (∃ b ctx feed feed', a = .handle b ∧ s.loop = some (ctx, feed) ∧
      FeedHandler.next host.iterate feed b = some feed' ∧ s'.loop = some (ctx, feed') ∧
      s'.said = s.said ++ handlerEvents host ctx feed feed' b) ∨
    (a.handled = none ∧ s'.loop = s.loop ∧ s'.said = s.said) := by
  cases a with
  | handle b =>
      obtain ⟨-, hloop⟩ := Option.ite_none_right_eq_some.mp h
      obtain ⟨⟨ctx, feed⟩, hfeed, hbind⟩ := Option.bind_eq_some_iff.mp hloop
      obtain ⟨feed', hnext, rfl⟩ := Option.map_eq_some_iff.mp hbind
      exact .inl ⟨b, ctx, feed, feed', rfl, hfeed, hnext, rfl, rfl⟩
  | call now =>
      simp only [ProgramState.next] at h
      split at h
      · cases h
      · obtain ⟨logger', -, rfl⟩ := Option.map_eq_some_iff.mp h
        exact .inr ⟨rfl, rfl, rfl⟩
  | work now =>
      obtain ⟨logger', -, rfl⟩ := Option.map_eq_some_iff.mp h
      exact .inr ⟨rfl, rfl, rfl⟩
  | wakeup =>
      obtain ⟨logger', -, rfl⟩ := Option.map_eq_some_iff.mp h
      exact .inr ⟨rfl, rfl, rfl⟩
  | destroy =>
      obtain ⟨-, hlogger⟩ := Option.ite_none_right_eq_some.mp h
      obtain ⟨logger', -, rfl⟩ := Option.map_eq_some_iff.mp hlogger
      exact .inr ⟨rfl, rfl, rfl⟩

/-! ### What is said -/

/-- The level, the component and the message of an event. -/
def kind (event : LogEvent) : LogLevel × Bytes × Bytes :=
  (event.level, event.component, event.message)

/-- Everything the program ever logs. -/
def vocabulary : List (LogLevel × Bytes × Bytes) := [
  (.error, ascii "core.auth", ascii "auth_error"),
  (.error, ascii "core.config", ascii "orderbook_delta_requires_market_tickers"),
  (.error, ascii "core.auth", ascii "signing_failed"),
  (.info, ascii "core.config", ascii "ws_url"),
  (.info, ascii "core.config", ascii "subscription"),
  (.error, ascii "md.feed_handler", ascii "output_open_failed"),
  (.error, ascii "md.feed_handler", ascii "run_failed"),
  (.error, ascii "md.ws_client", ascii "ws_error"),
  (.warn, ascii "md.ws_client", ascii "reconnect_scheduled"),
  (.error, ascii "md.ws_client", ascii "refresh_headers_failed"),
  (.info, ascii "md.ws_client", ascii "ws_open"),
  (.info, ascii "md.ws_client", ascii "ws_ping"),
  (.info, ascii "md.ws_client", ascii "ws_pong"),
  (.info, ascii "md.ws_client", ascii "ws_control"),
  (.debug, ascii "md.ws_client", ascii "ws_message"),
  (.info, ascii "md.feed_handler", ascii "first_message_received"),
  (.info, ascii "md.feed_handler", ascii "max_messages_reached"),
  (.debug, ascii "md.dispatcher", ascii "unsupported_message_type"),
  (.warn, ascii "md.dispatcher", ascii "parse_error"),
  (.info, ascii "md.sink", ascii "orderbook_snapshot"),
  (.debug, ascii "md.sink", ascii "orderbook_delta"),
  (.debug, ascii "md.sink", ascii "trade"),
  (.warn, ascii "logging", ascii "dropped_logs")]

/-- The message of the event that `build_headers` logs. -/
def signingFailed : Bytes := ascii "signing_failed"

/-- An event of the program before it has a time. -/
structure Plain (event : LogEvent) : Prop where
  unstamped : event.tsMs = 0
  exact : event.Exact
  kind_mem : kind event ∈ vocabulary

/-- An event without its time. -/
def unstamped (event : LogEvent) : LogEvent := { event with tsMs := 0 }

theorem unstamped_stamp {event : LogEvent} (h : Plain event) (now : UInt64) :
    unstamped (stamp event now) = event := by
  have hzero := h.unstamped
  unfold stamp unstamped
  cases event
  simp_all

theorem plain_logEvent {level : LogLevel} {component message : Bytes} {fields : LogFields}
    (hfields : ∀ field ∈ fields, field.value.Exact)
    (hkind : (level, component, message) ∈ vocabulary) :
    Plain (logEvent level component message fields) :=
  ⟨rfl, hfields, hkind⟩

theorem plain_logRawEvent {level : LogLevel} {component message raw : Bytes} {fields : LogFields}
    (hfields : ∀ field ∈ fields, field.value.Exact)
    (hkind : (level, component, message) ∈ vocabulary) :
    Plain (logRawEvent level component message fields raw) :=
  ⟨rfl, hfields, hkind⟩

theorem exact_snoc {fields : LogFields} {field : LogField} (h : field.value.Exact) :
    (∀ f ∈ fields ++ [field], f.value.Exact) ↔ ∀ f ∈ fields, f.value.Exact := by
  rw [List.forall_mem_append, List.forall_mem_singleton, and_iff_left h]

@[simp] theorem exact_addString {fields : LogFields} {key : Bytes} {value : Bytes} :
    (∀ field ∈ fields.addString key value, field.value.Exact) ↔
      ∀ field ∈ fields, field.value.Exact :=
  exact_snoc trivial

@[simp] theorem exact_addInt {fields : LogFields} {key : Bytes} {value : Int64} :
    (∀ field ∈ fields.addInt key value, field.value.Exact) ↔
      ∀ field ∈ fields, field.value.Exact :=
  exact_snoc trivial

@[simp] theorem exact_addUint {fields : LogFields} {key : Bytes} {value : UInt64} :
    (∀ field ∈ fields.addUint key value, field.value.Exact) ↔
      ∀ field ∈ fields, field.value.Exact :=
  exact_snoc trivial

@[simp] theorem exact_addStringList {fields : LogFields} {key : Bytes} {value : List Bytes} :
    (∀ field ∈ fields.addStringList key value, field.value.Exact) ↔
      ∀ field ∈ fields, field.value.Exact :=
  exact_snoc trivial

/-- Plain, and not about signing. -/
def Unsigned (event : LogEvent) : Prop := Plain event ∧ event.message ≠ signingFailed

theorem unsigned_logEvent {level : LogLevel} {component message : Bytes} {fields : LogFields}
    (hfields : ∀ field ∈ fields, field.value.Exact)
    (hkind : (level, component, message) ∈ vocabulary) (hother : message ≠ signingFailed) :
    Unsigned (logEvent level component message fields) :=
  ⟨plain_logEvent hfields hkind, hother⟩

theorem unsigned_logRawEvent {level : LogLevel} {component message raw : Bytes}
    {fields : LogFields} (hfields : ∀ field ∈ fields, field.value.Exact)
    (hkind : (level, component, message) ∈ vocabulary) (hother : message ≠ signingFailed) :
    Unsigned (logRawEvent level component message fields raw) :=
  ⟨plain_logRawEvent hfields hkind, hother⟩

/-- What the handler says is plain, and it does not talk about signing. -/
theorem unsigned_of_said {output : Output} (h : Says output) {event : LogEvent}
    (hevent : event ∈ Output.event output) : Unsigned event := by
  cases h with
  | capture => cases hevent
  | sink call =>
      obtain rfl := Option.some.inj hevent
      cases call <;> exact unsigned_logEvent (by simp) (by decide +kernel) (by decide +kernel)
  | control kind payload =>
      obtain rfl := Option.some.inj hevent
      cases kind <;> exact unsigned_logEvent (by simp) (by decide +kernel) (by decide +kernel)
  | wsMessage =>
      obtain rfl := Option.some.inj hevent
      exact unsigned_logRawEvent (by simp) (by decide +kernel) (by decide +kernel)
  | parseError error raw includeRaw =>
      obtain rfl := Option.some.inj hevent
      unfold FeedHandler.parseErrorEvent
      split
      · exact unsigned_logRawEvent (by simp) (by decide +kernel) (by decide +kernel)
      · exact unsigned_logEvent (by simp) (by decide +kernel) (by decide +kernel)
  | _ =>
      obtain rfl := Option.some.inj hevent
      exact unsigned_logEvent (by simp) (by decide +kernel) (by decide +kernel)

theorem plain_refreshEvents (ctx : AppContext) (sign : Signer) (a : FeedAct) :
    ∀ event ∈ ctx.refreshEvents sign a, Plain event := by
  unfold AppContext.refreshEvents
  cases a with
  | waited moment =>
      unfold buildHeaders
      cases hbuilt : buildWsHeaders sign ctx.auth wsPath moment with
      | ok headers => simp [hbuilt]
      | error e =>
          simp only [hbuilt, List.forall_mem_singleton]
          exact plain_logEvent (by simp) (by decide +kernel)
  | _ => simp

theorem plain_handlerEvents {host : Host} (ctx : AppContext) {feed feed' : RunState} {a : FeedAct}
    (h : FeedHandler.next host.iterate feed a = some feed') :
    ∀ event ∈ handlerEvents host ctx feed feed' a, Plain event := by
  obtain ⟨outputs, htrace, hspoken⟩ := speaks_of_next h
  refine List.forall_mem_append.mpr ⟨plain_refreshEvents ctx host.sign a, fun event hevent => ?_⟩
  rw [htrace, List.drop_left, List.mem_filterMap] at hevent
  obtain ⟨output, houtput, hevent⟩ := hevent
  exact (unsigned_of_said (hspoken output houtput) hevent).1

theorem plain_logConfig (ctx : AppContext) : ∀ event ∈ ctx.logConfig, Plain event := by
  rw [AppContext.logConfig, List.forall_mem_cons, List.forall_mem_singleton]
  exact ⟨plain_logEvent (by simp) (by decide +kernel), plain_logEvent (by simp) (by decide +kernel)⟩

theorem stderr_of_buildLoggerOptions {config : Config} {e : AppError} {diagnostic : Diagnostic}
    (h : buildLoggerOptions config = .error (e, diagnostic)) :
    ∃ line, diagnostic = .stderr line := by
  unfold buildLoggerOptions at h
  split at h
  · exact ⟨_, (Prod.mk.inj (Except.error.inj h)).2.symm⟩
  · split at h
    · exact ⟨_, (Prod.mk.inj (Except.error.inj h)).2.symm⟩
    · cases h

theorem event_of_buildHeaders {sign : Signer} {auth : AuthConfig} {moment : Moment} {e : AppError}
    {diagnostic : Diagnostic} (h : buildHeaders sign auth moment = .error (e, diagnostic)) :
    ∃ event, diagnostic = .log event ∧ event.level = .error ∧ Plain event := by
  unfold buildHeaders at h
  split at h
  · cases h
  · exact ⟨_, (Prod.mk.inj (Except.error.inj h)).2.symm, rfl,
      plain_logEvent (by simp) (by decide +kernel)⟩

/-- A start-up that fails says so: with a line on `stderr` as long as there is no logger,
and with an error event from then on. -/
theorem build_error {host : Host} {file : Option Bytes} {moment : Moment} {e : AppError}
    {diagnostic : Diagnostic} (h : AppContext.build host file moment = .error (e, diagnostic)) :
    (∃ line, diagnostic = .stderr line ∧ buildLogger host file = none) ∨
      ∃ event options, diagnostic = .log event ∧ buildLogger host file = some options ∧
        event.level = .error ∧ Plain event := by
  unfold AppContext.build at h
  unfold buildLogger
  rcases bind_eq_error.mp h with hload | ⟨config, hload, h⟩
  · obtain ⟨err, herr, heq⟩ := mapError_eq_error.mp hload
    obtain ⟨-, rfl⟩ := Prod.mk.inj heq
    exact .inl ⟨_, rfl, by rw [herr]⟩
  rw [mapError_eq_ok.mp hload]
  rcases bind_eq_error.mp h with hlogger | ⟨options, hlogger, h⟩
  · obtain ⟨line, rfl⟩ := stderr_of_buildLoggerOptions hlogger
    exact .inl ⟨line, rfl, by simp only [hlogger]; rfl⟩
  suffices hevent : ∃ event, diagnostic = .log event ∧ event.level = .error ∧ Plain event by
    obtain ⟨event, heq, hlevel, hplain⟩ := hevent
    exact .inr ⟨event, options, heq, by simp only [hlogger]; rfl, hlevel, hplain⟩
  rcases bind_eq_error.mp h with hauth | ⟨auth, -, h⟩
  · obtain ⟨err, -, heq⟩ := mapError_eq_error.mp hauth
    exact ⟨_, (Prod.mk.inj heq).2.symm, rfl, plain_logEvent (by simp) (by decide +kernel)⟩
  rcases bind_eq_error.mp h with hsubscription | ⟨subscription, -, h⟩
  · obtain ⟨err, -, heq⟩ := mapError_eq_error.mp hsubscription
    exact ⟨_, (Prod.mk.inj heq).2.symm, rfl, plain_logEvent (by simp) (by decide +kernel)⟩
  rcases bind_eq_error.mp h with hheaders | ⟨headers, -, h⟩
  · exact event_of_buildHeaders hheaders
  · cases h

theorem buildLogger_of_build {host : Host} {file : Option Bytes} {moment : Moment}
    {ctx : AppContext} (h : AppContext.build host file moment = .ok ctx) :
    buildLogger host file = some ctx.logger := by
  unfold AppContext.build at h
  simp only [bind_eq_ok, mapError_eq_ok] at h
  obtain ⟨config, hload, options, hlogger, auth, -, subscription, -, headers, -, hctx⟩ := h
  obtain rfl := Except.ok.inj hctx
  simp only [buildLogger, hload, hlogger]
  rfl

/-- The logger that is built has room for an event. -/
theorem queueSize_of_buildLogger {host : Host} {file : Option Bytes}
    {options : AsyncJsonLoggerOptions} (h : buildLogger host file = some options) :
    1 ≤ options.queueSize := by
  unfold buildLogger at h
  split at h
  · cases h
  · next config hload =>
    have husable := usable_of_loadConfig hload
    unfold buildLoggerOptions at h
    split at h
    · cases h
    · split at h
      · cases h
      · obtain rfl := Option.some.inj h
        exact husable.queueSize

/-- The ways `main` gets to the event loop, or does not. -/
inductive Launched (host : Host) (file : Option Bytes) : Launch → Prop
  /-- There is no logger, and one line on `stderr`. -/
  | silent (line : Bytes) (hlogger : buildLogger host file = none) :
      Launched host file
        { stderr := [line], logger := none, calls := [], loop := none, exitCode := 1 }
  | failed (event : LogEvent) (options : AsyncJsonLoggerOptions)
      (hlogger : buildLogger host file = some options) (hlevel : event.level = .error)
      (hplain : Plain event) :
      Launched host file
        { stderr := [], logger := some options, calls := [event], loop := none, exitCode := 1 }
  /-- The capture file cannot be opened. -/
  | outputFailed (ctx : AppContext) (event : LogEvent)
      (hlogger : buildLogger host file = some ctx.logger) (hplain : Plain event) :
      Launched host file
        { stderr := [], logger := some ctx.logger,
          calls := ctx.logConfig ++ [event, runFailedEvent], loop := none, exitCode := 1 }
  | running (ctx : AppContext) (hlogger : buildLogger host file = some ctx.logger) :
      Launched host file
        { stderr := [], logger := some ctx.logger,
          calls := ctx.logConfig ++ (ctx.feed host).start.trace.filterMap Output.event,
          loop := some (ctx, (ctx.feed host).start), exitCode := 0 }

theorem launched_main (host : Host) (fs : FileSystem) (file : Option Bytes) (moment : Moment) :
    Launched host file (main host fs file moment) := by
  unfold main
  cases hbuild : AppContext.build host file moment with
  | error failure =>
      obtain ⟨e, diagnostic⟩ := failure
      rcases build_error hbuild with
        ⟨line, rfl, hnone⟩ | ⟨event, options, rfl, hsome, hlevel, hplain⟩
      · simp only [hnone]
        exact .silent line hnone
      · simp only [hsome]
        exact .failed event options hsome hlevel hplain
  | ok ctx =>
      have hlogger := buildLogger_of_build hbuild
      cases hrun : FeedHandler.run fs (ctx.buildRunOptions host.sign) with
      | error failure =>
          obtain ⟨e, event⟩ := failure
          have hevent : Plain event := by
            unfold FeedHandler.run at hrun
            split at hrun
            · obtain ⟨-, rfl⟩ := Prod.mk.inj (Except.error.inj hrun)
              exact plain_logEvent (by simp) (by decide +kernel)
            · cases hrun
          simp only [hrun]
          exact .outputFailed ctx event hlogger hevent
      | ok state =>
          have hstart : (ctx.feed host).start = state := start_of_run hrun
          simp only [hrun, ← hstart]
          exact .running ctx hlogger

variable {host : Host} {file : Option Bytes} {launch : Launch}
  {options : AsyncJsonLoggerOptions}

theorem Launched.buildLogger (h : Launched host file launch)
    (hoptions : launch.logger = some options) : buildLogger host file = some options := by
  cases h with
  | silent => cases hoptions
  | failed | outputFailed | running =>
      obtain rfl := Option.some.inj hoptions
      assumption

theorem Launched.plain (h : Launched host file launch) : ∀ event ∈ launch.calls, Plain event := by
  cases h with
  | silent => simp
  | failed event options _ _ hplain => simpa using hplain
  | outputFailed ctx event _ hplain =>
      refine List.forall_mem_append.mpr ⟨plain_logConfig ctx, ?_⟩
      rw [List.forall_mem_cons, List.forall_mem_singleton]
      exact ⟨hplain, plain_logEvent (by simp) (by decide +kernel)⟩
  | running ctx =>
      refine List.forall_mem_append.mpr ⟨plain_logConfig ctx, fun event hevent => ?_⟩
      obtain ⟨output, houtput, hevent⟩ := List.mem_filterMap.mp hevent
      exact (unsigned_of_said (says_of_reachable .start output houtput) hevent).1

/-! ### The logger in the program -/

/-- The level of the logger lets the event through. -/
def passes (options : AsyncJsonLoggerOptions) (event : LogEvent) : Bool :=
  shouldLog event.level options.level

/-- The logger is in an orderly run of its own, and what it has been offered and what is
pending is what has been said. -/
structure Records (options : AsyncJsonLoggerOptions) (s : ProgramState) : Prop where
  orderly : (logger options).Reach Orderly s.logger
  idle : s.pending ≠ [] → s.logger.destructor = .idle
  plain : ∀ event ∈ s.said, Plain event
  pending : s.pending <:+ s.said
  offered : s.logger.offered.map unstamped ++ s.pending.filter (passes options) =
    s.said.filter (passes options)

variable {s s' : ProgramState}

/-- A step of the logger that is no call of `log`. -/
theorem records_quiet {a : LoggerAct} {logger' : LoggerState} (hs : Records options s)
    (hnext : (logger options).next s.logger a = some logger') (horderly : Orderly s.logger a)
    (hoffer : a.offer options = none)
    (hidle : s.pending ≠ [] → logger'.destructor = .idle) :
    Records options (s.withLogger logger') where
  orderly := .step hs.orderly horderly hnext
  idle := hidle
  plain := hs.plain
  pending := hs.pending
  offered := by
    have hsame : logger'.offered = s.logger.offered := by
      simpa [hoffer] using next_offered hnext
    simpa [ProgramState.withLogger, hsame] using hs.offered

theorem records_call {event : LogEvent} {rest : List LogEvent} {now : UInt64}
    {logger' : LoggerState} (hs : Records options s) (hpending : s.pending = event :: rest)
    (h : log options s.logger event now = some logger') :
    Records options { s with logger := logger', pending := rest } := by
  have hidle : s.logger.destructor = .idle := hs.idle (by rw [hpending]; simp)
  have hnext : (logger options).next s.logger (.log event now) = some logger' := h
  have hplain : Plain event := by
    refine hs.plain event (hs.pending.subset ?_)
    rw [hpending]
    exact List.mem_cons_self
  have hoffered := hs.offered
  rw [hpending] at hoffered
  have horderly : Orderly s.logger (.log event now) := hidle
  refine ⟨.step hs.orderly horderly hnext, fun _ => ?_, hs.plain, ?_, ?_⟩
  · rcases log_cases h with ⟨-, rfl⟩ | ⟨-, -, rfl⟩
    · exact hidle
    · exact (enqueue_frame options s.logger _).2.1.trans hidle
  · exact (List.suffix_cons event rest).trans (hpending ▸ hs.pending)
  · rw [← hoffered]
    rcases log_cases h with ⟨hlevel, rfl⟩ | ⟨hlevel, -, rfl⟩
    · rw [List.filter_cons_of_neg (by simp [passes, hlevel])]
    · rw [List.filter_cons_of_pos (by simp [passes, hlevel]), enqueue_offered, List.map_append,
        List.map_singleton, unstamped_stamp hplain, List.append_assoc, List.singleton_append]

theorem records_next {a : ProgramAct} (hs : Records options s)
    (h : s.next host options a = some s') : Records options s' := by
  cases a with
  | handle a =>
      obtain ⟨⟨hpending, hidle⟩, hloop⟩ := Option.ite_none_right_eq_some.mp h
      obtain ⟨⟨ctx, feed⟩, -, hloop⟩ := Option.bind_eq_some_iff.mp hloop
      obtain ⟨feed', hfeed, rfl⟩ := Option.map_eq_some_iff.mp hloop
      refine ⟨hs.orderly, fun _ => hidle, ?_, List.suffix_append _ _, ?_⟩
      · exact List.forall_mem_append.mpr ⟨hs.plain, plain_handlerEvents ctx hfeed⟩
      · have hoffered := hs.offered
        rw [hpending, List.filter_nil, List.append_nil] at hoffered
        rw [List.filter_append, hoffered]
  | call now =>
      simp only [ProgramState.next] at h
      split at h
      · cases h
      · next event rest hpending =>
        obtain ⟨logger', hlog, rfl⟩ := Option.map_eq_some_iff.mp h
        exact records_call hs hpending hlog
  | work now =>
      obtain ⟨logger', hrun, rfl⟩ := Option.map_eq_some_iff.mp h
      obtain ⟨-, -, -, hdest, -⟩ := run_conserves hrun
      exact records_quiet (a := .work now) hs hrun trivial rfl fun hne => hdest.trans (hs.idle hne)
  | wakeup =>
      obtain ⟨logger', hwakeup, rfl⟩ := Option.map_eq_some_iff.mp h
      refine records_quiet hs hwakeup trivial rfl fun hne => ?_
      obtain ⟨-, rfl⟩ := wakeup_eq options hwakeup
      exact hs.idle hne
  | destroy =>
      obtain ⟨hend, hlogger⟩ := Option.ite_none_right_eq_some.mp h
      obtain ⟨logger', hdestroy, rfl⟩ := Option.map_eq_some_iff.mp hlogger
      refine records_quiet (a := .destroy) hs hdestroy trivial rfl fun hne => ?_
      simp [ProgramState.atEnd, hne] at hend

theorem records_of_reachable (hlaunch : Launched host file launch)
    (h : (program host options launch).Reachable s) : Records options s :=
  h.invariant (I := Records options)
    ⟨.start, fun _ => rfl, hlaunch.plain, List.suffix_refl _, rfl⟩
    fun hs _ hnext => records_next hs hnext

end KalshiAutotrader.App
