import KalshiAutotrader.App.Program
import KalshiAutotrader.Logging.Batches
import KalshiAutotrader.Logging.Progress

/-!
From the wire to the log file.

The program says one thing for each message, the logger is offered what the program
says, and the file has what the logger was offered, but for what it counts as dropped.
What stands in the file is JSON, line by line, and of a fixed vocabulary, whatever was
received.
-/

namespace KalshiAutotrader.App

open Kit KalshiAutotrader.Core Logging Md Simdjson

variable {host : Host} {fs : FileSystem} {file : Option Bytes} {moment : Moment}
  {launch : Launch} {options : AsyncJsonLoggerOptions} {s s' : ProgramState}

/-! ### What is said is offered -/

/-- What the logger has kept, without the times, is in the order it was said. -/
theorem kept_sublist_said (hlaunch : Launched host file launch)
    (hoptions : launch.logger = some options) (h : (program host options launch).Reachable s) :
    (s.logger.kept.map unstamped).Sublist (s.said.filter (passes options)) := by
  have hs := records_of_reachable hlaunch h
  have hsize := queueSize_of_buildLogger (hlaunch.buildLogger hoptions)
  obtain ⟨c, -, hc⟩ := logger_refines_fifo hsize hs.orderly.reachable
  have hordered := c.ordered.map unstamped
  rw [hc.offered, hc.kept] at hordered
  rw [← hs.offered]
  exact hordered.trans (List.sublist_append_left _ _)

/-- At the end of the program everything has been said, and the file has all of it but
what was dropped. -/
theorem said_at_end (hlaunch : Launched host file launch)
    (hoptions : launch.logger = some options) (h : (program host options launch).Reachable s)
    (hdone : s.logger.destructor = .done) :
    s.pending = [] ∧ s.logger.kept = s.logger.events ∧
      (s.said.filter (passes options)).length = s.logger.events.length + s.logger.drops := by
  have hs := records_of_reachable hlaunch h
  have hsize := queueSize_of_buildLogger (hlaunch.buildLogger hoptions)
  have hpending : s.pending = [] := by
    by_contra hne
    rw [hs.idle hne] at hdone
    cases hdone
  have hexited := exited_of_done hs.orderly.reachable hdone
  have hempty : s.logger.queue = [] :=
    (stopping_of_reach hs.orderly).drained (by rw [hexited]; rfl)
  have hkept : s.logger.kept = s.logger.events := by
    simp [LoggerState.kept, hempty, hexited, Worker.hand]
  obtain ⟨c, -, hc⟩ := logger_refines_fifo hsize hs.orderly.reachable
  have hcounted := c.counted
  rw [hc.offered, hc.kept, hc.lost, hkept] at hcounted
  refine ⟨hpending, hkept, ?_⟩
  rw [← hs.offered, hpending, List.filter_nil, List.append_nil, List.length_map, hcounted]

/-- The calls the program makes of its logger are never lost on the way: in every state of
every schedule, what has been offered is what has been said so far, apart from the calls
still to be made, and the file has it in order; and when the logger has been destroyed
everything said is in the file or counted as dropped. -/
theorem program_delivery (host : Host) (fs : FileSystem) (file : Option Bytes) (moment : Moment)
    (options : AsyncJsonLoggerOptions)
    (hoptions : (main host fs file moment).logger = some options) (s : ProgramState)
    (h : (program host options (main host fs file moment)).Reachable s) :
    s.logger.offered.map unstamped ++ s.pending.filter (passes options) =
      s.said.filter (passes options) ∧
    (s.logger.events.map unstamped).Sublist (s.said.filter (passes options)) ∧
    (s.logger.destructor = .done →
      s.pending = [] ∧
      (s.said.filter (passes options)).length = s.logger.events.length + s.logger.drops ∧
      (s.logger.drops = 0 → s.logger.events.map unstamped = s.said.filter (passes options))) := by
  have hlaunch := launched_main host fs file moment
  have hkept := kept_sublist_said hlaunch hoptions h
  refine ⟨(records_of_reachable hlaunch h).offered, ?_, fun hdone => ?_⟩
  · refine (List.Sublist.map _ ?_).trans hkept
    rw [LoggerState.kept, List.append_assoc]
    exact List.sublist_append_left _ _
  · obtain ⟨hpending, heq, hlength⟩ := said_at_end hlaunch hoptions h hdone
    refine ⟨hpending, hlength, fun hdrops => ?_⟩
    rw [heq] at hkept
    refine hkept.eq_of_length ?_
    rw [List.length_map, hlength, hdrops, Nat.add_zero]

/-- A launch on a host whose files can be opened. -/
def localLaunch : Launch :=
  main localHost ⟨fun _ => true, fun _ => true⟩
    (some (fileAt (ascii "wss://localhost/trade-api/ws/v2"))) ⟨1700000000000, 0⟩

/-- The configuration is logged, the connection opens, and a message comes that does not
parse. -/
def oneMessage : List ProgramAct :=
  [.call 1, .call 1] ++ opening.map .handle ++
    [.call 1, .handle (.read (.ok (ascii "x"))), .call 1, .call 1]

theorem exec_oneMessage :
    ∃ s, (program localHost {} localLaunch).exec (program localHost {} localLaunch).start
      oneMessage = some s ∧ s.pending = [] ∧ s.said.length = 5 := by
  obtain ⟨s, hexec, hsaid⟩ := Option.map_eq_some_iff.mp
    (show ((program localHost {} localLaunch).exec (program localHost {} localLaunch).start
      oneMessage).map (fun s => (s.pending, s.said.length)) = some ([], 5) by decide +kernel)
  obtain ⟨hpending, hlength⟩ := Prod.mk.inj hsaid
  exact ⟨s, hexec, hpending, hlength⟩

theorem program_delivery_oneMessage :
    ∃ s, (program localHost {} localLaunch).exec (program localHost {} localLaunch).start
      oneMessage = some s ∧
      s.logger.offered.map unstamped = s.said.filter (passes {}) := by
  obtain ⟨s, hexec, hpending, -⟩ := exec_oneMessage
  have hdelivered := (program_delivery localHost _ _ _ {} (by decide +kernel) s
    (Machine.reachable_of_exec hexec)).1
  rw [hpending, List.filter_nil, List.append_nil] at hdelivered
  exact ⟨s, hexec, hdelivered⟩

/-! ### What is said answers what is received -/

/-- The loop of the program is a run of the feed handler, and the answers that are said
are those in its trace. -/
structure Follows (host : Host) (ctx : AppContext) (acts : List ProgramAct) (s : ProgramState) :
    Prop where
  loop : ∃ feed, s.loop = some (ctx, feed) ∧
    (ctx.feed host).exec (ctx.feed host).start (acts.filterMap ProgramAct.handled) = some feed ∧
    s.said.filter isAnswer = feed.trace.filterMap Output.answer

theorem filter_events (outputs : List Output) :
    (outputs.filterMap Output.event).filter isAnswer = outputs.filterMap Output.answer := by
  rw [List.filter_filterMap]
  rfl

/-- Signing is no answer. -/
theorem filter_refreshEvents (ctx : AppContext) (sign : Signer) (a : FeedAct) :
    (ctx.refreshEvents sign a).filter isAnswer = [] := by
  have hauth : answerComponents.contains (ascii "core.auth") = false := by decide +kernel
  unfold AppContext.refreshEvents
  cases a with
  | waited moment =>
      unfold buildHeaders
      cases hbuilt : buildWsHeaders sign ctx.auth wsPath moment with
      | ok headers => simp [hbuilt]
      | error e =>
          simp only [hbuilt]
          exact List.filter_cons_of_neg (by simp [isAnswer_logEvent hauth])
  | _ => rfl

theorem filter_logConfig (ctx : AppContext) : ctx.logConfig.filter isAnswer = [] := by
  have hconfig : answerComponents.contains (ascii "core.config") = false := by decide +kernel
  have hneither : ∀ event ∈ ctx.logConfig, ¬ isAnswer event = true := by
    rw [AppContext.logConfig, List.forall_mem_cons, List.forall_mem_singleton]
    exact ⟨by simp [isAnswer_logEvent hconfig], by simp [isAnswer_logEvent hconfig]⟩
  exact List.filter_eq_nil_iff.mpr hneither

theorem follows_next {ctx : AppContext} {acts : List ProgramAct} {a : ProgramAct}
    (hs : Follows host ctx acts s) (h : s.next host options a = some s') :
    Follows host ctx (acts ++ [a]) s' := by
  obtain ⟨feed, hloop, hexec, hsaid⟩ := hs.loop
  rcases next_cases h with
    ⟨b, ctx', feed₁, feed', rfl, hloop₁, hfeed, hloop', hsaid'⟩ | ⟨hhandled, hloop', hsaid'⟩
  · obtain ⟨rfl, rfl⟩ := Prod.mk.inj (Option.some.inj (hloop.symm.trans hloop₁))
    obtain ⟨outputs, htrace, -⟩ := speaks_of_next hfeed
    refine ⟨feed', hloop', ?_, ?_⟩
    · have hnext : (ctx.feed host).next feed b = some feed' := hfeed
      rw [List.filterMap_append, Machine.exec_append, hexec]
      simp [ProgramAct.handled, Machine.exec_cons, hnext]
    · rw [hsaid', List.filter_append, hsaid, handlerEvents, List.filter_append,
        filter_refreshEvents, List.nil_append, htrace, List.drop_left, filter_events,
        List.filterMap_append]
  · refine ⟨feed, hloop'.trans hloop, ?_, hsaid' ▸ hsaid⟩
    rw [List.filterMap_append, List.filterMap_cons_none hhandled, List.filterMap_nil,
      List.append_nil]
    exact hexec

theorem follows_of_exec {ctx : AppContext} {start : RunState} {acts : List ProgramAct}
    (hlaunch : Launched host file launch) (hloop : launch.loop = some (ctx, start))
    (h : (program host options launch).exec (program host options launch).start acts = some s) :
    Follows host ctx acts s := by
  refine Machine.run_induction (C := Follows host ctx) ?_
    (fun _ hs hnext => follows_next hs hnext) h
  cases hlaunch with
  | running ctx' =>
      obtain ⟨rfl, -⟩ := Prod.mk.inj (Option.some.inj hloop)
      refine ⟨_, rfl, rfl, ?_⟩
      rw [program, List.filter_append, filter_logConfig, List.nil_append, filter_events]
  | _ => cases hloop

/-- The log of a run answers its messages: what the program says through its sink and its
dispatcher is one event for each message received, in order and over all connections, and
a function of the message alone. The file has these answers in order, and at the end of a
program that has dropped nothing it has all that the level lets through. -/
theorem program_answers (host : Host) (fs : FileSystem) (file : Option Bytes) (moment : Moment)
    (options : AsyncJsonLoggerOptions) (ctx : AppContext) (start : RunState)
    (hoptions : (main host fs file moment).logger = some options)
    (hloop : (main host fs file moment).loop = some (ctx, start)) (acts : List ProgramAct)
    (s : ProgramState)
    (h : (program host options (main host fs file moment)).exec
      (program host options (main host fs file moment)).start acts = some s) :
    let answers := (received (acts.filterMap ProgramAct.handled)).flatMap
      (answerEvents host.iterate ctx.config.logging.includeRawOnParseError)
    (∀ msg, (answerEvents host.iterate ctx.config.logging.includeRawOnParseError msg).length = 1) ∧
    s.said.filter isAnswer = answers ∧
    ((s.logger.events.map unstamped).filter isAnswer).Sublist
      (answers.filter (passes options)) ∧
    (s.logger.destructor = .done → s.logger.drops = 0 →
      (s.logger.events.map unstamped).filter isAnswer = answers.filter (passes options)) := by
  intro answers
  have hlaunch := launched_main host fs file moment
  obtain ⟨feed, -, hexec, hsaid⟩ := (follows_of_exec hlaunch hloop h).loop
  have hanswers : s.said.filter isAnswer = answers := hsaid.trans (filterMap_answer_trace hexec)
  have hswap : (s.said.filter (passes options)).filter isAnswer =
      answers.filter (passes options) := by
    rw [← hanswers, List.filter_filter, List.filter_filter]
    exact List.filter_congr fun event _ => Bool.and_comm _ _
  have hreach := Machine.reachable_of_exec h
  have hkept := (kept_sublist_said hlaunch hoptions hreach).filter isAnswer
  rw [hswap] at hkept
  refine ⟨length_answerEvents _ _, hanswers, ?_, fun hdone hdrops => ?_⟩
  · refine List.Sublist.trans (List.Sublist.filter _ (List.Sublist.map _ ?_)) hkept
    rw [LoggerState.kept, List.append_assoc]
    exact List.sublist_append_left _ _
  · obtain ⟨-, heq, hlength⟩ := said_at_end hlaunch hoptions hreach hdone
    have hall := kept_sublist_said hlaunch hoptions hreach
    rw [heq] at hall
    rw [← hswap, hall.eq_of_length (by rw [List.length_map, hlength, hdrops, Nat.add_zero])]

theorem program_answers_oneMessage :
    ∃ s, (program localHost {} localLaunch).exec (program localHost {} localLaunch).start
      oneMessage = some s ∧ (s.said.filter isAnswer).length = 1 := by
  obtain ⟨s, hexec, -⟩ := exec_oneMessage
  obtain ⟨⟨ctx, start⟩, hloop⟩ := Option.isSome_iff_exists.mp
    (show localLaunch.loop.isSome = true by decide +kernel)
  obtain ⟨hone, hanswers, -⟩ := program_answers localHost _ _ _ {} ctx start
    (by decide +kernel) hloop oneMessage s hexec
  have hreceived : received (oneMessage.filterMap ProgramAct.handled) = [ascii "x"] := by
    decide +kernel
  refine ⟨s, hexec, ?_⟩
  rw [hanswers, hreceived, List.flatMap_singleton, hone]

/-! ### The file -/

/-- What is written has been said. -/
theorem said_of_mem_events (hlaunch : Launched host file launch)
    (hoptions : launch.logger = some options) (h : (program host options launch).Reachable s)
    {event : LogEvent} (hevent : event ∈ s.logger.events) : unstamped event ∈ s.said := by
  have hmem : unstamped event ∈ s.logger.kept.map unstamped := by
    refine List.mem_map_of_mem ?_
    rw [LoggerState.kept, List.append_assoc]
    exact List.mem_append_left _ hevent
  have hsaid := (kept_sublist_said hlaunch hoptions h).subset hmem
  exact (List.mem_filter.mp hsaid).1

theorem plain_of_mem_events (hlaunch : Launched host file launch)
    (hoptions : launch.logger = some options) (h : (program host options launch).Reachable s)
    {event : LogEvent} (hevent : event ∈ s.logger.events) :
    event.Exact ∧ kind event ∈ vocabulary := by
  have hplain := (records_of_reachable hlaunch h).plain _
    (said_of_mem_events hlaunch hoptions h hevent)
  exact ⟨hplain.exact, hplain.kind_mem⟩

/-- Nothing that comes from outside can forge an entry. In every state of every run, and
whatever messages, control frames and error texts it has received, the file has one line
for each event written, and each line is the JSON of an event whose level, component and
message are of the vocabulary. -/
theorem program_log_unforgeable (host : Host) (fs : FileSystem) (file : Option Bytes)
    (moment : Moment) (options : AsyncJsonLoggerOptions)
    (hoptions : (main host fs file moment).logger = some options) (s : ProgramState)
    (h : (program host options (main host fs file moment)).Reachable s) :
    ∃ lines, s.logger.file.splitOn newline = lines ++ [[]] ∧
      lines.length = s.logger.written.length ∧
      ∀ line ∈ lines, ∃ event : LogEvent,
        Json.parse Json.unescape line = some event.toJson ∧ kind event ∈ vocabulary := by
  have hplain (event : LogEvent) (hevent : event ∈ s.logger.events) :=
    plain_of_mem_events (launched_main host fs file moment) hoptions h hevent
  refine ⟨_, splitOn_file fun event hevent => (hplain event hevent).1, by simp, ?_⟩
  intro text htext
  obtain ⟨line, hline, rfl⟩ := List.mem_map.mp htext
  have hevent : line.toEvent.Exact ∧ kind line.toEvent ∈ vocabulary := by
    cases line with
    | event e => exact hplain e (List.mem_filterMap.mpr ⟨.event e, hline, rfl⟩)
    | dropped tsMs count =>
        refine ⟨fun field hfield => ?_, show (LogLevel.warn, ascii "logging",
          ascii "dropped_logs") ∈ vocabulary by decide +kernel⟩
        obtain rfl := List.mem_singleton.mp hfield
        trivial
  exact ⟨line.toEvent, Json.parse_render (readable_toJson hevent.1), hevent.2⟩

theorem program_log_unforgeable_oneMessage :
    ∃ s, (program localHost {} localLaunch).exec (program localHost {} localLaunch).start
      oneMessage = some s ∧ ∃ lines, s.logger.file.splitOn newline = lines ++ [[]] ∧
        lines.length = s.logger.written.length := by
  obtain ⟨s, hexec, -⟩ := exec_oneMessage
  obtain ⟨lines, hlines, hlength, -⟩ := program_log_unforgeable localHost _ _ _ {}
    (by decide +kernel) s (Machine.reachable_of_exec hexec)
  exact ⟨s, hexec, lines, hlines, hlength⟩

/-! ### A start-up that fails -/

/-- Without a loop nothing is said after the launch. -/
theorem said_of_no_loop (hloop : launch.loop = none)
    (h : (program host options launch).Reachable s) : s.said = launch.calls := by
  have hboth : s.loop = none ∧ s.said = launch.calls := by
    refine h.invariant (I := fun s => s.loop = none ∧ s.said = launch.calls) ⟨hloop, rfl⟩ ?_
    intro s a s' hs _ hnext
    rcases next_cases hnext with ⟨_, _, _, _, _, hsome, _⟩ | ⟨-, hloop', hsaid'⟩
    · cases hs.1.symm.trans hsome
    · exact ⟨hloop'.trans hs.1, hsaid'.trans hs.2⟩
  exact hboth.2

theorem passes_error {event : LogEvent} (h : event.level = .error) :
    passes options event = true := by
  rw [passes, h]
  cases options.level <;> decide

/-- A start-up that does not get to the loop exits with 1 and says why. Without a logger
it is one line on `stderr`; with one, and a queue that has room for the calls made so
far, the file has every call that passes the level by the time the logger is gone, and an
error among them, whatever the level is. -/
theorem failed_startup_reported (host : Host) (fs : FileSystem) (file : Option Bytes)
    (moment : Moment) (hloop : (main host fs file moment).loop = none) :
    (main host fs file moment).exitCode = 1 ∧
    ((main host fs file moment).logger = none →
      ∃ line, (main host fs file moment).stderr = [line]) ∧
    ∀ options, (main host fs file moment).logger = some options →
      (main host fs file moment).calls.length ≤ options.queueSize →
      ∀ s, (program host options (main host fs file moment)).Reachable s →
        s.logger.destructor = .done →
        s.logger.events.map unstamped =
          (main host fs file moment).calls.filter (passes options) ∧
        ∃ event ∈ s.logger.events, event.level = .error := by
  have hlaunch := launched_main host fs file moment
  generalize main host fs file moment = launch at hloop hlaunch
  have hreported : launch.exitCode = 1 ∧ (launch.logger = none → ∃ line, launch.stderr = [line]) ∧
      (launch.logger ≠ none → ∃ event ∈ launch.calls, event.level = .error) := by
    cases hlaunch with
    | silent line => exact ⟨rfl, fun _ => ⟨line, rfl⟩, fun hne => absurd rfl hne⟩
    | failed event _ _ hlevel => exact ⟨rfl, by simp, fun _ => ⟨event, by simp, hlevel⟩⟩
    | outputFailed => exact ⟨rfl, by simp, fun _ => ⟨runFailedEvent, by simp, rfl⟩⟩
    | running => cases hloop
  refine ⟨hreported.1, hreported.2.1, fun options hoptions hfits s h hdone => ?_⟩
  have hs := records_of_reachable hlaunch h
  have hsaid := said_of_no_loop hloop h
  obtain ⟨hpending, heq, hlength⟩ := said_at_end hlaunch hoptions h hdone
  have hoffered := hs.offered
  rw [hpending, List.filter_nil, List.append_nil, hsaid] at hoffered
  have hdrops : s.logger.drops = 0 := by
    refine drops_eq_zero_of_fits (queueSize_of_buildLogger (hlaunch.buildLogger hoptions))
      hs.orderly.reachable ?_
    rw [← List.length_map (f := unstamped), hoffered]
    exact (List.length_filter_le _ _).trans hfits
  have hkept := kept_sublist_said hlaunch hoptions h
  rw [heq, hsaid] at hkept
  rw [hsaid, hdrops, Nat.add_zero] at hlength
  have hall := hkept.eq_of_length (by rw [List.length_map, hlength])
  refine ⟨hall, ?_⟩
  obtain ⟨event, hmem, hlevel⟩ := hreported.2.2 (by rw [hoptions]; simp)
  have hpass : event ∈ s.logger.events.map unstamped := by
    rw [hall]
    exact List.mem_filter.mpr ⟨hmem, passes_error hlevel⟩
  obtain ⟨written, hwritten, rfl⟩ := List.mem_map.mp hpass
  exact ⟨written, hwritten, hlevel⟩

/-- A host without credentials. -/
def bareHost : Host := { localHost with getenv := fun _ => none }

def bareLaunch : Launch :=
  main bareHost ⟨fun _ => true, fun _ => true⟩ (some (fileAt (ascii "wss://localhost")))
    ⟨1700000000000, 0⟩

/-- The error is handed to the logger, the destructor runs to its join, the worker writes
the error and returns, and the destructor is done. -/
def reportAndExit : List ProgramAct :=
  [.call 1, .destroy, .destroy, .work 1, .work 1, .work 1, .work 1, .work 1, .destroy]

theorem failed_startup_reported_bareHost :
    bareLaunch.exitCode = 1 ∧
      ∃ s, (program bareHost {} bareLaunch).exec (program bareHost {} bareLaunch).start
        reportAndExit = some s ∧ s.logger.destructor = .done ∧
        ∃ event ∈ s.logger.events, event.level = .error := by
  obtain ⟨hexit, -, hreported⟩ := failed_startup_reported bareHost
    ⟨fun _ => true, fun _ => true⟩ (some (fileAt (ascii "wss://localhost"))) ⟨1700000000000, 0⟩
    (Option.isNone_iff_eq_none.mp (by decide +kernel))
  obtain ⟨s, hexec, hdone⟩ := Option.map_eq_some_iff.mp
    (show ((program bareHost {} bareLaunch).exec (program bareHost {} bareLaunch).start
      reportAndExit).map (fun s => s.logger.destructor) = some .done by decide +kernel)
  exact ⟨hexit, s, hexec, hdone, (hreported {} (by decide +kernel) (by decide +kernel) s
    (Machine.reachable_of_exec hexec) hdone).2⟩

end KalshiAutotrader.App
