import KalshiAutotrader.App.AppContext
import KalshiAutotrader.Logging.Delivery

/-!
What the start-up relies on: the logger of an accepted configuration.

The configuration checks the names of levels and policies against lists of its own,
and keeps the queue from having no room at all. These are the conditions under which
the options are built and the logger may drop its oldest event.
-/

namespace KalshiAutotrader.App

open Kit KalshiAutotrader.Core Logging Simdjson Reading

/-- The checks on the logging section. -/
structure Usable (log : LoggingConfig) : Prop where
  level : log.level ∈ levelNames
  queueSize : 1 ≤ log.queueSize.toNat
  dropPolicy : log.dropPolicy ∈ dropPolicyNames

theorem usable_default : Usable defaultLoggingConfig := ⟨by decide, by decide, by decide⟩

/-! ### The configuration -/

/-- Whatever the lookups report, a section that is accepted has passed the checks. -/
theorem ensures_parseLogging {root : Object} {base : LoggingConfig} (hbase : Usable base) :
    Ensures (parseLogging root base) Usable := by
  apply ensures_bind; intro log
  apply ensures_bind; intro level
  apply ensures_bind; intro queueSize
  apply ensures_bind; intro dropPolicy
  apply ensures_bind; intro includeRaw
  apply ensures_bind; intro logRawMessages
  apply ensures_bind; intro outputPath
  apply ensures_ofExcept
  intro config hconfig
  simp only [bind_eq_ok] at hconfig
  obtain ⟨_, -, _, -, _, -, _, -, _, -, _, -, level, hlevel, size, hsize, policy, hpolicy, path, -,
    heq⟩ := hconfig
  obtain rfl := Except.ok.inj heq
  have hnonzero := of_checked hsize (one_le_toNat_iff.mp hbase.queueSize)
  exact {
    level := List.contains_iff_mem.mp
      (of_checked hlevel (List.contains_iff_mem.mpr hbase.level))
    queueSize := one_le_toNat_iff.mpr hnonzero
    dropPolicy := List.contains_iff_mem.mp
      (of_checked hpolicy (List.contains_iff_mem.mpr hbase.dropPolicy)) }

theorem usable_of_loadConfig {iterate : Bytes → Except SimdError Document} {file : Option Bytes}
    {config : Config} (h : loadConfig iterate file = .ok config) : Usable config.logging := by
  have hread := ensures_readConfig trivial (fun _ => ensures_trivial) usable_default
    fun _ => ensures_parseLogging usable_default
  exact (of_loadConfig hread h).2

/-! ### The names -/

/-- The levels that are parsed are those that are accepted, and each is written back
as it was configured. -/
theorem parseLogLevel_iff (text : Bytes) :
    text ∈ levelNames ↔ ∃ level, parseLogLevel text = some level ∧ level.toString = text := by
  simp only [levelNames, List.mem_cons, List.not_mem_nil, or_false]
  constructor
  · rintro (rfl | rfl | rfl | rfl | rfl)
    · exact ⟨.trace, by decide, rfl⟩
    · exact ⟨.debug, by decide, rfl⟩
    · exact ⟨.info, by decide, rfl⟩
    · exact ⟨.warn, by decide, rfl⟩
    · exact ⟨.error, by decide, rfl⟩
  · rintro ⟨level, -, rfl⟩
    cases level <;> simp [LogLevel.toString]

theorem parseLogLevel_none {text : Bytes} (h : text ∉ levelNames) : parseLogLevel text = none := by
  simp only [levelNames, List.mem_cons, List.not_mem_nil, or_false, not_or] at h
  obtain ⟨htrace, hdebug, hinfo, hwarn, herror⟩ := h
  simp [parseLogLevel, htrace, hdebug, hinfo, hwarn, herror]

theorem parseDropPolicy_iff (text : Bytes) :
    text ∈ dropPolicyNames ↔ ∃ policy, parseDropPolicy text = some policy := by
  simp only [dropPolicyNames, List.mem_cons, List.not_mem_nil, or_false]
  constructor
  · rintro (rfl | rfl)
    · exact ⟨.dropOldest, by decide⟩
    · exact ⟨.dropNewest, by decide⟩
  · rintro ⟨policy, h⟩
    unfold parseDropPolicy at h
    split at h
    · next heq => exact .inl heq
    · split at h
      · next heq => exact .inr heq
      · cases h

/-! ### The queue -/

section Queue

variable {options : AsyncJsonLoggerOptions} {s s' : LoggerState}

/-- A queue with room for one event is not full when it is empty. -/
theorem enqueue_poppedEmpty (hsize : 1 ≤ options.queueSize) (s : LoggerState) (event : LogEvent) :
    (enqueue options s event).poppedEmpty = s.poppedEmpty := by
  rcases enqueue_cases options s event with
    ⟨-, heq⟩ | ⟨hfull, -, heq⟩ | ⟨-, -, heq⟩ <;> rw [heq]
  · simp [LoggerState.push, LoggerState.notify_eq]
  · have hfront : s.queue.isEmpty = false := by
      rw [List.isEmpty_eq_false_iff_exists_mem]
      exact List.length_pos_iff_exists_mem.mp (by omega)
    simp [LoggerState.push, LoggerState.notify_eq, LoggerState.countDrop, hfront]
  · rfl

/-- The worker takes the queue as a whole. -/
theorem run_poppedEmpty {now : UInt64} (h : run s now = some s') :
    s'.poppedEmpty = s.poppedEmpty := by
  unfold run at h
  cases hw : s.worker with
  | write batch | drainWrite batch =>
      cases batch <;> simp only [hw, Option.some.injEq] at h <;> subst h <;> rfl
  | blocked | exited => simp [hw] at h
  | _ =>
      simp only [hw, Option.some.injEq] at h
      subst h
      rfl

theorem destroy_poppedEmpty (h : destroy s = some s') : s'.poppedEmpty = s.poppedEmpty := by
  unfold destroy at h
  cases hd : s.destructor with
  | idle | notify =>
      simp only [hd, Option.some.injEq] at h
      subst h
      simp [LoggerState.notify_eq]
  | join =>
      simp only [hd] at h
      obtain ⟨-, heq⟩ := Option.ite_none_right_eq_some.mp h
      obtain rfl := Option.some.inj heq
      rfl
  | done => simp [hd] at h

theorem next_poppedEmpty {a : LoggerAct} (hsize : 1 ≤ options.queueSize)
    (h : LoggerState.next options s a = some s') : s'.poppedEmpty = s.poppedEmpty := by
  cases a with
  | log event now =>
      rcases log_cases h with ⟨-, rfl⟩ | ⟨-, -, rfl⟩
      · rfl
      · exact enqueue_poppedEmpty hsize s _
  | work now => exact run_poppedEmpty h
  | wakeup =>
      obtain ⟨-, rfl⟩ := wakeup_eq options h
      rfl
  | destroy => exact destroy_poppedEmpty h

/-- No front is ever taken off an empty queue. -/
theorem poppedEmpty_of_reachable (hsize : 1 ≤ options.queueSize)
    (h : (logger options).Reachable s) : s.poppedEmpty = false :=
  h.invariant (I := fun s => s.poppedEmpty = false) rfl
    fun hs _ hnext => (next_poppedEmpty hsize hnext).trans hs

/-- Without any room the first event would. -/
example (event : LogEvent) :
    (enqueue { queueSize := 0 } .initial event).poppedEmpty = true := rfl

end Queue

/-! ### The start-up -/

theorem buildLoggerOptions_eq {config : Config} {level : LogLevel} {policy : DropPolicy}
    (hlevel : parseLogLevel config.logging.level = some level)
    (hpolicy : parseDropPolicy config.logging.dropPolicy = some policy) :
    buildLoggerOptions config = .ok
      { level := level, queueSize := config.logging.queueSize.toNat, dropPolicy := policy,
        outputPath := config.logging.outputPath } := by
  simp only [buildLoggerOptions, hlevel, hpolicy]

/-- An accepted configuration is accepted by the later stages too: its level and its
policy are parsed, by parsers of exactly the names the configuration may have, and
the logger that is built never takes an event off an empty queue. -/
theorem accepted_config_usable (iterate : Bytes → Except SimdError Document)
    (file : Option Bytes) (config : Config) (hload : loadConfig iterate file = .ok config) :
    ((∃ options, buildLoggerOptions config = .ok options ∧
        options.level.toString = config.logging.level) ∧
      (∀ text, text ∈ levelNames ↔
        ∃ level, parseLogLevel text = some level ∧ level.toString = text) ∧
      (∀ text, text ∉ levelNames → parseLogLevel text = none) ∧
      ∀ text, text ∈ dropPolicyNames ↔ ∃ policy, parseDropPolicy text = some policy) ∧
    ∀ options, buildLoggerOptions config = .ok options →
      ∀ s, (logger options).Reachable s → s.poppedEmpty = false := by
  have husable := usable_of_loadConfig hload
  obtain ⟨level, hlevel, hstring⟩ := (parseLogLevel_iff _).mp husable.level
  obtain ⟨policy, hpolicy⟩ := (parseDropPolicy_iff _).mp husable.dropPolicy
  have hbuilt := buildLoggerOptions_eq hlevel hpolicy
  refine ⟨⟨⟨_, hbuilt, hstring⟩, parseLogLevel_iff, fun _ => parseLogLevel_none,
    parseDropPolicy_iff⟩, ?_⟩
  intro options hoptions s hs
  obtain rfl := Except.ok.inj (hbuilt.symm.trans hoptions)
  exact poppedEmpty_of_reachable husable.queueSize hs

/-- A queue for one event, and the policy that takes events off it. -/
def narrowConfig : Config where
  env := ascii "demo"
  wsUrl := ascii "wss://x"
  subscription := { channels := [ascii "trade"], marketTickers := [] }
  ws := defaultWsConfig
  logging := { defaultLoggingConfig with level := ascii "debug", queueSize := 1 }
  output := defaultOutputConfig

def narrowFile : Bytes :=
  Json.render (.obj [
    (ascii "env", .str (ascii "demo")),
    (ascii "ws_url", .str (ascii "wss://x")),
    (ascii "subscription", .obj [
      (ascii "channels", .arr [.str (ascii "trade")]),
      (ascii "market_tickers", .arr [])]),
    (ascii "logging", .obj [
      (ascii "level", .str (ascii "debug")),
      (ascii "queue_size", .int false 1)])])

theorem narrow_config_usable : ∃ options, buildLoggerOptions narrowConfig = .ok options ∧
    options.queueSize = 1 ∧ ∀ s, (logger options).Reachable s → s.poppedEmpty = false := by
  have hload : loadConfig (eager 0) (some narrowFile) = .ok narrowConfig := by decide +kernel
  have husable := accepted_config_usable (eager 0) _ narrowConfig hload
  obtain ⟨options, hoptions, -⟩ := husable.1.1
  have hsize : (buildLoggerOptions narrowConfig).map (·.queueSize) = .ok 1 := by decide
  rw [hoptions] at hsize
  exact ⟨options, hoptions, Except.ok.inj hsize, husable.2 options hoptions⟩

end KalshiAutotrader.App
