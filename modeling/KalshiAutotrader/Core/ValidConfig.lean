import KalshiAutotrader.Kit.JsonStrings
import KalshiAutotrader.Core.ConfigSchema

/-!
The configurations there are.

Whatever a lookup reports, what is accepted has passed every check. Over files that are
JSON in UTF-8 nothing else is missing: a configuration that would pass the checks is the
one its own members are loaded as, so that the checks say exactly what is accepted.
-/

namespace KalshiAutotrader.Core

open Kit Simdjson Reading

/-! ### The checks -/

structure WsConfig.Valid (ws : WsConfig) : Prop where
  handshakeTimeoutMs : 0 ≤ ws.handshakeTimeoutMs.toInt
  idleTimeoutMs : 0 ≤ ws.idleTimeoutMs.toInt
  reconnectInitialDelayMs : 0 ≤ ws.reconnectInitialDelayMs.toInt
  delays : ws.reconnectInitialDelayMs.toInt ≤ ws.reconnectMaxDelayMs.toInt

structure LoggingConfig.Valid (log : LoggingConfig) : Prop where
  level : log.level ∈ levelNames
  queueSize : 1 ≤ log.queueSize.toNat
  dropPolicy : log.dropPolicy ∈ dropPolicyNames
  outputPath : log.outputPath ≠ []

/-- What `load_config` checks of its values, all of it together. -/
structure Config.Valid (c : Config) : Prop where
  channels : c.subscription.channels ≠ []
  ws : c.ws.Valid
  logging : c.logging.Valid
  rawMessagesPath : c.output.rawMessagesPath ≠ []

theorem valid_iff_checkWs {ws : WsConfig} : ws.Valid ↔ checkWs ws = .ok ws := by
  have hzero : (0 : Int64).toInt = 0 := rfl
  simp only [checkWs_eq_ok, Int64.lt_iff_toInt_lt, hzero, Int.not_lt, true_and]
  constructor
  · rintro ⟨hhandshake, hidle, hinitial, hdelays⟩
    exact ⟨hhandshake, hidle, hinitial, Int.le_trans hinitial hdelays, hdelays⟩
  · rintro ⟨hhandshake, hidle, hinitial, -, hdelays⟩
    exact ⟨hhandshake, hidle, hinitial, hdelays⟩

/-! ### Whatever the lookups report -/

theorem ensures_parseSubscription (root : Object) :
    Ensures (parseSubscription root) fun sub => sub.channels ≠ [] := by
  apply ensures_bind; intro sub
  apply ensures_bind; intro channels
  split
  · exact fun _ _ h => by cases h
  · next hchannels =>
    apply ensures_bind; intro tickers
    exact ensures_pure hchannels

theorem ensures_parseOutput (root : Object) :
    Ensures (parseOutput root) fun out => out.rawMessagesPath ≠ [] := by
  apply ensures_bind; intro out
  apply ensures_bind; intro path
  split
  · exact fun _ _ h => by cases h
  · next hpath => exact ensures_pure hpath

theorem ensures_validLogging {root : Object} {base : LoggingConfig} (hbase : base.Valid) :
    Ensures (parseLogging root base) LoggingConfig.Valid := by
  apply ensures_bind; intro log
  apply ensures_bind; intro level
  apply ensures_bind; intro queueSize
  apply ensures_bind; intro dropPolicy
  apply ensures_bind; intro includeRaw
  apply ensures_bind; intro logRawMessages
  apply ensures_bind; intro outputPath
  apply ensures_ofExcept
  intro config hconfig
  simp only [bind_eq_ok] at hconfig
  obtain ⟨_, -, _, -, _, -, _, -, _, -, _, -, level, hlevel, size, hsize, policy, hpolicy, path,
    hpath, heq⟩ := hconfig
  have hlevel := of_checked hlevel (List.contains_iff_mem.mpr hbase.level)
  have hsize := of_checked hsize (one_le_toNat_iff.mp hbase.queueSize)
  have hpolicy := of_checked hpolicy (List.contains_iff_mem.mpr hbase.dropPolicy)
  have hpath := of_checked hpath (bne_iff_ne.mpr hbase.outputPath)
  obtain rfl := Except.ok.inj heq
  exact ⟨List.contains_iff_mem.mp hlevel, one_le_toNat_iff.mpr hsize,
    List.contains_iff_mem.mp hpolicy, bne_iff_ne.mp hpath⟩

theorem valid_defaultLoggingConfig : defaultLoggingConfig.Valid := by
  constructor <;> decide

theorem ensures_valid (doc : Document) : Ensures (readConfig doc) Config.Valid := by
  apply ensures_bind; intro root
  apply ensures_bind; intro env
  apply ensures_bind; intro wsUrl
  refine (ensures_parseSubscription root).observe.bind fun subscription hchannels => ?_
  refine (ensures_orDefault (valid_iff_checkWs.mpr checkWs_default) fun s ws hws =>
    valid_iff_checkWs.mpr (ensures_parseWs root _ s ws hws)).bind fun ws hws => ?_
  refine (ensures_orDefault valid_defaultLoggingConfig
    (ensures_validLogging valid_defaultLoggingConfig)).bind fun logging hlogging => ?_
  refine (ensures_orDefault (P := fun out : OutputConfig => out.rawMessagesPath ≠ [])
    (by decide) (ensures_parseOutput root)).bind fun output houtput => ?_
  apply ensures_ofExcept
  intro config hconfig
  simp only [bind_eq_ok] at hconfig
  obtain ⟨_, -, _, -, sub, hsub, heq⟩ := hconfig
  obtain rfl := Except.ok.inj heq
  exact ⟨hchannels sub hsub, hws, hlogging, houtput⟩

/-! ### The file of a configuration -/

def millis (ms : Int64) : Json := .int false ms.toInt.toNat

def WsConfig.members (ws : WsConfig) : Members :=
  [(ascii "handshake_timeout_ms", millis ws.handshakeTimeoutMs),
    (ascii "idle_timeout_ms", millis ws.idleTimeoutMs),
    (ascii "keep_alive_pings", .bool ws.keepAlivePings),
    (ascii "auto_reconnect", .bool ws.autoReconnect),
    (ascii "reconnect_initial_delay_ms", millis ws.reconnectInitialDelayMs),
    (ascii "reconnect_max_delay_ms", millis ws.reconnectMaxDelayMs)]

def LoggingConfig.members (log : LoggingConfig) : Members :=
  [(ascii "level", .str log.level), (ascii "queue_size", .int false log.queueSize.toNat),
    (ascii "drop_policy", .str log.dropPolicy),
    (ascii "include_raw_on_parse_error", .bool log.includeRawOnParseError),
    (ascii "log_raw_messages", .bool log.logRawMessages),
    (ascii "output_path", .str log.outputPath)]

def SubscriptionConfig.members (sub : SubscriptionConfig) : Members :=
  [(ascii "channels", .arr (sub.channels.map .str)),
    (ascii "market_tickers", .arr (sub.marketTickers.map .str))]

/-- The members of a configuration, each where `load_config` looks for it. -/
def Config.members (c : Config) : Members :=
  [(ascii "env", .str c.env), (ascii "ws_url", .str c.wsUrl),
    (ascii "subscription", .obj c.subscription.members), (ascii "ws", .obj c.ws.members),
    (ascii "logging", .obj c.logging.members),
    (ascii "output", .obj [(ascii "raw_messages_path", .str c.output.rawMessagesPath)])]

/-- The file of a configuration. -/
def Config.file (c : Config) : Bytes := Json.render (.obj c.members)

/-- The strings of a configuration, apart from those that are one of a few names. -/
def Config.texts (c : Config) : List Bytes :=
  [c.env, c.wsUrl, c.logging.outputPath, c.output.rawMessagesPath] ++ c.subscription.channels ++
    c.subscription.marketTickers

theorem isMillis_millis {ms : Int64} (h : 0 ≤ ms.toInt) : IsMillis (millis ms) ms :=
  ⟨ms.toInt.toNat, rfl, by have := ms.toInt_lt; omega, by omega⟩

theorem isConfig_members {c : Config} (h : c.Valid) : IsConfig c.members c where
  env := ⟨_, rfl, rfl⟩
  wsUrl := ⟨_, rfl, rfl⟩
  subscription := ⟨_, rfl, _, rfl, ⟨_, rfl, rfl⟩, h.channels, ⟨_, rfl, rfl⟩⟩
  ws := .inl ⟨_, rfl, _, rfl, {
    handshakeTimeoutMs := .inl ⟨_, rfl, isMillis_millis h.ws.handshakeTimeoutMs⟩
    idleTimeoutMs := .inl ⟨_, rfl, isMillis_millis h.ws.idleTimeoutMs⟩
    keepAlivePings := .inl ⟨_, rfl, rfl⟩
    autoReconnect := .inl ⟨_, rfl, rfl⟩
    reconnectInitialDelayMs := .inl ⟨_, rfl, isMillis_millis h.ws.reconnectInitialDelayMs⟩
    reconnectMaxDelayMs := .inl ⟨_, rfl, isMillis_millis
      (Int.le_trans h.ws.reconnectInitialDelayMs h.ws.delays)⟩
    delays := h.ws.delays }⟩
  logging := .inl ⟨_, rfl, _, rfl, {
    level := .inl ⟨_, rfl, rfl, h.logging.level⟩
    queueSize := .inl ⟨_, rfl, rfl, h.logging.queueSize⟩
    dropPolicy := .inl ⟨_, rfl, rfl, h.logging.dropPolicy⟩
    includeRawOnParseError := .inl ⟨_, rfl, rfl⟩
    logRawMessages := .inl ⟨_, rfl, rfl⟩
    outputPath := .inl ⟨_, rfl, rfl, h.logging.outputPath⟩ }⟩
  output := .inl ⟨_, rfl, _, rfl, _, rfl, rfl, h.rawMessagesPath⟩

theorem written_members {c : Config} (h : c.Valid) (htexts : ∀ text ∈ c.texts, ValidUtf8 text) :
    Json.Written (.obj c.members) := by
  have hlevel : ValidUtf8 c.logging.level :=
    validUtf8_of_isAscii
      ((by decide : ∀ name ∈ levelNames, isAscii name = true) _ h.logging.level)
  have hpolicy : ValidUtf8 c.logging.dropPolicy :=
    validUtf8_of_isAscii
      ((by decide : ∀ name ∈ dropPolicyNames, isAscii name = true) _ h.logging.dropPolicy)
  simp only [Config.texts, List.mem_append, or_imp, forall_and, List.forall_mem_cons,
    List.not_mem_nil, false_implies, implies_true, and_true] at htexts
  obtain ⟨⟨⟨henv, hurl, hlog, hraw⟩, hchannels⟩, htickers⟩ := htexts
  have hmillis (ms : Int64) : Json.Written (millis ms) := .int _ _
  have hsubscription : Json.Written (.obj c.subscription.members) := by
    refine .obj [ascii "channels", ascii "market_tickers"] rfl (by decide) (by decide) ?_
    simp only [SubscriptionConfig.members, List.forall_mem_cons, List.not_mem_nil, false_implies,
      implies_true, and_true]
    exact ⟨Json.written_strings hchannels, Json.written_strings htickers⟩
  have hws : Json.Written (.obj c.ws.members) := by
    refine .obj [ascii "handshake_timeout_ms", ascii "idle_timeout_ms",
      ascii "keep_alive_pings", ascii "auto_reconnect", ascii "reconnect_initial_delay_ms",
      ascii "reconnect_max_delay_ms"] rfl (by decide) (by decide) ?_
    simp only [WsConfig.members, List.forall_mem_cons, List.not_mem_nil, false_implies,
      implies_true, and_true]
    exact ⟨hmillis _, hmillis _, .bool _, .bool _, hmillis _, hmillis _⟩
  have hlogging : Json.Written (.obj c.logging.members) := by
    refine .obj [ascii "level", ascii "queue_size", ascii "drop_policy",
      ascii "include_raw_on_parse_error", ascii "log_raw_messages", ascii "output_path"] rfl
      (by decide) (by decide) ?_
    simp only [LoggingConfig.members, List.forall_mem_cons, List.not_mem_nil, false_implies,
      implies_true, and_true]
    exact ⟨.str hlevel, .int _ _, .str hpolicy, .bool _, .bool _, .str hlog⟩
  refine .obj [ascii "env", ascii "ws_url", ascii "subscription", ascii "ws", ascii "logging",
    ascii "output"] rfl (by decide) (by decide) ?_
  simp only [Config.members, List.forall_mem_cons, List.not_mem_nil, false_implies, implies_true,
    and_true]
  refine ⟨.str henv, .str hurl, hsubscription, hws, hlogging, ?_⟩
  refine .obj [ascii "raw_messages_path"] rfl (by decide) (by decide) ?_
  exact List.forall_mem_singleton.mpr (.str hraw)

/-! ### The texts that are read -/

variable {members : Members} {key : Bytes}

theorem validUtf8_of_mandatory {text : Bytes} (hstrings : Json.Strings ValidUtf8 (.obj members))
    (h : ∃ v, members.lookup key = some v ∧ v = .str text) : ValidUtf8 text := by
  obtain ⟨_, hv, rfl⟩ := h
  exact (hstrings.of_lookup hv).of_str

theorem validUtf8_of_strings {texts : List Bytes}
    (hstrings : Json.Strings ValidUtf8 (.obj members)) (h : Mandatory IsStrings members key texts) :
    ∀ text ∈ texts, ValidUtf8 text := by
  obtain ⟨_, hv, rfl⟩ := h
  exact fun text htext =>
    ((hstrings.of_lookup hv).of_arr _ (List.mem_map_of_mem htext)).of_str

/-- The strings of a configuration come from the file, or are defaults. -/
theorem validUtf8_texts {c : Config} (hstrings : Json.Strings ValidUtf8 (.obj members))
    (h : IsConfig members c) : ∀ text ∈ c.texts, ValidUtf8 text := by
  obtain ⟨sub, hsub, ms, rfl, hsubscription⟩ := h.subscription
  have hsection := hstrings.of_lookup hsub
  have hlog : ValidUtf8 c.logging.outputPath := by
    rcases h.logging with ⟨v, hv, ms, rfl, hlogging⟩ | ⟨-, hdefault⟩
    · rcases hlogging.outputPath with ⟨v, hpath, rfl, -⟩ | ⟨-, hdefault⟩
      · exact ((hstrings.of_lookup hv).of_lookup hpath).of_str
      · rw [hdefault]
        exact validUtf8_of_isAscii (by decide)
    · rw [hdefault]
      exact validUtf8_of_isAscii (by decide)
  have hraw : ValidUtf8 c.output.rawMessagesPath := by
    rcases h.output with ⟨v, hv, ms, rfl, w, hpath, rfl, -⟩ | ⟨-, hdefault⟩
    · exact ((hstrings.of_lookup hv).of_lookup hpath).of_str
    · rw [hdefault]
      exact validUtf8_of_isAscii (by decide)
  simp only [Config.texts, List.mem_append, or_imp, forall_and, List.forall_mem_cons,
    List.not_mem_nil, false_implies, implies_true, and_true]
  exact ⟨⟨⟨validUtf8_of_mandatory hstrings h.env, validUtf8_of_mandatory hstrings h.wsUrl, hlog,
    hraw⟩, validUtf8_of_strings hsection hsubscription.channels⟩,
    validUtf8_of_strings hsection hsubscription.marketTickers⟩

/-! ### What is loaded -/

/-- The file of a configuration is loaded as this configuration. -/
theorem loadConfig_file {iterate : ℕ → Bytes → Except SimdError Document} (hreads : Reads iterate)
    (pass : ℕ) {c : Config} (h : c.Valid) (htexts : ∀ text ∈ c.texts, ValidUtf8 text) :
    loadConfig (iterate pass) (some c.file) = .ok c := by
  have hwritten := written_members h htexts
  rw [Config.file, loadConfig_eq (hreads pass _ _ hwritten.isText)
    (Json.clear_of_distinct _ _ hwritten.distinct), configOf_eq_ok]
  exact isConfig_members h

/-- Whatever the library makes of the file, an accepted configuration passes every check. -/
theorem accepted_config_valid (iterate : Bytes → Except SimdError Document)
    (file : Option Bytes) (c : Config) (h : loadConfig iterate file = .ok c) : c.Valid :=
  of_loadConfig ensures_valid h

/-- A library that finds an error of the text when it looks for `ws`. -/
def brokenWs (_ : Bytes) : Except SimdError Document :=
  .ok ⟨.obj configMembers, List.replicate 12 none ++ [some .tapeError]⟩

/-- The defaults that stand in for an unreadable section are valid, too. -/
theorem accepted_config_valid_brokenWs :
    ∃ c, loadConfig brokenWs (some []) = .ok c ∧ c.ws = defaultWsConfig ∧ c.Valid := by
  have hws : ((loadConfig brokenWs (some [])).toOption.map Config.ws) = some defaultWsConfig := by
    decide +kernel
  obtain ⟨c, hc, hdefault⟩ := Option.map_eq_some_iff.mp hws
  have hload : loadConfig brokenWs (some []) = .ok c := by
    cases h : loadConfig brokenWs (some []) with
    | error e => simp [h, Except.toOption] at hc
    | ok c' => simpa [h, Except.toOption] using hc
  exact ⟨c, hload, hdefault, accepted_config_valid brokenWs (some []) c hload⟩

/-- The configurations that the files in JSON are loaded as are those that pass every check,
with strings in UTF-8. Each of them is loaded from a file of its own, so that writing out
what has been loaded and loading it again changes nothing. -/
theorem config_round_trip (iterate : ℕ → Bytes → Except SimdError Document)
    (hreads : Reads iterate) (pass : ℕ) (c : Config) :
    ((∃ content members, Json.IsText some content (.obj members) ∧
        (Json.obj members).distinct = true ∧ loadConfig (iterate pass) (some content) = .ok c) ↔
      c.Valid ∧ ∀ text ∈ c.texts, ValidUtf8 text) ∧
    ((c.Valid ∧ ∀ text ∈ c.texts, ValidUtf8 text) →
      loadConfig (iterate pass) (some c.file) = .ok c) := by
  refine ⟨⟨?_, ?_⟩, fun ⟨hvalid, htexts⟩ => loadConfig_file hreads pass hvalid htexts⟩
  · rintro ⟨content, members, htext, hdistinct, hload⟩
    have hconfig := hload
    rw [loadConfig_eq (hreads pass content _ htext) (Json.clear_of_distinct _ _ hdistinct),
      configOf_eq_ok] at hconfig
    exact ⟨of_loadConfig ensures_valid hload,
      validUtf8_texts (Json.strings_of_isText htext) hconfig⟩
  · rintro ⟨hvalid, htexts⟩
    have hwritten := written_members hvalid htexts
    exact ⟨c.file, c.members, hwritten.isText, hwritten.distinct,
      loadConfig_file hreads pass hvalid htexts⟩

/-- A configuration of the mandatory fields. -/
def demoConfig : Config where
  env := ascii "demo"
  wsUrl := ascii "wss://x"
  subscription := { channels := [ascii "trade"], marketTickers := [] }
  ws := defaultWsConfig
  logging := defaultLoggingConfig
  output := defaultOutputConfig

theorem config_round_trip_demoConfig :
    loadConfig (eager 0) (some demoConfig.file) = .ok demoConfig := by
  refine (config_round_trip eager reads_eager 0 demoConfig).2 ⟨?_, fun text htext => ?_⟩
  · exact ⟨by decide, valid_iff_checkWs.mpr checkWs_default, valid_defaultLoggingConfig, by decide⟩
  · have hascii : ∀ text ∈ demoConfig.texts, isAscii text = true := by decide
    exact validUtf8_of_isAscii (hascii text htext)

end KalshiAutotrader.Core
