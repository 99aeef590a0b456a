import KalshiAutotrader.Kit.JsonRender
import KalshiAutotrader.Core.ConfigFormat
import Mathlib.Data.List.Forall2

/-!
Which files are configurations, and of what.

`IsConfig` is the schema of the file over its JSON value. A field that may be
absent is `Defaulted`: it has the value of its member, or else the default. Numbers
are compared as natural numbers, so no cast occurs in the schema.
-/

namespace KalshiAutotrader.Core

open Kit Simdjson Reading

/-! ### The schema -/

/-- The member of this name is there and has this value. -/
def Mandatory {α : Type} (IsValue : Json → α → Prop) (members : Members) (key : Bytes) (a : α) :
    Prop :=
  ∃ v, members.lookup key = some v ∧ IsValue v a

/-- The member of this name has this value, or it is absent and this is the default. -/
def Defaulted {α : Type} (IsValue : Json → α → Prop) (members : Members) (key : Bytes)
    (base a : α) : Prop :=
  Mandatory IsValue members key a ∨ members.lookup key = none ∧ a = base

def IsString (v : Json) (text : Bytes) : Prop := v = .str text

def IsBool (v : Json) (val : Bool) : Prop := v = .bool val

/-- Milliseconds are written without a sign. -/
def IsMillis (v : Json) (ms : Int64) : Prop := ∃ n : ℕ, v = .int false n ∧ n < 2 ^ 63 ∧ ms.toInt = n

def IsStrings (v : Json) (texts : List Bytes) : Prop := v = .arr (texts.map .str)

def IsLevelName (v : Json) (text : Bytes) : Prop :=
  v = .str text ∧
    text ∈ [ascii "trace", ascii "debug", ascii "info", ascii "warn", ascii "error"]

def IsQueueSize (v : Json) (size : UInt64) : Prop := v = .int false size.toNat ∧ 1 ≤ size.toNat

def IsDropPolicyName (v : Json) (text : Bytes) : Prop :=
  v = .str text ∧ text ∈ [ascii "drop_oldest", ascii "drop_newest"]

def IsPath (v : Json) (text : Bytes) : Prop := v = .str text ∧ text ≠ []

/-- An object of such members. -/
def IsSection {α : Type} (IsValue : Members → α → Prop) (v : Json) (a : α) : Prop :=
  ∃ members, v = .obj members ∧ IsValue members a

structure IsSubscription (members : Members) (s : SubscriptionConfig) : Prop where
  channels : Mandatory IsStrings members (ascii "channels") s.channels
  nonempty : s.channels ≠ []
  marketTickers : Mandatory IsStrings members (ascii "market_tickers") s.marketTickers

structure IsWs (members : Members) (ws : WsConfig) : Prop where
  handshakeTimeoutMs : Defaulted IsMillis members (ascii "handshake_timeout_ms")
    defaultWsConfig.handshakeTimeoutMs ws.handshakeTimeoutMs
  idleTimeoutMs : Defaulted IsMillis members (ascii "idle_timeout_ms")
    defaultWsConfig.idleTimeoutMs ws.idleTimeoutMs
  keepAlivePings : Defaulted IsBool members (ascii "keep_alive_pings")
    defaultWsConfig.keepAlivePings ws.keepAlivePings
  autoReconnect : Defaulted IsBool members (ascii "auto_reconnect")
    defaultWsConfig.autoReconnect ws.autoReconnect
  reconnectInitialDelayMs : Defaulted IsMillis members (ascii "reconnect_initial_delay_ms")
    defaultWsConfig.reconnectInitialDelayMs ws.reconnectInitialDelayMs
  reconnectMaxDelayMs : Defaulted IsMillis members (ascii "reconnect_max_delay_ms")
    defaultWsConfig.reconnectMaxDelayMs ws.reconnectMaxDelayMs
  delays : ws.reconnectInitialDelayMs.toInt ≤ ws.reconnectMaxDelayMs.toInt

structure IsLogging (members : Members) (log : LoggingConfig) : Prop where
  level : Defaulted IsLevelName members (ascii "level") defaultLoggingConfig.level log.level
  queueSize : Defaulted IsQueueSize members (ascii "queue_size") defaultLoggingConfig.queueSize
    log.queueSize
  dropPolicy : Defaulted IsDropPolicyName members (ascii "drop_policy")
    defaultLoggingConfig.dropPolicy log.dropPolicy
  includeRawOnParseError : Defaulted IsBool members (ascii "include_raw_on_parse_error")
    defaultLoggingConfig.includeRawOnParseError log.includeRawOnParseError
  logRawMessages : Defaulted IsBool members (ascii "log_raw_messages")
    defaultLoggingConfig.logRawMessages log.logRawMessages
  outputPath : Defaulted IsPath members (ascii "output_path") defaultLoggingConfig.outputPath
    log.outputPath

def IsOutput (members : Members) (out : OutputConfig) : Prop :=
  Mandatory IsPath members (ascii "raw_messages_path") out.rawMessagesPath

structure IsConfig (members : Members) (c : Config) : Prop where
  env : Mandatory IsString members (ascii "env") c.env
  wsUrl : Mandatory IsString members (ascii "ws_url") c.wsUrl
  subscription : Mandatory (IsSection IsSubscription) members (ascii "subscription") c.subscription
  ws : Defaulted (IsSection IsWs) members (ascii "ws") defaultWsConfig c.ws
  logging : Defaulted (IsSection IsLogging) members (ascii "logging") defaultLoggingConfig c.logging
  output : Defaulted (IsSection IsOutput) members (ascii "output") defaultOutputConfig c.output

/-! ### Values -/

/-- A cast to a signed number that yields no negative number keeps the value. -/
theorem isMillis_iff {v : Json} {ms : Int64} :
    IsMillis v ms ↔ ∃ n, asUint64 v = .ok n ∧ n.toInt64 = ms ∧ ¬ ms < 0 := by
  have hzero : (0 : Int64).toInt = 0 := rfl
  have hcast (n : UInt64) : n.toInt64.toInt =
      if 2 * n.toNat < 2 ^ 64 then (n.toNat : ℤ) else (n.toNat : ℤ) - (2 ^ 64 : ℕ) := by
    rw [← Int64.toInt_toBitVec, UInt64.toBitVec_toInt64, BitVec.toInt_eq_toNat_cond]
    rfl
  simp only [asUint64_eq_ok, Int64.lt_iff_toInt_lt, hzero]
  constructor
  · rintro ⟨n, rfl, hlt, hms⟩
    have hn : (UInt64.ofNat n).toNat = n := UInt64.toNat_ofNat_of_lt' (show n < 2 ^ 64 by omega)
    refine ⟨.ofNat n, by rw [hn], ?_, by omega⟩
    apply Int64.toInt_inj.mp
    rw [hcast, hn, hms, if_pos (by omega)]
  · rintro ⟨n, rfl, rfl, hnonneg⟩
    have hlt := n.toNat_lt
    rw [hcast] at hnonneg
    split at hnonneg
    · next h => exact ⟨n.toNat, rfl, by omega, by rw [hcast, if_pos h]⟩
    · omega

theorem isStrings_iff {v : Json} {texts : List Bytes} :
    IsStrings v texts ↔ ∃ items, asArray v = .ok items ∧
      (items.mapM fun item => (asString item).mapError fun _ => ConfigError.parseFailed) =
        .ok texts := by
  have hitem : ∀ item text,
      ((asString item).mapError fun _ => ConfigError.parseFailed) = .ok text ↔
        item = .str text := by
    intro item text
    rw [← asString_eq_ok]
    cases asString item <;> simp [Except.mapError]
  have hall : ∀ items : List Json,
      List.Forall₂ (fun item text => item = Json.str text) items texts ↔
        items = texts.map .str := by
    intro items
    rw [← List.forall₂_eq_eq_eq, List.forall₂_map_right_iff]
  simp only [IsStrings, mapM_eq_ok, hitem, hall]
  cases v <;> simp [asArray]

/-! ### Members -/

section Members

variable {α : Type} {get : Json → Except SimdError α} {members : Members} {key : Bytes} {a : α}

theorem readRequired_eq_ok :
    readRequired get members key = .ok a ↔ Mandatory (get · = .ok ·) members key a := by
  unfold readRequired Mandatory
  cases members.lookup key with
  | none => simp
  | some v => cases hget : get v <;> simp [Except.mapError, hget]

/-- A mandatory member that is read further. -/
theorem mandatory_iff {β : Type} {IsValue : Json → β → Prop}
    {read : α → Except ConfigError β} {b : β}
    (h : ∀ v, IsValue v b ↔ ∃ a, get v = .ok a ∧ read a = .ok b) :
    Mandatory IsValue members key b ↔ (readRequired get members key >>= read) = .ok b := by
  simp only [bind_eq_ok, readRequired_eq_ok, Mandatory, h]
  constructor
  · rintro ⟨v, hv, a, ha, hb⟩
    exact ⟨a, ⟨v, hv, ha⟩, hb⟩
  · rintro ⟨a, ⟨v, hv, ha⟩, hb⟩
    exact ⟨v, hv, a, ha, hb⟩

/-- An optional member, and what is made of its value or of its absence. -/
theorem defaulted_iff {β : Type} {IsValue : Json → β → Prop} {base b : β} {Q : Option α → Prop}
    (hvalue : ∀ v, IsValue v b ↔ ∃ a, get v = .ok a ∧ Q (some a)) (hbase : b = base ↔ Q none) :
    Defaulted IsValue members key base b ↔ ∃ o, readOptional get members key = .ok o ∧ Q o := by
  unfold Defaulted Mandatory readOptional
  cases members.lookup key with
  | none =>
      simp only [reduceCtorEq, false_and, exists_false, true_and, false_or, Except.ok.injEq,
        exists_eq_left', hbase]
  | some v =>
      simp only [Option.some.injEq, exists_eq_left', reduceCtorEq, false_and, or_false, hvalue]
      cases get v with
      | error e => simp [Except.mapError]
      | ok a => simp [Except.mapError]

theorem mandatoryString_iff {text : Bytes} :
    Mandatory IsString members key text ↔ readRequired asString members key = .ok text := by
  simp only [readRequired_eq_ok, asString_eq_ok]
  rfl

theorem mandatoryStrings_iff {texts : List Bytes} :
    Mandatory IsStrings members key texts ↔ readStrings members key = .ok texts :=
  mandatory_iff fun _ => isStrings_iff

theorem defaultedMillis_iff {base ms : Int64} (hbase : ¬ base < 0) :
    Defaulted IsMillis members key base ms ↔
      ∃ o, readOptional asUint64 members key = .ok o ∧ castOr o base = ms ∧ ¬ ms < 0 := by
  refine defaulted_iff (fun v => isMillis_iff) ⟨?_, fun h => h.1.symm⟩
  rintro rfl
  exact ⟨rfl, hbase⟩

theorem defaultedBool_iff {base val : Bool} :
    Defaulted IsBool members key base val ↔
      ∃ o, readOptional asBool members key = .ok o ∧ o.getD base = val := by
  refine defaulted_iff (fun v => ?_) eq_comm
  simp only [asBool_eq_ok, Option.getD_some]
  exact ⟨fun h => ⟨val, h, rfl⟩, fun ⟨_, h, heq⟩ => heq ▸ h⟩

/-- An optional member that is checked when it is there. -/
theorem defaultedChecked_iff {IsValue : Json → α → Prop} {base : α} {ok : α → Bool}
    (hvalue : ∀ v, IsValue v a ↔ get v = .ok a ∧ ok a = true) :
    Defaulted IsValue members key base a ↔
      ∃ o, readOptional get members key = .ok o ∧ checked o base ok = .ok a := by
  refine defaulted_iff (fun v => ?_) ?_
  · rw [hvalue]
    constructor
    · rintro ⟨hget, hok⟩
      exact ⟨a, hget, if_pos hok⟩
    · rintro ⟨a', hget, hok⟩
      simp only [checked] at hok
      split at hok
      · next h =>
        obtain rfl := Except.ok.inj hok
        exact ⟨hget, h⟩
      · cases hok
  · simp only [checked, Except.ok.injEq]
    exact eq_comm

/-- A section is read when it is an object and its members are. -/
theorem readSection_eq_ok {IsValue : Members → α → Prop} {read : Members → Except ConfigError α}
    (h : ∀ ms, IsValue ms a ↔ read ms = .ok a) :
    readSection members key read = .ok a ↔ Mandatory (IsSection IsValue) members key a := by
  refine (mandatory_iff fun v => ?_).symm
  simp only [IsSection, asObject_eq_ok, h]

theorem readOrDefault_eq_ok {IsValue : Members → α → Prop} {base : α}
    {read : α → Members → Except ConfigError α} (h : ∀ ms, IsValue ms a ↔ read base ms = .ok a) :
    readOrDefault members key base read = .ok a ↔
      Defaulted (IsSection IsValue) members key base a := by
  have hsection : readSection members key (read base) = .ok a ↔
      Mandatory (IsSection IsValue) members key a := readSection_eq_ok h
  unfold readOrDefault Defaulted
  split
  · next hnone =>
    simp only [Mandatory, hnone, reduceCtorEq, false_and, exists_false, true_and, false_or,
      Except.ok.injEq]
    exact eq_comm
  · next hsome => simp only [hsection, hsome, reduceCtorEq, false_and, or_false]

end Members

/-! ### Sections -/

theorem checkWs_eq_ok {ws ws' : WsConfig} :
    checkWs ws = .ok ws' ↔ ws = ws' ∧ ¬ ws.handshakeTimeoutMs < 0 ∧ ¬ ws.idleTimeoutMs < 0 ∧
      ¬ ws.reconnectInitialDelayMs < 0 ∧ ¬ ws.reconnectMaxDelayMs < 0 ∧
      ws.reconnectInitialDelayMs.toInt ≤ ws.reconnectMaxDelayMs.toInt := by
  simp only [checkWs, ite_error_eq_ok, Except.ok.injEq, Bool.or_eq_true, decide_eq_true_eq, not_or,
    Int64.lt_iff_toInt_lt (y := ws.reconnectInitialDelayMs), Int.not_lt]
  tauto

theorem isSubscription_iff {members : Members} {s : SubscriptionConfig} :
    IsSubscription members s ↔ readSubscription members = .ok s := by
  simp only [readSubscription, bind_eq_ok, ← mandatoryStrings_iff]
  constructor
  · rintro ⟨hchannels, hnonempty, htickers⟩
    refine ⟨_, hchannels, ?_⟩
    rw [if_neg hnonempty]
    exact bind_eq_ok.mpr ⟨_, mandatoryStrings_iff.mp htickers, rfl⟩
  · rintro ⟨channels, hchannels, hrest⟩
    obtain ⟨hnonempty, hrest⟩ := ite_error_eq_ok.mp hrest
    obtain ⟨tickers, htickers, hs⟩ := bind_eq_ok.mp hrest
    obtain rfl := Except.ok.inj hs
    exact ⟨hchannels, hnonempty, mandatoryStrings_iff.mpr htickers⟩

/-- The defaults pass the checks that configured values have to pass. -/
theorem checkWs_default : checkWs defaultWsConfig = .ok defaultWsConfig := by decide

/-- Whatever the lookups report, a section that is accepted has passed the checks. -/
theorem ensures_parseWs (root : Object) (base : WsConfig) :
    Ensures (parseWs root base) fun ws => checkWs ws = .ok ws := by
  apply ensures_bind; intro ws
  apply ensures_bind; intro handshakeTimeoutMs
  apply ensures_bind; intro idleTimeoutMs
  apply ensures_bind; intro keepAlivePings
  apply ensures_bind; intro autoReconnect
  apply ensures_bind; intro reconnectInitialDelayMs
  apply ensures_bind; intro reconnectMaxDelayMs
  apply ensures_ofExcept
  intro config hconfig
  simp only [bind_eq_ok] at hconfig
  obtain ⟨_, -, _, -, _, -, _, -, _, -, _, -, hchecked⟩ := hconfig
  rwa [(checkWs_eq_ok.mp hchecked).1] at hchecked

theorem checkWs_of_loadConfig {iterate : Bytes → Except SimdError Document} {file : Option Bytes}
    {config : Config} (h : loadConfig iterate file = .ok config) :
    checkWs config.ws = .ok config.ws := by
  have hread := ensures_readConfig checkWs_default (fun root => ensures_parseWs root _) trivial
    fun _ => ensures_trivial
  exact (of_loadConfig hread h).1

theorem isWs_iff {members : Members} {ws : WsConfig} :
    IsWs members ws ↔ readWs defaultWsConfig members = .ok ws := by
  obtain ⟨-, hhandshake₀, hidle₀, hinitial₀, hmax₀, -⟩ := checkWs_eq_ok.mp checkWs_default
  simp only [readWs, bind_eq_ok, checkWs_eq_ok]
  constructor
  · obtain ⟨handshake, idle, pings, auto, initial, max⟩ := ws
    rintro ⟨hhandshake, hidle, hpings, hauto, hinitial, hmax, hdelays⟩
    obtain ⟨o₁, h₁, rfl, hn₁⟩ := (defaultedMillis_iff hhandshake₀).mp hhandshake
    obtain ⟨o₂, h₂, rfl, hn₂⟩ := (defaultedMillis_iff hidle₀).mp hidle
    obtain ⟨o₃, h₃, rfl⟩ := defaultedBool_iff.mp hpings
    obtain ⟨o₄, h₄, rfl⟩ := defaultedBool_iff.mp hauto
    obtain ⟨o₅, h₅, rfl, hn₅⟩ := (defaultedMillis_iff hinitial₀).mp hinitial
    obtain ⟨o₆, h₆, rfl, hn₆⟩ := (defaultedMillis_iff hmax₀).mp hmax
    exact ⟨o₁, h₁, o₂, h₂, o₃, h₃, o₄, h₄, o₅, h₅, o₆, h₆, rfl, hn₁, hn₂, hn₅, hn₆, hdelays⟩
  · rintro ⟨o₁, h₁, o₂, h₂, o₃, h₃, o₄, h₄, o₅, h₅, o₆, h₆, rfl, hn₁, hn₂, hn₅, hn₆, hdelays⟩
    exact {
      handshakeTimeoutMs := (defaultedMillis_iff hhandshake₀).mpr ⟨o₁, h₁, rfl, hn₁⟩
      idleTimeoutMs := (defaultedMillis_iff hidle₀).mpr ⟨o₂, h₂, rfl, hn₂⟩
      keepAlivePings := defaultedBool_iff.mpr ⟨o₃, h₃, rfl⟩
      autoReconnect := defaultedBool_iff.mpr ⟨o₄, h₄, rfl⟩
      reconnectInitialDelayMs := (defaultedMillis_iff hinitial₀).mpr ⟨o₅, h₅, rfl, hn₅⟩
      reconnectMaxDelayMs := (defaultedMillis_iff hmax₀).mpr ⟨o₆, h₆, rfl, hn₆⟩
      delays := hdelays }

section Checks

variable {members : Members} {key : Bytes}

theorem defaultedLevel_iff {base level : Bytes} :
    Defaulted IsLevelName members key base level ↔
      ∃ o, readOptional asString members key = .ok o ∧
        checked o base (levelNames.contains ·) = .ok level := by
  refine defaultedChecked_iff fun v => ?_
  rw [asString_eq_ok, List.contains_iff_mem]
  rfl

theorem defaultedDropPolicy_iff {base policy : Bytes} :
    Defaulted IsDropPolicyName members key base policy ↔
      ∃ o, readOptional asString members key = .ok o ∧
        checked o base (dropPolicyNames.contains ·) = .ok policy := by
  refine defaultedChecked_iff fun v => ?_
  rw [asString_eq_ok, List.contains_iff_mem]
  rfl

theorem defaultedQueueSize_iff {base size : UInt64} :
    Defaulted IsQueueSize members key base size ↔
      ∃ o, readOptional asUint64 members key = .ok o ∧ checked o base (· != 0) = .ok size := by
  refine defaultedChecked_iff fun v => ?_
  rw [asUint64_eq_ok, ← one_le_toNat_iff]
  rfl

theorem defaultedPath_iff {base path : Bytes} :
    Defaulted IsPath members key base path ↔
      ∃ o, readOptional asString members key = .ok o ∧ checked o base (· != []) = .ok path := by
  refine defaultedChecked_iff fun v => ?_
  rw [asString_eq_ok, bne_iff_ne]
  rfl

end Checks

theorem isLogging_iff {members : Members} {log : LoggingConfig} :
    IsLogging members log ↔ readLogging defaultLoggingConfig members = .ok log := by
  simp only [readLogging, bind_eq_ok]
  constructor
  · obtain ⟨level, size, policy, raw, messages, path⟩ := log
    rintro ⟨hlevel, hsize, hpolicy, hraw, hmessages, hpath⟩
    obtain ⟨o₁, h₁, hc₁⟩ := defaultedLevel_iff.mp hlevel
    obtain ⟨o₂, h₂, hc₂⟩ := defaultedQueueSize_iff.mp hsize
    obtain ⟨o₃, h₃, hc₃⟩ := defaultedDropPolicy_iff.mp hpolicy
    obtain ⟨o₄, h₄, rfl⟩ := defaultedBool_iff.mp hraw
    obtain ⟨o₅, h₅, rfl⟩ := defaultedBool_iff.mp hmessages
    obtain ⟨o₆, h₆, hc₆⟩ := defaultedPath_iff.mp hpath
    exact ⟨o₁, h₁, o₂, h₂, o₃, h₃, o₄, h₄, o₅, h₅, o₆, h₆, _, hc₁, _, hc₂, _, hc₃, _, hc₆, rfl⟩
  · rintro ⟨o₁, h₁, o₂, h₂, o₃, h₃, o₄, h₄, o₅, h₅, o₆, h₆, _, hc₁, _, hc₂, _, hc₃, _, hc₆, hlog⟩
    obtain rfl := Except.ok.inj hlog
    exact {
      level := defaultedLevel_iff.mpr ⟨o₁, h₁, hc₁⟩
      queueSize := defaultedQueueSize_iff.mpr ⟨o₂, h₂, hc₂⟩
      dropPolicy := defaultedDropPolicy_iff.mpr ⟨o₃, h₃, hc₃⟩
      includeRawOnParseError := defaultedBool_iff.mpr ⟨o₄, h₄, rfl⟩
      logRawMessages := defaultedBool_iff.mpr ⟨o₅, h₅, rfl⟩
      outputPath := defaultedPath_iff.mpr ⟨o₆, h₆, hc₆⟩ }

theorem isOutput_iff {members : Members} {out : OutputConfig} :
    IsOutput members out ↔ readOutput members = .ok out := by
  simp only [readOutput, bind_eq_ok, readRequired_eq_ok, IsOutput]
  constructor
  · rintro ⟨v, hv, rfl, hpath⟩
    exact ⟨_, ⟨_, hv, rfl⟩, if_neg hpath⟩
  · rintro ⟨path, ⟨v, hv, hpath⟩, hrest⟩
    obtain ⟨hnonempty, hout⟩ := ite_error_eq_ok.mp hrest
    obtain rfl := Except.ok.inj hout
    exact ⟨v, hv, asString_eq_ok.mp hpath, hnonempty⟩

/-! ### The file -/

theorem configOf_eq_ok {members : Members} {c : Config} :
    configOf members = .ok c ↔ IsConfig members c := by
  have houtput : ∀ out,
      readOrDefault members (ascii "output") defaultOutputConfig (fun _ => readOutput) = .ok out ↔
        Defaulted (IsSection IsOutput) members (ascii "output") defaultOutputConfig out :=
    fun out => readOrDefault_eq_ok fun ms => isOutput_iff
  simp only [configOf, bind_eq_ok, readOrDefault_eq_ok fun ms => isWs_iff,
    readOrDefault_eq_ok fun ms => isLogging_iff, houtput, ← mandatoryString_iff,
    readSection_eq_ok fun ms => isSubscription_iff]
  constructor
  · rintro ⟨ws, hws, logging, hlogging, output, houtput, env, henv, url, hurl, sub, hsub, hc⟩
    obtain rfl := Except.ok.inj hc
    exact ⟨henv, hurl, hsub, hws, hlogging, houtput⟩
  · rintro ⟨henv, hurl, hsub, hws, hlogging, houtput⟩
    exact ⟨_, hws, _, hlogging, _, houtput, _, henv, _, hurl, _, hsub, rfl⟩

/-- A readable file with a well-formed object without repeated names is loaded
exactly when its members are a configuration, and as that configuration. -/
theorem loads_exactly (iterate : ℕ → Bytes → Except SimdError Document) (hreads : Reads iterate)
    (pass : ℕ) (content : Bytes) (members : Members)
    (htext : Json.IsText some content (.obj members))
    (hdistinct : (Json.obj members).distinct = true) :
    ((∃ c, loadConfig (iterate pass) (some content) = .ok c) ↔ ∃ c, IsConfig members c) ∧
      ∀ c, loadConfig (iterate pass) (some content) = .ok c ↔ IsConfig members c := by
  have hexact : ∀ c, loadConfig (iterate pass) (some content) = .ok c ↔ IsConfig members c := by
    intro c
    rw [loadConfig_eq (hreads pass content _ htext) (Json.clear_of_distinct _ _ hdistinct)]
    exact configOf_eq_ok
  exact ⟨exists_congr hexact, hexact⟩

def configMembers : Members :=
  [(ascii "subscription", .obj
      [(ascii "market_tickers", .arr []), (ascii "channels", .arr [.str (ascii "trade")])]),
    (ascii "ws", .obj [(ascii "reconnect_max_delay_ms", .int false 500),
      (ascii "idle_timeout_ms", .int false (2 ^ 63 - 1))]),
    (ascii "ws_url", .str (ascii "wss://x")), (ascii "env", .str (ascii "demo"))]

theorem readable_configMembers : ∀ m ∈ configMembers, Json.Readable some m.2 := by
  simp only [configMembers, List.forall_mem_cons, List.not_mem_nil, false_implies, implies_true,
    and_true]
  refine ⟨.obj _ (by decide) ?_, .obj _ (by decide) ?_, .str _, .str _⟩
  · simp only [List.forall_mem_cons, List.not_mem_nil, false_implies, implies_true, and_true]
    refine ⟨.arr _ (by simp), .arr _ ?_⟩
    simp only [List.forall_mem_cons, List.not_mem_nil, false_implies, implies_true, and_true]
    exact .str _
  · simp only [List.forall_mem_cons, List.not_mem_nil, false_implies, implies_true, and_true]
    exact ⟨.int _ _, .int _ _⟩

theorem isText_configMembers :
    Json.IsText some (Json.render (.obj configMembers)) (.obj configMembers) :=
  ⟨validUtf8_of_ascii (by decide +kernel),
    Json.parse_render (.obj _ (by decide) readable_configMembers)⟩

/-- The largest time, a pause that is both initial and largest, and defaults
elsewhere. -/
theorem loads_configMembers :
    loadConfig (eager 0) (some (Json.render (.obj configMembers))) = .ok
      { env := ascii "demo", wsUrl := ascii "wss://x",
        subscription := { channels := [ascii "trade"], marketTickers := [] },
        ws := { defaultWsConfig with idleTimeoutMs := 9223372036854775807,
                                     reconnectMaxDelayMs := 500 },
        logging := defaultLoggingConfig, output := defaultOutputConfig } := by
  refine ((loads_exactly eager reads_eager 0 _ configMembers isText_configMembers
    (by decide)).2 _).mpr ?_
  exact {
    env := ⟨_, rfl, rfl⟩
    wsUrl := ⟨_, rfl, rfl⟩
    subscription := ⟨_, rfl, _, rfl, ⟨_, rfl, rfl⟩, by decide, ⟨_, rfl, rfl⟩⟩
    ws := .inl ⟨_, rfl, _, rfl, {
      handshakeTimeoutMs := .inr ⟨rfl, rfl⟩
      idleTimeoutMs := .inl ⟨_, rfl, _, rfl, by decide, rfl⟩
      keepAlivePings := .inr ⟨rfl, rfl⟩
      autoReconnect := .inr ⟨rfl, rfl⟩
      reconnectInitialDelayMs := .inr ⟨rfl, rfl⟩
      reconnectMaxDelayMs := .inl ⟨_, rfl, _, rfl, by decide, rfl⟩
      delays := by decide }⟩
    logging := .inr ⟨rfl, rfl⟩
    output := .inr ⟨rfl, rfl⟩ }

end KalshiAutotrader.Core
