import KalshiAutotrader.Simdjson.OnDemand

/-!
The configuration file.

Mandatory fields are read first, but their errors are looked at last, after the
optional sections. A section is looked up twice, once to see whether it is there
and once by its parser. Milliseconds are read as unsigned numbers and cast to
signed ones; the check for negative values comes after the cast.
-/

namespace KalshiAutotrader.Core

open Kit Simdjson

inductive ConfigError | fileOpenFailed | parseFailed
  deriving DecidableEq

structure SubscriptionConfig where
  channels : List Bytes
  marketTickers : List Bytes
  deriving DecidableEq

structure WsConfig where
  handshakeTimeoutMs : Int64
  idleTimeoutMs : Int64
  keepAlivePings : Bool
  autoReconnect : Bool
  reconnectInitialDelayMs : Int64
  reconnectMaxDelayMs : Int64
  deriving DecidableEq

structure LoggingConfig where
  level : Bytes
  queueSize : UInt64
  dropPolicy : Bytes
  includeRawOnParseError : Bool
  logRawMessages : Bool
  outputPath : Bytes
  deriving DecidableEq

structure OutputConfig where
  rawMessagesPath : Bytes
  deriving DecidableEq

structure Config where
  env : Bytes
  wsUrl : Bytes
  subscription : SubscriptionConfig
  ws : WsConfig
  logging : LoggingConfig
  output : OutputConfig
  deriving DecidableEq

/-! ### Getters -/

def getString (obj : Object) (key : Bytes) : Read ConfigError Bytes := do
  let field ← (obj.field key).mapError fun _ => .parseFailed
  field.getString.mapError fun _ => .parseFailed

/-- An optional field: only a missing one counts as absent. -/
def getOptional {α : Type} (getter : Value → Read SimdError α) (obj : Object) (key : Bytes) :
    Read ConfigError (Option α) := do
  match ← (obj.field key).observe with
  | .error .noSuchField => pure none
  | .error _ => throw .parseFailed
  | .ok field =>
      let val ← (getter field).mapError fun _ => .parseFailed
      pure (some val)

def getOptionalString (obj : Object) (key : Bytes) : Read ConfigError (Option Bytes) :=
  getOptional Value.getString obj key

def getOptionalSize (obj : Object) (key : Bytes) : Read ConfigError (Option UInt64) :=
  getOptional Value.getUint64 obj key

def getOptionalBool (obj : Object) (key : Bytes) : Read ConfigError (Option Bool) :=
  getOptional Value.getBool obj key

def getStringArray (obj : Object) (key : Bytes) : Read ConfigError (List Bytes) := do
  let field ← (obj.field key).mapError fun _ => .parseFailed
  let arr ← field.getArray.mapError fun _ => .parseFailed
  arr.mapM fun item => item.getString.mapError fun _ => .parseFailed

/-- `root[key].get_object()`. -/
def getSection (root : Object) (key : Bytes) : Read ConfigError Object :=
  (root.field key >>= Value.getObject).mapError fun _ => .parseFailed

/-! ### Sections -/

def parseSubscription (root : Object) : Read ConfigError SubscriptionConfig := do
  let sub ← getSection root (ascii "subscription")
  let channels ← getStringArray sub (ascii "channels")
  if channels = [] then throw .parseFailed
  else
    let tickers ← getStringArray sub (ascii "market_tickers")
    pure { channels := channels, marketTickers := tickers }

/-- The checks at the end of `parse_ws`, on the values merged with the defaults. -/
def checkWs (ws : WsConfig) : Except ConfigError WsConfig :=
  if ws.handshakeTimeoutMs < 0 || ws.idleTimeoutMs < 0 || ws.reconnectInitialDelayMs < 0 ||
      ws.reconnectMaxDelayMs < 0 then .error .parseFailed
  else if ws.reconnectMaxDelayMs < ws.reconnectInitialDelayMs then .error .parseFailed
  else .ok ws

/-- `static_cast<std::int64_t>` of a configured size, or the value so far. -/
def castOr (size : Option UInt64) (base : Int64) : Int64 := (size.map UInt64.toInt64).getD base

def parseWs (root : Object) (base : WsConfig) : Read ConfigError WsConfig := do
  let ws ← getSection root (ascii "ws")
  let handshakeTimeoutMs ← (getOptionalSize ws (ascii "handshake_timeout_ms")).observe
  let idleTimeoutMs ← (getOptionalSize ws (ascii "idle_timeout_ms")).observe
  let keepAlivePings ← (getOptionalBool ws (ascii "keep_alive_pings")).observe
  let autoReconnect ← (getOptionalBool ws (ascii "auto_reconnect")).observe
  let reconnectInitialDelayMs ←
    (getOptionalSize ws (ascii "reconnect_initial_delay_ms")).observe
  let reconnectMaxDelayMs ← (getOptionalSize ws (ascii "reconnect_max_delay_ms")).observe
  ofExcept do
    let handshakeTimeoutMs ← handshakeTimeoutMs
    let idleTimeoutMs ← idleTimeoutMs
    let keepAlivePings ← keepAlivePings
    let autoReconnect ← autoReconnect
    let reconnectInitialDelayMs ← reconnectInitialDelayMs
    let reconnectMaxDelayMs ← reconnectMaxDelayMs
    checkWs {
      handshakeTimeoutMs := castOr handshakeTimeoutMs base.handshakeTimeoutMs
      idleTimeoutMs := castOr idleTimeoutMs base.idleTimeoutMs
      keepAlivePings := keepAlivePings.getD base.keepAlivePings
      autoReconnect := autoReconnect.getD base.autoReconnect
      reconnectInitialDelayMs := castOr reconnectInitialDelayMs base.reconnectInitialDelayMs
      reconnectMaxDelayMs := castOr reconnectMaxDelayMs base.reconnectMaxDelayMs }

def levelNames : List Bytes :=
  [ascii "trace", ascii "debug", ascii "info", ascii "warn", ascii "error"]

def dropPolicyNames : List Bytes := [ascii "drop_oldest", ascii "drop_newest"]

/-- A present value that fails its check rejects the section. -/
def checked {α : Type} (val : Option α) (base : α) (ok : α → Bool) : Except ConfigError α :=
  match val with
  | none => .ok base
  | some a => if ok a then .ok a else .error .parseFailed

/-- A default that passes the check stands for a value that does. -/
theorem of_checked {α : Type} {val : Option α} {base a : α} {ok : α → Bool}
    (h : checked val base ok = .ok a) (hbase : ok base = true) : ok a = true := by
  unfold checked at h
  split at h
  · obtain rfl := Except.ok.inj h
    exact hbase
  · split at h
    · next hok =>
      obtain rfl := Except.ok.inj h
      exact hok
    · cases h

/-- The check of a queue size. -/
theorem one_le_toNat_iff {n : UInt64} : 1 ≤ n.toNat ↔ (n != 0) = true := by
  rw [bne_iff_ne, ne_eq, ← UInt64.toNat_inj]
  exact Nat.one_le_iff_ne_zero

def parseLogging (root : Object) (base : LoggingConfig) : Read ConfigError LoggingConfig := do
  let log ← getSection root (ascii "logging")
  let level ← (getOptionalString log (ascii "level")).observe
  let queueSize ← (getOptionalSize log (ascii "queue_size")).observe
  let dropPolicy ← (getOptionalString log (ascii "drop_policy")).observe
  let includeRaw ← (getOptionalBool log (ascii "include_raw_on_parse_error")).observe
  let logRawMessages ← (getOptionalBool log (ascii "log_raw_messages")).observe
  let outputPath ← (getOptionalString log (ascii "output_path")).observe
  ofExcept do
    let level ← level
    let queueSize ← queueSize
    let dropPolicy ← dropPolicy
    let includeRaw ← includeRaw
    let logRawMessages ← logRawMessages
    let outputPath ← outputPath
    let level ← checked level base.level (levelNames.contains ·)
    let queueSize ← checked queueSize base.queueSize (· != 0)
    let dropPolicy ← checked dropPolicy base.dropPolicy (dropPolicyNames.contains ·)
    let outputPath ← checked outputPath base.outputPath (· != [])
    pure {
      level := level
      queueSize := queueSize
      dropPolicy := dropPolicy
      includeRawOnParseError := includeRaw.getD base.includeRawOnParseError
      logRawMessages := logRawMessages.getD base.logRawMessages
      outputPath := outputPath }

def parseOutput (root : Object) : Read ConfigError OutputConfig := do
  let out ← getSection root (ascii "output")
  let path ← getString out (ascii "raw_messages_path")
  if path = [] then throw .parseFailed
  else pure { rawMessagesPath := path }

def defaultLoggingConfig : LoggingConfig where
  level := ascii "info"
  queueSize := 10000
  dropPolicy := ascii "drop_oldest"
  includeRawOnParseError := true
  logRawMessages := false
  outputPath := ascii "logs/kalshi.log.json"

def defaultOutputConfig : OutputConfig where
  rawMessagesPath := ascii "logs/ws_messages.json"

def defaultWsConfig : WsConfig where
  handshakeTimeoutMs := 30000
  idleTimeoutMs := 60000
  keepAlivePings := true
  autoReconnect := true
  reconnectInitialDelayMs := 500
  reconnectMaxDelayMs := 30000

/-! ### The file -/

/-- A section that counts as absent when its lookup reports any error. -/
def orDefault {α : Type} (root : Object) (key : Bytes) (base : α) (parse : Read ConfigError α) :
    Read ConfigError α := do
  match ← (root.field key).observe with
  | .error _ => pure base
  | .ok _ => parse

def readConfig (doc : Document) : Read ConfigError Config := do
  let root ← doc.getObject.mapError fun _ => .parseFailed
  let env ← (getString root (ascii "env")).observe
  let wsUrl ← (getString root (ascii "ws_url")).observe
  let subscription ← (parseSubscription root).observe
  let ws ← orDefault root (ascii "ws") defaultWsConfig (parseWs root defaultWsConfig)
  let logging ← orDefault root (ascii "logging") defaultLoggingConfig
    (parseLogging root defaultLoggingConfig)
  let output ← orDefault root (ascii "output") defaultOutputConfig (parseOutput root)
  -- the mandatory fields are looked at after every section has been parsed
  ofExcept do
    let env ← env
    let wsUrl ← wsUrl
    let subscription ← subscription
    pure { env := env, wsUrl := wsUrl, subscription := subscription, ws := ws,
           logging := logging, output := output }

/-- `load_config`, given what is in the file, if it can be opened. -/
def loadConfig (iterate : Bytes → Except SimdError Document) (file : Option Bytes) :
    Except ConfigError Config :=
  match file with
  | none => .error .fileOpenFailed
  | some content =>
      match iterate content with
      | .error _ => .error .parseFailed
      | .ok doc => ((readConfig doc).runFrom doc.session).1

def resolveWsUrl (config : Config) : Bytes := config.wsUrl

/-! ### Accepted configurations -/

open Reading

theorem ensures_orDefault {α : Type} {root : Object} {key : Bytes} {base : α}
    {parse : Read ConfigError α} {P : α → Prop} (hbase : P base) (hparse : Ensures parse P) :
    Ensures (orDefault root key base parse) P := by
  apply ensures_bind
  intro found
  cases found with
  | error e => exact ensures_pure hbase
  | ok v => exact hparse

/-- What the defaults and the parsers of two sections ensure holds of a configuration. -/
theorem ensures_readConfig {W : WsConfig → Prop} {L : LoggingConfig → Prop}
    (hws₀ : W defaultWsConfig) (hws : ∀ root, Ensures (parseWs root defaultWsConfig) W)
    (hlogging₀ : L defaultLoggingConfig)
    (hlogging : ∀ root, Ensures (parseLogging root defaultLoggingConfig) L) (doc : Document) :
    Ensures (readConfig doc) fun config => W config.ws ∧ L config.logging := by
  apply ensures_bind; intro root
  apply ensures_bind; intro env
  apply ensures_bind; intro wsUrl
  apply ensures_bind; intro subscription
  refine (ensures_orDefault hws₀ (hws root)).bind fun ws hW => ?_
  refine (ensures_orDefault hlogging₀ (hlogging root)).bind fun logging hL => ?_
  apply ensures_bind; intro output
  apply ensures_ofExcept
  intro config hconfig
  simp only [bind_eq_ok] at hconfig
  obtain ⟨_, -, _, -, _, -, heq⟩ := hconfig
  obtain rfl := Except.ok.inj heq
  exact ⟨hW, hL⟩

/-- What reading ensures holds of an accepted configuration. -/
theorem of_loadConfig {iterate : Bytes → Except SimdError Document} {file : Option Bytes}
    {config : Config} {P : Config → Prop} (hread : ∀ doc, Ensures (readConfig doc) P)
    (h : loadConfig iterate file = .ok config) : P config := by
  unfold loadConfig at h
  split at h
  · cases h
  · split at h
    · cases h
    · next doc _ => exact hread doc _ _ h

end KalshiAutotrader.Core
