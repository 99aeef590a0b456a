import KalshiAutotrader.Kit.JsonOrder
import KalshiAutotrader.Core.Config

/-!
The configuration as a function of the members it is read from.

Over a sound text, where no name that is looked up is there twice, neither the
cursor nor the second lookup of a section makes a difference. Each parser computes
a `read` function below, in the order of the code.
-/

namespace KalshiAutotrader.Core

open Kit Simdjson Reading

abbrev Members := List (Bytes × Json)

def readRequired {α : Type} (get : Json → Except SimdError α) (members : Members) (key : Bytes) :
    Except ConfigError α :=
  match members.lookup key with
  | none => .error .parseFailed
  | some v => (get v).mapError fun _ => .parseFailed

def readOptional {α : Type} (get : Json → Except SimdError α) (members : Members) (key : Bytes) :
    Except ConfigError (Option α) :=
  match members.lookup key with
  | none => .ok none
  | some v => some <$> (get v).mapError fun _ => .parseFailed

def readStrings (members : Members) (key : Bytes) : Except ConfigError (List Bytes) := do
  let items ← readRequired asArray members key
  items.mapM fun item => (asString item).mapError fun _ => .parseFailed

/-- A section, which has to be an object. -/
def readSection {α : Type} (members : Members) (key : Bytes)
    (read : Members → Except ConfigError α) : Except ConfigError α :=
  readRequired asObject members key >>= read

def readSubscription (sub : Members) : Except ConfigError SubscriptionConfig := do
  let channels ← readStrings sub (ascii "channels")
  if channels = [] then throw .parseFailed
  else
    let tickers ← readStrings sub (ascii "market_tickers")
    pure { channels := channels, marketTickers := tickers }

def readWs (base : WsConfig) (ws : Members) : Except ConfigError WsConfig := do
  let handshakeTimeoutMs ← readOptional asUint64 ws (ascii "handshake_timeout_ms")
  let idleTimeoutMs ← readOptional asUint64 ws (ascii "idle_timeout_ms")
  let keepAlivePings ← readOptional asBool ws (ascii "keep_alive_pings")
  let autoReconnect ← readOptional asBool ws (ascii "auto_reconnect")
  let reconnectInitialDelayMs ← readOptional asUint64 ws (ascii "reconnect_initial_delay_ms")
  let reconnectMaxDelayMs ← readOptional asUint64 ws (ascii "reconnect_max_delay_ms")
  checkWs {
    handshakeTimeoutMs := castOr handshakeTimeoutMs base.handshakeTimeoutMs
    idleTimeoutMs := castOr idleTimeoutMs base.idleTimeoutMs
    keepAlivePings := keepAlivePings.getD base.keepAlivePings
    autoReconnect := autoReconnect.getD base.autoReconnect
    reconnectInitialDelayMs := castOr reconnectInitialDelayMs base.reconnectInitialDelayMs
    reconnectMaxDelayMs := castOr reconnectMaxDelayMs base.reconnectMaxDelayMs }

def readLogging (base : LoggingConfig) (log : Members) : Except ConfigError LoggingConfig := do
  let level ← readOptional asString log (ascii "level")
  let queueSize ← readOptional asUint64 log (ascii "queue_size")
  let dropPolicy ← readOptional asString log (ascii "drop_policy")
  let includeRaw ← readOptional asBool log (ascii "include_raw_on_parse_error")
  let logRawMessages ← readOptional asBool log (ascii "log_raw_messages")
  let outputPath ← readOptional asString log (ascii "output_path")
  let level ← checked level base.level (levelNames.contains ·)
  let queueSize ← checked queueSize base.queueSize (· != 0)
  let dropPolicy ← checked dropPolicy base.dropPolicy (dropPolicyNames.contains ·)
  let outputPath ← checked outputPath base.outputPath (· != [])
  pure {
    level := level
    queueSize := queueSize
    dropPolicy := dropPolicy
    includeRawOnParseError := includeRaw.getD base.includeRawOnParseError
    logRawMessages := logRawMessages.getD base.logRawMessages
    outputPath := outputPath }

def readOutput (out : Members) : Except ConfigError OutputConfig := do
  let path ← readRequired asString out (ascii "raw_messages_path")
  if path = [] then throw .parseFailed
  else pure { rawMessagesPath := path }

/-- A section that may be absent. -/
def readOrDefault {α : Type} (members : Members) (key : Bytes) (base : α)
    (read : α → Members → Except ConfigError α) : Except ConfigError α :=
  match members.lookup key with
  | none => .ok base
  | some _ => readSection members key (read base)

/-- The configuration in these members. -/
def configOf (members : Members) : Except ConfigError Config := do
  let ws ← readOrDefault members (ascii "ws") defaultWsConfig readWs
  let logging ← readOrDefault members (ascii "logging") defaultLoggingConfig readLogging
  let output ← readOrDefault members (ascii "output") defaultOutputConfig fun _ => readOutput
  let env ← readRequired asString members (ascii "env")
  let wsUrl ← readRequired asString members (ascii "ws_url")
  let subscription ← readSection members (ascii "subscription") readSubscription
  pure { env := env, wsUrl := wsUrl, subscription := subscription, ws := ws,
         logging := logging, output := output }

/-! ### The names that are looked up -/

def subscriptionNames : List Bytes := [ascii "channels", ascii "market_tickers"]

def wsNames : List Bytes :=
  [ascii "handshake_timeout_ms", ascii "idle_timeout_ms", ascii "keep_alive_pings",
    ascii "auto_reconnect", ascii "reconnect_initial_delay_ms", ascii "reconnect_max_delay_ms"]

def loggingNames : List Bytes :=
  [ascii "level", ascii "queue_size", ascii "drop_policy", ascii "include_raw_on_parse_error",
    ascii "log_raw_messages", ascii "output_path"]

def outputNames : List Bytes := [ascii "raw_messages_path"]

def rootLayout : List (Bytes × Json.Layout) :=
  [(ascii "env", .whole), (ascii "ws_url", .whole),
    (ascii "subscription", .flat subscriptionNames), (ascii "ws", .flat wsNames),
    (ascii "logging", .flat loggingNames), (ascii "output", .flat outputNames)]

def configLayout : Json.Layout := .object rootLayout

/-! ### The code computes it -/

variable {α : Type} {obj root : Object} {key : Bytes}

theorem answers_getString (honce : Json.Once obj.members key) :
    Answers Session.Sound (getString obj key) (readRequired asString obj.members key) := by
  have hfield := (answers_field honce).mapError fun _ => ConfigError.parseFailed
  have h := hfield.bind fun v _ =>
    (answers_call (asString v.json)).mapError fun _ => ConfigError.parseFailed
  unfold readRequired
  unfold lookup at h
  cases hlookup : obj.members.lookup key <;> rw [hlookup] at h <;> exact h

theorem answers_getOptional (honce : Json.Once obj.members key)
    {getter : Value → Read SimdError α} {get : Json → Except SimdError α}
    (hgetter : ∀ v, Answers Session.Sound (getter v) (get v.json)) :
    Answers Session.Sound (getOptional getter obj key) (readOptional get obj.members key) := by
  have hfield := answers_field honce
  unfold readOptional
  unfold lookup at hfield
  cases hlookup : obj.members.lookup key with
  | none =>
      rw [hlookup] at hfield
      exact hfield.observe.bind_ok (answers_pure none)
  | some v =>
      rw [hlookup] at hfield
      apply hfield.observe.bind_ok
      exact ((hgetter ⟨obj.depth, v⟩).mapError fun _ => ConfigError.parseFailed).map some

theorem answers_getOptionalString (honce : Json.Once obj.members key) :
    Answers Session.Sound (getOptionalString obj key) (readOptional asString obj.members key) :=
  answers_getOptional honce fun v => answers_call (asString v.json)

theorem answers_getOptionalSize (honce : Json.Once obj.members key) :
    Answers Session.Sound (getOptionalSize obj key) (readOptional asUint64 obj.members key) :=
  answers_getOptional honce fun v => answers_call (asUint64 v.json)

theorem answers_getOptionalBool (honce : Json.Once obj.members key) :
    Answers Session.Sound (getOptionalBool obj key) (readOptional asBool obj.members key) :=
  answers_getOptional honce fun v => answers_call (asBool v.json)

theorem answers_getStringArray (honce : Json.Once obj.members key) :
    Answers Session.Sound (getStringArray obj key) (readStrings obj.members key) := by
  have hfield := (answers_field honce).mapError fun _ => ConfigError.parseFailed
  unfold lookup at hfield
  unfold getStringArray readStrings readRequired
  cases hlookup : obj.members.lookup key with
  | none =>
      rw [hlookup] at hfield
      exact hfield.bind (g := fun _ => Except.error ConfigError.parseFailed) fun _ h => by cases h
  | some v =>
      rw [hlookup] at hfield
      apply hfield.bind_ok
      have harray : Answers Session.Sound
          ((Value.mk obj.depth v).getArray.mapError fun _ => ConfigError.parseFailed) _ :=
        ((answers_call (asArray v)).map _).mapError _
      simp only
      cases hv : asArray v with
      | error =>
          rw [hv] at harray
          exact harray.bind (g := fun _ => Except.error ConfigError.parseFailed)
            fun _ h => by cases h
      | ok items =>
          rw [hv] at harray
          apply harray.bind_ok
          exact .mapM_map (w := Value.mk obj.depth)
            (fun item => (answers_call (asString item)).mapError _) items

theorem answers_getSection (honce : Json.Once root.members key) :
    Answers Session.Sound (getSection root key)
      (Object.mk (root.depth + 1) <$> readRequired asObject root.members key) := by
  have hobject := ((answers_field honce).bind fun v _ =>
    answers_openObject (v.depth + 1) v.json).mapError fun _ => ConfigError.parseFailed
  unfold readRequired
  unfold lookup at hobject
  cases hlookup : root.members.lookup key with
  | none =>
      rw [hlookup] at hobject
      exact hobject
  | some v =>
      rw [hlookup] at hobject
      cases v <;> exact hobject

theorem lookup_of_readRequired {members ms : Members}
    (h : readRequired asObject members key = .ok ms) : members.lookup key = some (.obj ms) := by
  unfold readRequired at h
  split at h
  · cases h
  · next v heq =>
    rw [heq]
    cases v with
    | obj ms' =>
        obtain rfl := Except.ok.inj h
        rfl
    | _ => cases h

/-- A parser of a section, which looks up the names the layout allows. -/
theorem answers_section {layout : List (Bytes × Json.Layout)} {names : List Bytes}
    (hclear : Json.Clear (.object layout) (.obj root.members))
    (hkey : layout.lookup key = some (.flat names))
    {parse : Object → Read ConfigError α} {read : Members → Except ConfigError α}
    (hparse : ∀ {obj : Object}, (∀ name ∈ names, Json.Once obj.members name) →
      Answers Session.Sound (parse obj) (read obj.members)) :
    Answers Session.Sound (getSection root key >>= parse)
      (readSection root.members key read) := by
  have hsection := answers_getSection (hclear.once hkey)
  unfold readSection
  cases hread : readRequired asObject root.members key with
  | error e =>
      rw [hread] at hsection
      exact hsection.bind (g := fun _ => Except.error e) fun _ h => by cases h
  | ok ms =>
      rw [hread] at hsection
      have hinside : Json.Clear (.flat names) (.obj ms) :=
        hclear.inside hkey (lookup_of_readRequired hread)
      have hfields : Answers Session.Sound (parse ⟨root.depth + 1, ms⟩) (read ms) :=
        hparse fun name hname => hinside.once_flat hname
      exact hsection.bind_ok hfields

theorem answers_orDefault (honce : Json.Once root.members key) (base : α)
    {parse : Read ConfigError α} {read : α → Members → Except ConfigError α}
    (hparse : Answers Session.Sound parse (readSection root.members key (read base))) :
    Answers Session.Sound (orDefault root key base parse)
      (readOrDefault root.members key base read) := by
  have hfield := answers_field honce
  unfold readOrDefault
  unfold lookup at hfield
  cases hlookup : root.members.lookup key with
  | none =>
      rw [hlookup] at hfield
      exact hfield.observe.bind_ok (answers_pure base)
  | some v =>
      rw [hlookup] at hfield
      exact hfield.observe.bind_ok hparse

section Sections

variable (hclear : Json.Clear configLayout (.obj root.members))
include hclear

theorem answers_parseSubscription :
    Answers Session.Sound (parseSubscription root)
      (readSection root.members (ascii "subscription") readSubscription) := by
  have hkey : rootLayout.lookup (ascii "subscription") = some (.flat subscriptionNames) := rfl
  refine answers_section hclear hkey fun {sub} honce => ?_
  simp only [subscriptionNames, List.forall_mem_cons] at honce
  obtain ⟨hchannels, htickers, -⟩ := honce
  exact (answers_getStringArray hchannels).bind fun _ _ =>
    .ite (fun _ => answers_throw _) fun _ =>
      (answers_getStringArray htickers).bind fun _ _ => answers_pure _

theorem answers_parseWs (base : WsConfig) :
    Answers Session.Sound (parseWs root base)
      (readSection root.members (ascii "ws") (readWs base)) := by
  refine answers_section hclear rfl fun {ws} honce => ?_
  simp only [wsNames, List.forall_mem_cons] at honce
  obtain ⟨hhandshake, hidle, hpings, hauto, hinitial, hmax, -⟩ := honce
  exact (answers_getOptionalSize hhandshake).observe.bind_ok <|
    (answers_getOptionalSize hidle).observe.bind_ok <|
    (answers_getOptionalBool hpings).observe.bind_ok <|
    (answers_getOptionalBool hauto).observe.bind_ok <|
    (answers_getOptionalSize hinitial).observe.bind_ok <|
    (answers_getOptionalSize hmax).observe.bind_ok (answers_ofExcept _)

theorem answers_parseLogging (base : LoggingConfig) :
    Answers Session.Sound (parseLogging root base)
      (readSection root.members (ascii "logging") (readLogging base)) := by
  refine answers_section hclear rfl fun {log} honce => ?_
  simp only [loggingNames, List.forall_mem_cons] at honce
  obtain ⟨hlevel, hsize, hpolicy, hraw, hlog, hpath, -⟩ := honce
  exact (answers_getOptionalString hlevel).observe.bind_ok <|
    (answers_getOptionalSize hsize).observe.bind_ok <|
    (answers_getOptionalString hpolicy).observe.bind_ok <|
    (answers_getOptionalBool hraw).observe.bind_ok <|
    (answers_getOptionalBool hlog).observe.bind_ok <|
    (answers_getOptionalString hpath).observe.bind_ok (answers_ofExcept _)

theorem answers_parseOutput :
    Answers Session.Sound (parseOutput root)
      (readSection root.members (ascii "output") readOutput) := by
  refine answers_section hclear rfl fun {out} honce => ?_
  simp only [outputNames, List.forall_mem_cons] at honce
  exact (answers_getString honce.1).bind fun _ _ =>
    .ite (fun _ => answers_throw _) fun _ => answers_pure _

end Sections

theorem answers_readConfig {members : Members} (hclear : Json.Clear configLayout (.obj members)) :
    Answers Session.Sound (readConfig ⟨.obj members, []⟩) (configOf members) := by
  have hroot : Answers Session.Sound ((Document.mk (.obj members) []).getObject.mapError
      fun _ => ConfigError.parseFailed) (.ok ⟨0, members⟩) :=
    (answers_openObject 0 (.obj members)).mapError _
  apply hroot.bind_ok
  have hclear' : Json.Clear configLayout (.obj (Object.mk 0 members).members) := hclear
  apply (answers_getString (hclear'.once rfl)).observe.bind_ok
  apply (answers_getString (hclear'.once rfl)).observe.bind_ok
  apply (answers_parseSubscription hclear').observe.bind_ok
  exact (answers_orDefault (hclear'.once rfl) _ (answers_parseWs hclear' _)).bind fun _ _ =>
    (answers_orDefault (hclear'.once rfl) _ (answers_parseLogging hclear' _)).bind fun _ _ =>
      (answers_orDefault (hclear'.once rfl) _ (answers_parseOutput hclear')).bind fun _ _ =>
        answers_ofExcept _

/-- The loader computes `configOf`. -/
theorem loadConfig_eq {iterate : Bytes → Except SimdError Document} {content : Bytes}
    {members : Members} (hopened : iterate content = .ok ⟨.obj members, []⟩)
    (hclear : Json.Clear configLayout (.obj members)) :
    loadConfig iterate (some content) = configOf members := by
  simp only [loadConfig, hopened]
  exact (answers_readConfig hclear (Document.session ⟨.obj members, []⟩) rfl).1

end KalshiAutotrader.Core
