import KalshiAutotrader.Core.Config
import KalshiAutotrader.Kit.JsonRender

/-!
The subscribe command.

The command is put together from pieces of JSON, with the configured strings
between quotes as they are. A string that needs no escape comes out right; every
other one breaks the command or changes it. Configured strings come out of a
JSON parser that has unescaped them, so they may hold anything.
-/

namespace KalshiAutotrader.Md

open Kit KalshiAutotrader.Core

structure SubscribeRequest where
  id : Int32
  channels : List Bytes
  marketTickers : List Bytes

inductive SubscribeError | missingMarketTickers
  deriving DecidableEq

/-- The loop of `append_string_array`. -/
def appendStrings : List Bytes → Bytes
  | [] => []
  | [item] => Json.quote :: (item ++ [Json.quote])
  | item :: next :: items =>
      Json.quote :: (item ++ Json.quote :: Json.byte ',' :: appendStrings (next :: items))

def appendStringArray (items : List Bytes) : Bytes :=
  Json.byte '[' :: (appendStrings items ++ [Json.byte ']'])

def requiresMarketTickers (channels : List Bytes) : Bool :=
  channels.contains (ascii "orderbook_delta")

def buildJson (req : SubscribeRequest) : Bytes :=
  ascii "\x7b\"id\":" ++ decimalInt req.id.toInt ++ ascii ",\"cmd\":\"subscribe\",\"params\":\x7b" ++
    ascii "\"channels\":" ++ appendStringArray req.channels ++
    (if req.marketTickers = [] then []
      else ascii ",\"market_tickers\":" ++ appendStringArray req.marketTickers) ++
    ascii "\x7d\x7d"

/-- A command holds the text of its request. -/
structure SubscriptionCommand where
  request : SubscribeRequest
  json : Bytes
  built : json = buildJson request

def buildRequest (config : Config) (id : Int32) : Except SubscribeError SubscribeRequest :=
  if requiresMarketTickers config.subscription.channels &&
      config.subscription.marketTickers = [] then .error .missingMarketTickers
  else
    .ok { id := id, channels := config.subscription.channels,
          marketTickers := config.subscription.marketTickers }

def SubscriptionCommand.fromConfig (config : Config) (id : Int32) :
    Except SubscribeError SubscriptionCommand :=
  match buildRequest config id with
  | .error e => .error e
  | .ok request => .ok ⟨request, buildJson request, rfl⟩

/-- The command as it is meant. -/
def subscribeParams (subscription : SubscriptionConfig) : Json :=
  .obj <| (ascii "channels", .arr (subscription.channels.map .str)) ::
    if subscription.marketTickers = [] then []
    else [(ascii "market_tickers", .arr (subscription.marketTickers.map .str))]

def subscribeObject (id : Int32) (subscription : SubscriptionConfig) : Json :=
  .obj [(ascii "id", Json.ofInt id.toInt), (ascii "cmd", .str (ascii "subscribe")),
    (ascii "params", subscribeParams subscription)]

theorem fromConfig_json {config : Config} {id : Int32} {cmd : SubscriptionCommand}
    (h : SubscriptionCommand.fromConfig config id = .ok cmd) :
    cmd.json = buildJson ⟨id, config.subscription.channels, config.subscription.marketTickers⟩ := by
  unfold SubscriptionCommand.fromConfig buildRequest at h
  split at h
  · cases h
  · next request hrequest =>
    split at hrequest
    · cases hrequest
    · obtain rfl := Except.ok.inj hrequest
      obtain rfl := Except.ok.inj h
      rfl

/-! ### Strings that need no escape -/

theorem appendStrings_eq_render {items : List Bytes} (h : ∀ s ∈ items, Json.Plain s) :
    appendStrings items = Json.renderItems (items.map .str) := by
  induction items with
  | nil => rfl
  | cons item items ih =>
      have hitem := Json.quoted_of_plain (h item (by simp))
      cases items with
      | nil => simp [appendStrings, Json.renderItems, Json.render, hitem]
      | cons next items =>
          have hrest := ih fun s hs => h s (List.mem_cons_of_mem item hs)
          simp only [List.map_cons] at hrest ⊢
          simp [appendStrings, Json.renderItems, Json.render, hitem, hrest]

theorem appendStringArray_eq_render {items : List Bytes} (h : ∀ s ∈ items, Json.Plain s) :
    appendStringArray items = Json.render (.arr (items.map .str)) := by
  rw [appendStringArray, appendStrings_eq_render h, Json.render]

theorem readable_subscribeObject (id : Int32) (subscription : SubscriptionConfig) :
    Json.Readable Json.unescape (subscribeObject id subscription) := by
  have hparams : Json.Readable Json.unescape (subscribeParams subscription) := by
    apply Json.Readable.obj _ fun m _ => Json.unescape_escape m.1
    intro m hm
    rcases List.mem_cons.mp hm with rfl | hm
    · exact Json.readable_strings _ _
    · split at hm
      · cases hm
      · obtain rfl := List.mem_singleton.mp hm
        exact Json.readable_strings _ _
  apply Json.Readable.obj _ fun m _ => Json.unescape_escape m.1
  intro m hm
  simp only [List.mem_cons, List.not_mem_nil, or_false] at hm
  rcases hm with rfl | rfl | rfl
  · exact Json.readable_ofInt _ _
  · exact .str _
  · exact hparams

theorem buildJson_eq_render {id : Int32} {subscription : SubscriptionConfig}
    (h : ∀ s ∈ subscription.channels ++ subscription.marketTickers, Json.Plain s) :
    buildJson ⟨id, subscription.channels, subscription.marketTickers⟩ =
      Json.render (subscribeObject id subscription) := by
  have hchannels := appendStringArray_eq_render fun s hs =>
    h s (List.mem_append_left subscription.marketTickers hs)
  have htickers := appendStringArray_eq_render fun s hs =>
    h s (List.mem_append_right subscription.channels hs)
  simp only [buildJson, hchannels, htickers, ← Json.render_ofInt]
  unfold subscribeObject subscribeParams
  by_cases hempty : subscription.marketTickers = []
  · simp only [hempty, if_true, Json.render_obj, Json.render_str, Json.renderMembers,
      List.nil_append, List.append_assoc, List.cons_append]
    rfl
  · simp only [hempty, if_false, Json.render_obj, Json.render_str, Json.renderMembers,
      List.append_assoc, List.cons_append]
    rfl

/-! ### Strings that do -/

theorem plain_of_items {name : Bytes → Option Bytes} (item : Bytes) (items : List Bytes)
    {rest rest' : Bytes} {fuel : ℕ}
    (h : Json.items name fuel (appendStrings (item :: items) ++ Json.byte ']' :: rest) =
      some ((item :: items).map .str, rest')) :
    (∀ s ∈ item :: items, Json.Plain s) ∧ rest' = rest := by
  induction items generalizing item fuel with
  | nil =>
      obtain _ | _ | fuel := fuel
      · cases h
      · cases h
      · obtain ⟨after, hv, hafter⟩ := Json.items_head h
        simp only [appendStrings, List.cons_append, List.append_assoc, List.nil_append] at hv
        obtain ⟨hplain, rfl⟩ := Json.value_unescaped hv
        rw [Json.expect_cons_ne (by decide) (by decide), Json.expect_cons_self (by decide)] at hafter
        obtain ⟨more, hmore, -⟩ | ⟨-, hclose⟩ := hafter
        · cases hmore
        · exact ⟨by simpa using hplain, (Option.some.inj hclose).symm⟩
  | cons next items ih =>
      obtain _ | _ | fuel := fuel
      · cases h
      · cases h
      · obtain ⟨after, hv, hafter⟩ := Json.items_head h
        simp only [appendStrings, List.cons_append, List.append_assoc] at hv
        obtain ⟨hplain, rfl⟩ := Json.value_unescaped hv
        rw [Json.expect_cons_self (by decide)] at hafter
        obtain ⟨more, hmore, hitems⟩ | ⟨hnone, -⟩ := hafter
        · obtain rfl := Option.some.inj hmore
          obtain ⟨hrest, heq⟩ := ih next hitems
          exact ⟨List.forall_mem_cons.mpr ⟨hplain, hrest⟩, heq⟩
        · cases hnone

/-- An array reads back as the strings it was made of only when they are plain. -/
theorem plain_of_array {name : Bytes → Option Bytes} {items : List Bytes} {rest rest' : Bytes}
    {fuel : ℕ}
    (h : Json.value name fuel (appendStringArray items ++ rest) =
      some (.arr (items.map .str), rest')) :
    (∀ s ∈ items, Json.Plain s) ∧ rest' = rest := by
  cases fuel with
  | zero => cases h
  | succ fuel =>
      simp only [appendStringArray, List.cons_append, List.append_assoc, List.nil_append,
        Json.value] at h
      rw [Json.expect_cons_ne (by decide) (by decide), Json.expect_cons_self (by decide)] at h
      cases items with
      | nil =>
          simp only [appendStrings, List.nil_append,
            Json.expect_cons_self (show Json.isSpace (Json.byte ']') = false by decide)] at h
          cases h
          exact ⟨by simp, rfl⟩
      | cons item items =>
          have hopen : Json.expect (Json.byte ']')
              (appendStrings (item :: items) ++ Json.byte ']' :: rest) = none := by
            cases items <;> exact Json.expect_cons_ne (by decide) (by decide)
          simp only [hopen] at h
          obtain ⟨⟨vs, after⟩, hitems, heq⟩ := Option.map_eq_some_iff.mp h
          simp only [Prod.mk.injEq, Json.arr.injEq] at heq
          obtain ⟨rfl, rfl⟩ := heq
          exact plain_of_items item items hitems

/-- The command up to its channels, as the reader meets it. -/
theorem buildJson_eq (req : SubscribeRequest) :
    ∃ tail, buildJson req =
      Json.byte '{' :: Json.quote :: (ascii "id" ++ Json.quote :: Json.byte ':' ::
        (Json.render (Json.ofInt req.id.toInt) ++ Json.byte ',' :: Json.quote ::
        (ascii "cmd" ++ Json.quote :: Json.byte ':' ::
        (Json.quoted (ascii "subscribe") ++ Json.byte ',' :: Json.quote ::
        (ascii "params" ++ Json.quote :: Json.byte ':' :: Json.byte '{' :: Json.quote ::
        (ascii "channels" ++ Json.quote :: Json.byte ':' ::
        (appendStringArray req.channels ++ tail))))))) ∧
      (req.marketTickers ≠ [] → ∃ close, tail = Json.byte ',' :: Json.quote ::
        (ascii "market_tickers" ++ Json.quote :: Json.byte ':' ::
        (appendStringArray req.marketTickers ++ close))) := by
  unfold buildJson
  rw [← Json.render_ofInt]
  by_cases hempty : req.marketTickers = []
  · refine ⟨ascii "\x7d\x7d", ?_, fun h => absurd hempty h⟩
    simp only [hempty, if_true, List.append_assoc, List.nil_append]
    rfl
  · refine ⟨ascii ",\"market_tickers\":" ++ appendStringArray req.marketTickers ++ ascii "\x7d\x7d",
      ?_, fun _ => ⟨ascii "\x7d\x7d", ?_⟩⟩
    · simp only [hempty, if_false, List.append_assoc]
      rfl
    · simp only [List.append_assoc]
      rfl

/-- A key of the command, and what comes after its value. -/
theorem command_head {key : Bytes} (hkey : Json.Plain key) {fuel : ℕ} {text rest : Bytes}
    {ms : List (Bytes × Json)} {v : Json}
    (h : Json.members Json.unescape (fuel + 1)
      (Json.quote :: (key ++ Json.quote :: Json.byte ':' :: text)) = some ((key, v) :: ms, rest)) :
    ∃ after, Json.value Json.unescape fuel text = some (v, after) ∧
      ∀ more, after = Json.byte ',' :: more →
        Json.members Json.unescape fuel more = some (ms, rest) := by
  obtain ⟨after, hv, hnext⟩ := Json.members_head hkey (Json.unescape_of_plain hkey) h
  refine ⟨after, hv, ?_⟩
  rintro more rfl
  exact hnext more (Json.expect_cons_self (by decide))

/-- The parameters read back as what they are meant to be only when their strings are
plain. -/
theorem plain_of_params {subscription : SubscriptionConfig} {fuel : ℕ} {tail rest : Bytes}
    (htail : subscription.marketTickers ≠ [] → ∃ close, tail = Json.byte ',' :: Json.quote ::
      (ascii "market_tickers" ++ Json.quote :: Json.byte ':' ::
      (appendStringArray subscription.marketTickers ++ close)))
    (h : Json.value Json.unescape (fuel + 3)
      (Json.byte '{' :: Json.quote :: (ascii "channels" ++ Json.quote :: Json.byte ':' ::
      (appendStringArray subscription.channels ++ tail))) =
        some (subscribeParams subscription, rest)) :
    ∀ s ∈ subscription.channels ++ subscription.marketTickers, Json.Plain s := by
  obtain ⟨_, hchannels, hnext⟩ := command_head (by decide +kernel) (Json.members_of_value h)
  obtain ⟨hplain, rfl⟩ := plain_of_array hchannels
  refine List.forall_mem_append.mpr ⟨hplain, ?_⟩
  by_cases hempty : subscription.marketTickers = []
  · simp [hempty]
  · obtain ⟨close, rfl⟩ := htail hempty
    have hlast := hnext _ rfl
    rw [if_neg hempty] at hlast
    obtain ⟨_, htickers, -⟩ := command_head (by decide +kernel) hlast
    exact (plain_of_array htickers).1

/-- A command that reads back as what it is meant to be has plain strings only. -/
theorem plain_of_parse {id : Int32} {subscription : SubscriptionConfig}
    (h : Json.parse Json.unescape
      (buildJson ⟨id, subscription.channels, subscription.marketTickers⟩) =
        some (subscribeObject id subscription)) :
    ∀ s ∈ subscription.channels ++ subscription.marketTickers, Json.Plain s := by
  obtain ⟨tail, hjson, htail⟩ :=
    buildJson_eq ⟨id, subscription.channels, subscription.marketTickers⟩
  have hlen : 4 ≤ (buildJson ⟨id, subscription.channels, subscription.marketTickers⟩).length := by
    rw [hjson]
    simp [ascii]
  obtain ⟨_, hvalue⟩ := Json.value_of_parse h
  obtain ⟨fuel, hfuel⟩ : ∃ fuel, 2 * (buildJson ⟨id, subscription.channels,
      subscription.marketTickers⟩).length + 1 = fuel + 8 := ⟨_, (Nat.sub_add_cancel (by omega)).symm⟩
  rw [hfuel, hjson] at hvalue
  -- the members before the parameters are written by hand, and end where they should
  obtain ⟨_, hid, hnext⟩ := command_head (by decide +kernel) (Json.members_of_value hvalue)
  rw [Json.value_ofInt _ _ _ (Json.endsNumber_comma _)] at hid
  obtain ⟨-, rfl⟩ := Prod.mk.inj (Option.some.inj hid)
  obtain ⟨_, hcmd, hnext⟩ := command_head (by decide +kernel) (hnext _ rfl)
  rw [Json.value_quoted] at hcmd
  obtain ⟨-, rfl⟩ := Prod.mk.inj (Option.some.inj hcmd)
  obtain ⟨_, hparams, -⟩ := command_head (by decide +kernel) (hnext _ rfl)
  exact plain_of_params htail hparams

/-! ### The encoding -/

theorem validUtf8_appendStrings {items : List Bytes} :
    ValidUtf8 (appendStrings items) ↔ ∀ s ∈ items, ValidUtf8 s := by
  have hquote : Json.quote.toNat < 128 := by decide
  have hcomma : (Json.byte ',').toNat < 128 := by decide
  induction items with
  | nil => simp [appendStrings]
  | cons item items ih =>
      cases items with
      | nil => simp [appendStrings, validUtf8_cons hquote, validUtf8_append_cons hquote]
      | cons next items =>
          rw [appendStrings, validUtf8_cons hquote, validUtf8_append_cons hquote,
            validUtf8_cons hcomma, List.forall_mem_cons]
          exact and_congr_right fun _ => ih

theorem validUtf8_array {items : List Bytes} {rest : Bytes} :
    ValidUtf8 (appendStringArray items ++ rest) ↔
      (∀ s ∈ items, ValidUtf8 s) ∧ ValidUtf8 rest := by
  rw [appendStringArray, List.cons_append, List.append_assoc, List.singleton_append,
    validUtf8_cons (by decide), validUtf8_append_cons (by decide), validUtf8_appendStrings]

theorem validUtf8_buildJson {req : SubscribeRequest} :
    ValidUtf8 (buildJson req) ↔ ∀ s ∈ req.channels ++ req.marketTickers, ValidUtf8 s := by
  have hclose : ValidUtf8 (ascii "\x7d\x7d") := validUtf8_of_ascii (by decide +kernel)
  simp only [buildJson, List.append_assoc]
  rw [validUtf8_ascii_append (by decide +kernel),
    validUtf8_ascii_append (fun _ => toNat_lt_of_mem_decimalInt),
    validUtf8_ascii_append (by decide +kernel), validUtf8_ascii_append (by decide +kernel),
    validUtf8_array, List.forall_mem_append]
  apply and_congr_right
  intro _
  by_cases hempty : req.marketTickers = []
  · simp [hempty, hclose]
  · rw [if_neg hempty, List.append_assoc, validUtf8_ascii_append (by decide +kernel),
      validUtf8_array]
    exact and_iff_left hclose

/-- The command is the JSON it is meant to be exactly when no configured string
needs an escape. -/
theorem json_exact_iff (config : Config) (id : Int32) (cmd : SubscriptionCommand)
    (h : SubscriptionCommand.fromConfig config id = .ok cmd) :
    Json.IsText Json.unescape cmd.json (subscribeObject id config.subscription) ↔
      ∀ s ∈ config.subscription.channels ++ config.subscription.marketTickers,
        ValidUtf8 s ∧ Json.Plain s := by
  rw [fromConfig_json h, Json.IsText, validUtf8_buildJson]
  constructor
  · rintro ⟨hutf8, hparse⟩ s hs
    exact ⟨hutf8 s hs, plain_of_parse hparse s hs⟩
  · intro hall
    refine ⟨fun s hs => (hall s hs).1, ?_⟩
    rw [buildJson_eq_render fun s hs => (hall s hs).2]
    exact Json.parse_render (readable_subscribeObject id config.subscription)

/-- The configuration with these subscriptions and nothing else out of the
ordinary. -/
def configFor (channels marketTickers : List Bytes) : Config where
  env := ascii "prod"
  wsUrl := ascii "wss://localhost/trade-api/ws/v2"
  subscription := ⟨channels, marketTickers⟩
  ws := defaultWsConfig
  logging := defaultLoggingConfig
  output := defaultOutputConfig

theorem json_exact_plain :
    Json.IsText Json.unescape
      (buildJson ⟨1, [ascii "orderbook_delta", ascii "trade"], [ascii "KX"]⟩)
      (subscribeObject 1 ⟨[ascii "orderbook_delta", ascii "trade"], [ascii "KX"]⟩) := by
  refine (json_exact_iff (configFor [ascii "orderbook_delta", ascii "trade"] [ascii "KX"]) 1
    ⟨_, _, rfl⟩ rfl).mpr ?_
  have hready : ∀ s ∈ [ascii "orderbook_delta", ascii "trade", ascii "KX"],
      (∀ b ∈ s, b.toNat < 128) ∧ Json.Plain s := by decide +kernel
  intro s hs
  obtain ⟨hascii, hplain⟩ := hready s hs
  exact ⟨validUtf8_of_ascii hascii, hplain⟩

/-- A ticker that closes the list it stands in and opens another one. -/
def closingTicker : Bytes := ascii "KX\"],\"ids\":[\"1"

/-- A configuration file with that ticker, its quotes escaped. -/
def closingFile : Bytes :=
  Json.render (.obj [
    (ascii "env", .str (ascii "prod")),
    (ascii "ws_url", .str (ascii "wss://localhost/trade-api/ws/v2")),
    (ascii "subscription", .obj [
      (ascii "channels", .arr [.str (ascii "trade")]),
      (ascii "market_tickers", .arr [.str closingTicker])])])

/-- The file is accepted, and the command made of it has a member more. -/
theorem ticker_adds_member :
    loadConfig (Simdjson.eager 0) (some closingFile) =
      .ok (configFor [ascii "trade"] [closingTicker]) ∧
    ∃ cmd, SubscriptionCommand.fromConfig (configFor [ascii "trade"] [closingTicker]) 1 = .ok cmd ∧
      (Json.parse Json.unescape cmd.json).map Json.render = some (
        ascii "\x7b\"id\":1,\"cmd\":\"subscribe\",\"params\":\x7b\"channels\":[\"trade\"]," ++
        ascii "\"market_tickers\":[\"KX\"],\"ids\":[\"1\"]\x7d\x7d") ∧
      ¬ Json.IsText Json.unescape cmd.json
        (subscribeObject 1 (configFor [ascii "trade"] [closingTicker]).subscription) := by
  refine ⟨by decide +kernel, ⟨_, _, rfl⟩, rfl, by decide +kernel, fun h => ?_⟩
  have hrender := congrArg (Option.map Json.render) h.2
  revert hrender
  decide +kernel

end KalshiAutotrader.Md
