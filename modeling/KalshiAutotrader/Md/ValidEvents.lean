import KalshiAutotrader.Kit.JsonStrings
import KalshiAutotrader.Md.BookSides

/-!
The events there are.

Whatever a lookup reports, an event that reaches the sink has passed every check. Over
messages that are JSON in UTF-8 nothing else is missing: every event that would pass the
checks is sent by a message of its own, a trade by one for each number of seconds whose
64-bit product is its time.
-/

namespace KalshiAutotrader.Md

open Kit Simdjson Reading

/-! ### The checks -/

structure OrderbookSnapshot.Valid (s : OrderbookSnapshot) : Prop where
  yes : ∀ level ∈ s.yes, level.price.toNat ≤ 100
  no : ∀ level ∈ s.no, level.price.toNat ≤ 100
  ts : s.ts = 0

structure OrderbookDelta.Valid (d : OrderbookDelta) : Prop where
  price : d.price.toNat ≤ 100
  ts : d.ts = 0

/-- The time is the 64-bit product of a number of seconds by 10^9. Whether the product
overflows is not among the checks. -/
structure TradeEvent.Valid (t : TradeEvent) : Prop where
  yesPrice : t.yesPrice.toNat ≤ 100
  noPrice : t.noPrice.toNat ≤ 100
  ts : ∃ seconds : Int64, t.ts = seconds * 1000000000

/-- What the parsers check of a call, all of it together. -/
def SinkCall.Valid : SinkCall → Prop
  | .onSnapshot s => s.Valid
  | .onDelta d => d.Valid
  | .onTrade t => t.Valid

theorem isInt_ofInt {v z : ℤ} : IsInt (Json.ofInt v) z ↔ z = v := by
  cases v with
  | ofNat n => exact Iff.rfl
  | negSucc n => simp [Json.ofInt, IsInt, Int.negSucc_eq]

/-! ### Whatever the lookups report -/

/-- A price that is checked keeps its bound when it is narrowed. -/
theorem toPrice_le {n : Int64} (h : ¬ (n < 0 || priceLimit < n) = true) :
    (toPrice n).toNat ≤ 100 :=
  (isPrice_iff.mpr ⟨n, asInt64_eq_ok.mpr (isInt_ofInt.mpr rfl), h, rfl⟩).2

theorem ensures_throw {α : Type} {P : α → Prop} (e : ParseError) :
    Ensures (throw e : Read ParseError α) P := fun _ _ h => by cases h

theorem ensures_parseLevel (entry : Value) :
    Ensures (parseLevel entry) fun level => level.price.toNat ≤ 100 := by
  apply ensures_bind; intro items
  cases items with
  | nil => exact ensures_throw _
  | cons first rest =>
      apply ensures_bind; intro price
      cases rest with
      | nil => exact ensures_throw _
      | cons second rest =>
          apply ensures_bind; intro size
          cases price with
          | error e => exact ensures_throw _
          | ok price =>
              cases size with
              | error e => exact ensures_throw _
              | ok size =>
                  dsimp only
                  split
                  · exact ensures_throw _
                  · next hprice =>
                    split
                    · exact ensures_throw _
                    · exact ensures_pure (toPrice_le hprice)

theorem ensures_parseLevels (obj : Object) (key : Bytes) :
    Ensures (parseLevels obj key) fun levels => ∀ level ∈ levels, level.price.toNat ≤ 100 := by
  apply ensures_bind; intro field
  apply ensures_bind; intro items
  exact Ensures.mapM ensures_parseLevel items

theorem ensures_parseDeltaFields (obj : Object) :
    Ensures (parseDeltaFields obj) fun fields => fields.price.toNat ≤ 100 := by
  apply ensures_bind; intro market
  apply ensures_bind; intro price
  apply ensures_bind; intro delta
  apply ensures_bind; intro sideStr
  apply ensures_bind; intro side
  split
  · exact ensures_throw _
  · next hprice =>
    split
    · exact ensures_throw _
    · apply ensures_bind; intro clientOrderId
      exact ensures_pure (toPrice_le hprice)

theorem ensures_parseOptionalTimestamp (obj : Object) :
    Ensures (parseOptionalTimestamp obj) fun ts =>
      ∃ seconds : Int64, ts = seconds * 1000000000 := by
  apply ensures_bind; intro seconds
  cases seconds with
  | none => exact ensures_pure ⟨0, rfl⟩
  | some seconds => exact ensures_pure ⟨seconds, rfl⟩

theorem ensures_parseTradeFields (obj : Object) :
    Ensures (parseTradeFields obj) fun fields => fields.yesPrice.toNat ≤ 100 ∧
      fields.noPrice.toNat ≤ 100 ∧ ∃ seconds : Int64, fields.ts = seconds * 1000000000 := by
  apply ensures_bind; intro market
  apply ensures_bind; intro yesPrice
  apply ensures_bind; intro noPrice
  apply ensures_bind; intro count
  apply ensures_bind; intro sideStr
  apply ensures_bind; intro side
  split
  · exact ensures_throw _
  · next hprices =>
    obtain ⟨hyes, hno⟩ := trade_prices_iff.mp hprices
    split
    · exact ensures_throw _
    · refine (ensures_parseOptionalTimestamp obj).bind fun ts hts => ensures_pure ?_
      exact ⟨toPrice_le hyes, toPrice_le hno, hts⟩

theorem ensured_of_parseDocument {α : Type} {P : α → Prop}
    {iterate : Bytes → Except SimdError Document} {json : Bytes}
    {read : Document → Read ParseError α} {a : α}
    (hread : ∀ doc, Ensures (read doc) P) (h : parseDocument iterate json read = .ok a) : P a := by
  unfold parseDocument at h
  split at h
  · cases h
  · next doc _ => exact hread doc _ _ h

theorem valid_of_parseSnapshot {iterate : Bytes → Except SimdError Document} {json : Bytes}
    {s : OrderbookSnapshot} (h : parseOrderbookSnapshot iterate json = .ok s) : s.Valid := by
  refine ensured_of_parseDocument (fun doc => ?_) h
  apply ensures_bind; intro seq
  apply ensures_bind; intro msg
  have hfields : Ensures (parseSnapshotFields msg) fun fields =>
      (∀ level ∈ fields.yes, level.price.toNat ≤ 100) ∧
        ∀ level ∈ fields.no, level.price.toNat ≤ 100 := by
    apply ensures_bind; intro market
    refine (ensures_parseLevels msg fieldYes).bind fun yes hyes => ?_
    refine (ensures_parseLevels msg fieldNo).bind fun no hno => ?_
    exact ensures_pure ⟨hyes, hno⟩
  exact hfields.bind fun fields ⟨hyes, hno⟩ => ensures_pure ⟨hyes, hno, rfl⟩

theorem valid_of_parseDelta {iterate : Bytes → Except SimdError Document} {json : Bytes}
    {d : OrderbookDelta} (h : parseOrderbookDelta iterate json = .ok d) : d.Valid := by
  refine ensured_of_parseDocument (fun doc => ?_) h
  apply ensures_bind; intro seq
  apply ensures_bind; intro msg
  exact (ensures_parseDeltaFields msg).bind fun fields hprice => ensures_pure ⟨hprice, rfl⟩

theorem valid_of_parseTrade {iterate : Bytes → Except SimdError Document} {json : Bytes}
    {t : TradeEvent} (h : parseTradeEvent iterate json = .ok t) : t.Valid := by
  refine ensured_of_parseDocument (fun doc => ?_) h
  apply ensures_bind; intro msg
  exact (ensures_parseTradeFields msg).bind fun fields ⟨hyes, hno, hts⟩ =>
    ensures_pure ⟨hyes, hno, hts⟩

/-- Whatever the library makes of a message, the call it is answered by is valid. -/
theorem valid_of_onMessage {iterate : ℕ → Bytes → Except SimdError Document} {json : Bytes}
    {call : SinkCall} (h : call ∈ (onMessage iterate json).2) : call.Valid := by
  unfold onMessage at h
  split at h
  · cases h
  · split at h
    · split at h
      · cases h
      · next hparse =>
        obtain rfl := List.mem_singleton.mp h
        exact valid_of_parseSnapshot hparse
    · split at h
      · split at h
        · cases h
        · next hparse =>
          obtain rfl := List.mem_singleton.mp h
          exact valid_of_parseDelta hparse
      · split at h
        · split at h
          · cases h
          · next hparse =>
            obtain rfl := List.mem_singleton.mp h
            exact valid_of_parseTrade hparse
        · cases h

/-! ### The message of an event -/

def sideName : BookSide → Bytes
  | .yes => valueSideYes
  | .no => valueSideNo

def OrderbookSnapshot.fields (s : OrderbookSnapshot) : Members :=
  [(fieldMarketTicker, .str s.marketTicker), (fieldYes, renderSide s.yes),
    (fieldNo, renderSide s.no)]

def OrderbookDelta.fields (d : OrderbookDelta) : Members :=
  [(fieldMarketTicker, .str d.marketTicker), (fieldPrice, .int false d.price.toNat),
    (fieldDelta, Json.ofInt d.delta.toInt), (fieldSide, .str (sideName d.side))] ++
    (d.clientOrderId.map fun id => (fieldClientOrderId, Json.str id)).toList

def TradeEvent.fields (t : TradeEvent) (seconds : Int64) : Members :=
  [(fieldMarketTicker, .str t.marketTicker), (fieldYesPrice, .int false t.yesPrice.toNat),
    (fieldNoPrice, .int false t.noPrice.toNat), (fieldCount, .int false t.count.toNat),
    (fieldTakerSide, .str (sideName t.takerSide)), (fieldTimestamp, Json.ofInt seconds.toInt)]

/-- The members of a message that is answered by the call, with the time of a trade in
seconds. -/
def SinkCall.members (seconds : Int64) : SinkCall → Members
  | .onSnapshot s => [(fieldType, .str orderbookSnapshot),
      (fieldSeq, .int false s.sequence.toNat), (fieldMsg, .obj s.fields)]
  | .onDelta d => [(fieldType, .str orderbookDelta), (fieldSeq, .int false d.sequence.toNat),
      (fieldMsg, .obj d.fields)]
  | .onTrade t => [(fieldType, .str trade), (fieldMsg, .obj (t.fields seconds))]

/-- The seconds are the time of the trade, if the call is one. -/
def SinkCall.At (seconds : Int64) : SinkCall → Prop
  | .onTrade t => t.ts = seconds * 1000000000
  | _ => True

/-- The strings of a call. -/
def SinkCall.texts : SinkCall → List Bytes
  | .onSnapshot s => [s.marketTicker]
  | .onDelta d => d.marketTicker :: d.clientOrderId.toList
  | .onTrade t => [t.marketTicker]

theorem isLevels_renderSide {levels : List PriceLevel}
    (h : ∀ level ∈ levels, level.price.toNat ≤ 100) : IsLevels (renderSide levels) levels := by
  refine ⟨levels.map renderLevel, rfl, ?_⟩
  induction levels with
  | nil => exact .nil
  | cons level levels ih =>
      obtain ⟨hlevel, hlevels⟩ := List.forall_mem_cons.mp h
      exact .cons ⟨_, _, [], rfl, ⟨rfl, hlevel⟩, rfl⟩ (ih hlevels)

theorem isSide_sideName (side : BookSide) : IsSide (.str (sideName side)) side := by
  cases side with
  | yes => exact .inl ⟨rfl, rfl⟩
  | no => exact .inr ⟨rfl, rfl⟩

theorem isBookDelta_fields {members : Members} {d : OrderbookDelta} (h : d.Valid)
    (hseq : Has members fieldSeq (IsSequence · d.sequence)) :
    IsBookDelta members d.fields d := by
  obtain ⟨ticker, sequence, price, delta, side, clientOrderId, ts⟩ := d
  cases clientOrderId <;> exact {
    sequence := hseq
    marketTicker := ⟨_, rfl, rfl⟩
    price := ⟨_, rfl, rfl, h.price⟩
    delta := ⟨_, rfl, isInt_ofInt.mpr rfl⟩
    side := ⟨_, rfl, isSide_sideName side⟩
    clientOrderId := rfl
    ts := h.ts }

theorem isTrade_fields {t : TradeEvent} {seconds : Int64} (h : t.Valid)
    (hts : t.ts = seconds * 1000000000) : IsTrade (t.fields seconds) t where
  marketTicker := ⟨_, rfl, rfl⟩
  yesPrice := ⟨_, rfl, rfl, h.yesPrice⟩
  noPrice := ⟨_, rfl, rfl, h.noPrice⟩
  count := ⟨_, rfl, rfl⟩
  takerSide := ⟨_, rfl, isSide_sideName t.takerSide⟩
  ts := by
    refine .inl ⟨seconds.toInt, ⟨_, rfl, isInt_ofInt.mpr rfl⟩, seconds.le_toInt,
      seconds.toInt_lt, ?_⟩
    rw [hts, Int64.ofInt_mul, Int64.ofInt_toInt]
    rfl

theorem describes_members {call : SinkCall} {seconds : Int64} (h : call.Valid)
    (hat : call.At seconds) : Describes (call.members seconds) call := by
  cases call with
  | onSnapshot s =>
      exact ⟨_, s.fields, ⟨_, rfl, rfl⟩, ⟨_, rfl, rfl⟩, .snapshot {
        sequence := ⟨_, rfl, rfl⟩
        marketTicker := ⟨_, rfl, rfl⟩
        yes := ⟨_, rfl, isLevels_renderSide h.yes⟩
        no := ⟨_, rfl, isLevels_renderSide h.no⟩
        ts := h.ts }⟩
  | onDelta d =>
      exact ⟨_, d.fields, ⟨_, rfl, rfl⟩, ⟨_, rfl, rfl⟩, .delta
        (isBookDelta_fields h ⟨_, rfl, rfl⟩)⟩
  | onTrade t =>
      exact ⟨_, t.fields seconds, ⟨_, rfl, rfl⟩, ⟨_, rfl, rfl⟩, .trade (isTrade_fields h hat)⟩

theorem written_renderSide (levels : List PriceLevel) : Json.Written (renderSide levels) := by
  refine .arr (List.forall_mem_map.mpr fun level _ => .arr ?_)
  simp only [List.forall_mem_cons, List.not_mem_nil, false_implies, implies_true, and_true]
  exact ⟨.int _ _, .int _ _⟩

theorem written_sideName (side : BookSide) : Json.Written (.str (sideName side)) := by
  cases side <;> exact .str (validUtf8_of_isAscii (by decide))

theorem written_deltaFields {d : OrderbookDelta} (hticker : ValidUtf8 d.marketTicker)
    (hclient : ∀ id ∈ d.clientOrderId, ValidUtf8 id) : Json.Written (.obj d.fields) := by
  obtain ⟨ticker, sequence, price, delta, side, clientOrderId, ts⟩ := d
  cases clientOrderId with
  | none =>
      refine .obj [fieldMarketTicker, fieldPrice, fieldDelta, fieldSide] rfl (by decide)
        (by decide) ?_
      simp only [OrderbookDelta.fields, Option.map_none, Option.toList_none, List.append_nil,
        List.forall_mem_cons, List.not_mem_nil, false_implies, implies_true, and_true]
      exact ⟨.str hticker, .int _ _, Json.written_ofInt _, written_sideName side⟩
  | some id =>
      refine .obj deltaNames rfl (by decide) (by decide) ?_
      simp only [OrderbookDelta.fields, Option.map_some, Option.toList_some, List.cons_append,
        List.nil_append, List.forall_mem_cons, List.not_mem_nil, false_implies, implies_true,
        and_true]
      exact ⟨.str hticker, .int _ _, Json.written_ofInt _, written_sideName side,
        .str (hclient id rfl)⟩

theorem written_members {call : SinkCall} (htexts : ∀ text ∈ call.texts, ValidUtf8 text)
    (seconds : Int64) : Json.Written (.obj (call.members seconds)) := by
  have htype : ∀ type ∈ [orderbookSnapshot, orderbookDelta, trade], ValidUtf8 type := by
    have hascii : ∀ type ∈ [orderbookSnapshot, orderbookDelta, trade], isAscii type = true := by
      decide
    exact fun type h => validUtf8_of_isAscii (hascii type h)
  cases call with
  | onSnapshot s =>
      have hfields : Json.Written (.obj s.fields) := by
        refine .obj snapshotNames rfl (by decide) (by decide) ?_
        simp only [OrderbookSnapshot.fields, List.forall_mem_cons, List.not_mem_nil,
          false_implies, implies_true, and_true]
        exact ⟨.str (htexts _ (by simp [SinkCall.texts])), written_renderSide _,
          written_renderSide _⟩
      refine .obj [fieldType, fieldSeq, fieldMsg] rfl (by decide) (by decide) ?_
      simp only [SinkCall.members, List.forall_mem_cons, List.not_mem_nil, false_implies,
        implies_true, and_true]
      exact ⟨.str (htype _ (by simp)), .int _ _, hfields⟩
  | onDelta d =>
      have hfields : Json.Written (.obj d.fields) :=
        written_deltaFields (htexts _ (by simp [SinkCall.texts])) fun id hid =>
          htexts id (by simp [SinkCall.texts, Option.mem_def.mp hid])
      refine .obj [fieldType, fieldSeq, fieldMsg] rfl (by decide) (by decide) ?_
      simp only [SinkCall.members, List.forall_mem_cons, List.not_mem_nil, false_implies,
        implies_true, and_true]
      exact ⟨.str (htype _ (by simp)), .int _ _, hfields⟩
  | onTrade t =>
      have hfields : Json.Written (.obj (t.fields seconds)) := by
        refine .obj tradeNames rfl (by decide) (by decide) ?_
        simp only [TradeEvent.fields, List.forall_mem_cons, List.not_mem_nil, false_implies,
          implies_true, and_true]
        exact ⟨.str (htexts _ (by simp [SinkCall.texts])), .int _ _, .int _ _, .int _ _,
          written_sideName _, Json.written_ofInt _⟩
      refine .obj [fieldType, fieldMsg] rfl (by decide) (by decide) ?_
      simp only [SinkCall.members, List.forall_mem_cons, List.not_mem_nil, false_implies,
        implies_true, and_true]
      exact ⟨.str (htype _ (by simp)), hfields⟩

/-! ### The texts that are read -/

variable {members : Members} {key : Bytes}

theorem validUtf8_of_has {text : Bytes} (hstrings : Json.Strings ValidUtf8 (.obj members))
    (h : Has members key (· = .str text)) : ValidUtf8 text := by
  obtain ⟨_, hv, rfl⟩ := h
  exact (hstrings.of_lookup hv).of_str

theorem validUtf8_of_stringMember {text : Bytes}
    (hstrings : Json.Strings ValidUtf8 (.obj members)) (h : text ∈ stringMember members key) :
    ValidUtf8 text := by
  unfold stringMember at h
  split at h
  · next hv =>
    obtain rfl := Option.some.inj h
    exact (hstrings.of_lookup hv).of_str
  · cases h

/-- The strings of an event come from its message. -/
theorem validUtf8_texts {call : SinkCall} (hstrings : Json.Strings ValidUtf8 (.obj members))
    (h : Describes members call) : ∀ text ∈ call.texts, ValidUtf8 text := by
  obtain ⟨type, msg, -, ⟨_, hmsg, rfl⟩, hpayload⟩ := h
  have hfields := hstrings.of_lookup hmsg
  cases hpayload with
  | snapshot hs => exact List.forall_mem_singleton.mpr (validUtf8_of_has hfields hs.marketTicker)
  | delta hd =>
      refine List.forall_mem_cons.mpr ⟨validUtf8_of_has hfields hd.marketTicker, fun id hid => ?_⟩
      rw [hd.clientOrderId] at hid
      exact validUtf8_of_stringMember hfields (Option.mem_toList.mp hid)
  | trade ht => exact List.forall_mem_singleton.mpr (validUtf8_of_has hfields ht.marketTicker)

/-! ### What the sink is given -/

/-- A valid call has a time in seconds, if any. -/
theorem SinkCall.Valid.at {call : SinkCall} (h : call.Valid) : ∃ seconds, call.At seconds := by
  cases call with
  | onTrade t => exact h.ts
  | _ => exact ⟨0, trivial⟩

/-- The message of an event is answered by this event. -/
theorem onMessage_members {iterate : ℕ → Bytes → Except SimdError Document}
    (hreads : Reads iterate) {call : SinkCall} {seconds : Int64} (h : call.Valid)
    (hat : call.At seconds) (htexts : ∀ text ∈ call.texts, ValidUtf8 text) :
    onMessage iterate (Json.render (.obj (call.members seconds))) = (.ok (), [call]) := by
  have hwritten := written_members htexts seconds
  rw [onMessage_eq (clearMessage_of_isText hreads hwritten.isText
    (Json.clear_of_distinct _ _ hwritten.distinct)),
    readCall_eq_ok.mpr (describes_members h hat)]

/-- The calls the sink is given for messages in JSON are those that pass every check, with
strings in UTF-8. Each of them is what the message made of its own members is answered by,
with any seconds that are its time. -/
theorem event_round_trip (iterate : ℕ → Bytes → Except SimdError Document)
    (hreads : Reads iterate) (call : SinkCall) :
    ((∃ json members, Json.IsText some json (.obj members) ∧
        (Json.obj members).distinct = true ∧ onMessage iterate json = (.ok (), [call])) ↔
      call.Valid ∧ ∀ text ∈ call.texts, ValidUtf8 text) ∧
    ((call.Valid ∧ ∀ text ∈ call.texts, ValidUtf8 text) → ∀ seconds, call.At seconds →
      onMessage iterate (Json.render (.obj (call.members seconds))) = (.ok (), [call])) := by
  refine ⟨⟨?_, ?_⟩, fun ⟨hvalid, htexts⟩ seconds hat => onMessage_members hreads hvalid hat htexts⟩
  · rintro ⟨json, members, htext, hdistinct, hcall⟩
    have hvalid : call.Valid := valid_of_onMessage (by rw [hcall]; exact List.mem_singleton_self _)
    have hclear := clearMessage_of_isText hreads htext (Json.clear_of_distinct _ _ hdistinct)
    refine ⟨hvalid, validUtf8_texts (Json.strings_of_isText htext) ?_⟩
    rw [onMessage_eq hclear] at hcall
    rw [← readCall_eq_ok]
    cases hread : readCall members with
    | error e => simp [hread] at hcall
    | ok call' => simpa [hread] using hcall
  · rintro ⟨hvalid, htexts⟩
    obtain ⟨seconds, hat⟩ := hvalid.at
    have hwritten := written_members htexts seconds
    exact ⟨_, _, hwritten.isText, hwritten.distinct, onMessage_members hreads hvalid hat htexts⟩

/-- An order of the user's own, at the highest price there is. -/
def ownOrder : OrderbookDelta where
  marketTicker := ascii "KX"
  sequence := 18446744073709551615
  price := 100
  delta := -2147483648
  side := .no
  clientOrderId := some (ascii "my \"order\"")
  ts := 0

theorem event_round_trip_ownOrder :
    onMessage eager (Json.render (.obj (SinkCall.members 0 (.onDelta ownOrder)))) =
      (.ok (), [.onDelta ownOrder]) := by
  refine (event_round_trip eager reads_eager (.onDelta ownOrder)).2 ⟨?_, fun text htext => ?_⟩ 0
    trivial
  · exact ⟨by decide, rfl⟩
  · have hascii : ∀ text ∈ (SinkCall.onDelta ownOrder).texts, isAscii text = true := by decide
    exact validUtf8_of_isAscii (hascii text htext)

end KalshiAutotrader.Md
