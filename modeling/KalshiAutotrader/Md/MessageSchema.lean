import KalshiAutotrader.Kit.JsonRender
import KalshiAutotrader.Md.Dispatcher

/-!
Which messages reach the sink.

`Describes` is the schema of the three message types, stated over the JSON value
of a message and the call it stands for. Prices, sizes and the other numbers are
compared as integers, so a statement of the schema mentions no conversion. The
dispatcher makes a call exactly when the message describes it.
-/

namespace KalshiAutotrader.Md

open Kit Simdjson

/-! ### The schema -/

/-- The value is an integer literal for `z`. -/
def IsInt : Json → ℤ → Prop
  | .int negative magnitude, z => z = if negative then -(magnitude : ℤ) else magnitude
  | _, _ => False

def IsPrice (v : Json) (price : Price) : Prop := IsInt v price.toNat ∧ price.toNat ≤ 100

/-- Sizes and counts range over all of `UInt32`. -/
def IsSize (v : Json) (size : Size) : Prop := IsInt v size.toNat

def IsDelta (v : Json) (delta : Delta) : Prop := IsInt v delta.toInt

/-- Sequence numbers range over all of `UInt64`, written without a sign. -/
def IsSequence (v : Json) (seq : Sequence) : Prop := v = .int false seq.toNat

def IsSide (v : Json) (side : BookSide) : Prop :=
  v = .str (ascii "yes") ∧ side = .yes ∨ v = .str (ascii "no") ∧ side = .no

/-- An entry of a book side: a price, a size, and anything after them. -/
def IsLevel (v : Json) (level : PriceLevel) : Prop :=
  ∃ price size rest, v = .arr (price :: size :: rest) ∧ IsPrice price level.price ∧
    IsSize size level.size

def IsLevels (v : Json) (levels : List PriceLevel) : Prop :=
  ∃ items, v = .arr items ∧ List.Forall₂ IsLevel items levels

/-- The member of this name is there, and `P` holds of it. -/
def Has (members : Members) (key : Bytes) (P : Json → Prop) : Prop :=
  ∃ v, members.lookup key = some v ∧ P v

/-- A string member, or nothing. -/
def stringMember (members : Members) (key : Bytes) : Option Bytes :=
  match members.lookup key with
  | some (.str text) => some text
  | _ => none

/-- The time of a trade: the seconds in `ts` as nanoseconds in 64 bits, and zero
when there is no 64-bit integer in it. -/
def IsTime (members : Members) (ts : Timestamp) : Prop :=
  (∃ z, Has members fieldTimestamp (IsInt · z) ∧ -2 ^ 63 ≤ z ∧ z < 2 ^ 63 ∧
    ts = .ofInt (z * 1000000000)) ∨
  (¬ ∃ z, Has members fieldTimestamp (IsInt · z) ∧ -2 ^ 63 ≤ z ∧ z < 2 ^ 63) ∧ ts = 0

structure IsSnapshot (members msg : Members) (s : OrderbookSnapshot) : Prop where
  sequence : Has members fieldSeq (IsSequence · s.sequence)
  marketTicker : Has msg fieldMarketTicker (· = .str s.marketTicker)
  yes : Has msg fieldYes (IsLevels · s.yes)
  no : Has msg fieldNo (IsLevels · s.no)
  ts : s.ts = 0

structure IsBookDelta (members msg : Members) (d : OrderbookDelta) : Prop where
  sequence : Has members fieldSeq (IsSequence · d.sequence)
  marketTicker : Has msg fieldMarketTicker (· = .str d.marketTicker)
  price : Has msg fieldPrice (IsPrice · d.price)
  delta : Has msg fieldDelta (IsDelta · d.delta)
  side : Has msg fieldSide (IsSide · d.side)
  clientOrderId : d.clientOrderId = stringMember msg fieldClientOrderId
  ts : d.ts = 0

structure IsTrade (msg : Members) (t : TradeEvent) : Prop where
  marketTicker : Has msg fieldMarketTicker (· = .str t.marketTicker)
  yesPrice : Has msg fieldYesPrice (IsPrice · t.yesPrice)
  noPrice : Has msg fieldNoPrice (IsPrice · t.noPrice)
  count : Has msg fieldCount (IsSize · t.count)
  takerSide : Has msg fieldTakerSide (IsSide · t.takerSide)
  ts : IsTime msg t.ts

/-- The payload of a message, by its type. -/
inductive Payload (members msg : Members) : Bytes → SinkCall → Prop
  | snapshot {s : OrderbookSnapshot} :
      IsSnapshot members msg s → Payload members msg (ascii "orderbook_snapshot") (.onSnapshot s)
  | delta {d : OrderbookDelta} :
      IsBookDelta members msg d → Payload members msg (ascii "orderbook_delta") (.onDelta d)
  | trade {t : TradeEvent} :
      IsTrade msg t → Payload members msg (ascii "trade") (.onTrade t)

/-- The message stands for this call. -/
def Describes (members : Members) (call : SinkCall) : Prop :=
  ∃ type msg, Has members fieldType (· = .str type) ∧ Has members fieldMsg (· = .obj msg) ∧
    Payload members msg type call

/-! ### Values -/

theorem asInt64_eq_ok {v : Json} {n : Int64} : asInt64 v = .ok n ↔ IsInt v n.toInt := by
  cases v with
  | int negative magnitude =>
      simp only [asInt64, IsInt]
      generalize (if negative then -(magnitude : ℤ) else magnitude) = z
      split
      · next hrange =>
        rw [Except.ok.injEq]
        constructor
        · rintro rfl
          exact Int64.toInt_ofInt_of_le hrange.1 hrange.2
        · rintro rfl
          exact Int64.ofInt_toInt n
      · next hrange =>
        refine ⟨(fun h => by cases h), fun h => absurd ?_ hrange⟩
        exact ⟨h ▸ n.le_toInt, h ▸ n.toInt_lt⟩
  | _ => simp [asInt64, IsInt]

theorem toNat_toUInt64 {n : Int64} (h : 0 ≤ n.toInt) : n.toUInt64.toNat = n.toInt.toNat := by
  rw [← Int64.toInt_toBitVec, BitVec.toInt_eq_toNat_cond] at *
  rw [← UInt64.toNat_toBitVec, Int64.toBitVec_toUInt64]
  split at h <;> omega

/-- A checked price loses nothing when it is narrowed. -/
theorem isPrice_iff {v : Json} {price : Price} :
    IsPrice v price ↔ ∃ n, asInt64 v = .ok n ∧ ¬ (n < 0 || priceLimit < n) = true ∧
      toPrice n = price := by
  have hcheck : ∀ n : Int64, ¬ (n < 0 || priceLimit < n) = true ↔ 0 ≤ n.toInt ∧ n.toInt ≤ 100 := by
    intro n
    simp [Int64.lt_iff_toInt_lt, show (0 : Int64).toInt = 0 from rfl,
      show priceLimit.toInt = 100 from rfl]
  simp only [hcheck, asInt64_eq_ok]
  constructor
  · rintro ⟨hint, hle⟩
    have hval : (Int64.ofInt price.toNat).toInt = price.toNat :=
      Int64.toInt_ofInt_of_le (by omega) (by omega)
    refine ⟨.ofInt price.toNat, ?_, ?_, ?_⟩
    · rwa [hval]
    · rw [hval]
      omega
    · rw [← UInt16.toNat_inj, toPrice, UInt64.toNat_toUInt16, toNat_toUInt64 (by omega), hval]
      omega
  · rintro ⟨n, hint, ⟨hlow, hhigh⟩, rfl⟩
    have hval : (toPrice n).toNat = n.toInt.toNat := by
      rw [toPrice, UInt64.toNat_toUInt16, toNat_toUInt64 hlow]
      omega
    refine ⟨?_, by omega⟩
    rwa [hval, Int.toNat_of_nonneg hlow]

theorem isSize_iff {v : Json} {size : Size} :
    IsSize v size ↔ ∃ n, asInt64 v = .ok n ∧ ¬ (n < 0 || sizeMax < n) = true ∧
      toSize n = size := by
  have hcheck : ∀ n : Int64, ¬ (n < 0 || sizeMax < n) = true ↔
      0 ≤ n.toInt ∧ n.toInt ≤ 4294967295 := by
    intro n
    simp [Int64.lt_iff_toInt_lt, show (0 : Int64).toInt = 0 from rfl,
      show sizeMax.toInt = 4294967295 from rfl]
  simp only [hcheck, asInt64_eq_ok]
  constructor
  · intro hint
    have hlt := size.toNat_lt
    have hval : (Int64.ofInt size.toNat).toInt = size.toNat :=
      Int64.toInt_ofInt_of_le (by omega) (by omega)
    refine ⟨.ofInt size.toNat, ?_, ?_, ?_⟩
    · rwa [hval]
    · rw [hval]
      omega
    · rw [← UInt32.toNat_inj, toSize, UInt64.toNat_toUInt32, toNat_toUInt64 (by omega), hval]
      omega
  · rintro ⟨n, hint, ⟨hlow, hhigh⟩, rfl⟩
    have hval : (toSize n).toNat = n.toInt.toNat := by
      rw [toSize, UInt64.toNat_toUInt32, toNat_toUInt64 hlow]
      omega
    rwa [IsSize, hval, Int.toNat_of_nonneg hlow]

theorem isDelta_iff {v : Json} {delta : Delta} :
    IsDelta v delta ↔ ∃ n, asInt64 v = .ok n ∧ ¬ (n < deltaMin || deltaMax < n) = true ∧
      toDelta n = delta := by
  have hcheck : ∀ n : Int64, ¬ (n < deltaMin || deltaMax < n) = true ↔
      -2147483648 ≤ n.toInt ∧ n.toInt ≤ 2147483647 := by
    intro n
    simp [Int64.lt_iff_toInt_lt, show deltaMin.toInt = -2147483648 from rfl,
      show deltaMax.toInt = 2147483647 from rfl]
  have hnarrow : ∀ n : Int64, -2147483648 ≤ n.toInt → n.toInt ≤ 2147483647 →
      (toDelta n).toInt = n.toInt := by
    intro n hlow hhigh
    rw [toDelta, Int64.toInt_toInt32, Int.bmod_eq_of_le] <;> omega
  simp only [hcheck, asInt64_eq_ok]
  constructor
  · intro hint
    have hlow := delta.le_toInt
    have hhigh := delta.toInt_lt
    have hval : (Int64.ofInt delta.toInt).toInt = delta.toInt :=
      Int64.toInt_ofInt_of_le (by omega) (by omega)
    refine ⟨.ofInt delta.toInt, ?_, ?_, ?_⟩
    · rwa [hval]
    · rw [hval]
      omega
    · rw [← Int32.toInt_inj, hnarrow _ (by omega) (by omega), hval]
  · rintro ⟨n, hint, ⟨hlow, hhigh⟩, rfl⟩
    rwa [IsDelta, hnarrow n hlow hhigh]

theorem isSide_iff {v : Json} {side : BookSide} :
    IsSide v side ↔ ∃ text, asString v = .ok text ∧ parseSide text = .ok side := by
  simp only [asString_eq_ok, IsSide]
  constructor
  · rintro (⟨rfl, rfl⟩ | ⟨rfl, rfl⟩) <;> exact ⟨_, rfl, by decide⟩
  · rintro ⟨text, rfl, hside⟩
    unfold parseSide at hside
    split at hside
    · next h => exact .inl ⟨by rw [h]; rfl, (Except.ok.inj hside).symm⟩
    · split at hside
      · next h => exact .inr ⟨by rw [h]; rfl, (Except.ok.inj hside).symm⟩
      · cases hside

theorem isLevel_iff {v : Json} {level : PriceLevel} :
    IsLevel v level ↔ readLevel v = .ok level := by
  simp only [IsLevel, isPrice_iff, isSize_iff]
  constructor
  · rintro ⟨price, size, rest, rfl, ⟨n, hn, hprice, hp⟩, ⟨m, hm, hsize, hs⟩⟩
    simp only [readLevel, hn, hm, if_neg hprice, if_neg hsize, hp, hs]
  · intro h
    unfold readLevel at h
    split at h
    · next price size rest =>
      split at h
      · next n m hn hm =>
        obtain ⟨hprice, h⟩ := ite_error_eq_ok.mp h
        obtain ⟨hsize, h⟩ := ite_error_eq_ok.mp h
        obtain rfl := Except.ok.inj h
        exact ⟨price, size, rest, rfl, ⟨n, hn, hprice, rfl⟩, ⟨m, hm, hsize, rfl⟩⟩
      · cases h
    · cases h

theorem isLevels_iff {v : Json} {levels : List PriceLevel} :
    IsLevels v levels ↔ ∃ items, asArray v = .ok items ∧ items.mapM readLevel = .ok levels := by
  have hlevel : IsLevel = fun v level => readLevel v = .ok level :=
    funext fun _ => funext fun _ => propext isLevel_iff
  simp only [IsLevels, hlevel, mapM_eq_ok]
  cases v <;> simp [asArray]

/-! ### Members -/

theorem required_eq_ok {α : Type} {missing invalid : ParseError}
    {get : Json → Except SimdError α} {members : Members} {key : Bytes} {a : α} :
    required missing invalid get members key = .ok a ↔ Has members key (get · = .ok a) := by
  unfold required Has
  cases members.lookup key with
  | none => simp
  | some v => cases hget : get v <;> simp [Except.mapError, hget]

theorem has_iff {α : Type} {get : Json → Except SimdError α} {P : Json → Prop} {Q : α → Prop}
    (h : ∀ v, P v ↔ ∃ a, get v = .ok a ∧ Q a) {members : Members} {key : Bytes} :
    Has members key P ↔ ∃ a, readField get members key = .ok a ∧ Q a := by
  simp only [readField, required_eq_ok, Has, h]
  constructor
  · rintro ⟨v, hv, a, ha, hq⟩
    exact ⟨a, ⟨v, hv, ha⟩, hq⟩
  · rintro ⟨a, ⟨v, hv, ha⟩, hq⟩
    exact ⟨v, hv, a, ha, hq⟩

theorem hasString_iff {members : Members} {key text : Bytes} :
    Has members key (· = .str text) ↔ readField asString members key = .ok text := by
  simp only [readField, required_eq_ok, asString_eq_ok]

theorem hasLevels_iff {members : Members} {key : Bytes} {levels : List PriceLevel} :
    Has members key (IsLevels · levels) ↔ readLevels members key = .ok levels := by
  rw [has_iff fun v => isLevels_iff, readLevels, bind_eq_ok]

theorem stringMember_eq (members : Members) (key : Bytes) :
    optional asString members key = stringMember members key := by
  unfold optional stringMember
  cases members.lookup key with
  | none => rfl
  | some v => cases v <;> rfl

theorem optional_eq_some {α : Type} {get : Json → Except SimdError α} {members : Members}
    {key : Bytes} {a : α} :
    optional get members key = some a ↔ Has members key (get · = .ok a) := by
  unfold optional Has
  cases members.lookup key with
  | none => simp
  | some v => cases hget : get v <;> simp [Except.toOption, hget]

theorem isTime_iff {members : Members} {ts : Timestamp} :
    IsTime members ts ↔ ts = readTimestamp members := by
  unfold IsTime readTimestamp
  cases hopt : optional asInt64 members fieldTimestamp with
  | none =>
      have hno : ¬ ∃ z, Has members fieldTimestamp (IsInt · z) ∧ -2 ^ 63 ≤ z ∧ z < 2 ^ 63 := by
        rintro ⟨z, ⟨v, hv, hz⟩, hlow, hhigh⟩
        have hsome : optional asInt64 members fieldTimestamp = some (.ofInt z) :=
          optional_eq_some.mpr ⟨v, hv, asInt64_eq_ok.mpr
            (by rwa [Int64.toInt_ofInt_of_le hlow hhigh])⟩
        rw [hopt] at hsome
        cases hsome
      constructor
      · rintro (⟨z, hz, hlow, hhigh, -⟩ | ⟨-, hts⟩)
        · exact absurd ⟨z, hz, hlow, hhigh⟩ hno
        · exact hts
      · exact fun hts => .inr ⟨hno, hts⟩
  | some n =>
      obtain ⟨v, hv, hn⟩ := optional_eq_some.mp hopt
      have hint : IsInt v n.toInt := asInt64_eq_ok.mp hn
      have hnanos : Int64.ofInt (n.toInt * 1000000000) = n * 1000000000 := by
        rw [Int64.ofInt_mul, Int64.ofInt_toInt]
        rfl
      constructor
      · rintro (⟨z, ⟨w, hw, hz⟩, -, -, rfl⟩ | ⟨hno, -⟩)
        · obtain rfl := Option.some.inj (hw.symm.trans hv)
          have heq : z = n.toInt := by
            cases w <;> first | exact hz.elim | exact hz.trans hint.symm
          rw [heq, hnanos]
        · exact absurd ⟨n.toInt, ⟨v, hv, hint⟩, n.le_toInt, n.toInt_lt⟩ hno
      · rintro rfl
        exact .inl ⟨n.toInt, ⟨v, hv, hint⟩, n.le_toInt, n.toInt_lt, hnanos.symm⟩

/-! ### The three types -/

theorem isSnapshot_iff {members msg : Members} {s : OrderbookSnapshot} :
    IsSnapshot members msg s ↔ readField asUint64 members fieldSeq = .ok s.sequence ∧
      readSnapshotFields msg = .ok ⟨s.marketTicker, s.yes, s.no⟩ ∧ s.ts = 0 := by
  have hseq : Has members fieldSeq (IsSequence · s.sequence) ↔
      readField asUint64 members fieldSeq = .ok s.sequence := by
    simp only [readField, required_eq_ok, asUint64_eq_ok, IsSequence]
  simp only [readSnapshotFields, bind_eq_ok, ← hasString_iff, ← hasLevels_iff, ← hseq]
  constructor
  · rintro ⟨hsequence, hmarket, hyes, hno, hts⟩
    exact ⟨hsequence, ⟨_, hmarket, _, hyes, _, hno, rfl⟩, hts⟩
  · rintro ⟨hsequence, ⟨_, hmarket, _, hyes, _, hno, hfields⟩, hts⟩
    cases hfields
    exact ⟨hsequence, hmarket, hyes, hno, hts⟩

theorem isBookDelta_iff {members msg : Members} {d : OrderbookDelta} :
    IsBookDelta members msg d ↔ readField asUint64 members fieldSeq = .ok d.sequence ∧
      readDeltaFields msg = .ok ⟨d.marketTicker, d.price, d.delta, d.side, d.clientOrderId⟩ ∧
      d.ts = 0 := by
  have hseq : Has members fieldSeq (IsSequence · d.sequence) ↔
      readField asUint64 members fieldSeq = .ok d.sequence := by
    simp only [readField, required_eq_ok, asUint64_eq_ok, IsSequence]
  simp only [readDeltaFields, bind_eq_ok, ← hseq, stringMember_eq]
  constructor
  · rintro ⟨hsequence, hmarket, hprice, hdelta, hside, hclient, hts⟩
    obtain ⟨n, hn, hprice, hp⟩ := (has_iff fun v => isPrice_iff).mp hprice
    obtain ⟨m, hm, hdelta, hd⟩ := (has_iff fun v => isDelta_iff).mp hdelta
    obtain ⟨text, htext, hside⟩ := (has_iff fun v => isSide_iff).mp hside
    refine ⟨hsequence, ⟨_, hasString_iff.mp hmarket, n, hn, m, hm, text, htext, _, hside, ?_⟩, hts⟩
    rw [if_neg hprice, if_neg hdelta, hp, hd, hclient]
    rfl
  · rintro ⟨hsequence, ⟨_, hmarket, n, hn, m, hm, text, htext, side, hside, hchecks⟩, hts⟩
    obtain ⟨hprice, hchecks⟩ := ite_error_eq_ok.mp hchecks
    obtain ⟨hdelta, hchecks⟩ := ite_error_eq_ok.mp hchecks
    obtain ⟨ticker, sequence, price, delta, side, client, ts⟩ := d
    obtain ⟨rfl, rfl, rfl, rfl, rfl⟩ := DeltaFields.mk.inj (Except.ok.inj hchecks)
    exact ⟨hsequence, hasString_iff.mpr hmarket,
      (has_iff fun v => isPrice_iff).mpr ⟨n, hn, hprice, rfl⟩,
      (has_iff fun v => isDelta_iff).mpr ⟨m, hm, hdelta, rfl⟩,
      (has_iff fun v => isSide_iff).mpr ⟨text, htext, hside⟩, rfl, hts⟩

/-- The prices of a trade are checked together. -/
theorem trade_prices_iff {yesPrice noPrice : Int64} :
    ¬ (yesPrice < 0 || priceLimit < yesPrice || noPrice < 0 || priceLimit < noPrice) = true ↔
      ¬ (yesPrice < 0 || priceLimit < yesPrice) = true ∧
        ¬ (noPrice < 0 || priceLimit < noPrice) = true := by
  simp only [Bool.or_eq_true, not_or, and_assoc]

theorem isTrade_iff {msg : Members} {t : TradeEvent} :
    IsTrade msg t ↔
      readTradeFields msg = .ok ⟨t.marketTicker, t.yesPrice, t.noPrice, t.count, t.takerSide, t.ts⟩ := by
  simp only [readTradeFields, bind_eq_ok]
  constructor
  · rintro ⟨hmarket, hyes, hno, hcount, hside, hts⟩
    obtain ⟨n, hn, hyes, hy⟩ := (has_iff fun v => isPrice_iff).mp hyes
    obtain ⟨m, hm, hno, hn'⟩ := (has_iff fun v => isPrice_iff).mp hno
    obtain ⟨c, hc, hcount, hc'⟩ := (has_iff fun v => isSize_iff).mp hcount
    obtain ⟨text, htext, hside⟩ := (has_iff fun v => isSide_iff).mp hside
    refine ⟨_, hasString_iff.mp hmarket, n, hn, m, hm, c, hc, text, htext, _, hside, ?_⟩
    rw [if_neg (trade_prices_iff.mpr ⟨hyes, hno⟩)]
    rw [show countMax = sizeMax from rfl, if_neg hcount, hy, hn', isTime_iff.mp hts,
      ← hc']
    rfl
  · rintro ⟨_, hmarket, n, hn, m, hm, c, hc, text, htext, side, hside, hchecks⟩
    obtain ⟨hprices, hchecks⟩ := ite_error_eq_ok.mp hchecks
    obtain ⟨hcount, hchecks⟩ := ite_error_eq_ok.mp hchecks
    obtain ⟨hyes, hno⟩ := trade_prices_iff.mp hprices
    obtain ⟨ticker, yesPrice, noPrice, count, side, ts⟩ := t
    obtain ⟨rfl, rfl, rfl, rfl, rfl, rfl⟩ := TradeFields.mk.inj (Except.ok.inj hchecks)
    exact ⟨hasString_iff.mpr hmarket, (has_iff fun v => isPrice_iff).mpr ⟨n, hn, hyes, rfl⟩,
      (has_iff fun v => isPrice_iff).mpr ⟨m, hm, hno, rfl⟩,
      (has_iff fun v => isSize_iff).mpr ⟨c, hc, hcount, rfl⟩,
      (has_iff fun v => isSide_iff).mpr ⟨text, htext, hside⟩, isTime_iff.mpr rfl⟩

/-! ### The dispatcher -/

theorem readMessage_eq_ok {members msg : Members} :
    readMessage members = .ok msg ↔ Has members fieldMsg (· = .obj msg) := by
  unfold readMessage Has
  cases members.lookup fieldMsg with
  | none => simp
  | some v => cases v <;> simp

theorem readType_eq_ok {members : Members} {type : Bytes} :
    readType members = .ok type ↔ Has members fieldType (· = .str type) := by
  simp only [readType, required_eq_ok, asString_eq_ok]

theorem readSnapshot_eq_ok {members : Members} {s : OrderbookSnapshot} :
    readSnapshot members = .ok s ↔
      ∃ msg, Has members fieldMsg (· = .obj msg) ∧ IsSnapshot members msg s := by
  simp only [readSnapshot, bind_eq_ok, isSnapshot_iff, ← readMessage_eq_ok]
  constructor
  · rintro ⟨seq, hseq, msg, hmsg, fields, hfields, hs⟩
    obtain rfl := Except.ok.inj hs
    exact ⟨msg, hmsg, hseq, hfields, rfl⟩
  · rintro ⟨msg, hmsg, hseq, hfields, hts⟩
    exact ⟨_, hseq, msg, hmsg, _, hfields, by rw [← hts]; rfl⟩

theorem readDelta_eq_ok {members : Members} {d : OrderbookDelta} :
    readDelta members = .ok d ↔
      ∃ msg, Has members fieldMsg (· = .obj msg) ∧ IsBookDelta members msg d := by
  simp only [readDelta, bind_eq_ok, isBookDelta_iff, ← readMessage_eq_ok]
  constructor
  · rintro ⟨seq, hseq, msg, hmsg, fields, hfields, hd⟩
    obtain rfl := Except.ok.inj hd
    exact ⟨msg, hmsg, hseq, hfields, rfl⟩
  · rintro ⟨msg, hmsg, hseq, hfields, hts⟩
    exact ⟨_, hseq, msg, hmsg, _, hfields, by rw [← hts]; rfl⟩

theorem readTrade_eq_ok {members : Members} {t : TradeEvent} :
    readTrade members = .ok t ↔ ∃ msg, Has members fieldMsg (· = .obj msg) ∧ IsTrade msg t := by
  simp only [readTrade, bind_eq_ok, isTrade_iff, ← readMessage_eq_ok]
  constructor
  · rintro ⟨msg, hmsg, fields, hfields, ht⟩
    obtain rfl := Except.ok.inj ht
    exact ⟨msg, hmsg, hfields⟩
  · rintro ⟨msg, hmsg, hfields⟩
    exact ⟨msg, hmsg, _, hfields, rfl⟩

theorem readCall_eq_ok {members : Members} {call : SinkCall} :
    readCall members = .ok call ↔ Describes members call := by
  have hdelta : ascii "orderbook_delta" ≠ orderbookSnapshot := by decide
  have htrade : ascii "trade" ≠ orderbookSnapshot ∧ ascii "trade" ≠ orderbookDelta := by decide
  simp only [readCall, bind_eq_ok, readType_eq_ok]
  constructor
  · rintro ⟨type, htype, hcall⟩
    split at hcall
    · next h =>
      obtain ⟨s, hs, rfl⟩ := map_eq_ok.mp hcall
      obtain ⟨msg, hmsg, hs⟩ := readSnapshot_eq_ok.mp hs
      exact ⟨type, msg, htype, hmsg, h ▸ .snapshot hs⟩
    · split at hcall
      · next h =>
        obtain ⟨d, hd, rfl⟩ := map_eq_ok.mp hcall
        obtain ⟨msg, hmsg, hd⟩ := readDelta_eq_ok.mp hd
        exact ⟨type, msg, htype, hmsg, h ▸ .delta hd⟩
      · split at hcall
        · next h =>
          obtain ⟨t, ht, rfl⟩ := map_eq_ok.mp hcall
          obtain ⟨msg, hmsg, ht⟩ := readTrade_eq_ok.mp ht
          exact ⟨type, msg, htype, hmsg, h ▸ .trade ht⟩
        · cases hcall
  · rintro ⟨type, msg, htype, hmsg, hpayload⟩
    refine ⟨type, htype, ?_⟩
    cases hpayload with
    | snapshot hs =>
        rw [if_pos (show ascii "orderbook_snapshot" = orderbookSnapshot from rfl)]
        exact map_eq_ok.mpr ⟨_, readSnapshot_eq_ok.mpr ⟨msg, hmsg, hs⟩, rfl⟩
    | delta hd =>
        rw [if_neg hdelta, if_pos (show ascii "orderbook_delta" = orderbookDelta from rfl)]
        exact map_eq_ok.mpr ⟨_, readDelta_eq_ok.mpr ⟨msg, hmsg, hd⟩, rfl⟩
    | trade ht =>
        rw [if_neg htrade.1, if_neg htrade.2, if_pos (show ascii "trade" = trade from rfl)]
        exact map_eq_ok.mpr ⟨_, readTrade_eq_ok.mpr ⟨msg, hmsg, ht⟩, rfl⟩

/-- A well-formed message without repeated names makes one call of the sink, the
one it describes, or it makes none and is answered by an error. It is accepted
exactly when it describes a call. -/
theorem dispatches_exactly (iterate : ℕ → Bytes → Except SimdError Document)
    (hreads : Reads iterate) (json : Bytes) (members : Members)
    (htext : Json.IsText some json (.obj members))
    (hdistinct : (Json.obj members).distinct = true) :
    ((∃ call, onMessage iterate json = (.ok (), [call])) ∨
      ∃ e, onMessage iterate json = (.error e, [])) ∧
    ((onMessage iterate json).1 = .ok () ↔ ∃ call, Describes members call) ∧
    ∀ call, onMessage iterate json = (.ok (), [call]) ↔ Describes members call := by
  have hclear := clearMessage_of_isText hreads htext (Json.clear_of_distinct _ _ hdistinct)
  have hexact : ∀ call, onMessage iterate json = (.ok (), [call]) ↔ Describes members call := by
    intro call
    rw [onMessage_eq hclear, ← readCall_eq_ok]
    cases readCall members <;> simp
  refine ⟨onMessage_cases iterate json, ?_, hexact⟩
  rw [onMessage_eq hclear]
  simp only [← readCall_eq_ok]
  cases readCall members <;> simp

def tradeFields : Members :=
  [(ascii "market_ticker", .str (ascii "KX")), (ascii "yes_price", .int false 40),
    (ascii "no_price", .int false 60), (ascii "count", .int false 7),
    (ascii "taker_side", .str (ascii "no")), (ascii "ts", .int false 3)]

def tradeMessage : Members :=
  [(ascii "sid", .int false 1), (ascii "type", .str (ascii "trade")),
    (ascii "msg", .obj tradeFields)]

theorem readable_tradeFields : ∀ m ∈ tradeFields, Json.Readable some m.2 := by
  simp only [tradeFields, List.forall_mem_cons, List.not_mem_nil, false_implies, implies_true,
    and_true]
  exact ⟨.str _, .int _ _, .int _ _, .int _ _, .str _, .int _ _⟩

theorem isText_tradeMessage :
    Json.IsText some (Json.render (.obj tradeMessage)) (.obj tradeMessage) := by
  refine ⟨validUtf8_of_ascii (by decide +kernel), Json.parse_render (.obj _ (by decide) ?_)⟩
  simp only [tradeMessage, List.forall_mem_cons, List.not_mem_nil, false_implies, implies_true,
    and_true]
  exact ⟨.int _ _, .str _, .obj _ (by decide) readable_tradeFields⟩

theorem dispatches_trade :
    onMessage eager (Json.render (.obj tradeMessage)) =
      (.ok (), [.onTrade ⟨ascii "KX", 40, 60, 7, .no, 3000000000⟩]) := by
  refine ((dispatches_exactly eager reads_eager _ tradeMessage isText_tradeMessage
    (by decide)).2.2 _).mpr ⟨ascii "trade", tradeFields, ⟨_, rfl, rfl⟩, ⟨_, rfl, rfl⟩, .trade ?_⟩
  exact {
    marketTicker := ⟨_, rfl, rfl⟩
    yesPrice := ⟨_, rfl, rfl, by decide⟩
    noPrice := ⟨_, rfl, rfl, by decide⟩
    count := ⟨_, rfl, rfl⟩
    takerSide := ⟨_, rfl, .inr ⟨rfl, rfl⟩⟩
    ts := .inl ⟨3, ⟨_, rfl, rfl⟩, by decide, by decide, rfl⟩ }

end KalshiAutotrader.Md
