import KalshiAutotrader.Md.EventParser

/-!
The parsers as functions of the members they read.

The code asks a cursor for its fields. Over a sound text, as long as no name that
is asked for is there twice, the cursor makes no difference, and each parser
computes a function of the member list: a `read` function below, with the same
checks in the same order. Everything else about messages is proved about these
functions.
-/

namespace KalshiAutotrader.Md

open Kit Simdjson Reading

abbrev Members := List (Bytes × Json)

/-- A required member, as `get` reads it: the errors of the lookup and of the
getter are told apart. -/
def required {α : Type} (missing invalid : ParseError) (get : Json → Except SimdError α)
    (members : Members) (key : Bytes) : Except ParseError α :=
  match members.lookup key with
  | none => .error missing
  | some v => (get v).mapError fun _ => invalid

/-- A required member of a message. -/
abbrev readField {α : Type} (get : Json → Except SimdError α) (members : Members)
    (key : Bytes) : Except ParseError α :=
  required .missingField .invalidField get members key

/-- An optional member: no value when it is absent or of another type. -/
def optional {α : Type} (get : Json → Except SimdError α) (members : Members) (key : Bytes) :
    Option α :=
  (members.lookup key).bind fun v => (get v).toOption

def readLevel : Json → Except ParseError PriceLevel
  | .arr (first :: second :: _) =>
      match asInt64 first, asInt64 second with
      | .ok price, .ok size =>
          if price < 0 || priceLimit < price then .error .invalidField
          else if size < 0 || sizeMax < size then .error .invalidField
          else .ok { price := toPrice price, size := toSize size }
      | _, _ => .error .invalidField
  | _ => .error .invalidField

def readLevels (members : Members) (key : Bytes) : Except ParseError (List PriceLevel) := do
  let items ← readField asArray members key
  items.mapM readLevel

def readTimestamp (members : Members) : Timestamp :=
  match optional asInt64 members fieldTimestamp with
  | none => 0
  | some seconds => seconds * 1000000000

/-- The names looked up in the object of a snapshot. -/
def snapshotNames : List Bytes := [fieldMarketTicker, fieldYes, fieldNo]

def deltaNames : List Bytes :=
  [fieldMarketTicker, fieldPrice, fieldDelta, fieldSide, fieldClientOrderId]

def tradeNames : List Bytes :=
  [fieldMarketTicker, fieldYesPrice, fieldNoPrice, fieldCount, fieldTakerSide, fieldTimestamp]

def readSnapshotFields (members : Members) : Except ParseError SnapshotFields := do
  let market ← readField asString members fieldMarketTicker
  let yes ← readLevels members fieldYes
  let no ← readLevels members fieldNo
  pure { market := market, yes := yes, no := no }

def readDeltaFields (members : Members) : Except ParseError DeltaFields := do
  let market ← readField asString members fieldMarketTicker
  let price ← readField asInt64 members fieldPrice
  let delta ← readField asInt64 members fieldDelta
  let sideStr ← readField asString members fieldSide
  let side ← parseSide sideStr
  if price < 0 || priceLimit < price then throw .invalidField
  else if delta < deltaMin || deltaMax < delta then throw .invalidField
  else
    pure { market := market, price := toPrice price, delta := toDelta delta, side := side,
           clientOrderId := optional asString members fieldClientOrderId }

def readTradeFields (members : Members) : Except ParseError TradeFields := do
  let market ← readField asString members fieldMarketTicker
  let yesPrice ← readField asInt64 members fieldYesPrice
  let noPrice ← readField asInt64 members fieldNoPrice
  let count ← readField asInt64 members fieldCount
  let sideStr ← readField asString members fieldTakerSide
  let side ← parseSide sideStr
  if yesPrice < 0 || priceLimit < yesPrice || noPrice < 0 || priceLimit < noPrice then
    throw .invalidField
  else if count < 0 || countMax < count then throw .invalidField
  else
    pure { market := market, yesPrice := toPrice yesPrice, noPrice := toPrice noPrice,
           count := toCount count, takerSide := side, ts := readTimestamp members }

/-! ### The code computes them -/

variable {α : Type} {obj : Object} {doc : Document} {members : Members}

theorem answers_required {find : Read SimdError Value} {key : Bytes} {depth : ℕ}
    (hfind : Answers Session.Sound find (Value.mk depth <$> lookup members key))
    {getter : Value → Read SimdError α} {get : Json → Except SimdError α}
    (hgetter : ∀ v, Answers Session.Sound (getter v) (get v.json))
    (missing invalid : ParseError) :
    Answers Session.Sound
      (do let field ← find.mapError fun _ => missing
          (getter field).mapError fun _ => invalid)
      (required missing invalid get members key) := by
  have h := (hfind.mapError fun _ => missing).bind
    fun v _ => (hgetter v).mapError fun _ => invalid
  unfold lookup at h
  unfold required
  cases hlookup : members.lookup key <;> rw [hlookup] at h <;> exact h

theorem answers_getString {key : Bytes} (honce : Json.Once obj.members key) :
    Answers Session.Sound (getString obj key) (readField asString obj.members key) :=
  answers_required (answers_field honce) (fun v => answers_call (asString v.json)) _ _

theorem answers_getInt {key : Bytes} (honce : Json.Once obj.members key) :
    Answers Session.Sound (getInt obj key) (readField asInt64 obj.members key) :=
  answers_required (answers_field honce) (fun v => answers_call (asInt64 v.json)) _ _

theorem answers_getOptional {key : Bytes} (honce : Json.Once obj.members key)
    {getter : Value → Read SimdError α} {get : Json → Except SimdError α}
    (hgetter : ∀ v, Answers Session.Sound (getter v) (get v.json)) :
    Answers Session.Sound (getOptional getter obj key) (.ok (optional get obj.members key)) := by
  apply (answers_field honce).observe.bind_ok
  unfold lookup optional
  cases obj.members.lookup key with
  | none => exact answers_pure none
  | some v =>
      apply (hgetter ⟨obj.depth, v⟩).observe.bind_ok
      simp only [Option.bind_some]
      cases get v <;> exact answers_pure _

theorem answers_parseOptionalTimestamp (honce : Json.Once obj.members fieldTimestamp) :
    Answers Session.Sound (parseOptionalTimestamp obj) (.ok (readTimestamp obj.members)) := by
  apply (answers_getOptional honce
    fun v => answers_call (asInt64 v.json)).bind_ok
  unfold readTimestamp
  cases optional asInt64 obj.members fieldTimestamp <;> exact answers_pure _

theorem answers_getArray (v : Value) :
    Answers Session.Sound (v.getArray.mapError fun _ => ParseError.invalidField)
      ((List.map (Value.mk v.depth) <$> asArray v.json).mapError fun _ => .invalidField) :=
  ((answers_call (asArray v.json)).map _).mapError _

theorem answers_parseLevel (entry : Value) :
    Answers Session.Sound (parseLevel entry) (readLevel entry.json) := by
  have harray := answers_getArray entry
  unfold parseLevel readLevel
  cases hjson : entry.json with
  | arr items =>
      rw [hjson] at harray
      apply harray.bind_ok
      cases items with
      | nil => exact answers_throw _
      | cons first items =>
          apply (answers_call (asInt64 first)).observe.bind_ok
          cases items with
          | nil => exact answers_throw _
          | cons second items =>
              apply (answers_call (asInt64 second)).observe.bind_ok
              simp only
              cases asInt64 first with
              | error => exact answers_throw _
              | ok price =>
                  cases asInt64 second with
                  | error => exact answers_throw _
                  | ok size =>
                      simp only
                      split
                      · exact answers_throw _
                      · split
                        · exact answers_throw _
                        · exact answers_pure _
  | _ =>
      rw [hjson] at harray
      exact harray.bind (g := fun _ => Except.error ParseError.invalidField) fun _ h => by cases h

theorem answers_parseLevels {key : Bytes} (honce : Json.Once obj.members key) :
    Answers Session.Sound (parseLevels obj key) (readLevels obj.members key) := by
  have hfield := (answers_field honce).mapError fun _ => ParseError.missingField
  unfold lookup at hfield
  unfold parseLevels readLevels readField required
  cases hlookup : obj.members.lookup key with
  | none =>
      rw [hlookup] at hfield
      exact hfield.bind (g := fun _ => Except.error ParseError.missingField) fun _ h => by cases h
  | some v =>
      rw [hlookup] at hfield
      apply hfield.bind_ok
      have harray := answers_getArray ⟨obj.depth, v⟩
      simp only at harray ⊢
      cases hv : asArray v with
      | error =>
          rw [hv] at harray
          exact harray.bind (g := fun _ => Except.error ParseError.invalidField) fun _ h => by cases h
      | ok items =>
          rw [hv] at harray
          apply harray.bind_ok
          exact .mapM_map (w := Value.mk obj.depth) (fun item => answers_parseLevel ⟨_, item⟩) items

theorem answers_parseSnapshotFields (honce : ∀ key ∈ snapshotNames, Json.Once obj.members key) :
    Answers Session.Sound (parseSnapshotFields obj) (readSnapshotFields obj.members) := by
  simp only [snapshotNames, List.forall_mem_cons] at honce
  obtain ⟨hmarket, hyes, hno, -⟩ := honce
  exact (answers_getString hmarket).bind fun _ _ =>
    (answers_parseLevels hyes).bind fun _ _ =>
      (answers_parseLevels hno).bind fun _ _ => answers_pure _

theorem answers_parseDeltaFields (honce : ∀ key ∈ deltaNames, Json.Once obj.members key) :
    Answers Session.Sound (parseDeltaFields obj) (readDeltaFields obj.members) := by
  simp only [deltaNames, List.forall_mem_cons] at honce
  obtain ⟨hmarket, hprice, hdelta, hside, hclient, -⟩ := honce
  exact (answers_getString hmarket).bind fun _ _ =>
    (answers_getInt hprice).bind fun _ _ =>
      (answers_getInt hdelta).bind fun _ _ =>
        (answers_getString hside).bind fun _ _ =>
          (answers_ofExcept _).bind fun _ _ =>
            .ite (fun _ => answers_throw _) fun _ =>
              .ite (fun _ => answers_throw _) fun _ =>
                (answers_getOptional hclient fun v => answers_call (asString v.json)).bind_ok
                  (answers_pure _)

theorem answers_parseTradeFields (honce : ∀ key ∈ tradeNames, Json.Once obj.members key) :
    Answers Session.Sound (parseTradeFields obj) (readTradeFields obj.members) := by
  simp only [tradeNames, List.forall_mem_cons] at honce
  obtain ⟨hmarket, hyes, hno, hcount, hside, hts, -⟩ := honce
  exact (answers_getString hmarket).bind fun _ _ =>
    (answers_getInt hyes).bind fun _ _ =>
      (answers_getInt hno).bind fun _ _ =>
        (answers_getInt hcount).bind fun _ _ =>
          (answers_getString hside).bind fun _ _ =>
            (answers_ofExcept _).bind fun _ _ =>
              .ite (fun _ => answers_throw _) fun _ =>
                .ite (fun _ => answers_throw _) fun _ =>
                  (answers_parseOptionalTimestamp hts).bind_ok (answers_pure _)

end KalshiAutotrader.Md
