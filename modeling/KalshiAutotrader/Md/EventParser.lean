import KalshiAutotrader.Md.ExchangeEvents
import KalshiAutotrader.Simdjson.OnDemand

/-!
The message parsers.

Each parser opens the text anew and asks for its fields one by one, in the order
of its own code; the first check that fails decides the error. The integers on
the wire are read as 64-bit numbers and narrowed after a check of their range.
-/

namespace KalshiAutotrader.Md

open Kit Simdjson

inductive ParseError
  | emptyMessage
  | invalidJson
  | missingType
  | missingField
  | invalidField
  | unsupportedType
  deriving DecidableEq

/-- `static_cast<std::int64_t>` of an error. -/
def ParseError.toInt64 : ParseError → Int64
  | .emptyMessage => 0
  | .invalidJson => 1
  | .missingType => 2
  | .missingField => 3
  | .invalidField => 4
  | .unsupportedType => 5

def fieldType : Bytes := ascii "type"
def fieldSeq : Bytes := ascii "seq"
def fieldMsg : Bytes := ascii "msg"
def fieldMarketTicker : Bytes := ascii "market_ticker"
def fieldYes : Bytes := ascii "yes"
def fieldNo : Bytes := ascii "no"
def fieldPrice : Bytes := ascii "price"
def fieldDelta : Bytes := ascii "delta"
def fieldSide : Bytes := ascii "side"
def fieldClientOrderId : Bytes := ascii "client_order_id"
def fieldYesPrice : Bytes := ascii "yes_price"
def fieldNoPrice : Bytes := ascii "no_price"
def fieldCount : Bytes := ascii "count"
def fieldTakerSide : Bytes := ascii "taker_side"
def fieldTimestamp : Bytes := ascii "ts"

def valueSideYes : Bytes := ascii "yes"
def valueSideNo : Bytes := ascii "no"

/-! ### Getters -/

def getString (obj : Object) (key : Bytes) : Read ParseError Bytes := do
  let field ← (obj.field key).mapError fun _ => .missingField
  field.getString.mapError fun _ => .invalidField

def getInt (obj : Object) (key : Bytes) : Read ParseError Int64 := do
  let field ← (obj.field key).mapError fun _ => .missingField
  field.getInt64.mapError fun _ => .invalidField

def parseSide (side : Bytes) : Except ParseError BookSide :=
  if side = valueSideYes then .ok .yes
  else if side = valueSideNo then .ok .no
  else .error .invalidField

/-- `std::numeric_limits` of the narrow types, as 64-bit numbers. -/
def sizeMax : Int64 := 4294967295
def countMax : Int64 := 4294967295
def deltaMin : Int64 := -2147483648
def deltaMax : Int64 := 2147483647

/-- `PRICE_MAX`, promoted for a comparison with a 64-bit number. -/
def priceLimit : Int64 := .ofNat priceMax.toNat

/-- `static_cast` to the narrow types. -/
def toPrice (n : Int64) : Price := n.toUInt64.toUInt16
def toSize (n : Int64) : Size := n.toUInt64.toUInt32
def toCount (n : Int64) : Count := n.toUInt64.toUInt32
def toDelta (n : Int64) : Delta := n.toInt32

/-- One round of the loop of `parse_levels`. What follows the second element of an
entry is never looked at. -/
def parseLevel (entry : Value) : Read ParseError PriceLevel := do
  match ← entry.getArray.mapError fun _ => .invalidField with
  | [] => throw .invalidField
  | first :: rest =>
      let price ← first.getInt64.observe
      match rest with
      | [] => throw .invalidField
      | second :: _ =>
          let size ← second.getInt64.observe
          match price, size with
          | .ok price, .ok size =>
              if price < 0 || priceLimit < price then throw .invalidField
              else if size < 0 || sizeMax < size then throw .invalidField
              else pure { price := toPrice price, size := toSize size }
          | _, _ => throw .invalidField

def parseLevels (obj : Object) (key : Bytes) : Read ParseError (List PriceLevel) := do
  let field ← (obj.field key).mapError fun _ => .missingField
  let arr ← field.getArray.mapError fun _ => .invalidField
  arr.mapM parseLevel

def getSequence (doc : Document) : Read ParseError Sequence := do
  let field ← (doc.field fieldSeq).mapError fun _ => .missingField
  field.getUint64.mapError fun _ => .invalidField

/-- `doc[FIELD_MSG].get_object()`: an error of either call counts as a missing
field. -/
def getMessageObject (doc : Document) : Read ParseError Object :=
  (doc.field fieldMsg >>= Value.getObject).mapError fun _ => .missingField

/-- An optional member: an error of the lookup or of the getter counts as absent. -/
def getOptional {α : Type} (getter : Value → Read SimdError α) (obj : Object) (key : Bytes) :
    Read ParseError (Option α) := do
  match ← (obj.field key).observe with
  | .error _ => pure none
  | .ok field =>
      match ← (getter field).observe with
      | .error _ => pure none
      | .ok val => pure (some val)

def getOptionalString (obj : Object) (key : Bytes) : Read ParseError (Option Bytes) :=
  getOptional Value.getString obj key

/-- The conversion of seconds to nanoseconds is a 64-bit multiplication. -/
def parseOptionalTimestamp (obj : Object) : Read ParseError Timestamp := do
  match ← getOptional Value.getInt64 obj fieldTimestamp with
  | none => pure 0
  | some seconds => pure (seconds * 1000000000)

/-! ### The fields of a message -/

structure SnapshotFields where
  market : Bytes
  yes : List PriceLevel
  no : List PriceLevel

structure DeltaFields where
  market : Bytes
  price : Price
  delta : Delta
  side : BookSide
  clientOrderId : Option Bytes

structure TradeFields where
  market : Bytes
  yesPrice : Price
  noPrice : Price
  count : Count
  takerSide : BookSide
  ts : Timestamp

def parseSnapshotFields (obj : Object) : Read ParseError SnapshotFields := do
  let market ← getString obj fieldMarketTicker
  let yes ← parseLevels obj fieldYes
  let no ← parseLevels obj fieldNo
  pure { market := market, yes := yes, no := no }

def parseDeltaFields (obj : Object) : Read ParseError DeltaFields := do
  let market ← getString obj fieldMarketTicker
  let price ← getInt obj fieldPrice
  let delta ← getInt obj fieldDelta
  let sideStr ← getString obj fieldSide
  let side ← ofExcept (parseSide sideStr)
  if price < 0 || priceLimit < price then throw .invalidField
  else if delta < deltaMin || deltaMax < delta then throw .invalidField
  else
    let clientOrderId ← getOptionalString obj fieldClientOrderId
    pure { market := market, price := toPrice price, delta := toDelta delta, side := side,
           clientOrderId := clientOrderId }

def parseTradeFields (obj : Object) : Read ParseError TradeFields := do
  let market ← getString obj fieldMarketTicker
  let yesPrice ← getInt obj fieldYesPrice
  let noPrice ← getInt obj fieldNoPrice
  let count ← getInt obj fieldCount
  let sideStr ← getString obj fieldTakerSide
  let side ← ofExcept (parseSide sideStr)
  if yesPrice < 0 || priceLimit < yesPrice || noPrice < 0 || priceLimit < noPrice then
    throw .invalidField
  else if count < 0 || countMax < count then throw .invalidField
  else
    let ts ← parseOptionalTimestamp obj
    pure { market := market, yesPrice := toPrice yesPrice, noPrice := toPrice noPrice,
           count := toCount count, takerSide := side, ts := ts }

/-! ### The parsers -/

/-- A parser over a document that `iterate` opens. -/
def parseDocument {α : Type} (iterate : Bytes → Except SimdError Document) (json : Bytes)
    (read : Document → Read ParseError α) : Except ParseError α :=
  match iterate json with
  | .error _ => .error .invalidJson
  | .ok doc => ((read doc).runFrom doc.session).1

def parseMessageType (iterate : Bytes → Except SimdError Document) (json : Bytes) :
    Except ParseError Bytes :=
  if json = [] then .error .emptyMessage
  else parseDocument iterate json fun doc => do
    let typeField ← (doc.field fieldType).mapError fun _ => .missingType
    typeField.getString.mapError fun _ => .missingType

def parseOrderbookSnapshot (iterate : Bytes → Except SimdError Document) (json : Bytes) :
    Except ParseError OrderbookSnapshot :=
  parseDocument iterate json fun doc => do
    let seq ← getSequence doc
    let msg ← getMessageObject doc
    let fields ← parseSnapshotFields msg
    pure { marketTicker := fields.market, sequence := seq, yes := fields.yes, no := fields.no,
           ts := 0 }

def parseOrderbookDelta (iterate : Bytes → Except SimdError Document) (json : Bytes) :
    Except ParseError OrderbookDelta :=
  parseDocument iterate json fun doc => do
    let seq ← getSequence doc
    let msg ← getMessageObject doc
    let fields ← parseDeltaFields msg
    pure { marketTicker := fields.market, sequence := seq, price := fields.price,
           delta := fields.delta, side := fields.side, clientOrderId := fields.clientOrderId,
           ts := 0 }

def parseTradeEvent (iterate : Bytes → Except SimdError Document) (json : Bytes) :
    Except ParseError TradeEvent :=
  parseDocument iterate json fun doc => do
    let msg ← getMessageObject doc
    let fields ← parseTradeFields msg
    pure { marketTicker := fields.market, yesPrice := fields.yesPrice, noPrice := fields.noPrice,
           count := fields.count, takerSide := fields.takerSide, ts := fields.ts }

end KalshiAutotrader.Md
