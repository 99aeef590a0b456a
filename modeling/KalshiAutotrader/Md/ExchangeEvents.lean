import KalshiAutotrader.Kit.Bytes

/-!
Market data events, and the calls a market sink gets.
-/

namespace KalshiAutotrader.Md

open Kit

/-- Prices are in cents. -/
abbrev Price := UInt16

abbrev Size := UInt32

abbrev Delta := Int32

abbrev Count := UInt32

abbrev Sequence := UInt64

/-- Nanoseconds. -/
abbrev Timestamp := Int64

def priceMax : Price := 100

inductive BookSide | yes | no
  deriving DecidableEq

structure PriceLevel where
  price : Price
  size : Size
  deriving DecidableEq

structure OrderbookSnapshot where
  marketTicker : Bytes
  sequence : Sequence
  yes : List PriceLevel
  no : List PriceLevel
  ts : Timestamp
  deriving DecidableEq

structure OrderbookDelta where
  marketTicker : Bytes
  sequence : Sequence
  price : Price
  delta : Delta
  side : BookSide
  clientOrderId : Option Bytes
  ts : Timestamp
  deriving DecidableEq

structure TradeEvent where
  marketTicker : Bytes
  yesPrice : Price
  noPrice : Price
  count : Count
  takerSide : BookSide
  ts : Timestamp
  deriving DecidableEq

/-- A call of the sink. `on_status` is part of the sink's interface, but nothing
calls it. -/
inductive SinkCall
  | onSnapshot (snapshot : OrderbookSnapshot)
  | onDelta (delta : OrderbookDelta)
  | onTrade (trade : TradeEvent)
  deriving DecidableEq

end KalshiAutotrader.Md
