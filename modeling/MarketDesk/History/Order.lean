import MarketDesk.Calendar.Rfc3339
import MarketDesk.History.Filter
import MarketDesk.History.Terms
import MarketDesk.Wire.Decode

/-!
Orders as the order manager reports them, and how they are read and written.
-/

namespace MarketDesk

open Wire (Shape Decoded Value)

/-- An order and what became of it. -/
structure Order where
  id : String
  symbol : String
  time : Instant
  type : OrderType
  side : Side
  price : Decimal
  amount : Decimal
  filledPercent : Decimal
  total : Decimal
  status : OrderStatus
deriving DecidableEq

namespace Order

def isCancelable (o : Order) : Bool := o.status.isCancelable

/-- The asset in which prices are given: what stands behind the first stroke of the symbol. -/
def quoteAsset? (o : Order) : Option String :=
  match o.symbol.toList.dropWhile (· != '/') with
  | [] => none
  | _ :: rest => some (String.ofList rest)

/-- The order belongs to a tab. -/
def isIn (o : Order) : Filter → Bool
  | .all => true
  | .openOrders => o.isCancelable
  | .orderHistory => !o.isCancelable

/-- The fields of an order that have been read. -/
structure Draft where
  id : Option String := none
  symbol : Option String := none
  time : Option Instant := none
  type : Option OrderType := none
  side : Option Side := none
  price : Option Decimal := none
  amount : Option Decimal := none
  filledPercent : Option Decimal := none
  total : Option Decimal := none
  status : Option OrderStatus := none

/-- Reads a moment from its text. -/
def readTime : Value → Decoded Instant
  | .text s =>
    match Timestamp.ofText s with
    | .ok t => .ok t
    | .error e => .error (.unreadable e.message)
  | v => .error (.wrongType v.found "an RFC 3339 formatted date and time string")

/-- Reads a side from one of its names. -/
def readSide : Value → Decoded Side :=
  Wire.asChoice .message Side.names Side.ofName?

def shape : Shape Draft where
  name := "TradeRecord"
  optional := false
  fields := [
    ("order_id", fun v d => do pure { d with id := some (← Wire.asText v) }),
    ("symbol", fun v d => do pure { d with symbol := some (← Wire.asText v) }),
    ("timestamp", fun v d => do pure { d with time := some (← readTime v) }),
    ("order_type", fun v d => do
      pure { d with type := some (OrderType.ofText (← Wire.asText v)) }),
    ("side", fun v d => do pure { d with side := some (← readSide v) }),
    ("price", fun v d => do pure { d with price := some (← Wire.asDecimal v) }),
    ("amount", fun v d => do pure { d with amount := some (← Wire.asDecimal v) }),
    ("filled_percent", fun v d => do
      pure { d with filledPercent := some (← Wire.asDecimal v) }),
    ("total", fun v d => do pure { d with total := some (← Wire.asDecimal v) }),
    ("status", fun v d => do
      pure { d with status := some (OrderStatus.ofText (← Wire.asText v)) })]

/-- The order of a draft that has all fields; the first missing one is refused. -/
def Draft.finish (d : Draft) : Decoded Order := do
  pure {
    id := ← Wire.require "order_id" d.id
    symbol := ← Wire.require "symbol" d.symbol
    time := ← Wire.require "timestamp" d.time
    type := ← Wire.require "order_type" d.type
    side := ← Wire.require "side" d.side
    price := ← Wire.require "price" d.price
    amount := ← Wire.require "amount" d.amount
    filledPercent := ← Wire.require "filled_percent" d.filledPercent
    total := ← Wire.require "total" d.total
    status := ← Wire.require "status" d.status }

/-- Reads an order. -/
def ofValue (v : Value) : Decoded Order := do
  (← shape.read .message {} v).finish

/-- Writes an order. -/
def toValue (o : Order) : Value :=
  .fields [
    ("order_id", .text o.id),
    ("symbol", .text o.symbol),
    ("timestamp", .text (Timestamp.toText o.time)),
    ("order_type", .text o.type.text),
    ("side", .text o.side.name),
    ("price", .text o.price.toText),
    ("amount", .text o.amount.toText),
    ("filled_percent", .text o.filledPercent.toText),
    ("total", .text o.total.toText),
    ("status", .text o.status.text)]

end Order

end MarketDesk
