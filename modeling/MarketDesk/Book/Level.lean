import MarketDesk.Wire.Decode
import MarketDesk.Decimal.Arithmetic

/-!
A price level: what is offered or asked for at one price.
-/

namespace MarketDesk

/-- A price and the size that stands there. A size of zero takes the level out of the book. -/
structure Level where
  price : Decimal
  size : Decimal
deriving DecidableEq

namespace Level

/-- Price times size, if a decimal can hold it. -/
def total? (l : Level) : Option Decimal :=
  l.price.mul? l.size

/-- The level is no longer in the book. -/
def isRemoved (l : Level) : Bool :=
  l.size.isZero

/-- The fields of a level that have been read. -/
structure Draft where
  price : Option Decimal := none
  size : Option Decimal := none

def shape : Wire.Shape Draft where
  name := "PriceLevel"
  optional := false
  fields := [
    ("price", fun v d => do pure { d with price := some (← Wire.asDecimal v) }),
    ("size", fun v d => do pure { d with size := some (← Wire.asDecimal v) })]

/-- Reads a level. -/
def ofValue (v : Wire.Value) : Wire.Decoded Level := do
  let d ← shape.read .message {} v
  pure ⟨← Wire.require "price" d.price, ← Wire.require "size" d.size⟩

/-- Writes a level. -/
def toValue (l : Level) : Wire.Value :=
  .fields [("price", .text l.price.toText), ("size", .text l.size.toText)]

end Level

end MarketDesk
