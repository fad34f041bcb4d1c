import MarketDesk.Book.Slot
import MarketDesk.Decimal.Basic

/-!
Rows of a book as a renderer reads them.
-/

namespace MarketDesk

/-- One row. The row of the mid price has the mid price as its price, the spread, no size and no
total, and a full bar; the other rows have no spread. -/
structure Row where
  kind : RowKind
  price : Option Decimal
  size : Option Decimal
  total : Option Decimal
  spread : Option Decimal
  /-- The length of the bar behind the row, one for the largest size in the book. -/
  depth : Float
  tone : Tone

def Row.isMid (r : Row) : Bool := r.kind == .mid

end MarketDesk
