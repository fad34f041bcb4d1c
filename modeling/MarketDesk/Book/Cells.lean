import MarketDesk.Book.Row
import MarketDesk.Decimal.Text
import MarketDesk.Settings.Sections

/-!
The cells of the book panel. What is not there is shown as an empty cell; the row of the mid price
shows the spread in the column of the amounts.
-/

namespace MarketDesk

/-- The columns of the book panel. -/
inductive BookColumn where
  | price
  | amount
  | total
deriving DecidableEq

namespace BookColumn

def all : List BookColumn := [.price, .amount, .total]

/-- The column of a number. -/
def ofIndex? (i : Nat) : Option BookColumn := all[i]?

def header : BookColumn → String
  | .price => "Price"
  | .amount => "Amount"
  | .total => "Total"

end BookColumn

/-- A number with a fixed count of fraction digits, or nothing. None if the number breaks its
field. -/
def optionalText? (a : Option Decimal) (places : Nat) : Option String :=
  match a with
  | some d => d.fixed? places
  | none => some ""

namespace Row

/-- The text of a cell. -/
def cell? (settings : BookSettings) (r : Row) : BookColumn → Option String
  | .price => optionalText? r.price settings.priceDigits
  | .amount =>
    if r.isMid then optionalText? r.spread settings.priceDigits
    else optionalText? r.size settings.amountDigits
  | .total => if r.isMid then some "" else optionalText? r.total settings.totalDigits

/-- The texts of a row's cells, from left to right. -/
def cells? (settings : BookSettings) (r : Row) : Option (List String) :=
  BookColumn.all.mapM (r.cell? settings)

end Row

end MarketDesk
