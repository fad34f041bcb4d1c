import MarketDesk.Calendar.Pattern
import MarketDesk.History.Column
import MarketDesk.History.Order
import MarketDesk.Settings.Sections

/-!
The cells of the history panel.
-/

namespace MarketDesk

/-- A moment written with a pattern; none if the pattern cannot be read. -/
def Instant.format? (t : Instant) (pattern : String) : Option String :=
  (Pattern.ofText? pattern).map fun p => p.render t

namespace Order

/-- The total with the asset it is in. -/
def totalText? (o : Order) (places : Nat) : Option String := do
  let total ← o.total.fixed? places
  match o.quoteAsset? with
  | some quote => pure (total ++ " " ++ quote)
  | none => pure total

/-- The text of a cell; none if the settings cannot be followed. -/
def cell? (settings : HistorySettings) (o : Order) : HistoryColumn → Option String
  | .symbol => some o.symbol
  | .date => o.time.format? settings.datePattern
  | .type => some o.type.text
  | .side => some o.side.title
  | .price => (o.price.fixed? settings.priceDigits).map ("$" ++ ·)
  | .amount => some o.amount.normalize.toText
  | .filled => some (o.filledPercent.normalize.toText ++ "%")
  | .total => o.totalText? settings.totalDigits
  | .status => some o.status.text
  | .action => some (if o.isCancelable then "Cancel" else "")

/-- The texts of a row's cells, from left to right. -/
def cells? (settings : HistorySettings) (o : Order) : Option (List String) :=
  HistoryColumn.all.mapM (o.cell? settings)

end Order

end MarketDesk
