/-!
The columns of the history panel.
-/

namespace MarketDesk

inductive HistoryColumn where
  | symbol
  | date
  | type
  | side
  | price
  | amount
  | filled
  | total
  | status
  | action
deriving DecidableEq

namespace HistoryColumn

def all : List HistoryColumn :=
  [.symbol, .date, .type, .side, .price, .amount, .filled, .total, .status, .action]

/-- The column of a number. -/
def ofIndex? (i : Nat) : Option HistoryColumn := all[i]?

def header : HistoryColumn → String
  | .symbol => "Symbol"
  | .date => "Date"
  | .type => "Type"
  | .side => "Side"
  | .price => "Price"
  | .amount => "Amount"
  | .filled => "Filled"
  | .total => "Total"
  | .status => "Status"
  | .action => "Action"

end HistoryColumn

end MarketDesk
