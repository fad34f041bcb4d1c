import MarketDesk.Text.Name
import MarketDesk.Tone

/-!
The terms of an order: its side, its kind and its state. Kinds and states that are not known keep
their text, so that writing a term and reading it again gives the same term.
-/

namespace MarketDesk

inductive Side where
  | buy
  | sell
deriving DecidableEq, Inhabited

namespace Side

def tone : Side → Tone
  | .buy => .positive
  | .sell => .negative

/-- The side as it is shown. -/
def title : Side → String
  | .buy => "Buy"
  | .sell => "Sell"

/-- The side as it is written to other programs. -/
def name : Side → String
  | .buy => "buy"
  | .sell => "sell"

/-- The spellings that are read from other programs. -/
def names : List String := ["BUY", "Buy", "buy", "SELL", "Sell", "sell"]

def ofName? : String → Option Side
  | "BUY" | "Buy" | "buy" => some .buy
  | "SELL" | "Sell" | "sell" => some .sell
  | _ => none

@[simp] theorem ofName?_name (s : Side) : ofName? s.name = some s := by
  cases s <;> rfl

/-- Reads a side in any spelling, with white space around it. -/
def ofText (s : String) : Except Text.UnknownName Side :=
  match Text.folded s with
  | "buy" => .ok .buy
  | "sell" => .ok .sell
  | other => .error ⟨"side", other⟩

end Side

/-- How far an order has come. -/
inductive OrderStatus where
  | live
  | partlyFilled
  | filled
  | cancelled
  | rejected
  /-- A state without a meaning of its own here. -/
  | other (text : String)
deriving DecidableEq

namespace OrderStatus

/-- Only an order that waits for more can be cancelled. -/
def isCancelable : OrderStatus → Bool
  | .live | .partlyFilled => true
  | _ => false

/-- The state as it is shown and written. -/
def text : OrderStatus → String
  | .live => "Open"
  | .partlyFilled => "Partial"
  | .filled => "Filled"
  | .cancelled => "Cancelled"
  | .rejected => "Rejected"
  | .other s => s

/-- The name of the case; all unknown states are of one case. -/
def caseName : OrderStatus → String
  | .other _ => "Other"
  | s => s.text

/-- The place of a state in a list that is sorted by state. -/
def rank : OrderStatus → Nat
  | .live => 0
  | .partlyFilled => 1
  | .filled => 2
  | .cancelled => 3
  | .rejected => 4
  | .other _ => 5

/-- Reads a state in any spelling; an unknown one keeps its text as it is. -/
def ofText (s : String) : OrderStatus :=
  match Text.folded s with
  | "open" => .live
  | "partial" | "partially filled" | "partially_filled" => .partlyFilled
  | "filled" => .filled
  | "cancelled" | "canceled" => .cancelled
  | "rejected" => .rejected
  | _ => .other s

end OrderStatus

/-- When and at which price an order trades. -/
inductive OrderType where
  | limit
  | market
  | stopLimit
  | stopMarket
  /-- A kind without a meaning of its own here. -/
  | other (text : String)
deriving DecidableEq

namespace OrderType

/-- The kind as it is shown and written. -/
def text : OrderType → String
  | .limit => "Limit"
  | .market => "Market"
  | .stopLimit => "Stop Limit"
  | .stopMarket => "Stop Market"
  | .other s => s

/-- The name of the case; all unknown kinds are of one case. -/
def caseName : OrderType → String
  | .limit => "Limit"
  | .market => "Market"
  | .stopLimit => "StopLimit"
  | .stopMarket => "StopMarket"
  | .other _ => "Other"

/-- Reads a kind by its letters and digits alone; an unknown one keeps its text as it is. -/
def ofText (s : String) : OrderType :=
  match Text.squeezed s with
  | "limit" => .limit
  | "market" => .market
  | "stoplimit" => .stopLimit
  | "stopmarket" => .stopMarket
  | _ => .other s

end OrderType

end MarketDesk
