import MarketDesk.Text.Name

/-!
The tabs of the history panel.
-/

namespace MarketDesk

/-- Which orders are shown. -/
inductive Filter where
  | all
  | openOrders
  | orderHistory
deriving DecidableEq, Inhabited

namespace Filter

def name : Filter → String
  | .all => "all"
  | .openOrders => "open_orders"
  | .orderHistory => "order_history"

def names : List String := ["all", "open_orders", "order_history"]

def ofName? : String → Option Filter
  | "all" => some .all
  | "open_orders" => some .openOrders
  | "order_history" => some .orderHistory
  | _ => none

@[simp] theorem ofName?_name (f : Filter) : ofName? f.name = some f := by
  cases f <;> rfl

/-- Reads a filter by its exact name. -/
def ofText (s : String) : Except Text.UnknownName Filter :=
  match ofName? s with
  | some f => .ok f
  | none => .error ⟨"history filter", s⟩

end Filter

end MarketDesk
