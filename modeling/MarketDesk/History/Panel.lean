import MarketDesk.History.Order
import MarketDesk.Notice.Event
import MarketDesk.Outcome

/-!
The history panel. It shows a list of orders that it does not own: the order manager replaces the
list as a whole. Filter and sorting are chosen by the user and stay when the list is replaced. The
visible rows are kept as positions in the list (`History.view`) and are computed anew whenever list,
filter or sorting change.

Requests that can change what is shown are functions to a `History.Step`; a request to cancel
(`History.cancel`) changes nothing and only publishes a signal.
-/

namespace MarketDesk

/-- What orders can be sorted by. -/
inductive SortKey where
  | symbol
  | time
  | price
  | amount
  | total
  | status
deriving DecidableEq

namespace SortKey

/-- Compares two orders by a key; orders that agree in it compare as equal. -/
def cmp : SortKey → Order → Order → Ordering
  | .symbol, a, b => compare a.symbol b.symbol
  | .time, a, b => a.time.cmp b.time
  | .price, a, b => a.price.cmp b.price
  | .amount, a, b => a.amount.cmp b.amount
  | .total, a, b => a.total.cmp b.total
  | .status, a, b => compare a.status.rank b.status.rank

end SortKey

/-- A key with the direction of sorting. -/
structure Sorting where
  key : SortKey
  descending : Bool
deriving DecidableEq

namespace Sorting

/-- Order `a` need not stand behind order `b`. -/
def le (s : Sorting) (a b : Order) : Bool :=
  if s.descending then (s.key.cmp b a).isLE else (s.key.cmp a b).isLE

end Sorting

/-- The state of the history panel. -/
structure History where
  orders : List Order
  /-- The positions of the visible orders, from the top. -/
  view : List Nat
  filter : Filter := .all
  sorting : Option Sorting := none
  /-- Changes and requests are published. -/
  announces : Bool := false
deriving DecidableEq

namespace History

/-- A row: an order with its position in the list. -/
abbrev Placed := Order × Nat

/-- The orders in a tab with their positions, as they were pushed or sorted. Orders that the key
does not tell apart stay as they were pushed. -/
def arrange (orders : List Order) (filter : Filter) (sorting : Option Sorting) : List Placed :=
  let kept := orders.zipIdx.filter fun o => o.1.isIn filter
  match sorting with
  | none => kept
  | some s => kept.mergeSort fun a b => s.le a.1 b.1

/-- The panel with its rows computed anew. -/
def arranged (h : History) : History :=
  { h with view := (arrange h.orders h.filter h.sorting).map Prod.snd }

/-- The panel that starts with a list of orders. -/
def ofOrders (orders : List Order) : History :=
  arranged { orders, view := [] }

/-- The panel that starts with another tab. -/
def withFilter (h : History) (f : Filter) : History :=
  arranged { h with filter := f }

/-- The panel with its changes published from now on. -/
def announcing (h : History) : History := { h with announces := true }

def rowCount (h : History) : Nat := h.view.length

/-- What is published about the panel's present rows. -/
def changeEvent (h : History) : Event :=
  .of (.historyChanged h.rowCount) "trade_history"

/-- What a request to a panel leads to. -/
structure Step where
  history : History
  events : List Event
deriving DecidableEq

/-- Computes the rows anew and publishes the change. -/
def changed (h : History) : Step :=
  let h := h.arranged
  ⟨h, if h.announces then [h.changeEvent] else []⟩

/-- Replaces the list of orders. -/
def update (h : History) (orders : List Order) : Step :=
  changed { h with orders }

/-- Goes to a tab. Going to the tab that is open is no change. -/
def setFilter (h : History) (f : Filter) : Step :=
  if h.filter = f then ⟨h, []⟩ else changed { h with filter := f }

/-- Sorts the rows. -/
def sortBy (h : History) (s : Sorting) : Step :=
  changed { h with sorting := some s }

/-- Goes back to the order in which the list was pushed. -/
def clearSort (h : History) : Step :=
  match h.sorting with
  | none => ⟨h, []⟩
  | some _ => changed { h with sorting := none }

/-- The visible orders, from the top. -/
def rows (h : History) : List Order :=
  h.view.filterMap fun i => h.orders[i]?

/-- The order in a row. -/
def rowAt (h : History) (index : Nat) : Outcome Order :=
  match h.view[index]?.bind fun i => h.orders[i]? with
  | some o => .done o
  | none => .refused (.rowOutOfRange index h.rowCount)

/-- The first order of the list with an identifier, whether it is visible or not. -/
def find? (h : History) (id : String) : Option Order :=
  h.orders.find? fun o => o.id == id

/-- How a request to cancel an order ends. -/
inductive CancelOutcome where
  /-- The order manager has been asked. -/
  | requested (id : String)
  /-- The list no longer has the order. -/
  | stale
  /-- The order has come to an end. -/
  | notCancelable (status : OrderStatus)
deriving DecidableEq

def CancelOutcome.isRequested : CancelOutcome → Bool
  | .requested _ => true
  | _ => false

/-- The answer to a request to cancel. -/
def cancelOutcome (h : History) (id : String) : CancelOutcome :=
  match h.find? id with
  | none => .stale
  | some o => if o.isCancelable then .requested id else .notCancelable o.status

/-- The signal that asks the order manager to cancel. -/
def cancelEvent (id : String) : Event :=
  .of (.cancelRequested id) "trade_history"

/-- Answers a request to cancel and publishes the signal if it was granted. -/
def cancel (h : History) (id : String) : CancelOutcome × List Event :=
  let answer := h.cancelOutcome id
  (answer, if h.announces && answer.isRequested then [cancelEvent id] else [])

end History

end MarketDesk
