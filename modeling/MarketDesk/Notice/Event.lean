import MarketDesk.Book.Direction

/-!
What panels tell their subscribers.
-/

namespace MarketDesk

/-- The content of an event. -/
inductive Notice where
  /-- The book shows another snapshot. -/
  | bookChanged (rowCount : Nat) (direction : Direction)
  /-- The list of trades shows other rows. -/
  | historyChanged (rowCount : Nat)
  /-- Someone wants an order cancelled. -/
  | cancelRequested (orderId : String)
deriving DecidableEq

namespace Notice

/-- The name under which subscribers ask for events of this kind. -/
def topic : Notice → String
  | .bookChanged .. => "OrderBookChanged"
  | .historyChanged _ => "TradeHistoryChanged"
  | .cancelRequested _ => "CancelRequested"

/-- Something has to be drawn again. -/
def isDataChange : Notice → Bool
  | .bookChanged .. | .historyChanged _ => true
  | .cancelRequested _ => false

def isCancel : Notice → Bool
  | .cancelRequested _ => true
  | _ => false

end Notice

/-- How urgent an event is. -/
inductive Priority where
  | normal
  | high
deriving DecidableEq

namespace Priority

/-- The rank of a priority; a higher one is more urgent. -/
def rank : Priority → Nat
  | .normal => 0
  | .high => 1

end Priority

/-- A notice with its sender. -/
structure Event where
  notice : Notice
  source : String
  priority : Priority
deriving DecidableEq

namespace Event

/-- The event for a notice: only requests to cancel are urgent. -/
def of (notice : Notice) (source : String) : Event :=
  ⟨notice, source, if notice.isCancel then .high else .normal⟩

/-- The event with another priority. -/
def withPriority (e : Event) (p : Priority) : Event := { e with priority := p }

def topic (e : Event) : String := e.notice.topic

end Event

end MarketDesk
