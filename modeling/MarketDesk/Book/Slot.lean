import MarketDesk.Outcome
import MarketDesk.Powers
import MarketDesk.Tone

/-!
Addresses of the rows of a book. The rows are counted from the top: the asks, the row of the mid
price, the bids. `Slot.ofIndex?` and `Slot.toIndex` change between a row's number and its place on
one of the sides, `Slot.locate` and `Slot.toIndex?` do so in a machine's arithmetic, where a result
outside the range of row numbers ends the computation.
-/

namespace MarketDesk

/-- The kinds of row. -/
inductive RowKind where
  | ask
  | mid
  | bid
deriving DecidableEq

namespace RowKind

def name : RowKind → String
  | .ask => "ask"
  | .mid => "mid"
  | .bid => "bid"

def names : List String := ["ask", "mid", "bid"]

def ofName? : String → Option RowKind
  | "ask" => some .ask
  | "mid" => some .mid
  | "bid" => some .bid
  | _ => none

@[simp] theorem ofName?_name (k : RowKind) : ofName? k.name = some k := by
  cases k <;> rfl

end RowKind

/-- A row by its side and its number on that side. -/
inductive Slot where
  | ask (i : Nat)
  | mid
  | bid (i : Nat)
deriving DecidableEq

namespace Slot

def kind : Slot → RowKind
  | .ask _ => .ask
  | .mid => .mid
  | .bid _ => .bid

/-- The slot of row `index` in a book of so many asks and bids. -/
def ofIndex? (index asks bids : Nat) : Option Slot :=
  if index < asks then some (.ask index)
  else if index = asks then some .mid
  else if index - asks - 1 < bids then some (.bid (index - asks - 1))
  else none

/-- The number of a slot's row in a book of so many asks. -/
def toIndex (asks : Nat) : Slot → Nat
  | .ask i => i
  | .mid => asks
  | .bid i => asks + 1 + i

/-- The first number that is too large for a row. -/
def indexLimit : Nat := twoTo 64

/-- The number of a slot's row, if it is in the range of row numbers. -/
def toIndex? (asks : Nat) (s : Slot) : Option Nat :=
  if s.toIndex asks < indexLimit then some (s.toIndex asks) else none

/-- The difference of two row numbers, if it is not below zero. -/
def minus? (m n : Nat) : Option Nat :=
  if n ≤ m then some (m - n) else none

/-- The slot of row `index`, found by differences of row numbers. The search breaks where one of
them falls below zero. -/
def locate (index asks bids : Nat) : Outcome (Option Slot) :=
  if index < asks then .done (some (.ask index))
  else if index = asks then .done (some .mid)
  else .ofOption do
    let below ← minus? index asks
    let i ← minus? below 1
    pure (if i < bids then some (.bid i) else none)

end Slot

end MarketDesk
