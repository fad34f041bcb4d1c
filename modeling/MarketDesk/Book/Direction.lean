import MarketDesk.Decimal.Basic
import MarketDesk.Tone

/-!
Where the mid price moved since the snapshot before.
-/

namespace MarketDesk

inductive Direction where
  | up
  | down
  | flat
deriving DecidableEq, Inhabited

namespace Direction

/-- The move from the previous mid price to the current one. Without a previous one there is no
move. -/
def between (previous : Option Decimal) (current : Decimal) : Direction :=
  match previous with
  | none => .flat
  | some p => if p < current then .up else if current < p then .down else .flat

def tone : Direction → Tone
  | .up => .positive
  | .down => .negative
  | .flat => .neutral

def name : Direction → String
  | .up => "up"
  | .down => "down"
  | .flat => "flat"

/-- The name as headings and log lines show it. -/
def title : Direction → String
  | .up => "Up"
  | .down => "Down"
  | .flat => "Flat"

def names : List String := ["up", "down", "flat"]

def ofName? : String → Option Direction
  | "up" => some .up
  | "down" => some .down
  | "flat" => some .flat
  | _ => none

@[simp] theorem ofName?_name (d : Direction) : ofName? d.name = some d := by
  cases d <;> rfl

end Direction

end MarketDesk
