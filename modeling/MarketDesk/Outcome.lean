import MarketDesk.Decimal.Text

/-!
How a request to a panel ends. A refusal has a cause and leaves the panel as it is. A request breaks
when its arithmetic or its formatting has no result; it stops where it was.
-/

namespace MarketDesk

/-- The cause of a refusal. -/
inductive PanelError where
  /-- A row that the panel does not have. -/
  | rowOutOfRange (index rowCount : Nat)
  /-- A level with a size below zero. -/
  | negativeSize (price : Decimal)
  /-- A panel needs room for at least one level. -/
  | noLevels
deriving DecidableEq

namespace PanelError

/-- The words for a refusal. -/
def message : PanelError → String
  | .rowOutOfRange index rowCount =>
    "row index " ++ Text.ofNat index ++ " out of range (row count " ++ Text.ofNat rowCount ++ ")"
  | .negativeSize price => "negative size at price level " ++ price.toText
  | .noLevels => "max levels must be at least 1"

/-- The caller asked for a row that is not there. -/
def isIndexError : PanelError → Bool
  | .rowOutOfRange .. => true
  | _ => false

end PanelError

/-- The end of a request. -/
inductive Outcome (α : Type) where
  | done (value : α)
  | refused (cause : PanelError)
  | broken
deriving DecidableEq

namespace Outcome

/-- A value that may be missing because its computation broke. -/
def ofOption {α : Type} : Option α → Outcome α
  | some a => .done a
  | none => .broken

/-- The values of the requests that were granted, in order; none if one of the requests broke. -/
def collect {α : Type} : List (Outcome α) → Option (List α)
  | [] => some []
  | .done a :: rest => (collect rest).map (a :: ·)
  | .refused _ :: rest => collect rest
  | .broken :: _ => none

@[simp] theorem collect_map_done {α : Type} (as : List α) :
    collect (as.map .done) = some as := by
  induction as with
  | nil => rfl
  | cons a as ih => simp [collect, ih]

end Outcome

end MarketDesk
