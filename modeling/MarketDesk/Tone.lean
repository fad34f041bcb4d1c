/-!
Meanings that a renderer maps to colours.
-/

namespace MarketDesk

inductive Tone where
  | positive
  | negative
  | neutral
deriving DecidableEq

namespace Tone

def name : Tone → String
  | .positive => "positive"
  | .negative => "negative"
  | .neutral => "neutral"

def names : List String := ["positive", "negative", "neutral"]

def ofName? : String → Option Tone
  | "positive" => some .positive
  | "negative" => some .negative
  | "neutral" => some .neutral
  | _ => none

@[simp] theorem ofName?_name (t : Tone) : ofName? t.name = some t := by
  cases t <;> rfl

end Tone

end MarketDesk
