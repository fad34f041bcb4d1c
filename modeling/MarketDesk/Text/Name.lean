import MarketDesk.Text.Blank

/-!
Names of choices as people type them.
-/

namespace MarketDesk.Text

/-- A name that stands for none of the choices there are. -/
structure UnknownName where
  /-- What was to be chosen. -/
  choice : String
  name : String
deriving DecidableEq

/-- The words for an unknown name. -/
def UnknownName.message (e : UnknownName) : String :=
  "unknown " ++ e.choice ++ ": " ++ e.name

/-- A name without white space around it and in small letters. -/
def folded (s : String) : String :=
  lower (trim s)

/-- The letters and digits of a name, in small letters. -/
def squeezed (s : String) : String :=
  lower (String.ofList (s.toList.filter isAlphanumeric))

end MarketDesk.Text
