/-!
Values as they arrive from and leave for other programs: records and settings are read from such
values and written as such values, whatever the document they stand in looks like.
-/

namespace MarketDesk.Wire

/-- A value of a document. The members of `fields` stand in the order in which they are visited. -/
inductive Value where
  | null
  | bool (b : Bool)
  | int (i : Int)
  | float (x : Float)
  | text (s : String)
  /-- A date or a time. No field takes one; messages call it a map. -/
  | moment (s : String)
  | list (items : List Value)
  | fields (members : List (String × Value))
deriving Inhabited

/-- The member of that name, if the value has members and one of that name. -/
def Value.get? (v : Value) (name : String) : Option Value :=
  match v with
  | .fields members => members.lookup name
  | _ => none

end MarketDesk.Wire
