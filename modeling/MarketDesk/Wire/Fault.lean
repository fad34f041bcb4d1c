import MarketDesk.Wire.Value
import MarketDesk.Text.Quoted
import MarketDesk.Text.Shortest

/-!
Why a value was refused, and the words for it. A fault names what was found and what was expected;
the two kinds of document differ only in how they write a number with a fraction.
-/

namespace MarketDesk.Wire

/-- What kind of value was found where another one was expected. -/
inductive Found where
  | null
  | bool (b : Bool)
  | int (i : Int)
  | float (x : Float)
  | text (s : String)
  | list
  | fields

def Value.found : Value → Found
  | .null => .null
  | .bool b => .bool b
  | .int i => .int i
  | .float x => .float x
  | .text s => .text s
  | .moment _ => .fields
  | .list _ => .list
  | .fields _ => .fields

/-- The reason why a value is not of the expected type. -/
inductive Fault where
  /-- A value of another kind. -/
  | wrongType (found : Found) (expected : String)
  /-- A value of the right kind outside its range. -/
  | wrongValue (found : Found) (expected : String)
  /-- A choice that is not among the known ones. -/
  | unknownVariant (name : String) (known : List String)
  /-- A member that has to be there. -/
  | missingField (name : String)
  /-- A list of the wrong length. -/
  | wrongLength (length : Nat) (expected : String)
  /-- A text that its own reader refused, in that reader's words. -/
  | unreadable (reason : String)

/-- The words for what was found. -/
def Found.describe (style : Text.FloatStyle) : Found → String
  | .null => "null"
  | .bool b => "boolean `" ++ (if b then "true" else "false") ++ "`"
  | .int i => "integer `" ++ Text.ofInt i ++ "`"
  | .float x => "floating point `" ++ style.text x ++ "`"
  | .text s => "string " ++ Text.quoted s
  | .list => "sequence"
  | .fields => "map"

/-- A list of choices in backquotes. -/
def backquoted (names : List String) : String :=
  ", ".intercalate (names.map fun n => "`" ++ n ++ "`")

/-- The message of a fault. -/
def Fault.message (style : Text.FloatStyle) : Fault → String
  | .wrongType found expected =>
    "invalid type: " ++ found.describe style ++ ", expected " ++ expected
  | .wrongValue found expected =>
    "invalid value: " ++ found.describe style ++ ", expected " ++ expected
  | .unknownVariant name known =>
    "unknown variant `" ++ name ++ "`, expected one of " ++ backquoted known
  | .missingField name => "missing field `" ++ name ++ "`"
  | .wrongLength n expected => "invalid length " ++ Text.ofNat n ++ ", expected " ++ expected
  | .unreadable reason => reason

end MarketDesk.Wire
