import MarketDesk.Wire.Fault
import MarketDesk.Decimal.Text

/-!
Reading typed data from values. A record is described by its `Shape`: how each of its fields, in the
order of declaration, is put into a draft. It may be given by its members, of which unknown ones are
passed over, or as the bare list of its fields.
-/

namespace MarketDesk.Wire

/-- A decoded value or the reason why there is none. -/
abbrev Decoded (α : Type) := Except Fault α

/-- What the kinds of document differ in. -/
structure Format where
  /-- How a message writes a number with a fraction. -/
  floatStyle : Text.FloatStyle
  /-- A list given for a record may not be longer than the record. -/
  exactLists : Bool
  /-- How a choice is read that is not given as a text. -/
  choiceOf : Value → Decoded (String × Decoded Unit)

/-- The member that stands for a choice has to be null. -/
def nullUnit : Value → Decoded Unit
  | .null => .ok ()
  | v => .error (.wrongType v.found "unit")

/-- A choice may be the only member of a value, with null behind it. -/
def messageChoice : Value → Decoded (String × Decoded Unit)
  | .fields [(name, v)] => .ok (name, nullUnit v)
  | .fields _ => .error (.wrongValue .fields "map with a single key")
  | v => .error (.wrongType v.found "string or map")

/-- The member that stands for a choice in a settings file has to be an empty table or list. -/
def emptyUnit : Value → Decoded Unit
  | .list [] => .ok ()
  | .fields [] => .ok ()
  | _ => .error (.unreadable "expected empty table")

/-- A choice in a settings file may be the only entry of a table, with nothing in it. -/
def settingsChoice : Value → Decoded (String × Decoded Unit)
  | .fields [(name, v)] => .ok (name, emptyUnit v)
  | .fields _ => .error (.unreadable "wanted exactly 1 element")
  | _ => .error (.unreadable "wanted string or table")

/-- Messages between programs. -/
def Format.message : Format := ⟨.scientific, true, messageChoice⟩

/-- Settings files. -/
def Format.settings : Format := ⟨.pointed, false, settingsChoice⟩

/-- The text of a value. -/
def asText : Value → Decoded String
  | .text s => .ok s
  | v => .error (.wrongType v.found "a string")

/-- A whole number below `bound`, which messages call `expected`. -/
def asNat (bound : Nat) (expected : String) : Value → Decoded Nat
  | .int i =>
    if 0 ≤ i ∧ i < bound then .ok i.toNat else .error (.wrongValue (.int i) expected)
  | v => .error (.wrongType v.found expected)

/-- A whole number of 32 bits. -/
def asWord : Value → Decoded Nat := asNat (twoTo 32) "u32"

/-- A count: a whole number of 64 bits. -/
def asCount : Value → Decoded Nat := asNat (twoTo 64) "usize"

/-- What messages call a decimal. -/
def decimalWords : String := "a Decimal type representing a fixed-point number"

/-- A decimal, given by its text or as a number. A number with a fraction is read as the plain row
of its shortest digits. -/
def asDecimal : Value → Decoded Decimal
  | .int i =>
    match Decimal.ofParts? i 0 with
    | some d => .ok d
    | none => .error (.wrongValue (.int i) decimalWords)
  | .float x =>
    match Decimal.ofChars? (Text.FloatStyle.positional.text x).toList with
    | some d => .ok d
    | none => .error (.wrongValue (.float x) decimalWords)
  | .text s =>
    match Decimal.ofText? s with
    | some d => .ok d
    | none => .error (.wrongValue (.text s) decimalWords)
  | v => .error (.wrongType v.found decimalWords)

/-- An optional value: null stands for none. -/
def asOption {α : Type} (read : Value → Decoded α) : Value → Decoded (Option α)
  | .null => .ok none
  | v => (read v).map some

/-- A list of values, the first bad one refused. -/
def asList {α : Type} (read : Value → Decoded α) : Value → Decoded (List α)
  | .list items => items.mapM read
  | v => .error (.wrongType v.found "a sequence")

/-- One of several choices, given by one of its names. A message lists the names in `known`. -/
def asChoice {α : Type} (format : Format) (known : List String) (ofName : String → Option α)
    (v : Value) : Decoded α := do
  let (name, rest) ← match v with
    | .text s => pure (s, .ok ())
    | v => format.choiceOf v
  match ofName name with
  | some a => do rest; pure a
  | none => .error (.unknownVariant name known)

/-- How a record is read: its name, whether fields may be left out, and how the value of each field
is put into a draft, in the order of declaration. -/
structure Shape (α : Type) where
  name : String
  optional : Bool
  fields : List (String × (Value → α → Decoded α))

/-- The words for a record with all its elements. -/
def Shape.elements {α : Type} (shape : Shape α) : String :=
  "struct " ++ shape.name ++ " with " ++ Text.ofNat shape.fields.length ++ " elements"

/-- Reads members in the order in which they stand. -/
def Shape.readMembers {α : Type} (shape : Shape α) (draft : α) :
    List (String × Value) → Decoded α
  | [] => .ok draft
  | (name, v) :: rest =>
    match shape.fields.lookup name with
    | some put => do shape.readMembers (← put v draft) rest
    | none => shape.readMembers draft rest

/-- Reads the fields that are left from the items that are left. -/
def readItems {α : Type} (optional exact : Bool) (elements : String) (read : Nat) (draft : α) :
    List (String × (Value → α → Decoded α)) → List Value → Decoded α
  | [], [] => .ok draft
  | [], items =>
    if exact then .error (.wrongLength (read + items.length) "fewer elements in array")
    else .ok draft
  | _ :: _, [] => if optional then .ok draft else .error (.wrongLength read elements)
  | (_, put) :: fields, v :: items => do
    readItems optional exact elements (read + 1) (← put v draft) fields items

/-- Reads a record into a draft. -/
def Shape.read {α : Type} (format : Format) (shape : Shape α) (draft : α) : Value → Decoded α
  | .fields members => shape.readMembers draft members
  | .moment _ => .ok draft
  | .list items =>
    readItems shape.optional format.exactLists shape.elements 0 draft shape.fields items
  | v => .error (.wrongType v.found ("struct " ++ shape.name))

/-- A field that has to be there. -/
def require {α : Type} (name : String) : Option α → Decoded α
  | some a => .ok a
  | none => .error (.missingField name)

end MarketDesk.Wire
