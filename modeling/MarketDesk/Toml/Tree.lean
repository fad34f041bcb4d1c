import MarketDesk.Wire.Value

/-!
The tables of a TOML document while it is read. Tables come into being in three ways, by a header,
by the header of a table inside them, or by a dotted key, and a table may not be defined in two of
these ways. Members stand in the order in which they were defined.
-/

namespace MarketDesk.Toml

open Wire (Value)

/-- A member of a table. -/
inductive Node where
  | value (v : Value)
  /-- A table. It is `opened` by a header of its own; a table that is `dotted` came into being by a
  dotted key. -/
  | table (opened dotted : Bool) (members : List (String × Node))
  /-- A list of tables with a header each. -/
  | tables (items : List (List (String × Node)))

/-- The members of a table. -/
abbrev Members := List (String × Node)

mutual

def Node.toValue : Node → Value
  | .value v => v
  | .table _ _ ms => .fields (valuesOf ms)
  | .tables items => .list (itemsOf items)

def valuesOf : List (String × Node) → List (String × Value)
  | [] => []
  | (name, n) :: rest => (name, n.toValue) :: valuesOf rest

def itemsOf : List (List (String × Node)) → List Value
  | [] => []
  | ms :: rest => .fields (valuesOf ms) :: itemsOf rest

end

/-- Changes the member of a name, or adds one behind the others. -/
def change (name : String) (f : Option Node → Option Node) : Members → Option Members
  | [] => (f none).map fun n => [(name, n)]
  | (m, n) :: rest =>
    if m = name then (f (some n)).map fun n => (name, n) :: rest
    else (change name f rest).map ((m, n) :: ·)

/-- Changes the members of the last one of several tables. -/
def changeLast (f : Members → Option Members) : List Members → Option (List Members)
  | [] => none
  | [ms] => (f ms).map fun ms => [ms]
  | ms :: rest => (changeLast f rest).map (ms :: ·)

/-- Changes the members of a table, or of the last one of several tables. -/
def Node.changeMembers (f : Members → Option Members) : Node → Option Node
  | .value _ => none
  | .table opened dotted ms => (f ms).map (.table opened dotted)
  | .tables items => (changeLast f items).map .tables

/-- Changes the members of the table with this path. Tables on the way that are not there yet are
made, as tables without a header. -/
def within (f : Members → Option Members) : List String → Members → Option Members
  | [], ms => f ms
  | name :: path, ms =>
    change name (fun n => (n.getD (.table false false [])).changeMembers (within f path)) ms

/-- Adds a value under a new name. -/
def addValue (name : String) (v : Value) : Members → Option Members :=
  change name fun
    | none => some (.value v)
    | some _ => none

/-- A dotted key may go into a table. It never goes into one with a header of its own, and it ends
only in tables that came into being by dotted keys. -/
def admitsDotted (last : Bool) : Node → Bool
  | .value _ => false
  | .table opened dotted _ => !opened && (dotted || !last)
  | .tables _ => !last

/-- Adds a value under a dotted key: the names of the tables to go through and its own name. -/
def addDotted (name : String) (v : Value) : List String → Members → Option Members
  | [], ms => addValue name v ms
  | table :: path, ms =>
    change table (fun n =>
      let n := n.getD (.table false true [])
      if admitsDotted path.isEmpty n then n.changeMembers (addDotted name v path) else none) ms

/-- Opens the table of a header. A table that is only known from tables inside it keeps those, but
stands behind the others from now on. -/
def openTable (name : String) (ms : Members) : Option Members :=
  match ms.lookup name with
  | none => some (ms ++ [(name, .table true false [])])
  | some (.table false false inner) =>
    some (ms.filter (fun m => m.1 != name) ++ [(name, .table true false inner)])
  | some _ => none

/-- Opens one more table of a list of tables. -/
def openItem (name : String) : Members → Option Members :=
  change name fun
    | none => some (.tables [[]])
    | some (.tables items) => some (.tables (items ++ [[]]))
    | some _ => none

end MarketDesk.Toml
