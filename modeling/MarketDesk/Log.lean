import MarketDesk.Settings.LogLevel

/-!
Log lines and the rules that say which of them are shown. A rule holds for all places whose name
begins with its own; of several rules the one with the longest name decides.
-/

namespace MarketDesk

/-- A line of the log. -/
structure LogLine where
  level : LogLevel
  /-- The part of the desk that the line comes from. -/
  place : String
  message : String
deriving DecidableEq

/-- The most verbose level at some places. -/
structure LogRule where
  /-- The beginning of the names of the places; all places if there is none. -/
  place : Option String
  level : LogLevel
deriving DecidableEq

namespace LogRule

def length (r : LogRule) : Nat := (r.place.getD "").utf8ByteSize

def covers (r : LogRule) (l : LogLine) : Bool :=
  match r.place with
  | none => true
  | some p => p.toList.isPrefixOf l.place.toList

/-- Puts a rule in the place of the one with the same name. -/
def insert (r : LogRule) (rules : List LogRule) : List LogRule :=
  if rules.any (fun q => q.place == r.place) then
    rules.map fun q => if q.place == r.place then r else q
  else rules ++ [r]

/-- A rule that cannot be read. -/
structure Unreadable where
  text : String
deriving DecidableEq

/-- What is said about a rule that cannot be read. -/
def Unreadable.warning (e : Unreadable) : String :=
  "warning: invalid logging spec '" ++ e.text ++ "', ignoring it"

/-- Reads a rule: a level for all places, or a name with or without a level behind an equals sign. A
name without a level shows everything. -/
def ofText (s : String) : Except Unreadable LogRule :=
  match s.splitOn "=" with
  | [name] =>
    match LogLevel.ofText? name with
    | some l => .ok ⟨none, l⟩
    | none => .ok ⟨some name, .trace⟩
  | [name, level] =>
    let level := Text.trim level
    if level = "" then .ok ⟨some name, .trace⟩
    else match LogLevel.ofText? level with
      | some l => .ok ⟨some name, l⟩
      | none => .error ⟨level⟩
  | _ => .error ⟨s⟩

/-- The rules of a list with commas between them. -/
def pieces (s : String) : List (Except Unreadable LogRule) :=
  ((s.splitOn ",").map Text.trim).filterMap fun t => if t = "" then none else some (ofText t)

/-- The rules of a list; those that cannot be read are passed over. -/
def ofList (s : String) : List LogRule :=
  (pieces s).filterMap Except.toOption

/-- What is said about the rules of a list that cannot be read. -/
def warnings (s : String) : List String :=
  (pieces s).filterMap fun
    | .ok _ => none
    | .error e => some e.warning

/-- The rule for a level with further rules put over it. -/
def combined (level : LogLevel) (rules : List LogRule) : List LogRule :=
  rules.foldl (fun rs r => r.insert rs) [⟨none, level⟩]

end LogRule

namespace LogLine

/-- The rule that decides about a line: the one with the longest name, of several the last. -/
def rule? (rules : List LogRule) (l : LogLine) : Option LogRule :=
  (rules.filter fun r => r.covers l).foldl (fun best r =>
    match best with
    | none => some r
    | some b => if b.length ≤ r.length then some r else some b) none

/-- The line is shown. -/
def isShown (rules : List LogRule) (l : LogLine) : Bool :=
  match l.rule? rules with
  | some r => decide (l.level.rank ≤ r.level.rank)
  | none => false

/-- The name of a level in a column of five characters. -/
def levelColumn (l : LogLevel) : String :=
  l.title ++ String.ofList (List.replicate (5 - l.title.length) ' ')

/-- The text of a line. Further lines of its message are indented by four spaces. -/
def toText (l : LogLine) : String :=
  "[" ++ levelColumn l.level ++ " " ++ l.place ++ "] " ++
    "\n    ".intercalate (l.message.splitOn "\n")

end LogLine

end MarketDesk
