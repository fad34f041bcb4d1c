import MarketDesk.Toml.Scalar
import MarketDesk.Toml.Tree

/-!
Reading a TOML document. A document is read into statements, one a line: headers and pairs of a key
and a value. The statements are then carried out one after another on the tables of the document.
-/

namespace MarketDesk.Toml

open Wire (Value)

/-- Arrays, inline tables and dotted keys may not be as deep as this. -/
def depthLimit : Nat := 80

/-! ## White space -/

def skipSpaces (cs : List Char) : List Char := cs.dropWhile isSpace

/-- The characters behind a comment; none if it has a control character. -/
def afterComment? (cs : List Char) : Option (List Char) :=
  match cs.dropWhile isPlain with
  | [] => some []
  | '\n' :: rest => some ('\n' :: rest)
  | '\r' :: '\n' :: rest => some ('\r' :: '\n' :: rest)
  | _ => none

/-- The characters behind the end of a line, with white space and a comment before it. -/
def afterLine? (cs : List Char) : Option (List Char) := do
  let rest ← match skipSpaces cs with
    | '#' :: rest => afterComment? rest
    | rest => some rest
  match rest with
  | [] => some []
  | '\n' :: rest => some rest
  | '\r' :: '\n' :: rest => some rest
  | _ => none

/-- The characters behind white space, line ends and comments, at most `fuel` of them. -/
def skipLines? : Nat → List Char → Option (List Char)
  | 0, cs => some cs
  | fuel + 1, cs =>
    match cs with
    | '\n' :: rest => skipLines? fuel rest
    | '\r' :: '\n' :: rest => skipLines? fuel rest
    | '#' :: rest => do skipLines? fuel (← afterComment? rest)
    | c :: rest => if isSpace c then skipLines? fuel rest else some (c :: rest)
    | [] => some []

/-- Skips as much as there is. -/
def skipAll? (cs : List Char) : Option (List Char) := skipLines? cs.length cs

/-! ## Keys -/

/-- The characters of a key without quotes. -/
def isBare (c : Char) : Bool := c.isAlphanum || c == '-' || c == '_'

/-- Reads one name of a key. -/
def readName (cs : List Char) : Option (String × List Char) :=
  match readLineText cs with
  | some (s, rest) => some (String.ofList s, rest)
  | none =>
    let name := cs.takeWhile isBare
    if name.isEmpty then none else some (String.ofList name, cs.dropWhile isBare)

/-- Reads the names of a key with dots between them, and white space around each. -/
def readNames : Nat → List Char → Option (List String × List Char)
  | 0, _ => none
  | fuel + 1, cs => do
    let (name, rest) ← readName (skipSpaces cs)
    match skipSpaces rest with
    | '.' :: rest => do
      let (names, rest) ← readNames fuel rest
      pure (name :: names, rest)
    | rest => pure ([name], rest)

/-- Reads a key. -/
def readKey (cs : List Char) : Option (List String × List Char) := readNames (depthLimit - 1) cs

/-- Adds a value under a key to members. -/
def addPair (key : List String) (v : Value) (ms : Members) : Option Members :=
  match key.getLast? with
  | some name => addDotted name v key.dropLast ms
  | none => none

/-! ## Values -/

mutual

/-- Reads a value; arrays and inline tables in it may be `depth` deep. -/
def readValue : Nat → Nat → List Char → Option (Value × List Char)
  | 0, _, _ => none
  | fuel + 1, depth, cs =>
    match cs with
    | '[' :: rest =>
      if depth = 0 then none
      else do
        match ← skipAll? rest with
        | ']' :: rest => pure (.list [], rest)
        | rest => do
          let (items, rest) ← readItems fuel (depth - 1) rest
          pure (.list items, rest)
    | '\x7b' :: rest =>
      if depth = 0 then none
      else match skipSpaces rest with
        | '\x7d' :: rest => some (.fields [], rest)
        | rest => do
          let (ms, rest) ← readPairs fuel (depth - 1) [] rest
          pure (.fields (valuesOf ms), rest)
    | c :: _ =>
      if c = '"' ∨ c = '\'' then
        (readText cs).map fun (s, rest) => (.text (String.ofList s), rest)
      else readWord cs
    | [] => none

/-- Reads the items of an array up to its end. A comma may stand behind the last one. -/
def readItems : Nat → Nat → List Char → Option (List Value × List Char)
  | 0, _, _ => none
  | fuel + 1, depth, cs => do
    let (v, rest) ← readValue fuel depth cs
    match ← skipAll? rest with
    | ']' :: rest => pure ([v], rest)
    | ',' :: rest =>
      match ← skipAll? rest with
      | ']' :: rest => pure ([v], rest)
      | rest => do
        let (items, rest) ← readItems fuel depth rest
        pure (v :: items, rest)
    | _ => none

/-- Reads the pairs of an inline table up to its end. -/
def readPairs : Nat → Nat → Members → List Char → Option (Members × List Char)
  | 0, _, _, _ => none
  | fuel + 1, depth, ms, cs => do
    let (key, rest) ← readKey cs
    match rest with
    | '=' :: rest => do
      let (v, rest) ← readValue fuel depth (skipSpaces rest)
      let ms ← addPair key v ms
      match skipSpaces rest with
      | '\x7d' :: rest => pure (ms, rest)
      | ',' :: rest => readPairs fuel depth ms rest
      | _ => none
    | _ => none

end

/-! ## Statements -/

/-- What a line of a document says. -/
inductive Statement where
  /-- The pairs that follow belong to this table. -/
  | header (path : List String)
  /-- The pairs that follow belong to one more table of this list. -/
  | itemHeader (path : List String)
  | pair (key : List String) (v : Value)

/-- Reads the line that begins here, which is not empty and not a comment. -/
def readStatement (cs : List Char) : Option (Statement × List Char) :=
  match cs with
  | '[' :: '[' :: rest => do
    let (path, rest) ← readKey rest
    match rest with
    | ']' :: ']' :: rest => pure (.itemHeader path, ← afterLine? rest)
    | _ => none
  | '[' :: rest => do
    let (path, rest) ← readKey rest
    match rest with
    | ']' :: rest => pure (.header path, ← afterLine? rest)
    | _ => none
  | _ => do
    let (key, rest) ← readKey cs
    match rest with
    | '=' :: rest => do
      let (v, rest) ← readValue (2 * rest.length + 8) (depthLimit - 1) (skipSpaces rest)
      pure (.pair key v, ← afterLine? rest)
    | _ => none

/-- Reads the statements of at most `fuel` lines. -/
def readStatements : Nat → List Char → Option (List Statement)
  | 0, _ => some []
  | fuel + 1, cs =>
    match skipSpaces cs with
    | [] => some []
    | '\n' :: rest => readStatements fuel rest
    | '\r' :: '\n' :: rest => readStatements fuel rest
    | '#' :: rest => do readStatements fuel (← afterLine? ('#' :: rest))
    | rest => do
      let (s, rest) ← readStatement rest
      pure (s :: (← readStatements fuel rest))

/-- A document that is read so far. -/
structure Draft where
  members : Members
  /-- The table to which pairs belong. -/
  path : List String

/-- Carries out a statement. -/
def Draft.step (d : Draft) : Statement → Option Draft
  | .header path => do
    let name ← path.getLast?
    pure ⟨← within (openTable name) path.dropLast d.members, path⟩
  | .itemHeader path => do
    let name ← path.getLast?
    pure ⟨← within (openItem name) path.dropLast d.members, path⟩
  | .pair key v => do
    pure { d with members := ← within (addPair key v) d.path d.members }

/-- The value of a document; none if it is not well formed. A byte order mark at its start is passed
over. -/
def read? (s : String) : Option Value := do
  let cs := match s.toList with
    | '\ufeff' :: cs => cs
    | cs => cs
  let statements ← readStatements (cs.length + 1) cs
  let d ← statements.foldlM Draft.step ⟨[], []⟩
  pure (.fields (valuesOf d.members))

end MarketDesk.Toml
