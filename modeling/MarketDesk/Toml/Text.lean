import MarketDesk.Text.Digits

/-!
Texts of a TOML document. There are four notations: basic ones with escapes between double quotes,
literal ones without escapes between single quotes, and a multi-line form of each between three
quotes. Readers take the characters behind the opening quotes and answer the text and the characters
behind the closing quotes. `write` chooses the simplest notation in which a text can be written.
-/

namespace MarketDesk.Toml

/-- Characters that stand between quotes as they are: all but controls, and tabs. -/
def isPlain (c : Char) : Bool :=
  c == '\t' || (decide (' ' ≤ c) && c != '\x7f')

/-! ## Reading -/

/-- The value of a hexadecimal digit. -/
def hexValue? (c : Char) : Option Nat :=
  if '0' ≤ c ∧ c ≤ '9' then some (c.toNat - '0'.toNat)
  else if 'a' ≤ c ∧ c ≤ 'f' then some (c.toNat - 'a'.toNat + 10)
  else if 'A' ≤ c ∧ c ≤ 'F' then some (c.toNat - 'A'.toNat + 10)
  else none

/-- The number of a row of hexadecimal digits after the digits before it. -/
def hexFrom? (before : Nat) : List Char → Option Nat
  | [] => some before
  | c :: cs => do hexFrom? (before * 16 + (← hexValue? c)) cs

/-- The character with the number that the digits give. -/
def charOfHex? (ds : List Char) : Option Char := do
  let n ← hexFrom? 0 ds
  if n.isValidChar then some (Char.ofNat n) else none

/-- The character that a letter behind a backslash stands for. -/
def escaped? : Char → Option Char
  | 'b' => some '\x08'
  | 't' => some '\t'
  | 'n' => some '\n'
  | 'f' => some '\x0c'
  | 'r' => some '\r'
  | '"' => some '"'
  | '\\' => some '\\'
  | _ => none

/-- A text and the characters behind it. -/
abbrev Scanned := Option (List Char × List Char)

/-- Puts a character before a text. -/
def Scanned.push (c : Char) (s : Scanned) : Scanned := s.map fun (t, rest) => (c :: t, rest)

/-- Reads on to the closing double quote. -/
def readBasic : List Char → Scanned
  | [] => none
  | '"' :: cs => some ([], cs)
  | '\\' :: 'u' :: a :: b :: c :: d :: cs => do
    (readBasic cs).push (← charOfHex? [a, b, c, d])
  | '\\' :: 'U' :: a :: b :: c :: d :: e :: f :: g :: h :: cs => do
    (readBasic cs).push (← charOfHex? [a, b, c, d, e, f, g, h])
  | '\\' :: c :: cs => do (readBasic cs).push (← escaped? c)
  | c :: cs => if isPlain c then (readBasic cs).push c else none

/-- Reads on to the closing single quote. -/
def readLiteral : List Char → Scanned
  | [] => none
  | c :: cs =>
    if c = '\'' then some ([], cs)
    else if isPlain c then (readLiteral cs).push c
    else none

/-- A text that ends with three quotes. Up to two quotes more before them belong to the text. -/
def closeTriple (q : Char) : List Char → List Char × List Char
  | a :: b :: cs =>
    if a = q then
      if b = q then ([q, q], cs) else ([q], b :: cs)
    else ([], a :: b :: cs)
  | [a] => if a = q then ([q], []) else ([], [a])
  | [] => ([], [])

/-- Where a reader of a multi-line basic text stands. -/
inductive Place where
  | inside
  /-- Behind a backslash at the end of a line, before the line ends. -/
  | beforeBreak
  /-- Behind such a line, where white space is dropped. -/
  | afterBreak
deriving DecidableEq

def isSpace (c : Char) : Bool := c == ' ' || c == '\t'

/-- Reads on to three closing double quotes. Line ends are read as line feeds. -/
def readBasicLines : Place → List Char → Scanned
  | _, [] => none
  | .beforeBreak, '\n' :: cs => readBasicLines .afterBreak cs
  | .beforeBreak, '\r' :: '\n' :: cs => readBasicLines .afterBreak cs
  | .beforeBreak, c :: cs => if isSpace c then readBasicLines .beforeBreak cs else none
  | .afterBreak, ' ' :: cs => readBasicLines .afterBreak cs
  | .afterBreak, '\t' :: cs => readBasicLines .afterBreak cs
  | .afterBreak, '\n' :: cs => readBasicLines .afterBreak cs
  | .afterBreak, '\r' :: '\n' :: cs => readBasicLines .afterBreak cs
  | _, '"' :: '"' :: '"' :: cs => some (closeTriple '"' cs)
  | _, '\n' :: cs => (readBasicLines .inside cs).push '\n'
  | _, '\r' :: '\n' :: cs => (readBasicLines .inside cs).push '\n'
  | _, '\\' :: 'u' :: a :: b :: c :: d :: cs => do
    (readBasicLines .inside cs).push (← charOfHex? [a, b, c, d])
  | _, '\\' :: 'U' :: a :: b :: c :: d :: e :: f :: g :: h :: cs => do
    (readBasicLines .inside cs).push (← charOfHex? [a, b, c, d, e, f, g, h])
  | _, '\\' :: c :: cs =>
    match escaped? c with
    | some x => (readBasicLines .inside cs).push x
    | none =>
      if c = '\n' then readBasicLines .afterBreak cs
      else if isSpace c || c = '\r' then readBasicLines .beforeBreak (c :: cs)
      else none
  | _, c :: cs => if isPlain c then (readBasicLines .inside cs).push c else none

/-- Reads on to three closing single quotes. Line ends are read as line feeds. -/
def readLiteralLines : List Char → Scanned
  | [] => none
  | '\'' :: '\'' :: '\'' :: cs => some (closeTriple '\'' cs)
  | '\r' :: '\n' :: cs => (readLiteralLines cs).push '\n'
  | c :: cs => if isPlain c || c = '\n' then (readLiteralLines cs).push c else none

/-- A line end right behind three opening quotes does not belong to the text. -/
def skipFirstBreak : List Char → List Char
  | '\n' :: cs => cs
  | '\r' :: '\n' :: cs => cs
  | cs => cs

/-- Reads a text from its opening quotes on. -/
def readText : List Char → Scanned
  | '"' :: '"' :: '"' :: cs => readBasicLines .inside (skipFirstBreak cs)
  | '"' :: cs => readBasic cs
  | '\'' :: '\'' :: '\'' :: cs => readLiteralLines (skipFirstBreak cs)
  | '\'' :: cs => readLiteral cs
  | _ => none

/-- Reads a text on one line. -/
def readLineText : List Char → Scanned
  | '"' :: cs => readBasic cs
  | '\'' :: cs => readLiteral cs
  | _ => none

/-! ## Writing -/

/-- The characters that can only be written by an escape. -/
def isControl (c : Char) : Bool :=
  c != '\t' && c != '\n' && (decide (c < ' ') || c == '\x7f')

/-- The hexadecimal digit of a number below sixteen. -/
def hexDigit (n : Nat) : Char :=
  if n < 10 then Char.ofNat ('0'.toNat + n) else Char.ofNat ('A'.toNat + (n - 10))

/-- The escape that gives the number of a character below 256. -/
def numericEscape (c : Char) : List Char :=
  ['\\', 'u', '0', '0', hexDigit (c.toNat / 16 % 16), hexDigit (c.toNat % 16)]

/-- What stands for a character in a basic text, quotes and line feeds apart. -/
def escape (c : Char) : List Char :=
  match c with
  | '\x08' => ['\\', 'b']
  | '\t' => ['\\', 't']
  | '\x0c' => ['\\', 'f']
  | '\r' => ['\\', 'r']
  | '\\' => ['\\', '\\']
  | _ => if isControl c then numericEscape c else [c]

def writeBasic : List Char → List Char
  | [] => ['"']
  | c :: cs =>
    (if c = '"' then ['\\', '"'] else if c = '\n' then ['\\', 'n'] else escape c) ++ writeBasic cs

def writeLiteral (cs : List Char) : List Char := cs ++ ['\'']

/-- Of several quotes in a row every third one is escaped; `run` counts those since the last
escape. -/
def writeBasicLines (run : Nat) : List Char → List Char
  | [] => ['"', '"', '"']
  | c :: cs =>
    if c = '"' then
      if run < 2 then '"' :: writeBasicLines (run + 1) cs
      else '\\' :: '"' :: writeBasicLines 0 cs
    else if c = '\n' then '\n' :: writeBasicLines 0 cs
    else escape c ++ writeBasicLines 0 cs

def writeLiteralLines (cs : List Char) : List Char := cs ++ ['\'', '\'', '\'']

/-- The text has `n` times the character `q` in a row; `run` of them have been seen. -/
def hasRun (q : Char) (n run : Nat) : List Char → Bool
  | [] => false
  | c :: cs =>
    if c = q then (if n ≤ run + 1 then true else hasRun q n (run + 1) cs) else hasRun q n 0 cs

/-- Writes a text in the first of these notations that can hold it: basic without escapes other than
tabs, literal, multi-line basic without escapes, multi-line literal, basic with escapes. -/
def writeText (s : String) : List Char :=
  let cs := s.toList
  let controls := cs.any isControl
  let lines := cs.contains '\n'
  let firstBreak := if lines then ['\n'] else []
  if !controls && !cs.contains '\\' && !cs.contains '"' && !lines then '"' :: writeBasic cs
  else if !controls && !cs.contains '\'' && !lines then '\'' :: writeLiteral cs
  else if !controls && !cs.contains '\\' && !hasRun '"' 3 0 cs then
    ['"', '"', '"'] ++ firstBreak ++ writeBasicLines 0 cs
  else if !controls && !hasRun '\'' 3 0 cs then
    ['\'', '\'', '\''] ++ firstBreak ++ writeLiteralLines cs
  else if lines then ['"', '"', '"'] ++ firstBreak ++ writeBasicLines 0 cs
  else '"' :: writeBasic cs

end MarketDesk.Toml
