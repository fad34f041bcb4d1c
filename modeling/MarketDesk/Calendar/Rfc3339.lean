import MarketDesk.Calendar.Instant
import MarketDesk.Powers
import MarketDesk.Text.Blank
import MarketDesk.Text.Digits

/-!
Moments as RFC 3339 texts. They are written in universal time with a fraction of none, three, six or
nine digits. Reading is more lenient: fewer digits than usual, white space before numbers and
separators, a sign before the year and several spellings of the offset are accepted.
-/

namespace MarketDesk

open MarketDesk.Text

namespace Timestamp

/-! ## Writing -/

/-- The year in four digits, with a sign if it has more of them or is before the year zero. -/
def yearText (y : Int) : List Char :=
  if y < 0 then '-' :: padded '0' 4 y.natAbs
  else if y ≤ 9999 then lastDigits y.natAbs 4
  else '+' :: padded '0' 4 y.natAbs

/-- The fraction of a second in as many groups of three digits as it needs. -/
def fractionText (nano : Nat) : List Char :=
  if nano = 0 then []
  else if nano % 1000000 = 0 then '.' :: lastDigits (nano / 1000000) 3
  else if nano % 1000 = 0 then '.' :: lastDigits (nano / 1000) 6
  else '.' :: lastDigits nano 9

def dateText (d : Date) : List Char :=
  yearText d.year ++ '-' :: lastDigits d.month 2 ++ '-' :: lastDigits d.day 2

def timeText (t : Instant) : List Char :=
  lastDigits t.hour 2 ++ ':' :: lastDigits t.minute 2 ++ ':' :: lastDigits t.secondOfMinute 2 ++
    fractionText t.nanoOfSecond

/-- Date and time with the given text for the offset. -/
def toChars (zone : String) (t : Instant) : List Char :=
  dateText t.date ++ 'T' :: timeText t ++ zone.toList

/-- The text of a moment. -/
def toText (t : Instant) : String := String.ofList (toChars "Z" t)

/-! ## Reading -/

/-- Why a text is not a moment. -/
inductive Fault where
  | invalid
  | tooShort
  | outOfRange
  | trailing
  /-- Universal time has no such moment. -/
  | impossible
deriving DecidableEq

def Fault.message : Fault → String
  | .invalid => "input contains invalid characters"
  | .tooShort => "premature end of input"
  | .outOfRange => "input is out of range"
  | .trailing => "trailing input"
  | .impossible => "no possible date and time matching input"

/-- What was read, mostly together with the text behind it. -/
abbrev Scan := Except Fault

def skipBlanks (cs : List Char) : List Char := cs.dropWhile isBlank

/-- The first number that is too large to be read. -/
def numberLimit : Nat := twoTo 63

/-- Continues a number by up to `most` digits. -/
def scanDigits (n : Nat) : Nat → List Char → Scan (Nat × List Char)
  | 0, cs => .ok (n, cs)
  | _ + 1, [] => .ok (n, [])
  | most + 1, c :: cs =>
    match digitValue? c with
    | none => .ok (n, c :: cs)
    | some d =>
      if n * 10 + d < numberLimit then scanDigits (n * 10 + d) most cs else .error .outOfRange

/-- A number of one to `most` digits. -/
def scanNumber (most : Nat) (cs : List Char) : Scan (Nat × List Char) :=
  match cs with
  | [] => .error .tooShort
  | c :: _ => if isDigit c then scanDigits 0 most cs else .error .invalid

/-- White space and a number of one or two digits in the given range. -/
def scanField (low high : Nat) (cs : List Char) : Scan (Nat × List Char) := do
  let (n, rest) ← scanNumber 2 (skipBlanks cs)
  if low ≤ n ∧ n ≤ high then pure (n, rest) else throw .outOfRange

/-- A separator, with white space before it. -/
def scanMark (mark : Char) (cs : List Char) : Scan (List Char) :=
  match skipBlanks cs with
  | [] => .error .tooShort
  | c :: rest => if c = mark then .ok rest else .error .invalid

/-- The year: four digits at most, or any number of them behind a sign. -/
def scanYear (cs : List Char) : Scan (Int × List Char) := do
  let (y, rest) ← (match skipBlanks cs with
    | '-' :: rest => do
      let (n, rest) ← scanNumber rest.length rest
      pure (-(n : Int), rest)
    | '+' :: rest => do
      let (n, rest) ← scanNumber rest.length rest
      pure ((n : Int), rest)
    | rest => do
      let (n, rest) ← scanNumber 4 rest
      pure ((n : Int), rest) : Scan (Int × List Char))
  if -(twoTo 31 : Int) ≤ y ∧ y < twoTo 31 then pure (y, rest) else throw .outOfRange

/-- A fraction of a second in nanoseconds. Digits behind the ninth are passed over. -/
def scanFraction (cs : List Char) : Scan (Nat × List Char) :=
  match cs with
  | '.' :: rest => do
    let (n, behind) ← scanNumber 9 rest
    pure (n * tenTo (9 - (rest.length - behind.length)), behind.dropWhile isDigit)
  | _ => .ok (0, cs)

/-- Two characters that have to be digits. -/
def scanTwo (cs : List Char) : Scan ((Nat × Nat) × List Char) :=
  match cs with
  | [] => .error .tooShort
  | [c] => if c.toNat < 128 then .error .tooShort else .error .invalid
  | a :: b :: rest =>
    match digitValue? a, digitValue? b with
    | some a, some b => .ok ((a, b), rest)
    | _, _ => .error .invalid

/-- Hours and minutes of an offset, in minutes. -/
def scanHoursAndMinutes (cs : List Char) : Scan (Nat × List Char) := do
  let ((h, k), rest) ← scanTwo cs
  let ((m, n), rest) ← scanTwo (rest.dropWhile fun c => c == ':' || isBlank c)
  if m < 6 then pure ((h * 10 + k) * 60 + m * 10 + n, rest) else throw .outOfRange

/-- The offset from universal time in minutes. -/
def scanOffset (cs : List Char) : Scan (Int × List Char) :=
  match cs with
  | [] => .error .tooShort
  | c :: rest =>
    if (cs.take 3).map lowerChar = ['u', 't', 'c'] then .ok (0, cs.drop 3)
    else if c = 'Z' ∨ c = 'z' then .ok (0, rest)
    else if c = '+' then do
      let (n, rest) ← scanHoursAndMinutes rest
      pure ((n : Int), rest)
    else if c = '-' ∨ c = '\u2212' then do
      let (n, rest) ← scanHoursAndMinutes rest
      pure (-(n : Int), rest)
    else .error .invalid

/-- The letter or the space between date and time. -/
def scanDivider (cs : List Char) : Scan (List Char) :=
  match cs with
  | [] => .error .tooShort
  | c :: rest => if c = 't' ∨ c = 'T' ∨ c = ' ' then .ok rest else .error .invalid

/-- The fields of a text, before it is known whether they name a moment. -/
structure Fields where
  year : Int
  month : Nat
  day : Nat
  hour : Nat
  minute : Nat
  second : Nat
  nano : Nat
  /-- Minutes ahead of universal time. -/
  offset : Int
deriving DecidableEq

/-- Reads the fields up to the end of the text. -/
def scanFields (cs : List Char) : Scan Fields := do
  let (year, cs) ← scanYear cs
  let (month, cs) ← scanField 1 12 (← scanMark '-' cs)
  let (day, cs) ← scanField 1 31 (← scanMark '-' cs)
  let (hour, cs) ← scanField 0 23 (← scanDivider cs)
  let (minute, cs) ← scanField 0 59 (← scanMark ':' cs)
  let (second, cs) ← scanField 0 60 (← scanMark ':' cs)
  let (nano, cs) ← scanFraction cs
  let (offset, cs) ← scanOffset (skipBlanks cs)
  if cs.all isBlank then pure { year, month, day, hour, minute, second, nano, offset }
  else throw .trailing

/-- The moment that the fields name. -/
def Fields.toInstant (f : Fields) : Scan Instant :=
  match Date.of? f.year f.month f.day with
  | none => .error .outOfRange
  | some date =>
    match Instant.of? date f.hour f.minute f.second f.nano with
    | none => .error .outOfRange
    | some t =>
      if f.offset.natAbs < 24 * 60 then
        match t.later? (-f.offset) with
        | some t => .ok t
        | none => .error .impossible
      else .error .outOfRange

/-- Reads a moment. -/
def ofText (s : String) : Scan Instant := do
  (← scanFields s.toList).toInstant

end Timestamp

end MarketDesk
