import MarketDesk.Calendar.Rfc3339

/-!
Date patterns: text in which a percent sign and a letter stand for a part of a moment. A pattern is
read once into a list of pieces (`Pattern.ofText?`), which can then be written for every moment
(`Pattern.render`). Names are English and the zone is universal time.
-/

namespace MarketDesk

open MarketDesk.Text

namespace Pattern

/-- What fills a number up to its usual width. -/
inductive Pad where
  | none
  | zero
  | space
deriving DecidableEq

/-- The numbers of a moment. -/
inductive Number where
  | year
  | century
  | yearOfCentury
  | isoYear
  | isoYearOfCentury
  | quarter
  | month
  | day
  | weekFromSunday
  | weekFromMonday
  | isoWeek
  | daysSinceSunday
  | weekdayFromMonday
  | ordinal
  | hour
  | hourOfHalf
  | minute
  | second
  | nano
  | unixSeconds
deriving DecidableEq

/-- The names of a moment and the notations that have no choice of padding. -/
inductive Name where
  | weekday
  | shortWeekday
  | month
  | shortMonth
  | lowerHalf
  | upperHalf
  | zone
  /-- The fraction of the second with its point, in as many groups of three digits as it needs. -/
  | fraction
  /-- The first digits of the fraction, with or without a point before them. -/
  | firstDigits (point : Bool) (count : Nat)
  /-- The whole moment as in RFC 3339. -/
  | timestamp
deriving DecidableEq

/-- A piece of a pattern. -/
inductive Piece where
  | literal (s : List Char)
  | number (n : Number) (pad : Pad)
  | name (n : Name)
deriving DecidableEq

/-! ## Reading -/

def zeros (n : Number) : List Piece := [.number n .zero]

def spaces (n : Number) : List Piece := [.number n .space]

def bare (n : Number) : List Piece := [.number n .none]

def mark (c : Char) : List Piece := [.literal [c]]

/-- Month, day and year with strokes between them. -/
def strokedDate : List Piece :=
  zeros .month ++ mark '/' ++ zeros .day ++ mark '/' ++ zeros .yearOfCentury

def hourAndMinute : List Piece := zeros .hour ++ mark ':' ++ zeros .minute

def timeOfDay : List Piece := hourAndMinute ++ mark ':' ++ zeros .second

/-- What a letter stands for. -/
def ofLetter? : Char → Option (List Piece)
  | 'A' => some [.name .weekday]
  | 'a' => some [.name .shortWeekday]
  | 'B' => some [.name .month]
  | 'b' | 'h' => some [.name .shortMonth]
  | 'C' => some (zeros .century)
  | 'c' => some ([.name .shortWeekday] ++ mark ' ' ++ [.name .shortMonth] ++ mark ' ' ++
      spaces .day ++ mark ' ' ++ timeOfDay ++ mark ' ' ++ zeros .year)
  | 'D' | 'x' => some strokedDate
  | 'd' => some (zeros .day)
  | 'e' => some (spaces .day)
  | 'F' => some (zeros .year ++ mark '-' ++ zeros .month ++ mark '-' ++ zeros .day)
  | 'f' => some (zeros .nano)
  | 'G' => some (zeros .isoYear)
  | 'g' => some (zeros .isoYearOfCentury)
  | 'H' => some (zeros .hour)
  | 'I' => some (zeros .hourOfHalf)
  | 'j' => some (zeros .ordinal)
  | 'k' => some (spaces .hour)
  | 'l' => some (spaces .hourOfHalf)
  | 'M' => some (zeros .minute)
  | 'm' => some (zeros .month)
  | 'n' => some (mark '\n')
  | 'P' => some [.name .lowerHalf]
  | 'p' => some [.name .upperHalf]
  | 'q' => some (bare .quarter)
  | 'R' => some hourAndMinute
  | 'r' => some (zeros .hourOfHalf ++ mark ':' ++ zeros .minute ++ mark ':' ++ zeros .second ++
      mark ' ' ++ [.name .upperHalf])
  | 'S' => some (zeros .second)
  | 's' => some (bare .unixSeconds)
  | 'T' | 'X' => some timeOfDay
  | 't' => some (mark '\t')
  | 'U' => some (zeros .weekFromSunday)
  | 'u' => some (bare .weekdayFromMonday)
  | 'V' => some (zeros .isoWeek)
  | 'v' => some (spaces .day ++ mark '-' ++ [.name .shortMonth] ++ mark '-' ++ zeros .year)
  | 'W' => some (zeros .weekFromMonday)
  | 'w' => some (bare .daysSinceSunday)
  | 'Y' => some (zeros .year)
  | 'y' => some (zeros .yearOfCentury)
  | 'Z' => some [.name .zone]
  | 'z' => some [.literal ['+', '0', '0', '0', '0']]
  | '+' => some [.name .timestamp]
  | '%' => some (mark '%')
  | _ => none

/-- The counts of fraction digits that can be asked for. -/
def digitCount? : Char → Option Nat
  | '3' => some 3
  | '6' => some 6
  | '9' => some 9
  | _ => none

/-- The padding that a character before a letter asks for. -/
def padOf? : Char → Option Pad
  | '-' => some .none
  | '0' => some .zero
  | '_' => some .space
  | _ => none

/-- Another padding for a piece. Only a number on its own can be padded. -/
def repad? (pad : Pad) : List Piece → Option (List Piece)
  | [.number n _] => some [.number n pad]
  | _ => none

/-- The pieces that the characters behind a percent sign stand for, and how many of the characters
there are. -/
def ofSpecifier? : List Char → Option (List Piece × Nat)
  | ':' :: ':' :: ':' :: 'z' :: _ => some ([.literal ['+', '0', '0']], 4)
  | ':' :: ':' :: 'z' :: _ =>
    some ([.literal ['+', '0', '0', ':', '0', '0', ':', '0', '0']], 3)
  | ':' :: 'z' :: _ => some ([.literal ['+', '0', '0', ':', '0', '0']], 2)
  | '.' :: 'f' :: _ => some ([.name .fraction], 2)
  | '.' :: d :: 'f' :: _ => (digitCount? d).map fun n => ([.name (.firstDigits true n)], 3)
  | c :: rest =>
    match padOf? c, rest with
    | some pad, d :: _ => do
      let pieces ← repad? pad (← ofLetter? d)
      pure (pieces, 2)
    | some _, [] => none
    | none, _ =>
      match digitCount? c, rest with
      | some n, 'f' :: _ => some ([.name (.firstDigits false n)], 2)
      | some _, _ => none
      | none, _ => (ofLetter? c).map fun pieces => (pieces, 1)
  | [] => none

/-- Reads a pattern of at most `fuel` characters. -/
def ofChars? : Nat → List Char → Option (List Piece)
  | _, [] => some []
  | 0, _ :: _ => none
  | fuel + 1, '%' :: rest => do
    let (pieces, n) ← ofSpecifier? rest
    pure (pieces ++ (← ofChars? fuel (rest.drop n)))
  | fuel + 1, c :: rest => do pure (.literal [c] :: (← ofChars? fuel rest))

/-! ## Writing -/

def weekdayNames : List String :=
  ["Monday", "Tuesday", "Wednesday", "Thursday", "Friday", "Saturday", "Sunday"]

def monthNames : List String :=
  ["January", "February", "March", "April", "May", "June", "July", "August", "September",
    "October", "November", "December"]

/-- The first three letters of a name. -/
def short (s : String) : List Char := s.toList.take 3

/-- A number below 256 with two digits. The character before the last digit counts on from the digit
nine when the number has three digits. -/
def twoPlaces (pad : Pad) (v : Nat) : List Char :=
  let last := digitChar (v % 10)
  if v / 10 = 0 then
    match pad with
    | .none => [last]
    | .space => [' ', last]
    | .zero => ['0', last]
  else [Char.ofNat ('0'.toNat + v / 10), last]

/-- The text of a number, filled up to a width. The sign stands before filling zeros and behind
filling spaces. -/
def wide (pad : Pad) (width : Nat) (plus : Bool) (v : Int) : List Char :=
  let sign := if v < 0 then ['-'] else if plus then ['+'] else []
  match pad with
  | .none => sign ++ digits v.natAbs
  | .zero => sign ++ padded '0' (width - sign.length) v.natAbs
  | .space =>
    let ds := sign ++ digits v.natAbs
    List.replicate (width - ds.length) ' ' ++ ds

/-- A year of four digits; other years before zero or after 9999 have a sign. -/
def yearDigits (pad : Pad) (y : Int) : List Char :=
  if 0 ≤ y ∧ y ≤ 9999 then wide pad 4 false y else wide pad 5 true y

/-- The hour of half a day, from one to twelve. -/
def hourOfHalf (h : Nat) : Nat := if h % 12 = 0 then 12 else h % 12

/-- The text of a number of a moment. -/
def Number.render (t : Instant) (pad : Pad) : Number → List Char
  | .year => yearDigits pad t.date.year
  | .century => twoPlaces pad (t.date.year / 100 % 256).toNat
  | .yearOfCentury => twoPlaces pad (t.date.year % 100).toNat
  | .isoYear => yearDigits pad t.date.isoWeek.1
  | .isoYearOfCentury => twoPlaces pad (t.date.isoWeek.1 % 100).toNat
  | .quarter => [digitChar t.date.quarter]
  | .month => twoPlaces pad t.date.month
  | .day => twoPlaces pad t.date.day
  | .weekFromSunday => twoPlaces pad (t.date.weekOfYear t.date.sinceSunday)
  | .weekFromMonday => twoPlaces pad (t.date.weekOfYear t.date.sinceMonday)
  | .isoWeek => twoPlaces pad t.date.isoWeek.2
  | .daysSinceSunday => [digitChar t.date.sinceSunday]
  | .weekdayFromMonday => [digitChar (t.date.sinceMonday + 1)]
  | .ordinal => wide pad 3 false t.date.ordinal
  | .hour => twoPlaces pad t.hour
  | .hourOfHalf => twoPlaces pad (Pattern.hourOfHalf t.hour)
  | .minute => twoPlaces pad t.minute
  | .second => twoPlaces pad t.secondOfMinute
  | .nano => wide pad 9 false t.nanoOfSecond
  | .unixSeconds => wide pad 9 false t.unixSeconds

/-- The text of a name of a moment. -/
def Name.render (t : Instant) : Name → List Char
  | .weekday => (weekdayNames[t.date.sinceMonday]?.getD "").toList
  | .shortWeekday => short (weekdayNames[t.date.sinceMonday]?.getD "")
  | .month => (monthNames[t.date.month - 1]?.getD "").toList
  | .shortMonth => short (monthNames[t.date.month - 1]?.getD "")
  | .lowerHalf => if t.hour < 12 then ['a', 'm'] else ['p', 'm']
  | .upperHalf => if t.hour < 12 then ['A', 'M'] else ['P', 'M']
  | .zone => ['U', 'T', 'C']
  | .fraction => Timestamp.fractionText t.nanoOfSecond
  | .firstDigits point n =>
    (if point then ['.'] else []) ++ lastDigits (t.nanoOfSecond / tenTo (9 - n)) n
  | .timestamp => Timestamp.toChars "+00:00" t

/-- The text of a piece. -/
def Piece.render (t : Instant) : Piece → List Char
  | .literal s => s
  | .number n pad => n.render t pad
  | .name n => n.render t

end Pattern

/-- A date pattern that can be written for every moment. -/
structure Pattern where
  pieces : List Pattern.Piece
deriving DecidableEq

namespace Pattern

/-- Reads a pattern; none if a percent sign stands before something that has no meaning. -/
def ofText? (s : String) : Option Pattern :=
  (ofChars? s.length s.toList).map Pattern.mk

/-- The text of a moment. -/
def render (p : Pattern) (t : Instant) : String :=
  String.ofList (p.pieces.flatMap (Piece.render t))

end Pattern

end MarketDesk
