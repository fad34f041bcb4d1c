import MarketDesk.Decimal.Arithmetic
import MarketDesk.Text.Digits

/-!
The text of decimals. `toText` writes every digit of the scale and `ofText?` reads digits with a
point, underscores and an optional sign; `ofScientific?` adds a power of ten behind an `e`.
`fixed?` writes a chosen number of places into a field of bounded width.
-/

namespace MarketDesk.Decimal

open MarketDesk.Text

/-- `m / 10 ^ places` with exactly `places` digits behind the point. -/
def pointed (m places : Nat) : List Char :=
  if places = 0 then digits m
  else digits (m / tenTo places) ++ '.' :: lastDigits m places

def signText (a : Decimal) : String :=
  if a.negative then "-" else ""

/-- The decimal with all digits of its scale. -/
def toText (a : Decimal) : String :=
  a.signText ++ String.ofList (pointed a.magnitude a.scale)

instance : ToString Decimal := ⟨toText⟩

/-- The width of the field that digits and point of a fixed text have to fit into. -/
def fieldWidth : Nat := 32

/-- No more places than this can be asked for. -/
def maxPlaces : Nat := 65535

/-- Digits and point with `places` places take more than the field holds. Whole numbers fit. -/
def overflowsField (a : Decimal) (places : Nat) : Bool :=
  decide (0 < places) &&
    decide (fieldWidth <
      (digits (a.magnitude / tenTo a.scale)).length + 1 + min places maxScale)

/-- A decimal of at most `places` fraction digits written with exactly that many. Places beyond the
largest scale are zeros that take no room in the field. -/
def padFixed? (a : Decimal) (places : Nat) : Option String :=
  if maxPlaces < places || a.overflowsField places then none
  else
    let shown := min places maxScale
    let m := a.magnitude * tenTo shown / tenTo a.scale
    some (a.signText ++
      String.ofList (pointed m shown ++ List.replicate (places - maxScale) '0'))

/-- The value rounded to `places` places, halves away from zero, and written with exactly that many.
None when the text does not fit its field. -/
def fixed? (a : Decimal) (places : Nat) : Option String :=
  (a.round places).padFixed? places

/-- What a text of digits denotes, before it is bound to a sign. -/
structure Reading where
  magnitude : Nat
  places : Nat
deriving DecidableEq

/-- A digit or a separator. -/
def isDigitOrBar (c : Char) : Bool := isDigit c || c == '_'

/-- Ends a reading at a digit that has no room: it rounds the digits before it, half upwards, and
the characters behind it only have to be digits or separators. -/
def roundOff (m places next : Nat) (rest : List Char) : Option Reading :=
  if rest.all isDigitOrBar then
    if next < 5 then some ⟨m, places⟩
    else if m + 1 < limit then some ⟨m + 1, places⟩
    else if places = 0 then none
    else some ⟨(m + 5) / 10, places - 1⟩
  else none

/-- From here on a magnitude does not surely leave room for another digit within 64 bits. -/
def wordRoom : Nat := (twoTo 64 - 1) / 10 - 255

/-- Reads digits after `m` with `places` of them behind the point. A separator may stand anywhere
after the first digit; `any` tells whether there was one. Where the place of the rounding digit is
reached, separators are passed over, but behind a short magnitude the first one counts as a zero: a
magnitude is short if it was below `wordRoom` before its last digit. -/
def readDigits (m places : Nat) (point any : Bool) : List Char → Option Reading
  | [] => if any then some ⟨m, places⟩ else none
  | c :: cs =>
    if point && places == maxScale then
      match digitValue? c with
      | some d => roundOff m places d cs
      | none =>
        if c == '_' then
          if m / 10 < wordRoom then roundOff m places 0 cs else readDigits m places point any cs
        else none
    else match digitValue? c with
      | some d =>
        if m * 10 + d < limit then
          readDigits (m * 10 + d) (if point then places + 1 else 0) point true cs
        else if point then roundOff m places d cs
        else none
      | none =>
        if c == '.' && !point then readDigits m places true any cs
        else if c == '_' && any then readDigits m places point any cs
        else none

/-- Reads an optional sign, then digits. A zero has no sign. -/
def ofChars? (cs : List Char) : Option Decimal :=
  match cs with
  | '-' :: rest => do
    let r ← readDigits 0 0 false false rest
    ofParts? (-r.magnitude) r.places
  | '+' :: rest => do
    let r ← readDigits 0 0 false false rest
    ofParts? r.magnitude r.places
  | _ => do
    let r ← readDigits 0 0 false false cs
    ofParts? r.magnitude r.places

/-- Multiplies by `10 ^ n` in at most two steps, the first by `10 ^ 19`. -/
def shiftUp? (a : Decimal) (n : Nat) : Option Decimal :=
  if n ≤ 19 then do mul? a (← ofParts? (tenTo n) 0)
  else do
    let b ← mul? a (← ofParts? (tenTo 19) 0)
    mul? b (← ofParts? (tenTo (n - 19)) 0)

/-- Divides by `10 ^ n` by moving the point. Digits beyond the largest scale are rounded off first,
and a number that becomes zero by that keeps its sign. -/
def shiftDown? (a : Decimal) (n : Nat) : Option Decimal :=
  if n ≤ maxScale then do
    let b := a.round (maxScale - n)
    pure ((← ofParts? b.coefficient (b.scale + n)).withSign a.negative)
  else none

/-- Applies an exponent: a scale at least as large only moves the point, otherwise the value is
multiplied out and loses its trailing zeros. -/
def raiseTen? (a : Decimal) (n : Nat) : Option Decimal :=
  if n ≤ a.scale then ofParts? a.coefficient (a.scale - n)
  else if n ≤ maxScale then (shiftUp? a n).map normalize
  else none

def isExponentMark (c : Char) : Bool := c == 'e' || c == 'E'

/-- Reads a decimal, an `e` and a whole exponent of 32 bits. -/
def ofScientific? (cs : List Char) : Option Decimal := do
  let a ← ofChars? (cs.takeWhile (!isExponentMark ·))
  match cs.dropWhile (!isExponentMark ·) with
  | [] => none
  | _ :: '-' :: ds => shiftDown? a (← boundedNumeral? (twoTo 32) ds)
  | _ :: ds => raiseTen? a (← boundedNumeral? (twoTo 32) ds)

/-- Reads a plain or a scientific text. -/
def ofText? (s : String) : Option Decimal :=
  ofChars? s.toList <|> ofScientific? s.toList

end MarketDesk.Decimal
