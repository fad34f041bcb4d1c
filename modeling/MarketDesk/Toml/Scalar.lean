import MarketDesk.Calendar.Date
import MarketDesk.Powers
import MarketDesk.Text.Digits
import MarketDesk.Toml.Text
import MarketDesk.Wire.Value

/-!
Numbers, truth values, dates and times of a TOML document. Each is a word without white space,
except that a space may stand between a date and a time.
-/

namespace MarketDesk.Toml

open MarketDesk.Text
open Wire (Value)

/-- The digits of a number with single underscores between them taken out. -/
def ungrouped? (isDigit : Char → Bool) : List Char → Option (List Char)
  | [] => none
  | [c] => if isDigit c then some [c] else none
  | c :: '_' :: cs => if isDigit c then (ungrouped? isDigit cs).map (c :: ·) else none
  | c :: cs => if isDigit c then (ungrouped? isDigit cs).map (c :: ·) else none

/-- The sign at the start of a number, true for a minus sign, and what is behind it. -/
def splitSign : List Char → Bool × List Char
  | '-' :: cs => (true, cs)
  | '+' :: cs => (false, cs)
  | cs => (false, cs)

/-- Digits without a needless zero at the start. -/
def leadingDigits? (cs : List Char) : Option (List Char) := do
  let ds ← ungrouped? isDigit cs
  match ds with
  | '0' :: _ :: _ => none
  | _ => some ds

/-- A whole number of 64 bits with a sign. -/
def integerValue? (negative : Bool) (n : Nat) : Option Value :=
  let i : Int := if negative then -(n : Int) else n
  if -(twoTo 63 : Int) ≤ i ∧ i < twoTo 63 then some (.int i) else none

/-- A number in digits of the given base. -/
def basedFrom? (base : Nat) (before : Nat) : List Char → Option Nat
  | [] => some before
  | c :: cs => do basedFrom? base (before * base + (← hexValue? c)) cs

/-- The characters are digits of the base. -/
def isDigitOf (base : Nat) (c : Char) : Bool :=
  match hexValue? c with
  | some d => decide (d < base)
  | none => false

/-- A number behind the mark of its base. -/
def based? (base : Nat) (cs : List Char) : Option Value := do
  let ds ← ungrouped? (isDigitOf base) cs
  integerValue? false (← basedFrom? base 0 ds)

/-- A whole number. -/
def integer? (cs : List Char) : Option Value :=
  match cs with
  | '0' :: 'x' :: ds => based? 16 ds
  | '0' :: 'o' :: ds => based? 8 ds
  | '0' :: 'b' :: ds => based? 2 ds
  | _ => do
    let (negative, cs) := splitSign cs
    integerValue? negative (← numeral? (← leadingDigits? cs))

/-- The double nearest to `m * 10 ^ e`. Exponents that no double can have are decided without
computing the power. -/
def nearestFloat (m : Nat) (e : Int) : Float :=
  if m = 0 then 0.0
  else if 400 < e then 1.0 / 0.0
  else if e + (digits m).length < -400 then 0.0
  else Float.ofScientific m (decide (e < 0)) e.natAbs

/-- The exponent of a number. -/
def exponent? (cs : List Char) : Option Int := do
  let (negative, cs) := splitSign cs
  let n ← numeral? (← ungrouped? isDigit cs)
  pure (if negative then -(n : Int) else n)

def isExponentMark (c : Char) : Bool := c == 'e' || c == 'E'

/-- A number with a fraction, an exponent or both. One that is too large is refused unless it is
negative. -/
def decimal? (cs : List Char) : Option Value := do
  let (negative, cs) := splitSign cs
  let mantissa := cs.takeWhile (!isExponentMark ·)
  let e ← match cs.dropWhile (!isExponentMark ·) with
    | [] => pure none
    | _ :: ds => (exponent? ds).map some
  let whole := mantissa.takeWhile (· != '.')
  let fraction ← match mantissa.dropWhile (· != '.') with
    | [] => pure none
    | _ :: ds => (ungrouped? isDigit ds).map some
  if e.isNone && fraction.isNone then none
  else
    let places := fraction.getD []
    let m ← numeral? ((← leadingDigits? whole) ++ places)
    let x := nearestFloat m (e.getD 0 - places.length)
    if negative then some (.float (-x))
    else if x.isInf then none
    else some (.float x)

/-- The words for infinity and for no number. -/
def special? (cs : List Char) : Option Value :=
  let (negative, cs) := splitSign cs
  let x : Option Float := match cs with
    | ['i', 'n', 'f'] => some (1.0 / 0.0)
    | ['n', 'a', 'n'] => some (0.0 / 0.0)
    | _ => none
  x.map fun x => .float (if negative then -x else x)

def truth? : List Char → Option Value
  | ['t', 'r', 'u', 'e'] => some (.bool true)
  | ['f', 'a', 'l', 's', 'e'] => some (.bool false)
  | _ => none

/-! ## Dates and times -/

/-- Two digits of a number in the given range. -/
def pair? (low high : Nat) (a b : Char) : Option Nat := do
  let n := (← digitValue? a) * 10 + (← digitValue? b)
  if low ≤ n ∧ n ≤ high then some n else none

/-- The characters behind a date. -/
def afterDate? : List Char → Option (List Char)
  | y₁ :: y₂ :: y₃ :: y₄ :: '-' :: m₁ :: m₂ :: '-' :: d₁ :: d₂ :: rest => do
    let y ← numeral? [y₁, y₂, y₃, y₄]
    let m ← pair? 1 12 m₁ m₂
    let d ← pair? 1 31 d₁ d₂
    if d ≤ daysInMonth y m then some rest else none
  | _ => none

/-- The characters behind a fraction of a second, if there is one. -/
def afterFraction? : List Char → Option (List Char)
  | '.' :: c :: rest => if isDigit c then some (rest.dropWhile isDigit) else none
  | '.' :: [] => none
  | rest => some rest

/-- The characters behind a time of day. -/
def afterTime? : List Char → Option (List Char)
  | h₁ :: h₂ :: ':' :: m₁ :: m₂ :: ':' :: s₁ :: s₂ :: rest => do
    let _ ← pair? 0 23 h₁ h₂
    let _ ← pair? 0 59 m₁ m₂
    let _ ← pair? 0 60 s₁ s₂
    afterFraction? rest
  | _ => none

/-- The rest of a moment is an offset from universal time or nothing. -/
def isOffset : List Char → Bool
  | [] | ['Z'] | ['z'] => true
  | [sign, h₁, h₂, ':', m₁, m₂] =>
    (sign == '+' || sign == '-') && (pair? 0 23 h₁ h₂).isSome && (pair? 0 59 m₁ m₂).isSome
  | _ => false

/-- The word is a time of day with or without an offset behind it. -/
def isTimeWithOffset (cs : List Char) : Bool :=
  match afterTime? cs with
  | some rest => isOffset rest
  | none => false

/-- The word is a date, a time or both. -/
def isMoment (cs : List Char) : Bool :=
  match afterDate? cs with
  | some [] => true
  | some (c :: rest) => (c == 'T' || c == 't' || c == ' ') && isTimeWithOffset rest
  | none => afterTime? cs == some []

def moment? (cs : List Char) : Option Value :=
  if isMoment cs then some (.moment (String.ofList cs)) else none

/-! ## Words -/

/-- The value of a word. -/
def ofWord? (cs : List Char) : Option Value :=
  truth? cs <|> special? cs <|> moment? cs <|> decimal? cs <|> integer? cs

/-- The characters that end a word. -/
def endsWord (c : Char) : Bool :=
  isSpace c || c == '\n' || c == '\r' || c == '#' || c == ',' || c == ']' || c == '\x7d'

/-- Two digits and a colon: the start of a time. -/
def startsTime : List Char → Bool
  | a :: b :: ':' :: _ => isDigit a && isDigit b
  | _ => false

/-- Reads a word; a date takes the time behind a space with it. -/
def readWord (cs : List Char) : Option (Value × List Char) :=
  let word := cs.takeWhile (!endsWord ·)
  match cs.dropWhile (!endsWord ·) with
  | ' ' :: rest =>
    if afterDate? word == some [] && startsTime rest then
      (moment? (word ++ ' ' :: rest.takeWhile (!endsWord ·))).map
        fun v => (v, rest.dropWhile (!endsWord ·))
    else (ofWord? word).map fun v => (v, ' ' :: rest)
  | rest => (ofWord? word).map fun v => (v, rest)

end MarketDesk.Toml
