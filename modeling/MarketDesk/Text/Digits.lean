/-!
Decimal digits of natural numbers, most significant first. `digits` writes a number without
superfluous leading zeros, `lastDigits` writes a fixed number of places, and `padded` puts a number
right of a filling character. `digitValue?` and `numeral?` read them back.
-/

namespace MarketDesk.Text

/-- The character of a digit; only numbers below ten have one of their own. -/
def digitChar (d : Nat) : Char :=
  Char.ofNat ('0'.toNat + d % 10)

/-- The value of an ASCII digit. -/
def digitValue? (c : Char) : Option Nat :=
  if '0' ≤ c ∧ c ≤ '9' then some (c.toNat - '0'.toNat) else none

def isDigit (c : Char) : Bool :=
  decide ('0' ≤ c ∧ c ≤ '9')

/-- The digits of `m`: one for zero, otherwise beginning with a non-zero one. -/
def digits (m : Nat) : List Char :=
  if m < 10 then [digitChar m] else digits (m / 10) ++ [digitChar (m % 10)]
termination_by m
decreasing_by omega

/-- The last `n` digits of `m`. -/
def lastDigits (m : Nat) : Nat → List Char
  | 0 => []
  | n + 1 => lastDigits (m / 10) n ++ [digitChar (m % 10)]

@[simp] theorem length_lastDigits (m n : Nat) : (lastDigits m n).length = n := by
  induction n generalizing m with
  | zero => rfl
  | succ n ih => simp [lastDigits, ih]

/-- The digits of `m`, filled on the left to a width of at least `width`. -/
def padded (fill : Char) (width m : Nat) : List Char :=
  let ds := digits m
  List.replicate (width - ds.length) fill ++ ds

/-- The number that a row of digits denotes after the digits read before it. -/
def numeralFrom? (before : Nat) : List Char → Option Nat
  | [] => some before
  | c :: cs => do
    let d ← digitValue? c
    numeralFrom? (before * 10 + d) cs

/-- The number that a non-empty row of digits denotes. -/
def numeral? : List Char → Option Nat
  | [] => none
  | cs => numeralFrom? 0 cs

/-- A whole number below `bound`, with an optional plus sign. -/
def boundedNumeral? (bound : Nat) (cs : List Char) : Option Nat := do
  let n ← numeral? (match cs with | '+' :: rest => rest | _ => cs)
  if n < bound then some n else none

/-- The text of a natural number. -/
def ofNat (m : Nat) : String :=
  String.ofList (digits m)

/-- The text of an integer: a minus sign before the digits of a negative one. -/
def ofInt (i : Int) : String :=
  if i < 0 then "-" ++ ofNat i.natAbs else ofNat i.natAbs

end MarketDesk.Text
