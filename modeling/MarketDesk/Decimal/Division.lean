import MarketDesk.Decimal.Basic

/-!
Long division of decimals. The quotient is extended by up to nine digits at a time until the
remainder is zero, 28 fraction digits are written or no further digit fits; what remains is rounded
to nearest with ties to even. A quotient that had to be extended loses trailing zeros in steps of
eight, four, two and one digits, where the step of eight is tried only on a quotient that is a
multiple of `2 ^ 32`.
-/

namespace MarketDesk.Decimal

/-- The greatest number of digits, at most `most`, that can be appended to `q`. -/
def room (q : Nat) : Nat → Nat
  | 0 => 0
  | x + 1 => if q * tenTo (x + 1) ≤ limit then x + 1 else room q x

theorem room_le (q most : Nat) : room q most ≤ most := by
  induction most with
  | zero => exact Nat.le_refl 0
  | succ x ih =>
    unfold room
    split
    · exact Nat.le_refl _
    · exact Nat.le_succ_of_le ih

/-- A coefficient at a scale that may still be negative. -/
structure Quotient where
  coefficient : Nat
  scale : Int
deriving DecidableEq

/-- Rounds the quotient `q` with remainder `r` of a division by `b`. If the rounded quotient is too
large, the last digit is given up and the rounding is done one place earlier. -/
def settle (b q r : Nat) (s : Int) : Option Quotient :=
  let rounded := roundQuotient .toEven (q * b + r) b
  if rounded < limit then (if 0 ≤ s then some ⟨rounded, s⟩ else none)
  else if 1 ≤ s then some ⟨roundQuotient .toEven (q * b + r) (10 * b), s - 1⟩
  else none

/-- Raises a negative scale to zero. -/
def raise (q : Nat) (s : Int) : Option Quotient :=
  if 0 ≤ s then some ⟨q, s⟩
  else if q * tenTo (-s).toNat < limit then some ⟨q * tenTo (-s).toNat, 0⟩
  else none

/-- Extends the quotient `q` with remainder `r` of a division by `b`, digit by digit. -/
def extend (b q r : Nat) (s : Int) : Option Quotient :=
  if r = 0 then raise q s
  else
    let p := room q (min 9 (28 - s).toNat)
    if _h : p = 0 then settle b q r s
    else
      let q' := q * tenTo p + r * tenTo p / b
      let r' := r * tenTo p % b
      if q' < limit then extend b q' r' (s + p) else settle b q' r' (s + p)
termination_by (28 - s).toNat
decreasing_by
  have := room_le q (min 9 (28 - s).toNat)
  omega

/-- Removes zeros eight at a time. -/
def dropEights (q s : Nat) : Nat × Nat :=
  if 8 ≤ s ∧ q % twoTo 32 = 0 ∧ q % tenTo 8 = 0 then dropEights (q / tenTo 8) (s - 8) else (q, s)
termination_by s

/-- Removes `k` zeros if there are as many. -/
def dropZeros (k : Nat) (qs : Nat × Nat) : Nat × Nat :=
  if k ≤ qs.2 ∧ qs.1 % tenTo k = 0 then (qs.1 / tenTo k, qs.2 - k) else qs

/-- The zeros that are removed from an extended quotient. -/
def trim (q s : Nat) : Nat × Nat :=
  dropZeros 1 (dropZeros 2 (dropZeros 4 (dropEights q s)))

/-- The quotient of two positive coefficients whose scales differ by `s`. -/
def divide (a b : Nat) (s : Int) : Option Quotient :=
  if a % b = 0 then raise (a / b) s
  else (extend b (a / b) (a % b) s).map fun x =>
    let (q, t) := trim x.coefficient x.scale.toNat
    ⟨q, t⟩

/-- The quotient; none for a zero divisor and for a quotient that no decimal can hold. A zero
dividend gives a plain zero, and a quotient that is rounded to zero has no minus sign. -/
def div? (a b : Decimal) : Option Decimal :=
  if b.isZero then none
  else if a.isZero then some zero
  else do
    let x ← divide a.magnitude b.magnitude (a.scale - b.scale)
    ofParts? (a.coefficient.sign * b.coefficient.sign * x.coefficient) x.scale.toNat

/-- Half of a decimal. -/
def half? (a : Decimal) : Option Decimal :=
  div? a two

end MarketDesk.Decimal
