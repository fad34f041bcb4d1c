import MarketDesk.Decimal.Rounding
import MarketDesk.Powers

/-!
Decimal numbers of bounded size: a magnitude below `2 ^ 96`, divided by a power of ten of at most
`10 ^ 28`, with a sign. The scale is part of a decimal, so that `1.5` and `1.50` are two decimals of
one value, and so is the sign of a zero; `Decimal.cmp` compares values.
-/

namespace MarketDesk

/-- The first number that no magnitude reaches. -/
def Decimal.limit : Nat := twoTo 96

/-- The largest number of fraction digits. -/
def Decimal.maxScale : Nat := 28

/-- The number `magnitude / 10 ^ scale` or its opposite. -/
structure Decimal where
  /-- It stands behind a minus sign, which a zero may have too. -/
  negative : Bool
  magnitude : Nat
  scale : Nat
  magnitude_lt : magnitude < Decimal.limit := by decide
  scale_le : scale ≤ Decimal.maxScale := by decide
deriving DecidableEq

namespace Decimal

/-- The magnitude with the sign. -/
def coefficient (a : Decimal) : Int :=
  if a.negative then -(a.magnitude : Int) else a.magnitude

@[simp] theorem natAbs_coefficient (a : Decimal) : a.coefficient.natAbs = a.magnitude := by
  unfold coefficient
  split <;> simp

/-- The decimal with the given coefficient and scale, if they are within bounds. A zero has no
minus sign. -/
def ofParts? (c : Int) (s : Nat) : Option Decimal :=
  if h : c.natAbs < limit ∧ s ≤ maxScale then some ⟨decide (c < 0), c.natAbs, s, h.1, h.2⟩
  else none

def zero : Decimal := ⟨false, 0, 0, by decide, by decide⟩

def one : Decimal := ⟨false, 1, 0, by decide, by decide⟩

def two : Decimal := ⟨false, 2, 0, by decide, by decide⟩

/-- The decimal with parts that are known to be within bounds; zero otherwise. -/
def ofParts (c : Int) (s : Nat) : Decimal := (ofParts? c s).getD zero

instance : Inhabited Decimal := ⟨zero⟩

/-- The value is zero, whatever the sign. -/
def isZero (a : Decimal) : Bool := a.magnitude == 0

/-- The value is below zero. -/
def isNegative (a : Decimal) : Bool := decide (a.coefficient < 0)

@[simp] theorem isZero_iff {a : Decimal} : a.isZero = true ↔ a.magnitude = 0 := by
  simp [isZero]

@[simp] theorem isNegative_iff {a : Decimal} : a.isNegative = true ↔ a.coefficient < 0 := by
  simp [isNegative]

/-- A value is below zero if it has a minus sign and is no zero. -/
theorem isNegative_eq (a : Decimal) : a.isNegative = (a.negative && !a.isZero) := by
  unfold isNegative coefficient isZero
  cases a.negative with
  | false => simp
  | true => by_cases h : a.magnitude = 0 <;> simp [h, Nat.pos_iff_ne_zero]

/-- The same magnitude and scale with a sign that a zero has too. -/
def withSign (a : Decimal) (negative : Bool) : Decimal := { a with negative }

/-- The opposite number, at the same scale. A zero keeps its sign. -/
def opposite (a : Decimal) : Decimal :=
  if a.isZero then a else a.withSign !a.negative

/-- Order by value: both sides are brought to one denominator. -/
def cmp (a b : Decimal) : Ordering :=
  compare (a.coefficient * tenTo b.scale) (b.coefficient * tenTo a.scale)

/-- `a` has a smaller value than `b`. -/
def lt (a b : Decimal) : Prop :=
  a.coefficient * tenTo b.scale < b.coefficient * tenTo a.scale

/-- The value of `a` is at most that of `b`. -/
def le (a b : Decimal) : Prop :=
  a.coefficient * tenTo b.scale ≤ b.coefficient * tenTo a.scale

instance : LT Decimal := ⟨lt⟩

instance : LE Decimal := ⟨le⟩

instance (a b : Decimal) : Decidable (a < b) :=
  inferInstanceAs (Decidable (a.coefficient * tenTo b.scale < b.coefficient * tenTo a.scale))

instance (a b : Decimal) : Decidable (a ≤ b) :=
  inferInstanceAs (Decidable (a.coefficient * tenTo b.scale ≤ b.coefficient * tenTo a.scale))

theorem lt_def {a b : Decimal} :
    a < b ↔ a.coefficient * tenTo b.scale < b.coefficient * tenTo a.scale := .rfl

theorem le_def {a b : Decimal} :
    a ≤ b ↔ a.coefficient * tenTo b.scale ≤ b.coefficient * tenTo a.scale := .rfl

/-- The larger of two decimals, and of two with one value the second. -/
def maxRight (a b : Decimal) : Decimal :=
  if b < a then a else b

/-- The decimal of a scaled coefficient at the finest scale up to `t` at which the coefficient,
rounded to nearest with ties to even, stays below the limit. Each scale is tried on the exact
number, so nothing is rounded twice. -/
def fitFrom (c : Int) (s : Nat) : Nat → Option Decimal
  | 0 => ofParts? (roundSigned .toEven c (tenTo s)) 0
  | t + 1 =>
    match ofParts? (roundSigned .toEven c (tenTo (s - (t + 1)))) (t + 1) with
    | some d => some d
    | none => fitFrom c s t

/-- The decimal nearest to `c / 10 ^ s` with as many fraction digits as fit; none if even the
nearest whole number is too large. -/
def fit? (c : Int) (s : Nat) : Option Decimal :=
  fitFrom c s (min s maxScale)

/-- The value with at most `places` fraction digits, nearest to `a` and halves away from zero.
A decimal with no more digits than that is left as it is. A number that becomes zero loses its sign;
a zero keeps it. -/
def round (a : Decimal) (places : Nat) : Decimal :=
  if h : a.scale ≤ places then a
  else
    let m := roundQuotient .awayFromZero a.magnitude (tenTo (a.scale - places))
    ⟨a.negative && (a.isZero || m != 0), m, places,
      Nat.lt_of_le_of_lt (roundQuotient_le _ _ (tenTo_pos _)) a.magnitude_lt,
      by have := a.scale_le; omega⟩

/-- Magnitude and scale without trailing zeros in the fraction. -/
def stripped (m : Nat) : Nat → Nat × Nat
  | 0 => (m, 0)
  | s + 1 => if m % 10 = 0 then stripped (m / 10) s else (m, s + 1)

theorem stripped_scale_le (m s : Nat) : (stripped m s).2 ≤ s := by
  induction s generalizing m with
  | zero => exact Nat.le_refl 0
  | succ s ih =>
    unfold stripped
    split
    · exact Nat.le_succ_of_le (ih _)
    · exact Nat.le_refl _

theorem stripped_magnitude_le (m s : Nat) : (stripped m s).1 ≤ m := by
  induction s generalizing m with
  | zero => exact Nat.le_refl _
  | succ s ih =>
    unfold stripped
    split
    · exact Nat.le_trans (ih _) (Nat.div_le_self m 10)
    · exact Nat.le_refl _

/-- The same value without trailing zeros in the fraction. A zero becomes a plain zero. -/
def normalize (a : Decimal) : Decimal :=
  ⟨a.isNegative, (stripped a.magnitude a.scale).1, (stripped a.magnitude a.scale).2,
    Nat.lt_of_le_of_lt (stripped_magnitude_le _ _) a.magnitude_lt,
    Nat.le_trans (stripped_scale_le _ _) a.scale_le⟩

end Decimal

end MarketDesk
