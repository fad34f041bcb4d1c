import Mathlib.Tactic.Linarith
import MarketDesk.Proofs.Decimal.Rounding
import MarketDesk.Proofs.Decimal.Value

/-!
# Sums of decimals

A sum is missing just if the exact sum of the values reaches `limit - 1 / 2` in absolute value
(`add?_eq_none_iff`).
-/

namespace MarketDesk.Decimal

variable {a b : Decimal}

/-- Appending zeros does not change a value. -/
theorem coefficient_mul_tenTo {s : Nat} (h : a.scale ≤ s) :
    (a.coefficient * tenTo (s - a.scale) : ℚ) = a.value * tenTo s := by
  obtain ⟨k, rfl⟩ := Nat.le.dest h
  have := tenTo_cast_pos a.scale
  rw [Nat.add_sub_cancel_left, tenTo_add, value]
  push_cast
  field_simp

/-- **Where sums end.** A sum is missing just if the exact one would be rounded to a whole number
beyond the largest decimal. -/
theorem add?_eq_none_iff : a.add? b = none ↔ (limit : ℚ) - 1 / 2 ≤ |a.value + b.value| := by
  unfold add?
  split
  · rename_i ha
    have := b.abs_value_le
    rw [value_eq_zero (isZero_iff.mp ha), zero_add]
    simp only [reduceCtorEq, false_iff, not_le]
    linarith
  split
  · rename_i hb
    have := a.abs_value_le
    rw [value_eq_zero (isZero_iff.mp hb), add_zero]
    simp only [reduceCtorEq, false_iff, not_le]
    linarith
  dsimp only
  generalize hs : max a.scale b.scale = s
  have ha : a.scale ≤ s := hs ▸ Nat.le_max_left _ _
  have hb : b.scale ≤ s := hs ▸ Nat.le_max_right _ _
  have hpos := tenTo_cast_pos s
  have hsum :
      ((a.coefficient * tenTo (s - a.scale) + b.coefficient * tenTo (s - b.scale) : Int) : ℚ) =
        (a.value + b.value) * tenTo s := by
    push_cast
    rw [coefficient_mul_tenTo ha, coefficient_mul_tenTo hb, add_mul]
  rw [fit?_eq_none_iff]
  generalize a.coefficient * (tenTo (s - a.scale) : Int) +
    b.coefficient * (tenTo (s - b.scale) : Int) = c at hsum ⊢
  have hcast : (2 * limit - 1) * tenTo s ≤ 2 * c.natAbs ↔
      ((2 * limit - 1) * tenTo s : ℚ) ≤ 2 * |(c : ℚ)| := by
    rw [← Int.cast_abs, ← Nat.cast_natAbs, ← Nat.cast_le (α := ℚ), Nat.cast_mul,
      Nat.cast_sub (by decide)]
    push_cast
    rfl
  rw [hcast, hsum, abs_mul, abs_of_pos hpos, ← mul_assoc, mul_le_mul_iff_left₀ hpos]
  constructor <;> intro h <;> linarith

end MarketDesk.Decimal
