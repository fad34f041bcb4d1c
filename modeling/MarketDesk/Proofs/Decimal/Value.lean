import Mathlib.Algebra.Order.Field.Rat
import Mathlib.Tactic.FieldSimp
import Mathlib.Tactic.Linarith
import Mathlib.Tactic.Positivity
import MarketDesk.Decimal.Arithmetic

/-!
# The number that a decimal stands for

`Decimal.value` forgets scale and the sign of a zero. The order of decimals is the order of their
values (`lt_iff_value_lt`, `le_iff_value_le`), so it is a preorder.
-/

namespace MarketDesk.Decimal

variable {a b c : Decimal}

/-- The number `coefficient / 10 ^ scale`. -/
def value (a : Decimal) : ℚ := a.coefficient / tenTo a.scale

theorem tenTo_cast_pos (n : Nat) : (0 : ℚ) < tenTo n := by
  exact_mod_cast tenTo_pos n

theorem lt_iff_value_lt : a < b ↔ a.value < b.value := by
  rw [lt_def, value, value, div_lt_div_iff₀ (tenTo_cast_pos _) (tenTo_cast_pos _)]
  exact_mod_cast Iff.rfl

theorem le_iff_value_le : a ≤ b ↔ a.value ≤ b.value := by
  rw [le_def, value, value, div_le_div_iff₀ (tenTo_cast_pos _) (tenTo_cast_pos _)]
  exact_mod_cast Iff.rfl

/-- Comparing decimals is comparing their values. -/
theorem cmp_eq_compare_value (a b : Decimal) : a.cmp b = compare a.value b.value := by
  have hlt : a.coefficient * tenTo b.scale < b.coefficient * tenTo a.scale ↔ a.value < b.value :=
    lt_iff_value_lt
  have hgt : b.coefficient * tenTo a.scale < a.coefficient * tenTo b.scale ↔ b.value < a.value :=
    lt_iff_value_lt
  rw [cmp]
  rcases lt_trichotomy a.value b.value with h | h | h
  · rw [compare_lt_iff_lt.mpr h, compare_lt_iff_lt.mpr (hlt.mpr h)]
  · have heq : a.coefficient * tenTo b.scale = b.coefficient * tenTo a.scale :=
      le_antisymm (not_lt.mp (mt hgt.mp h.symm.not_lt)) (not_lt.mp (mt hlt.mp h.not_lt))
    rw [compare_eq_iff_eq.mpr h, compare_eq_iff_eq.mpr heq]
  · rw [compare_gt_iff_gt.mpr h, compare_gt_iff_gt.mpr (hgt.mpr h)]

instance : Preorder Decimal where
  le_refl _ := le_iff_value_le.mpr le_rfl
  le_trans _ _ _ hab hbc :=
    le_iff_value_le.mpr ((le_iff_value_le.mp hab).trans (le_iff_value_le.mp hbc))
  lt_iff_le_not_ge _ _ := by
    rw [lt_iff_value_lt, le_iff_value_le, le_iff_value_le, not_le]
    exact ⟨fun h => ⟨h.le, h⟩, And.right⟩

theorem le_of_not_lt (h : ¬ a < b) : b ≤ a :=
  le_iff_value_le.mpr (not_lt.mp (mt lt_iff_value_lt.mpr h))

theorem maxRight_eq_or (a b : Decimal) : maxRight a b = a ∨ maxRight a b = b := by
  unfold maxRight
  split
  · exact .inl rfl
  · exact .inr rfl

theorem le_maxRight (a b : Decimal) : a ≤ maxRight a b ∧ b ≤ maxRight a b := by
  unfold maxRight
  split
  · exact ⟨le_rfl, le_of_lt ‹_›⟩
  · exact ⟨le_of_not_lt ‹_›, le_rfl⟩

theorem value_eq_zero (h : a.magnitude = 0) : a.value = 0 := by
  have hc : a.coefficient = 0 := by rwa [← Int.natAbs_eq_zero, natAbs_coefficient]
  rw [value, hc, Int.cast_zero, zero_div]

@[simp] theorem value_zero : zero.value = 0 := value_eq_zero rfl

@[simp] theorem value_one : one.value = 1 := by
  simp [value, one, coefficient]

theorem zero_lt_iff_value_pos : .zero < a ↔ 0 < a.value := by
  rw [lt_iff_value_lt, value_zero]

theorem zero_le_iff_value_nonneg : .zero ≤ a ↔ 0 ≤ a.value := by
  rw [le_iff_value_le, value_zero]

theorem abs_value (a : Decimal) : |a.value| = a.magnitude / tenTo a.scale := by
  rw [value, abs_div, abs_of_pos (tenTo_cast_pos a.scale), ← natAbs_coefficient, Nat.cast_natAbs,
    Int.cast_abs]

theorem abs_value_le (a : Decimal) : |a.value| ≤ limit - 1 := by
  have h1 : (a.magnitude : ℚ) + 1 ≤ limit := by exact_mod_cast a.magnitude_lt
  have h2 : (1 : ℚ) ≤ tenTo a.scale := by exact_mod_cast tenTo_pos a.scale
  rw [abs_value]
  calc (a.magnitude : ℚ) / tenTo a.scale ≤ a.magnitude := div_le_self (Nat.cast_nonneg _) h2
    _ ≤ limit - 1 := by linarith

/-- The largest decimal or the least one. -/
def extreme (negative : Bool) : Decimal :=
  ⟨negative, limit - 1, 0, Nat.sub_lt (twoTo_pos 96) Nat.one_pos, Nat.zero_le maxScale⟩

theorem eq_extreme (hs : a.scale = 0) (hm : limit ≤ a.magnitude + 1) :
    a = extreme a.negative := by
  obtain ⟨negative, magnitude, scale, hlt, _⟩ := a
  obtain rfl : scale = 0 := hs
  obtain rfl : magnitude = limit - 1 := by
    change limit ≤ magnitude + 1 at hm
    omega
  rfl

end MarketDesk.Decimal
