import MarketDesk.Proofs.Decimal.Exact

/-!
# Decimals that can be doubled

Doubling and halving a decimal gives it back if its double fits, perhaps without a last digit that
is a zero (`Decimal.Doubles.cases`). Otherwise a digit is lost on the way: whoever gets the decimal
back has a coefficient in which the lost digit was a zero (`Decimal.five_dvd_of_sum`,
`Decimal.two_dvd_of_halves`).
-/

namespace MarketDesk

namespace Decimal

variable {a m s x y : Decimal}

/-- Nothing is lost when the number is doubled and halved again: the double fits, or it fits without
its last digit, which is a zero. Where the number is whole and its double too large, its half has to
be whole. -/
def Doubles (a : Decimal) : Prop :=
  2 * a.magnitude < limit ∨ (if a.scale = 0 then 2 else 5) ∣ a.magnitude

instance (a : Decimal) : Decidable a.Doubles :=
  inferInstanceAs (Decidable (_ ∨ _))

theorem value_mul_tenTo (a : Decimal) : a.value * tenTo a.scale = a.coefficient :=
  div_mul_cancel₀ _ (tenTo_cast_pos _).ne'

theorem coefficientAt_intCast_div_self (c : Int) (s : Nat) :
    coefficientAt (c / tenTo s) s = c.natAbs := by
  rw [coefficientAt_intCast_div c le_rfl, Nat.sub_self, tenTo_zero,
    roundQuotient_of_dvd _ Nat.one_pos (one_dvd _), Nat.div_one]

theorem dvd_coefficient_iff {k : Nat} : (k : Int) ∣ a.coefficient ↔ k ∣ a.magnitude := by
  rw [Int.natCast_dvd, natAbs_coefficient]

theorem limit_div_two_le_abs (hs : a.scale = 0) (hlarge : limit ≤ 2 * a.magnitude) :
    (limit : ℚ) / 2 ≤ |a.value| := by
  have hcast : (limit : ℚ) ≤ 2 * a.magnitude := by exact_mod_cast hlarge
  rw [abs_value, hs, tenTo_zero, Nat.cast_one, div_one]
  linarith

/-- There is room for the double, or the number is whole and has a half. -/
theorem Doubles.cases (h : a.Doubles) : IsDecimal (a.value + a.value) ∨
    (limit : ℚ) / 2 ≤ |a.value| ∧ IsDecimal (a.value / 2) := by
  have hvalue := value_mul_tenTo a
  rcases Nat.lt_or_ge (2 * a.magnitude) limit with hlt | hlarge
  · left
    have hdouble : a.value + a.value = (2 * a.coefficient : Int) / tenTo a.scale := by
      rw [eq_div_iff (tenTo_cast_pos _).ne']
      push_cast
      linarith
    rw [hdouble]
    refine isDecimal_intCast_div ?_ a.scale_le
    rwa [Int.natAbs_mul, natAbs_coefficient]
  have hdvd := h.resolve_left (Nat.not_lt.mpr hlarge)
  cases hs : a.scale with
  | zero =>
    rw [hs, if_pos rfl, ← dvd_coefficient_iff] at hdvd
    obtain ⟨k, hk⟩ := hdvd
    have hhalf : a.value / 2 = k / tenTo 0 := by
      rw [value_of_scale_eq_zero hs, hk, tenTo_zero]
      push_cast
      ring
    refine .inr ⟨limit_div_two_le_abs hs hlarge, ?_⟩
    rw [hhalf]
    refine isDecimal_intCast_div ?_ (Nat.zero_le _)
    have := a.natAbs_coefficient
    have := a.magnitude_lt
    omega
  | succ t =>
    rw [hs, if_neg (Nat.succ_ne_zero t), ← dvd_coefficient_iff] at hdvd
    obtain ⟨k, hk⟩ := hdvd
    have hdouble : a.value + a.value = k / tenTo t := by
      have ht := tenTo_cast_pos t
      rw [value, hs, hk, tenTo_succ]
      push_cast
      field_simp
      ring
    left
    rw [hdouble]
    have := a.natAbs_coefficient
    have := a.magnitude_lt
    have := a.scale_le
    exact isDecimal_intCast_div (by omega) (by omega)

theorem doubles_opposite_iff : a.opposite.Doubles ↔ a.Doubles := by
  unfold opposite
  split <;> rfl

/-- A price whose sum with itself was rounded: the sum has given up the last digit. -/
theorem five_dvd_of_sum {t : Nat} (ht : a.scale = t + 1) (hlarge : limit ≤ 2 * a.magnitude)
    (hsum : IsRounded (a.value + a.value) (some s)) (hhalf : IsRounded (s.value / 2) (some m))
    (hm : m.value = a.value) : 5 ∣ a.magnitude := by
  have hten := tenTo_cast_pos t
  have ha := value_mul_tenTo a
  rw [ht, tenTo_succ] at ha
  push_cast at ha
  have hdouble : a.value + a.value = (2 * a.coefficient : Int) / tenTo (t + 1) := by
    rw [tenTo_succ]
    push_cast
    rw [eq_div_iff (by positivity)]
    linarith
  obtain ⟨k, hk⟩ := hsum.exists_int (t := t) (by
    rwa [hdouble, coefficientAt_intCast_div_self, Int.natAbs_mul, natAbs_coefficient])
  have hfive : s.value / 2 = (5 * k : Int) / tenTo (t + 1) := by
    rw [tenTo_succ]
    push_cast
    rw [eq_div_iff (by positivity)]
    linarith
  have hdvd : (5 : Int) ∣ a.coefficient := by
    rcases Nat.lt_or_ge (5 * k).natAbs limit with hfits | hcoarse
    -- Half the sum fits, so it is the price.
    · have hdecimal : IsDecimal (s.value / 2) := by
        rw [hfive]
        exact isDecimal_intCast_div hfits (ht ▸ a.scale_le)
      have hs := hhalf.value_eq hdecimal
      refine ⟨k, ?_⟩
      have : (a.coefficient : ℚ) = 5 * k := by
        rw [← ha, ← hm, hs, ← hk]
        ring
      exact_mod_cast this
    -- It does not fit, and the price has no more digits than it was rounded to.
    · obtain ⟨j, hj⟩ := hhalf.exists_int (t := t) (by
        rwa [hfive, coefficientAt_intCast_div_self])
      refine ⟨2 * j, ?_⟩
      have : (a.coefficient : ℚ) = 5 * (2 * j) := by
        rw [← ha, ← hm, ← hj]
        ring
      exact_mod_cast this
  rw [← natAbs_coefficient]
  exact Int.natCast_dvd.mp hdvd

/-- A price whose rounded half was added to itself: the half is whole. -/
theorem two_dvd_of_halves (hs : a.scale = 0) (hlarge : limit ≤ 2 * a.magnitude)
    (hx : IsRounded (a.value / 2) (some x)) (hy : IsRounded (a.value / 2) (some y))
    (hboth : IsRounded (x.value + y.value) (some m)) (hm : m.value = a.value) :
    2 ∣ a.magnitude := by
  have hvalue := value_of_scale_eq_zero hs
  have hhalf : a.value / 2 = (5 * a.coefficient : Int) / tenTo (0 + 1) := by
    rw [hvalue, tenTo_succ, tenTo_zero]
    push_cast
    ring
  have hcoarse : limit ≤ coefficientAt (a.value / 2) (0 + 1) := by
    rw [hhalf, coefficientAt_intCast_div_self, Int.natAbs_mul, natAbs_coefficient]
    change limit ≤ 5 * a.magnitude
    omega
  obtain ⟨k, hk⟩ := hx.exists_int hcoarse
  have hsame : y.value = x.value := by
    cases hy.rel hx with
    | some hyx => exact equiv_def.mp hyx
  rw [tenTo_zero, Nat.cast_one, mul_one] at hk
  have hdouble : x.value + y.value = (2 * k : Int) / tenTo 0 := by
    rw [hsame, hk, tenTo_zero]
    push_cast
    ring
  have hfits : (2 * k).natAbs < limit := by
    have hlt := hboth.abs_lt
    rw [hdouble, tenTo_zero, Nat.cast_one, div_one, ← Int.cast_abs, ← Nat.cast_natAbs] at hlt
    have hlt' : ((2 * k).natAbs : ℚ) < limit := by linarith
    exact_mod_cast hlt'
  have hdecimal : IsDecimal (x.value + y.value) := by
    rw [hdouble]
    exact isDecimal_intCast_div hfits (Nat.zero_le _)
  have hmk := hboth.value_eq hdecimal
  rw [hm, hvalue, hdouble, tenTo_zero, Nat.cast_one, div_one] at hmk
  rw [← dvd_coefficient_iff]
  exact ⟨k, by exact_mod_cast hmk⟩

end Decimal

end MarketDesk
