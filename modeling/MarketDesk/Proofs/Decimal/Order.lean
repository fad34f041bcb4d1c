import MarketDesk.Proofs.Decimal.Rounded

/-!
# Rounding keeps the order

Two numbers may be rounded at different scales, and still the larger one does not become the smaller
decimal (`Decimal.IsRounded.mono`). So a difference has the sign of the exact one
(`Decimal.sub?_lt_zero_iff`), and quotients by one positive number are ordered as the dividends are
(`Decimal.div?_mono`); as long as the dividend is no larger, there is a quotient and it is at most
one (`Decimal.exists_div?_of_le`).
-/

namespace MarketDesk.Decimal

variable {a a' b d e q q' : Decimal} {o : Option Decimal} {v w : ℚ} {t t' : Nat}

/-! ## Coefficients -/

theorem coefficientAt_le (h : |v| ≤ |w|) (t : Nat) : coefficientAt v t ≤ coefficientAt w t := by
  have hv : (0 : ℚ) < v.den := Nat.cast_pos.mpr v.den_pos
  have hw : (0 : ℚ) < w.den := Nat.cast_pos.mpr w.den_pos
  rw [abs_eq_natAbs_num_div_den v, abs_eq_natAbs_num_div_den w, div_le_div_iff₀ hv hw] at h
  have hcross : v.num.natAbs * w.den ≤ w.num.natAbs * v.den := by exact_mod_cast h
  refine roundQuotient_mono .toEven v.den_pos w.den_pos ?_
  calc v.num.natAbs * tenTo t * w.den = v.num.natAbs * w.den * tenTo t := by ring
    _ ≤ w.num.natAbs * v.den * tenTo t := Nat.mul_le_mul_right _ hcross
    _ = w.num.natAbs * tenTo t * v.den := by ring

theorem coefficientAt_succ_le (v : ℚ) (t : Nat) :
    coefficientAt v (t + 1) ≤ 10 * coefficientAt v t + 5 := by
  unfold coefficientAt
  rw [mul_tenTo_succ]
  exact roundQuotient_mul_ten_le .toEven v.den_pos

/-- A number without room for a further digit is no smaller than any decimal at a finer scale. -/
theorem div_tenTo_le_of_no_room {c : Nat} (hc : c < limit) (hw : limit ≤ coefficientAt w (t' + 1))
    (ht : t' < t) : (c : ℚ) / tenTo t ≤ coefficientAt w t' / tenTo t' := by
  have hten : c ≤ coefficientAt w t' * 10 := by
    have := coefficientAt_succ_le w t'
    have := limit_eq
    omega
  have hcross : c * tenTo t' ≤ coefficientAt w t' * tenTo t :=
    calc c * tenTo t' ≤ coefficientAt w t' * 10 * tenTo t' := Nat.mul_le_mul_right _ hten
      _ = coefficientAt w t' * tenTo (t' + 1) := by rw [tenTo_succ]; ring
      _ ≤ coefficientAt w t' * tenTo t := Nat.mul_le_mul_left _ (tenTo_le ht)
  rw [div_le_div_iff₀ (tenTo_cast_pos t) (tenTo_cast_pos t')]
  exact_mod_cast hcross

/-- **Rounding at different scales keeps the order.** The larger number may get fewer places; it is
then rounded more coarsely, but to a number that the smaller one cannot exceed. -/
theorem FinestScale.mono (h : FinestScale v t) (h' : FinestScale w t') (hle : |v| ≤ |w|) :
    (coefficientAt v t : ℚ) / tenTo t ≤ coefficientAt w t' / tenTo t' := by
  have same (s : Nat) : (coefficientAt v s : ℚ) / tenTo s ≤ coefficientAt w s / tenTo s :=
    div_le_div_of_nonneg_right (Nat.cast_le.mpr (coefficientAt_le hle s)) (tenTo_cast_pos s).le
  rcases Nat.lt_trichotomy t t' with hlt | rfl | hlt
  -- The larger number fits at the finer scale, so the smaller one is exact at the coarser.
  · rcases h.finest with hexact | hmax | hlarge
    · rw [← coefficientAt_of_exact hexact hlt.le]
      exact same t'
    · have := h'.le
      omega
    · have hsmaller := coefficientAt_le hle (t + 1)
      have hcoarser : coefficientAt w (t + 1) ≤ coefficientAt w t' := coefficientAt_mono w hlt
      have := h'.fits
      omega
  · exact same t
  · rcases h'.finest with hexact | hmax | hlarge
    · rw [← coefficientAt_of_exact hexact hlt.le]
      exact same t
    · have := h.le
      omega
    · exact div_tenTo_le_of_no_room h.fits hlarge hlt

/-! ## Rounded numbers -/

/-- A rounded number has been rounded at the finest scale where it fits. -/
theorem IsRounded.exists_scale (h : IsRounded v (some d)) :
    ∃ t, FinestScale v t ∧ |d.value| = coefficientAt v t / tenTo t := by
  obtain @⟨_, t, ht, hd⟩ := h
  refine ⟨t, ht, ?_⟩
  rw [hd, abs_div, abs_mul, Nat.abs_cast, Nat.abs_cast]
  rcases lt_trichotomy v.num 0 with hv | hv | hv
  · rw [Int.sign_eq_neg_one_of_neg hv]
    norm_num
  · have hzero : coefficientAt v t = 0 := by
      rw [coefficientAt, hv, Int.natAbs_zero, Nat.zero_mul]
      exact roundQuotient_eq_zero .toEven v.den_pos
    rw [hzero]
    simp
  · rw [Int.sign_eq_one_of_pos hv]
    norm_num

theorem IsRounded.abs_mono (h : IsRounded v (some d)) (h' : IsRounded w (some e))
    (hle : |v| ≤ |w|) : |d.value| ≤ |e.value| := by
  obtain ⟨t, ht, hd⟩ := h.exists_scale
  obtain ⟨t', ht', he⟩ := h'.exists_scale
  rw [hd, he]
  exact ht.mono ht' hle

theorem IsRounded.value_nonneg (h : IsRounded v (some d)) (hv : 0 ≤ v) : 0 ≤ d.value := by
  have hsign : (0 : Int) ≤ v.num.sign := Int.sign_nonneg_iff.mpr (Rat.num_nonneg.mpr hv)
  rw [← h.sign_mul_abs]
  exact mul_nonneg (by exact_mod_cast hsign) (abs_nonneg _)

theorem IsRounded.value_nonpos (h : IsRounded v (some d)) (hv : v ≤ 0) : d.value ≤ 0 := by
  have hsign : v.num.sign ≤ 0 := Int.sign_nonpos_iff.mpr (Rat.num_nonpos.mpr hv)
  rw [← h.sign_mul_abs]
  exact mul_nonpos_of_nonpos_of_nonneg (by exact_mod_cast hsign) (abs_nonneg _)

/-- **Rounding keeps the order.** -/
theorem IsRounded.mono (h : IsRounded v (some d)) (h' : IsRounded w (some e)) (hle : v ≤ w) :
    d ≤ e := by
  rw [le_iff_value_le]
  rcases le_total 0 v with hv | hv
  · have habs : |v| ≤ |w| := abs_le_abs_of_nonneg hv hle
    have hmono := h.abs_mono h' habs
    rwa [abs_of_nonneg (h.value_nonneg hv), abs_of_nonneg (h'.value_nonneg (hv.trans hle))] at hmono
  rcases le_total 0 w with hw | hw
  · exact (h.value_nonpos hv).trans (h'.value_nonneg hw)
  -- Both are below zero, where the order of the magnitudes is the opposite one.
  · have habs : |w| ≤ |v| := abs_le_abs_of_nonpos hw hle
    have hmono := h'.abs_mono h habs
    rw [abs_of_nonpos (h.value_nonpos hv), abs_of_nonpos (h'.value_nonpos hw)] at hmono
    exact neg_le_neg_iff.mp hmono

/-- A number no larger than some decimal has a decimal itself. -/
theorem IsRounded.exists_of_abs_le (h : IsRounded v o) (hv : |v| ≤ |a.value|) :
    ∃ d, o = some d := by
  cases h with
  | fits => exact ⟨_, rfl⟩
  | tooLarge hlarge =>
    obtain ⟨t, ht, -⟩ := a.isRounded_self.exists_scale
    have := ht.fits_zero
    have := coefficientAt_le hv 0
    omega

/-! ## Differences -/

/-- The largest decimal below zero. -/
def belowZero : Decimal :=
  { one with negative := true, scale := maxScale, scale_le := Nat.le_refl maxScale }

/-- Two decimals that differ do so by at least the least decimal above zero. -/
theorem value_sub_le_belowZero (h : a < b) : a.value - b.value ≤ belowZero.value := by
  have ha := coefficient_mul_tenTo a.scale_le
  have hb := coefficient_mul_tenTo b.scale_le
  have hpos := tenTo_cast_pos maxScale
  -- Both are whole numbers of units of the last place there is.
  have hlt : a.coefficient * (tenTo (maxScale - a.scale) : Int) <
      b.coefficient * (tenTo (maxScale - b.scale) : Int) := by
    have hvalue := mul_lt_mul_of_pos_right (lt_iff_value_lt.mp h) hpos
    rw [← ha, ← hb] at hvalue
    exact_mod_cast hvalue
  have hunit : (a.coefficient * tenTo (maxScale - a.scale) : ℚ) + 1 ≤
      b.coefficient * tenTo (maxScale - b.scale) := by exact_mod_cast hlt
  rw [ha, hb] at hunit
  have hbelow : belowZero.value = -1 / tenTo maxScale := rfl
  rw [hbelow, le_div_iff₀ hpos, sub_mul]
  linarith

/-- A difference is below zero just if the exact one is: it cannot be rounded to zero. -/
theorem sub?_lt_zero_iff (h : a.sub? b = some d) : d < .zero ↔ a < b := by
  have hrounded := a.sub?_isRounded b
  rw [h] at hrounded
  constructor
  · intro hneg
    by_contra hle
    have hvalue := le_iff_value_le.mp (le_of_not_lt hle)
    have hzero : zero.value ≤ a.value - b.value := by
      rw [value_zero]
      exact sub_nonneg.mpr hvalue
    exact hneg.not_ge (zero.isRounded_self.mono hrounded hzero)
  · intro hlt
    have hbelow := hrounded.mono belowZero.isRounded_self (value_sub_le_belowZero hlt)
    exact hbelow.trans_lt (by decide)

/-! ## Quotients -/

section Quotients

variable (hb : .zero < b)

include hb

theorem div?_isRounded_of_pos (a : Decimal) : IsRounded (a.value / b.value) (a.div? b) := by
  refine div?_isRounded a ?_
  rw [Ne, magnitude_eq_zero_iff]
  exact (zero_lt_iff_value_pos.mp hb).ne'

/-- The quotient by a positive number that is no smaller always exists and lies between zero and
one. -/
theorem exists_div?_of_le (ha : .zero ≤ a) (hle : a ≤ b) :
    ∃ q, a.div? b = some q ∧ .zero ≤ q ∧ q ≤ .one := by
  have hpos := zero_lt_iff_value_pos.mp hb
  have hlow : 0 ≤ a.value / b.value := div_nonneg (zero_le_iff_value_nonneg.mp ha) hpos.le
  have hhigh : a.value / b.value ≤ 1 := (div_le_one hpos).mpr (le_iff_value_le.mp hle)
  have habs : |a.value / b.value| ≤ |one.value| := by
    rw [value_one]
    exact abs_le_abs_of_nonneg hlow hhigh
  have hrounded := div?_isRounded_of_pos hb a
  obtain ⟨q, hq⟩ := hrounded.exists_of_abs_le habs
  rw [hq] at hrounded
  refine ⟨q, hq, ?_, ?_⟩
  · exact zero.isRounded_self.mono hrounded (by rwa [value_zero])
  · exact hrounded.mono one.isRounded_self (by rwa [value_one])

theorem exists_div?_of_equiv (h : a ≈ b) : ∃ q, a.div? b = some q ∧ q ≈ .one := by
  have hpos := zero_lt_iff_value_pos.mp hb
  have hrounded := div?_isRounded_of_pos hb a
  rw [equiv_def.mp h, div_self hpos.ne', ← value_one] at hrounded
  have hrel := hrounded.rel one.isRounded_self
  generalize a.div? b = o at hrel ⊢
  cases hrel with
  | some hq => exact ⟨_, rfl, hq⟩

/-- Quotients by one positive number are ordered as the dividends are. -/
theorem div?_mono (hle : a ≤ a') (hq : a.div? b = some q) (hq' : a'.div? b = some q') : q ≤ q' := by
  have hpos := zero_lt_iff_value_pos.mp hb
  have hrounded := div?_isRounded_of_pos hb a
  have hrounded' := div?_isRounded_of_pos hb a'
  rw [hq] at hrounded
  rw [hq'] at hrounded'
  refine hrounded.mono hrounded' (div_le_div_of_nonneg_right ?_ hpos.le)
  exact le_iff_value_le.mp hle

end Quotients

end MarketDesk.Decimal
