import MarketDesk.Proofs.Decimal.Order

/-!
# Exact results

A number that some decimal stands for is not moved by rounding (`Decimal.IsRounded.value_eq`), and
one without a result is beyond all decimals (`Decimal.IsRounded.lt_of_none`). Any other number is
moved by half a unit at most (`Decimal.IsRounded.abs_sub_le`), alike on both sides of zero
(`Decimal.IsRounded.neg`).
-/

namespace MarketDesk

variable {n d : Nat}

/-- A quotient is at most half a unit below what it is rounded to. -/
theorem two_mul_roundQuotient_mul_le (tie : Tie) :
    2 * roundQuotient tie n d * d ≤ 2 * n + d := by
  have e : d * (n / d) + n % d = n := Nat.div_add_mod n d
  rcases roundQuotient_eq_or tie n d with h | ⟨h, hr⟩
  · have hle := Nat.div_mul_le_self n d
    rw [h, Nat.mul_assoc]
    omega
  · rw [h]
    nlinarith

/-- Rounding to a whole number errs by half a unit at most, under either rule. -/
theorem abs_sub_roundQuotient_le (tie : Tie) (hd : 0 < d) :
    |(n / d : ℚ) - roundQuotient tie n d| ≤ 1 / 2 := by
  have hd' : (0 : ℚ) < d := Nat.cast_pos.mpr hd
  have hup : (2 * n : ℚ) ≤ (2 * roundQuotient tie n d + 1) * d := by
    exact_mod_cast two_mul_le_roundQuotient tie hd
  have hdown : (2 * roundQuotient tie n d * d : ℚ) ≤ 2 * n + d := by
    exact_mod_cast two_mul_roundQuotient_mul_le tie
  rw [abs_le]
  constructor
  · rw [neg_le_sub_iff_le_add, ← sub_le_iff_le_add, le_div_iff₀ hd']
    linarith
  · rw [sub_le_iff_le_add, div_le_iff₀ hd']
    linarith

namespace Decimal

variable {a b d : Decimal} {o : Option Decimal} {v w : ℚ} {s t : Nat}

/-- Some decimal stands for the number. -/
def IsDecimal (v : ℚ) : Prop :=
  ∃ d : Decimal, d.value = v

theorem value_ofParts {c : Int} (hc : c.natAbs < limit) (hs : s ≤ maxScale) :
    (ofParts c s).value = c / tenTo s := by
  obtain ⟨d, hd, hvalue⟩ := ofParts?_eq_some hc hs
  rw [ofParts, hd, Option.getD_some, hvalue]

theorem isDecimal_intCast_div {c : Int} (hc : c.natAbs < limit) (hs : s ≤ maxScale) :
    IsDecimal (c / tenTo s) :=
  ⟨_, value_ofParts hc hs⟩

theorem IsRounded.exists_of_isDecimal (h : IsRounded v o) (hv : IsDecimal v) :
    ∃ d, o = some d ∧ d.value = v := by
  obtain ⟨e, rfl⟩ := hv
  have hrel := h.rel e.isRounded_self
  cases hrel with
  | some he => exact ⟨_, rfl, equiv_def.mp he⟩

theorem IsRounded.value_eq (h : IsRounded v (some d)) (hv : IsDecimal v) : d.value = v := by
  obtain ⟨e, he, hvalue⟩ := h.exists_of_isDecimal hv
  rwa [Option.some.inj he]

/-! ## Numbers without a decimal near them -/

theorem IsRounded.lt_of_none (h : IsRounded v none) (a : Decimal) : |a.value| < |v| := by
  by_contra hle
  obtain ⟨d, hd⟩ := h.exists_of_abs_le (not_lt.mp hle)
  cases hd

/-- A number is too large for a decimal from half a unit below the limit on, where it would be
rounded up to the limit. -/
theorem limit_le_coefficientAt_zero_iff :
    limit ≤ coefficientAt v 0 ↔ (limit : ℚ) - 1 / 2 ≤ |v| := by
  have hden : (0 : ℚ) < v.den := Nat.cast_pos.mpr v.den_pos
  have hcast : (2 * limit - 1) * v.den ≤ 2 * (v.num.natAbs * tenTo 0) ↔
      ((2 * limit - 1) * v.den : ℚ) ≤ 2 * v.num.natAbs := by
    rw [tenTo_zero, Nat.mul_one, ← Nat.cast_le (α := ℚ), Nat.cast_mul, Nat.cast_sub (by decide)]
    push_cast
    rfl
  rw [coefficientAt, limit_le_roundQuotient_iff v.den_pos, hcast, abs_eq_natAbs_num_div_den,
    le_div_iff₀ hden]
  constructor <;> intro h <;> linarith

theorem IsRounded.le_abs_of_none (h : IsRounded v none) : (limit : ℚ) - 1 / 2 ≤ |v| := by
  cases h with
  | tooLarge hlarge => exact limit_le_coefficientAt_zero_iff.mp hlarge

theorem IsRounded.abs_lt (h : IsRounded v (some d)) : |v| < (limit : ℚ) - 1 / 2 := by
  cases h with
  | fits ht hd =>
    rw [← not_le, ← limit_le_coefficientAt_zero_iff, Nat.not_le]
    exact ht.fits_zero

/-! ## How far rounding moves a number -/

theorem abs_sub_coefficientAt_le (v : ℚ) (t : Nat) :
    |(|v| * tenTo t) - coefficientAt v t| ≤ 1 / 2 := by
  have herror := abs_sub_roundQuotient_le (n := v.num.natAbs * tenTo t) .toEven v.den_pos
  have hexact : |v| * tenTo t = (v.num.natAbs * tenTo t : Nat) / v.den := by
    rw [abs_eq_natAbs_num_div_den]
    push_cast
    ring
  rwa [hexact]

theorem num_sign_mul_abs (v : ℚ) : (v.num.sign : ℚ) * |v| = v := by
  rcases lt_trichotomy v 0 with hv | rfl | hv
  · rw [Int.sign_eq_neg_one_of_neg (Rat.num_neg.mpr hv), abs_of_neg hv]
    norm_num
  · simp
  · rw [Int.sign_eq_one_of_pos (Rat.num_pos.mpr hv), abs_of_pos hv]
    norm_num

theorem abs_num_sign_le (v : ℚ) : |(v.num.sign : ℚ)| ≤ 1 := by
  rcases Int.sign_trichotomy v.num with h | h | h <;> simp [h]

/-- **A number is moved by half a unit at most**, since there is room for its whole part. -/
theorem IsRounded.abs_sub_le (h : IsRounded v (some d)) : |d.value - v| ≤ 1 / 2 := by
  obtain ⟨t, -, hd⟩ := h.exists_scale
  have hpos := tenTo_cast_pos t
  have hone : (1 : ℚ) ≤ tenTo t := by exact_mod_cast tenTo_pos t
  have hsize : |(|d.value| - |v|)| ≤ 1 / 2 := by
    have herror := abs_sub_coefficientAt_le v t
    rw [← div_mul_cancel₀ (coefficientAt v t : ℚ) hpos.ne', ← hd, ← sub_mul, abs_mul,
      abs_of_pos hpos, abs_sub_comm] at herror
    exact (le_mul_of_one_le_right (abs_nonneg _) hone).trans herror
  have hsign : d.value - v = v.num.sign * (|d.value| - |v|) := by
    rw [mul_sub, h.sign_mul_abs, num_sign_mul_abs]
  rw [hsign, abs_mul]
  exact (mul_le_of_le_one_left (abs_nonneg _) (abs_num_sign_le v)).trans hsize

/-- Without room for `t + 1` fraction digits there are at most `t`. -/
theorem IsRounded.exists_int (h : IsRounded v (some d)) (hlarge : limit ≤ coefficientAt v (t + 1)) :
    ∃ k : Int, d.value * tenTo t = k := by
  cases h with
  | @fits _ u hu hd =>
    have hle : u ≤ t := by
      by_contra hlt
      have hmono := coefficientAt_mono v (show t + 1 ≤ u by omega)
      have := hu.fits
      omega
    obtain ⟨k, rfl⟩ := Nat.le.dest hle
    refine ⟨v.num.sign * coefficientAt v u * tenTo k, ?_⟩
    have := tenTo_cast_pos u
    rw [hd, tenTo_add]
    push_cast
    field_simp

/-! ## Opposite numbers -/

theorem coefficientAt_neg (v : ℚ) (t : Nat) : coefficientAt (-v) t = coefficientAt v t := by
  rw [coefficientAt, coefficientAt, Rat.neg_num, Rat.neg_den, Int.natAbs_neg]

theorem FinestScale.neg (h : FinestScale v t) : FinestScale (-v) t where
  fits := by
    rw [coefficientAt_neg]
    exact h.fits
  le := h.le
  finest := by
    rw [abs_neg, coefficientAt_neg, coefficientAt_neg]
    exact h.finest

/-- Rounding is alike on both sides of zero. -/
theorem IsRounded.neg (h : IsRounded v o) : IsRounded (-v) (o.map opposite) := by
  cases h with
  | fits ht hd =>
    refine .fits ht.neg ?_
    rw [value_opposite, hd, coefficientAt_neg, Rat.neg_num, Int.sign_neg]
    push_cast
    ring
  | tooLarge hlarge =>
    refine .tooLarge ?_
    rwa [coefficientAt_neg]

/-! ## Halves -/

theorem value_two : two.value = 2 := by
  norm_num [value, two, coefficient]

theorem half?_isRounded (a : Decimal) : IsRounded (a.value / 2) a.half? := by
  have hrounded := a.div?_isRounded (b := two) (by decide)
  rwa [value_two] at hrounded

/-! ## Large decimals -/

/-- A decimal with a fraction digit is less than a tenth of the limit. -/
theorem scale_eq_zero (h : (limit : ℚ) / 10 ≤ |a.value|) : a.scale = 0 := by
  by_contra hne
  have hten : (10 : ℚ) ≤ tenTo a.scale := by
    exact_mod_cast tenTo_le (Nat.one_le_iff_ne_zero.mpr hne)
  have hlt : (a.magnitude : ℚ) < limit := Nat.cast_lt.mpr a.magnitude_lt
  rw [abs_value, le_div_iff₀ (tenTo_cast_pos _)] at h
  have : (0 : ℚ) < limit := Nat.cast_pos.mpr (by decide)
  nlinarith

theorem value_of_scale_eq_zero (h : a.scale = 0) : a.value = a.coefficient := by
  rw [value, h, tenTo_zero, Nat.cast_one, div_one]

theorem value_whole {c : Int} (hc : c.natAbs < limit) : (ofParts c 0).value = c := by
  rw [value_ofParts hc (Nat.zero_le _), tenTo_zero, Nat.cast_one, div_one]

/-- Half the limit, a whole number. -/
def halfLimit : Nat := twoTo 95

theorem limit_cast_eq : (limit : ℚ) = 2 * halfLimit := by
  exact_mod_cast (by decide : limit = 2 * halfLimit)

theorem le_halfLimit_cast : (10 : ℚ) ≤ halfLimit := by
  exact_mod_cast (by decide : 10 ≤ halfLimit)

/-- Numbers next to half the limit have no fraction. -/
theorem exists_int_of_large (h : (halfLimit : ℚ) - 1 ≤ |a.value|) : ∃ k : Int, a.value = k := by
  have hscale : a.scale = 0 := by
    apply scale_eq_zero
    have := limit_cast_eq
    have := le_halfLimit_cast
    linarith
  exact ⟨_, value_of_scale_eq_zero hscale⟩

/-- Half of the largest decimal. -/
theorem isRounded_half_extreme : IsRounded ((limit - 1) / 2) (some (.ofParts halfLimit 0)) := by
  have hfit := fit?_isRounded (halfLimit * 10 - 5) 1
  rw [show fit? (halfLimit * 10 - 5) 1 = some (.ofParts halfLimit 0) by decide +kernel,
    show tenTo 1 = 10 from rfl] at hfit
  have hexact : ((halfLimit * 10 - 5 : Int) / (10 : Nat) : ℚ) = (limit - 1) / 2 := by
    rw [limit_cast_eq]
    push_cast
    ring
  rwa [hexact] at hfit

/-- The least that the rounded halves of a sum come to if it is too large. -/
theorem isRounded_least_halves :
    IsRounded (halfLimit - 5 / 4) (some (.ofParts (halfLimit - 1) 0)) := by
  have hfit := fit?_isRounded (halfLimit * 100 - 125) 2
  rw [show fit? (halfLimit * 100 - 125) 2 = some (.ofParts (halfLimit - 1) 0) by decide +kernel,
    show tenTo 2 = 100 from rfl] at hfit
  have hexact : ((halfLimit * 100 - 125 : Int) / (100 : Nat) : ℚ) = halfLimit - 5 / 4 := by
    push_cast
    ring
  rwa [hexact] at hfit

end Decimal

end MarketDesk
