import MarketDesk.Proofs.Decimal.Quotient
import MarketDesk.Proofs.Decimal.Sum

/-!
# Results that are rounded once

Sum, difference, product and quotient are the exact number rounded once: to nearest, at the finest
scale at which the rounded coefficient still fits (`Decimal.IsRounded`). Which scales the operands
had is lost in that (`Decimal.IsRounded.rel`), so that decimals of one value (`a ≈ b`) have sums,
differences, products and quotients of one value, or none.
-/

namespace MarketDesk

theorem roundQuotient_congr (tie : Tie) {n d n' d' : Nat} (hd : 0 < d) (hd' : 0 < d')
    (h : n * d' = n' * d) : roundQuotient tie n d = roundQuotient tie n' d' :=
  Nat.le_antisymm (roundQuotient_mono tie hd hd' h.le) (roundQuotient_mono tie hd' hd h.ge)

namespace Decimal

variable {a a' b b' d d' : Decimal} {o o' : Option Decimal} {v : ℚ} {s t t' : Nat}

/-- Decimals of one value, perhaps at different scales. -/
instance : Setoid Decimal where
  r a b := a.value = b.value
  iseqv := ⟨fun _ => rfl, Eq.symm, Eq.trans⟩

theorem equiv_def : a ≈ b ↔ a.value = b.value := .rfl

theorem equiv_iff_cmp : a ≈ b ↔ a.cmp b = .eq := by
  rw [equiv_def, cmp_eq_compare_value, compare_eq_iff_eq]

/-! ## Rounding an exact number -/

/-- The number without its sign, multiplied by `10 ^ t` and rounded to nearest. -/
def coefficientAt (v : ℚ) (t : Nat) : Nat :=
  roundQuotient .toEven (v.num.natAbs * tenTo t) v.den

theorem abs_eq_natAbs_num_div_den (v : ℚ) : |v| = v.num.natAbs / v.den := by
  rw [Nat.cast_natAbs, Int.cast_abs, ← abs_of_pos (a := (v.den : ℚ)) (by positivity), ← abs_div,
    Rat.num_div_den]

/-- The coefficient of a number at a scale, by any fraction for its magnitude. -/
theorem coefficientAt_eq {p q : Nat} (hq : 0 < q) (h : |v| = p / q) (t : Nat) :
    coefficientAt v t = roundQuotient .toEven (p * tenTo t) q := by
  have hcross : v.num.natAbs * q = p * v.den := by
    have hden : (v.den : ℚ) ≠ 0 := Nat.cast_ne_zero.mpr v.den_nz
    have hq' : (q : ℚ) ≠ 0 := Nat.cast_ne_zero.mpr hq.ne'
    rw [abs_eq_natAbs_num_div_den, div_eq_div_iff hden hq'] at h
    exact_mod_cast h
  refine roundQuotient_congr .toEven v.den_pos hq ?_
  calc v.num.natAbs * tenTo t * q = v.num.natAbs * q * tenTo t := by ring
    _ = p * tenTo t * v.den := by rw [hcross]; ring

theorem abs_mul_tenTo_eq {p q : Nat} (hq : 0 < q) (h : |v| = p / q) (hdvd : q ∣ p * tenTo t) :
    |v| * tenTo t = coefficientAt v t := by
  obtain ⟨k, hk⟩ := hdvd
  have hq' : (q : ℚ) ≠ 0 := Nat.cast_ne_zero.mpr hq.ne'
  rw [coefficientAt_eq hq h, roundQuotient_of_dvd _ hq ⟨k, hk⟩, hk, Nat.mul_div_cancel_left k hq, h,
    div_mul_eq_mul_div, div_eq_iff hq', mul_comm (k : ℚ)]
  exact_mod_cast hk

/-- The scale is the finest one at which the rounded coefficient of the number fits; a scale at
which the number is exact is fine enough. -/
structure FinestScale (v : ℚ) (t : Nat) : Prop where
  fits : coefficientAt v t < limit
  le : t ≤ maxScale
  finest : |v| * tenTo t = coefficientAt v t ∨ t = maxScale ∨ limit ≤ coefficientAt v (t + 1)

/-- **The exact number rounded once**; none if even the nearest whole number is too large. -/
inductive IsRounded (v : ℚ) : Option Decimal → Prop
  | fits {d : Decimal} {t : Nat} : FinestScale v t →
    d.value = v.num.sign * coefficientAt v t / tenTo t → IsRounded v (some d)
  | tooLarge : limit ≤ coefficientAt v 0 → IsRounded v none

theorem coefficientAt_mono (v : ℚ) (h : t ≤ t') : coefficientAt v t ≤ coefficientAt v t' :=
  roundQuotient_tenTo_mono v.den_pos h

/-- A number that is exact at some scale stays so at finer ones. -/
theorem coefficientAt_of_exact (hexact : |v| * tenTo t = coefficientAt v t) (h : t ≤ t') :
    (coefficientAt v t' : ℚ) / tenTo t' = coefficientAt v t / tenTo t := by
  obtain ⟨k, rfl⟩ := Nat.le.dest h
  have habs : |v| = coefficientAt v t / tenTo t := by
    rw [← hexact, mul_div_cancel_right₀ _ (tenTo_cast_pos t).ne']
  have hfiner : coefficientAt v (t + k) = coefficientAt v t * tenTo k := by
    have hround := coefficientAt_eq (tenTo_pos t) habs (t + k)
    rw [hround, tenTo_add, Nat.mul_comm (tenTo t), ← Nat.mul_assoc,
      roundQuotient_mul_self _ (tenTo_pos t)]
  have hk := tenTo_cast_pos k
  have ht := tenTo_cast_pos t
  rw [hfiner, tenTo_add]
  push_cast
  field_simp

theorem FinestScale.fits_zero (h : FinestScale v t) : coefficientAt v 0 < limit :=
  (coefficientAt_mono v (Nat.zero_le t)).trans_lt h.fits

/-- There may be two finest scales if the number needs fewer places than both; it is rounded to the
same value at either. -/
theorem FinestScale.unique (h : FinestScale v t) (h' : FinestScale v t') :
    (coefficientAt v t : ℚ) / tenTo t = coefficientAt v t' / tenTo t' := by
  wlog hle : t ≤ t' generalizing t t'
  · exact (this h' h (Nat.le_of_not_le hle)).symm
  rcases Nat.lt_or_eq_of_le hle with hlt | rfl
  -- The number fits at a finer scale than `t`, so `t` can only be where it is exact already.
  · rcases h.finest with hexact | hmax | hlarge
    · exact (coefficientAt_of_exact hexact hle).symm
    · have := h'.le
      omega
    · exact absurd h'.fits (Nat.not_lt.mpr (hlarge.trans (coefficientAt_mono v hlt)))
  · rfl

/-- **Rounding once leaves no choice.** -/
theorem IsRounded.rel (h : IsRounded v o) (h' : IsRounded v o') : Option.Rel (· ≈ ·) o o' := by
  cases h with
  | fits ht hd =>
    cases h' with
    | fits ht' hd' =>
      refine .some (equiv_def.mpr ?_)
      rw [hd, hd', mul_div_assoc, mul_div_assoc, ht.unique ht']
    | tooLarge hlarge => exact absurd hlarge (Nat.not_le.mpr ht.fits_zero)
  | tooLarge hlarge =>
    cases h' with
    | fits ht' => exact absurd hlarge (Nat.not_le.mpr ht'.fits_zero)
    | tooLarge => exact .none

/-! ## The operations -/

theorem sign_num_eq {c : Int} {n : Nat} (hn : 0 < n) (h : v = c / n) : v.num.sign = c.sign := by
  have hn' : (0 : ℚ) < n := by exact_mod_cast hn
  rcases lt_trichotomy c 0 with hc | rfl | hc
  · have hv : v < 0 := h ▸ div_neg_of_neg_of_pos (by exact_mod_cast hc) hn'
    rw [Int.sign_eq_neg_one_of_neg hc, Int.sign_eq_neg_one_of_neg (Rat.num_neg.mpr hv)]
  · rw [h, Int.cast_zero, zero_div]
    rfl
  · have hv : 0 < v := h ▸ div_pos (by exact_mod_cast hc) hn'
    rw [Int.sign_eq_one_of_pos hc, Int.sign_eq_one_of_pos (Rat.num_pos.mpr hv)]

theorem abs_intCast_div (c : Int) (n : Nat) : |(c / n : ℚ)| = c.natAbs / n := by
  rw [abs_div, Nat.abs_cast, Nat.cast_natAbs, Int.cast_abs]

/-- The coefficient that is tried at each scale. -/
theorem coefficientAt_intCast_div (c : Int) (h : t ≤ s) :
    coefficientAt (c / tenTo s) t = roundQuotient .toEven c.natAbs (tenTo (s - t)) := by
  rw [coefficientAt_eq (tenTo_pos s) (abs_intCast_div c _)]
  refine roundQuotient_congr .toEven (tenTo_pos s) (tenTo_pos _) ?_
  rw [Nat.mul_assoc, ← tenTo_add, Nat.add_sub_cancel' h]

/-- Trying one scale, which is either the finest one there is or next to one that is too fine. -/
theorem isRounded_or_too_fine (c : Int) (hs : t ≤ s) (hmax : t ≤ maxScale)
    (hfinest : t = s ∨ t = maxScale ∨ limit ≤ coefficientAt (c / tenTo s) (t + 1)) :
    (∃ d, ofParts? (roundSigned .toEven c (tenTo (s - t))) t = some d ∧
      IsRounded (c / tenTo s) (some d)) ∨
    ofParts? (roundSigned .toEven c (tenTo (s - t))) t = none ∧
      limit ≤ coefficientAt (c / tenTo s) t := by
  have hcoefficient := coefficientAt_intCast_div c hs
  have habs := natAbs_roundSigned .toEven c (tenTo_pos (s - t))
  rcases Nat.lt_or_ge (coefficientAt (c / tenTo s) t) limit with hlt | hge
  · obtain ⟨d, hd, hvalue⟩ := ofParts?_eq_some (habs.trans_lt (hcoefficient ▸ hlt)) hmax
    refine .inl ⟨d, hd, .fits ⟨hlt, hmax, ?_⟩ ?_⟩
    · refine hfinest.imp_left ?_
      rintro rfl
      rw [hcoefficient, Nat.sub_self, tenTo_zero, abs_intCast_div,
        roundQuotient_of_dvd _ Nat.one_pos (one_dvd _), Nat.div_one,
        div_mul_cancel₀ _ (tenTo_cast_pos t).ne']
    · rw [hvalue, hcoefficient, sign_num_eq (tenTo_pos s) rfl, roundSigned]
      push_cast
      rfl
  · refine .inr ⟨(ofParts?_eq_none_iff hmax).mpr ?_, hge⟩
    rwa [habs, ← hcoefficient]

/-- Trying one scale after another ends at the finest one where the number fits, or with none where
it does not fit as a whole number. Each scale is tried on the number itself, so that nothing is
rounded twice. -/
theorem fitFrom_isRounded (c : Int) (hs : t ≤ s) (hmax : t ≤ maxScale)
    (hfinest : t = s ∨ t = maxScale ∨ limit ≤ coefficientAt (c / tenTo s) (t + 1)) :
    IsRounded (c / tenTo s) (fitFrom c s t) := by
  -- Going down from scale to scale, the one that has just failed shows that the next is the finest.
  induction t with
  | zero =>
    rw [fitFrom]
    rcases isRounded_or_too_fine c hs hmax hfinest with ⟨d, hd, hrounded⟩ | ⟨hnone, hlarge⟩
    · rw [Nat.sub_zero] at hd
      rwa [hd]
    · rw [Nat.sub_zero] at hnone
      rw [hnone]
      exact .tooLarge hlarge
  | succ t ih =>
    rw [fitFrom]
    rcases isRounded_or_too_fine c hs hmax hfinest with ⟨d, hd, hrounded⟩ | ⟨hnone, hlarge⟩
    · rwa [hd]
    · rw [hnone]
      exact ih (Nat.le_of_succ_le hs) (Nat.le_of_succ_le hmax) (.inr (.inr hlarge))

theorem fit?_isRounded (c : Int) (s : Nat) : IsRounded (c / tenTo s) (fit? c s) := by
  refine fitFrom_isRounded c (Nat.min_le_left _ _) (Nat.min_le_right _ _) ?_
  rcases Nat.le_total s maxScale with h | h
  · exact .inl (Nat.min_eq_left h)
  · exact .inr (.inl (Nat.min_eq_right h))

/-- A decimal is its own value rounded. -/
theorem isRounded_self (a : Decimal) : IsRounded a.value (some a) := by
  have hcoefficient : coefficientAt a.value a.scale = a.magnitude := by
    rw [value, coefficientAt_intCast_div _ le_rfl, Nat.sub_self, tenTo_zero,
      roundQuotient_of_dvd _ Nat.one_pos (one_dvd _), Nat.div_one, natAbs_coefficient]
  refine .fits (t := a.scale) ⟨hcoefficient ▸ a.magnitude_lt, a.scale_le, .inl ?_⟩ ?_
  · rw [hcoefficient, abs_value, div_mul_cancel₀ _ (tenTo_cast_pos _).ne']
  · rw [hcoefficient, sign_num_eq (v := a.value) (tenTo_pos a.scale) rfl, ← natAbs_coefficient,
      ← Int.cast_natCast, ← Int.cast_mul, Int.sign_mul_natAbs]
    rfl

/-- A sum is the rounded exact sum. -/
theorem add?_isRounded (a b : Decimal) : IsRounded (a.value + b.value) (a.add? b) := by
  unfold add?
  split
  · rename_i ha
    rw [value_eq_zero (isZero_iff.mp ha), zero_add]
    exact b.isRounded_self
  split
  · rename_i hb
    rw [value_eq_zero (isZero_iff.mp hb), add_zero]
    exact a.isRounded_self
  dsimp only
  generalize hs : max a.scale b.scale = s
  have hsum := fit?_isRounded
    (a.coefficient * tenTo (s - a.scale) + b.coefficient * tenTo (s - b.scale)) s
  push_cast at hsum
  rwa [coefficient_mul_tenTo (hs ▸ Nat.le_max_left _ _),
    coefficient_mul_tenTo (hs ▸ Nat.le_max_right _ _), ← add_mul,
    mul_div_cancel_right₀ _ (tenTo_cast_pos s).ne'] at hsum

theorem coefficient_withSign (a : Decimal) (negative : Bool) :
    (a.withSign negative).coefficient = if negative then -(a.magnitude : Int) else a.magnitude :=
  rfl

theorem value_opposite (a : Decimal) : a.opposite.value = -a.value := by
  unfold opposite
  split
  · rename_i ha
    rw [value_eq_zero (isZero_iff.mp ha), neg_zero]
  · have hcoefficient : (a.withSign !a.negative).coefficient = -a.coefficient := by
      rw [coefficient_withSign, coefficient]
      cases a.negative <;> simp
    rw [value, hcoefficient, Int.cast_neg, neg_div]
    rfl

theorem sub?_isRounded (a b : Decimal) : IsRounded (a.value - b.value) (a.sub? b) := by
  rw [sub_eq_add_neg, ← value_opposite]
  exact a.add?_isRounded b.opposite

theorem value_mul_value (a b : Decimal) : a.value * b.value =
    ((a.coefficient * b.coefficient : Int) : ℚ) / tenTo (a.scale + b.scale) := by
  rw [value, value, tenTo_add, div_mul_div_comm]
  push_cast
  rfl

theorem sign_coefficient (h : a.magnitude ≠ 0) :
    a.coefficient.sign = if a.negative then -1 else 1 := by
  have hpos : (0 : Int) < a.magnitude := by omega
  unfold coefficient
  split
  · rw [Int.sign_neg, Int.sign_eq_one_of_pos hpos]
  · exact Int.sign_eq_one_of_pos hpos

theorem value_withSign (a : Decimal) (negative : Bool) :
    (a.withSign negative).value = (if negative then -1 else 1) * |a.value| := by
  rw [value, coefficient_withSign, abs_value]
  cases negative
  · rw [if_neg Bool.false_ne_true, if_neg Bool.false_ne_true, one_mul, Int.cast_natCast]
    rfl
  · rw [if_pos rfl, if_pos rfl, neg_one_mul, Int.cast_neg, Int.cast_natCast, neg_div]
    rfl

/-- A rounded number has the sign of the number, or it is zero. -/
theorem IsRounded.sign_mul_abs (h : IsRounded v (some d)) : v.num.sign * |d.value| = d.value := by
  obtain ⟨_, hd⟩ := h
  rw [hd, abs_div, abs_mul, Nat.abs_cast, Nat.abs_cast]
  rcases lt_trichotomy v.num 0 with hv | hv | hv
  · rw [Int.sign_eq_neg_one_of_neg hv]
    norm_num
    ring
  · simp [hv]
  · rw [Int.sign_eq_one_of_pos hv]
    norm_num

theorem roundQuotient_eq_zero (tie : Tie) {n d : Nat} (h : 2 * n < d) :
    roundQuotient tie n d = 0 := by
  have hlt : n < d := by omega
  unfold roundQuotient
  rw [Nat.mod_eq_of_lt hlt, if_pos h, Nat.div_eq_of_lt hlt]

/-- Two short factors whose product has so many fraction digits come to nothing. -/
theorem isRounded_zero_of_short (hshort : bothShort a b) (hs : 47 < a.scale + b.scale) :
    IsRounded (a.value * b.value) (some zero) := by
  have hcoefficient : coefficientAt (a.value * b.value) maxScale = 0 := by
    have hmax : maxScale ≤ a.scale + b.scale := by
      rw [maxScale]
      omega
    rw [value_mul_value, coefficientAt_intCast_div _ hmax, Int.natAbs_mul, natAbs_coefficient,
      natAbs_coefficient]
    apply roundQuotient_eq_zero
    obtain ⟨ha, hb⟩ := of_decide_eq_true hshort
    calc 2 * (a.magnitude * b.magnitude)
        ≤ 2 * (twoTo 32 * twoTo 32) := Nat.mul_le_mul_left _ (Nat.mul_le_mul ha.le hb.le)
      _ < tenTo 20 := by decide
      _ ≤ tenTo (a.scale + b.scale - maxScale) := tenTo_le (by rw [maxScale]; omega)
  refine .fits (t := maxScale) ⟨?_, le_rfl, .inr (.inl rfl)⟩ ?_
  · rw [hcoefficient]
    decide
  · rw [hcoefficient, value_eq_zero rfl]
    simp

/-- **A product is the rounded exact product.** One too fine for any place is zero, and any other is
cut from the full product of the coefficients. -/
theorem mul?_isRounded (a b : Decimal) : IsRounded (a.value * b.value) (a.mul? b) := by
  have hfit := fit?_isRounded (a.coefficient * b.coefficient) (a.scale + b.scale)
  rw [← value_mul_value] at hfit
  unfold mul?
  split
  · rename_i hzero
    have hvalue : a.value * b.value = zero.value := by
      rw [value_eq_zero (a := zero) rfl, mul_eq_zero]
      rcases Bool.or_eq_true_iff.mp hzero with h | h
      · exact .inl (value_eq_zero (isZero_iff.mp h))
      · exact .inr (value_eq_zero (isZero_iff.mp h))
    rw [hvalue]
    exact zero.isRounded_self
  split
  · rename_i hshort
    split
    · exact isRounded_zero_of_short hshort ‹_›
    · exact hfit
  -- The sign that the product is given is the one that it has.
  rename_i hzero _
  obtain ⟨ha, hb⟩ : a.magnitude ≠ 0 ∧ b.magnitude ≠ 0 := by
    simpa only [Bool.or_eq_true, isZero_iff, not_or] using hzero
  have hsign : (a.value * b.value).num.sign = if a.negative != b.negative then -1 else 1 := by
    rw [sign_num_eq (tenTo_pos _) (value_mul_value a b), Int.sign_mul, sign_coefficient ha,
      sign_coefficient hb]
    cases a.negative <;> cases b.negative <;> rfl
  cases hproduct : fit? (a.coefficient * b.coefficient) (a.scale + b.scale) with
  | none => rwa [hproduct] at hfit
  | some p =>
    rw [hproduct] at hfit
    have hvalue : (p.withSign (a.negative != b.negative)).value = p.value := by
      have hkept := hfit.sign_mul_abs
      rw [hsign] at hkept
      rw [value_withSign]
      exact_mod_cast hkept
    cases hfit with
    | fits ht hp => exact .fits ht (hvalue.trans hp)

/-! ### The quotient -/

theorem value_div_value (a : Decimal) (hb : b.magnitude ≠ 0) : a.value / b.value =
    ((a.coefficient * b.coefficient.sign * tenTo b.scale : Int) : ℚ) /
      (b.magnitude * tenTo a.scale : Nat) := by
  have ha10 := (tenTo_cast_pos a.scale).ne'
  have hb10 := (tenTo_cast_pos b.scale).ne'
  have hb' : (b.magnitude : ℚ) ≠ 0 := Nat.cast_ne_zero.mpr hb
  rw [value, value, sign_coefficient hb, coefficient.eq_1 b]
  cases b.negative
  · rw [if_neg Bool.false_ne_true, if_neg Bool.false_ne_true]
    push_cast
    field_simp
  · rw [if_pos rfl, if_pos rfl]
    push_cast
    field_simp

theorem abs_value_div_value (a b : Decimal) : |a.value / b.value| =
    (a.magnitude * tenTo b.scale : Nat) / (b.magnitude * tenTo a.scale : Nat) := by
  rw [abs_div, abs_value, abs_value, div_div_div_eq, mul_comm (tenTo a.scale : ℚ)]
  push_cast
  rfl

theorem magnitude_shift {i k : Nat} (h : b.scale + i = a.scale + k) :
    a.magnitude * tenTo b.scale * tenTo i = a.magnitude * tenTo k * tenTo a.scale := by
  rw [Nat.mul_assoc, ← tenTo_add, h, Nat.mul_assoc, ← tenTo_add, Nat.add_comm k]

/-- The digits that long division writes: `k` behind the whole part of `a / b`. -/
theorem coefficientAt_div (hb : b.magnitude ≠ 0) {i k : Nat} (h : b.scale + i = a.scale + k) :
    coefficientAt (a.value / b.value) i =
      roundQuotient .toEven (a.magnitude * tenTo k) b.magnitude := by
  have hpos := Nat.pos_of_ne_zero hb
  rw [coefficientAt_eq (Nat.mul_pos hpos (tenTo_pos _)) (abs_value_div_value a b),
    magnitude_shift h, roundQuotient_mul_right _ hpos (tenTo_pos _)]

/-- **A quotient is the rounded exact quotient**, however many digits that has. -/
theorem div?_isRounded (a : Decimal) (hb : b.magnitude ≠ 0) :
    IsRounded (a.value / b.value) (a.div? b) := by
  by_cases ha : a.magnitude = 0
  · have hzero : a.div? b = some zero := by
      rw [div?, if_neg (mt isZero_iff.mp hb), if_pos (isZero_iff.mpr ha)]
    rw [hzero, value_eq_zero ha, zero_div, ← value_eq_zero (a := zero) rfl]
    exact zero.isRounded_self
  rcases div?_cases ha hb with ⟨d, x, j, hd, hx, hvalue⟩ | ⟨hnone, hs, hlarge⟩
  · have hscale : b.scale + x.scale.toNat = a.scale + j := by
      have := hx.scale
      have := hx.scale_nonneg
      omega
    have hcoefficient := coefficientAt_div hb hscale
    rw [hd]
    refine .fits (t := x.scale.toNat) ⟨?_, ?_, ?_⟩ ?_
    · rw [hcoefficient, ← hx.coefficient]
      exact hx.coefficient_lt
    · have := hx.scale_le
      omega
    · rcases hx.finest with hexact | hmax | hlarge
      · refine .inl (abs_mul_tenTo_eq ?_ (abs_value_div_value a b) ?_)
        · exact Nat.mul_pos (Nat.pos_of_ne_zero hb) (tenTo_pos _)
        · rw [magnitude_shift hscale]
          exact Nat.mul_dvd_mul_right hexact _
      · exact .inr (.inl (by omega))
      · right; right
        rwa [coefficientAt_div hb (k := j + 1) (by omega)]
    · have hpos := Nat.mul_pos (Nat.pos_of_ne_zero hb) (tenTo_pos a.scale)
      rw [hvalue, hcoefficient, ← hx.coefficient, sign_num_eq hpos (value_div_value a hb),
        Int.sign_mul, Int.sign_mul, Int.sign_sign,
        Int.sign_eq_one_of_pos (Int.natCast_pos.mpr (tenTo_pos _)), mul_one]
      push_cast
      rfl
  · rw [hnone]
    refine .tooLarge ?_
    rwa [coefficientAt_div hb (k := (-((a.scale : Int) - b.scale)).toNat) (by omega)]

/-! ## Operands of one value -/

theorem magnitude_eq_zero_iff : a.magnitude = 0 ↔ a.value = 0 := by
  refine ⟨value_eq_zero, fun h => ?_⟩
  have habs := abs_value a
  rw [h, abs_zero, eq_comm, div_eq_zero_iff] at habs
  exact_mod_cast habs.resolve_right (tenTo_cast_pos _).ne'

theorem isZero_congr (h : a ≈ a') : a.isZero = a'.isZero := by
  rw [Bool.eq_iff_iff, isZero_iff, isZero_iff, magnitude_eq_zero_iff, magnitude_eq_zero_iff,
    equiv_def.mp h]

theorem lt_congr (ha : a ≈ a') (hb : b ≈ b') : a < b ↔ a' < b' := by
  rw [lt_iff_value_lt, lt_iff_value_lt, equiv_def.mp ha, equiv_def.mp hb]

theorem isNegative_congr (h : a ≈ a') : a.isNegative = a'.isNegative := by
  have hneg (d : Decimal) : d.isNegative = true ↔ d.value < 0 := by
    rw [isNegative_iff, value, div_lt_iff₀ (tenTo_cast_pos _), zero_mul, Int.cast_lt_zero]
  rw [Bool.eq_iff_iff, hneg, hneg, equiv_def.mp h]

theorem maxRight_congr (ha : a ≈ a') (hb : b ≈ b') : maxRight a b ≈ maxRight a' b' := by
  unfold maxRight
  by_cases h : b < a
  · rwa [if_pos h, if_pos ((lt_congr hb ha).mp h)]
  · rwa [if_neg h, if_neg (mt (lt_congr hb ha).mpr h)]

theorem add?_congr (ha : a ≈ a') (hb : b ≈ b') :
    Option.Rel (· ≈ ·) (a.add? b) (a'.add? b') := by
  have h := a'.add?_isRounded b'
  rw [← equiv_def.mp ha, ← equiv_def.mp hb] at h
  exact (a.add?_isRounded b).rel h

theorem sub?_congr (ha : a ≈ a') (hb : b ≈ b') :
    Option.Rel (· ≈ ·) (a.sub? b) (a'.sub? b') := by
  have h := a'.sub?_isRounded b'
  rw [← equiv_def.mp ha, ← equiv_def.mp hb] at h
  exact (a.sub?_isRounded b).rel h

theorem mul?_congr (ha : a ≈ a') (hb : b ≈ b') :
    Option.Rel (· ≈ ·) (a.mul? b) (a'.mul? b') := by
  have h := a'.mul?_isRounded b'
  rw [← equiv_def.mp ha, ← equiv_def.mp hb] at h
  exact (a.mul?_isRounded b).rel h

theorem div?_congr (ha : a ≈ a') (hb : b ≈ b') :
    Option.Rel (· ≈ ·) (a.div? b) (a'.div? b') := by
  by_cases hzero : b.magnitude = 0
  · have hzero' : b'.isZero = true := by rw [← isZero_congr hb, isZero_iff, hzero]
    rw [div?, div?, if_pos (isZero_iff.mpr hzero), if_pos hzero']
    exact .none
  have hzero' : b'.magnitude ≠ 0 := by
    rwa [Ne, magnitude_eq_zero_iff, ← equiv_def.mp hb, ← magnitude_eq_zero_iff]
  have h := div?_isRounded a' hzero'
  rw [← equiv_def.mp ha, ← equiv_def.mp hb] at h
  exact (div?_isRounded a hzero).rel h

theorem half?_congr (ha : a ≈ a') : Option.Rel (· ≈ ·) a.half? a'.half? :=
  div?_congr ha (Setoid.refl two)

end Decimal

end MarketDesk
