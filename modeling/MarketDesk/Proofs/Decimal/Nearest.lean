import MarketDesk.Proofs.Decimal.Exact

/-!
# Halves away from zero

The nearest whole number is unique and keeps the order (`IsNearest.mono`), and a whole number is its
own (`IsNearest.eq_of_int`). Rounding a decimal to some places gives the nearest number of units of
the last one (`Decimal.round_isNearest`).
-/

namespace MarketDesk

variable {n d places : Nat} {j k l : Int} {v w : ℚ}

/-- The whole number `k` is nearest to `v`, and further from zero if `v` is half a unit away. -/
structure IsNearest (v : ℚ) (k : Int) : Prop where
  near : |v - k| ≤ 1 / 2
  half : |v - k| = 1 / 2 → |v| < |(k : ℚ)|

namespace IsNearest

theorem self (k : Int) : IsNearest k k := by
  constructor <;> rw [sub_self, abs_zero] <;> norm_num

theorem neg (h : IsNearest v k) : IsNearest (-v) (-k) := by
  have hdist : |-v - (-k : Int)| = |v - k| := by
    rw [Int.cast_neg, neg_sub_neg, abs_sub_comm]
  constructor
  · rw [hdist]
    exact h.near
  · rw [hdist, Int.cast_neg, abs_neg, abs_neg]
    exact h.half

theorem eq_of_int (h : IsNearest j k) : k = j := by
  have hnear : ((|j - k| : Int) : ℚ) < 1 := by
    push_cast
    exact h.near.trans_lt (by norm_num)
  have hzero : |j - k| < 1 := by exact_mod_cast hnear
  rw [Int.abs_lt_one_iff] at hzero
  omega

/-- **A larger number has no smaller nearest whole number.** -/
theorem mono (h : IsNearest v k) (h' : IsNearest w l) (hle : v ≤ w) : k ≤ l := by
  by_contra hlt
  have hsucc : (l : ℚ) + 1 ≤ k := by exact_mod_cast not_le.mp hlt
  have hv := abs_le.mp h.near
  have hw := abs_le.mp h'.near
  -- Both numbers lie in the middle between `l` and `k = l + 1`.
  have hv' : v = l + 1 / 2 := by linarith
  have hw' : w = l + 1 / 2 := by linarith
  have hk : (k : ℚ) = l + 1 := by linarith
  have habs : |(l + 1 / 2 : ℚ)| < |(l : ℚ)| := by
    rw [← hw']
    refine h'.half ?_
    rw [hw', add_sub_cancel_left, abs_of_pos one_half_pos]
  have habs' : |(l + 1 / 2 : ℚ)| < |(l + 1 : ℚ)| := by
    rw [← hk, ← hv']
    refine h.half ?_
    rw [hv', hk, show (l + 1 / 2 - (l + 1) : ℚ) = -(1 / 2) by ring, abs_neg,
      abs_of_pos one_half_pos]
  -- So the middle would be nearer to zero than either of them.
  rcases le_or_gt 0 l with hl | hl
  · have hl' : (0 : ℚ) ≤ l := by exact_mod_cast hl
    rw [abs_of_nonneg hl', abs_of_nonneg (by linarith)] at habs
    linarith
  · have hl' : (l : ℚ) + 1 ≤ 0 := by exact_mod_cast hl
    rw [abs_of_nonpos hl', abs_of_nonpos (by linarith)] at habs'
    linarith

theorem unique (h : IsNearest v k) (h' : IsNearest v l) : k = l :=
  le_antisymm (h.mono h' le_rfl) (h'.mono h le_rfl)

end IsNearest

/-- A quotient is less than half a unit above what it is rounded to away from zero. -/
theorem two_mul_lt_roundQuotient (hd : 0 < d) :
    2 * n < (2 * roundQuotient .awayFromZero n d + 1) * d := by
  have e : d * (n / d) + n % d = n := Nat.div_add_mod n d
  have hr : n % d < d := Nat.mod_lt n hd
  unfold roundQuotient
  split_ifs with h1 h2 <;> nlinarith

/-- Rounding halves away from zero gives the nearest whole number, and the upper one of two. -/
theorem roundQuotient_isNearest (hd : 0 < d) :
    IsNearest (n / d) (roundQuotient .awayFromZero n d) := by
  have hd' : (0 : ℚ) < d := Nat.cast_pos.mpr hd
  have hlt : (n / d : ℚ) - roundQuotient .awayFromZero n d < 1 / 2 := by
    have hnat : (2 * n : ℚ) < (2 * roundQuotient .awayFromZero n d + 1) * d := by
      exact_mod_cast two_mul_lt_roundQuotient hd
    rw [sub_lt_iff_lt_add, div_lt_iff₀ hd']
    linarith
  constructor
  · exact abs_sub_roundQuotient_le .awayFromZero hd
  · intro hhalf
    rw [Int.cast_natCast] at hhalf ⊢
    have hlow : (n / d : ℚ) - roundQuotient .awayFromZero n d = -(1 / 2) :=
      (eq_or_eq_neg_of_abs_eq hhalf).resolve_left hlt.ne
    rw [abs_of_nonneg (by positivity), Nat.abs_cast]
    linarith

namespace Decimal

variable {a : Decimal}

/-- Units of the last of `places` fraction digits, for a decimal that has no more. -/
def units (a : Decimal) (places : Nat) : Int :=
  a.coefficient * tenTo (places - a.scale)

theorem value_mul_tenTo_eq_units (h : a.scale ≤ places) :
    a.value * tenTo places = a.units places := by
  rw [units, ← coefficient_mul_tenTo h]
  push_cast
  rfl

theorem natAbs_units (a : Decimal) (places : Nat) :
    (a.units places).natAbs = a.magnitude * tenTo (places - a.scale) := by
  rw [units, Int.natAbs_mul, natAbs_coefficient, Int.natAbs_natCast]

theorem round_of_le (h : a.scale ≤ places) : a.round places = a := by
  rw [round, dif_pos h]

theorem round_of_lt (h : places < a.scale) : (a.round places).scale = places ∧
    (a.round places).magnitude =
      roundQuotient .awayFromZero a.magnitude (tenTo (a.scale - places)) ∧
    (a.round places).negative =
      (a.negative && (a.isZero || (a.round places).magnitude != 0)) := by
  rw [round, dif_neg (Nat.not_le.mpr h)]
  exact ⟨rfl, rfl, rfl⟩

theorem scale_round_le (a : Decimal) (places : Nat) : (a.round places).scale ≤ places := by
  rcases Nat.lt_or_ge places a.scale with h | h
  · exact (round_of_lt h).1.le
  · rwa [round_of_le h]

/-- What becomes zero loses its sign, but then the sign does not matter. -/
theorem coefficient_round (h : places < a.scale) : (a.round places).coefficient =
    if a.negative then -((a.round places).magnitude : Int) else (a.round places).magnitude := by
  obtain ⟨-, -, hsign⟩ := round_of_lt h
  rw [coefficient, hsign]
  by_cases hzero : (a.round places).magnitude = 0
  · simp [hzero]
  · have hkept : ((a.round places).magnitude != 0) = true := bne_iff_ne.mpr hzero
    rw [hkept, Bool.or_true, Bool.and_true]

/-- **Rounding to places gives the nearest number of units.** -/
theorem round_isNearest (a : Decimal) (places : Nat) :
    IsNearest (a.value * tenTo places) ((a.round places).units places) := by
  rcases Nat.lt_or_ge places a.scale with h | h
  · obtain ⟨hscale, hmagnitude, -⟩ := round_of_lt h
    have hunits : (a.round places).units places = (a.round places).coefficient := by
      rw [units, hscale, Nat.sub_self, tenTo_zero, Nat.cast_one, mul_one]
    have hnearest : IsNearest (a.magnitude / tenTo (a.scale - places) : ℚ)
        (a.round places).magnitude := by
      rw [hmagnitude]
      exact roundQuotient_isNearest (tenTo_pos _)
    have hvalue : a.value * tenTo places = a.coefficient / tenTo (a.scale - places) := by
      have hsplit : tenTo a.scale = tenTo (a.scale - places) * tenTo places := by
        rw [← tenTo_add, Nat.sub_add_cancel h.le]
      have := tenTo_cast_pos places
      have := tenTo_cast_pos (a.scale - places)
      rw [value, hsplit]
      push_cast
      field_simp
    rw [hunits, hvalue, coefficient_round h, coefficient]
    cases a.negative with
    | false => exact hnearest
    | true =>
      rw [if_pos rfl, if_pos rfl, Int.cast_neg, Int.cast_natCast, neg_div]
      exact hnearest.neg
  · rw [round_of_le h, value_mul_tenTo_eq_units h]
    exact .self _

end Decimal

end MarketDesk
