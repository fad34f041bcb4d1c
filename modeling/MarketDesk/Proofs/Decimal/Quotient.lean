import Mathlib.Tactic.Linarith
import Mathlib.Tactic.Ring
import MarketDesk.Decimal.Division
import MarketDesk.Proofs.Decimal.Rounding
import MarketDesk.Proofs.Decimal.Value

/-!
# Quotients of decimals

Long division writes the digits of the exact quotient, so that what it settles on is the exact
quotient rounded once (`Quotient.Rounds`), and it fails only where even the nearest whole number is
too large (`Divides`). The invariant of the digit loop is the equation `q * b + r = a * 10 ^ k`.
-/

namespace MarketDesk.Decimal

variable {a b q r k : Nat} {s : Int}

/-- The quotient is `a / b`, for scales that differ by `s`, rounded behind `j` further digits. It is
exact or has as many digits as fit. -/
structure Quotient.Rounds (x : Quotient) (a b : Nat) (s : Int) (j : Nat) : Prop where
  coefficient : x.coefficient = roundQuotient .toEven (a * tenTo j) b
  scale : x.scale = s + j
  coefficient_lt : x.coefficient < limit
  scale_nonneg : 0 ≤ x.scale
  scale_le : x.scale ≤ maxScale
  finest : b ∣ a * tenTo j ∨ x.scale = maxScale ∨
    limit ≤ roundQuotient .toEven (a * tenTo (j + 1)) b

/-- What a division of `a` by `b` may lead to. Without a result the quotient is too large for a
decimal. -/
def Divides (a b : Nat) (s : Int) : Option Quotient → Prop
  | some x => ∃ j, x.Rounds a b s j
  | none => s ≤ 0 ∧ limit ≤ roundQuotient .toEven (a * tenTo (-s).toNat) b

theorem room_mul_le (hq : q ≤ limit) (most : Nat) : q * tenTo (room q most) ≤ limit := by
  induction most with
  | zero => simpa [room] using hq
  | succ x ih =>
    unfold room
    split
    · assumption
    · exact ih

/-- There is no room for a digit only if none was asked for or none fits. -/
theorem limit_lt_of_room_eq_zero {most : Nat} (h : room q most = 0) :
    most = 0 ∨ limit < q * 10 := by
  induction most with
  | zero => exact .inl rfl
  | succ x ih =>
    unfold room at h
    split at h
    · omega
    · rename_i hx
      rcases ih h with rfl | h
      · exact .inr (by simpa [tenTo] using hx)
      · exact .inr h

/-- More digits make a larger coefficient. -/
theorem roundQuotient_tenTo_mono (hb : 0 < b) {i j : Nat} (h : i ≤ j) :
    roundQuotient .toEven (a * tenTo i) b ≤ roundQuotient .toEven (a * tenTo j) b :=
  roundQuotient_mono .toEven hb hb
    (Nat.mul_le_mul_right _ (Nat.mul_le_mul_left _ (tenTo_le h)))

theorem mul_tenTo_succ (a k : Nat) : a * tenTo (k + 1) = a * tenTo k * 10 := by
  rw [tenTo_succ, Nat.mul_assoc]

/-- A division that comes out with `k` more digits leads to the exact quotient. -/
theorem raise_divides (hb : 0 < b) (hq : q < limit) (hk : q * b = a * tenTo k)
    (hs : s + k ≤ maxScale) : Divides a b s (raise q (s + k)) := by
  unfold raise
  split
  · rename_i h0
    exact ⟨k, by rw [← hk, roundQuotient_mul_self _ hb], rfl, hq, h0, hs,
      .inl ⟨q, by rw [← hk, Nat.mul_comm]⟩⟩
  -- The missing zeros are appended: then `s + j` is zero.
  rename_i h0
  have hj : (-(s + k)).toNat + k = (-s).toNat := by omega
  have hexact : q * tenTo (-(s + k)).toNat * b = a * tenTo (-s).toNat := by
    rw [← hj, tenTo_add]
    calc q * tenTo (-(s + k)).toNat * b = q * b * tenTo (-(s + k)).toNat := by ring
      _ = a * (tenTo (-(s + k)).toNat * tenTo k) := by rw [hk]; ring
  split
  · rename_i hlt
    refine ⟨(-s).toNat, ?_, ?_, hlt, Int.le_refl 0, Int.natCast_nonneg _,
      .inl ⟨q * tenTo (-(s + k)).toNat, ?_⟩⟩
    · rw [← hexact, roundQuotient_mul_self _ hb]
    · show (0 : Int) = _
      omega
    · rw [← hexact, Nat.mul_comm]
  · rename_i hge
    refine ⟨by omega, ?_⟩
    rw [← hexact, roundQuotient_mul_self _ hb]
    omega

theorem div_eq_of_digits (hb : 0 < b) (hr : r < b) (hk : q * b + r = a * tenTo k) :
    a * tenTo k / b = q := by
  rw [← hk, Nat.add_comm, Nat.add_mul_div_right _ _ hb, Nat.div_eq_of_lt hr, Nat.zero_add]

/-- The digits found so far, with a zero appended, do not exceed the quotient. -/
theorem mul_ten_le_roundQuotient (hb : 0 < b) (hk : q * b + r = a * tenTo k) :
    q * 10 ≤ roundQuotient .toEven (a * tenTo (k + 1)) b := by
  rw [← roundQuotient_mul_self .toEven hb (k := q * 10)]
  refine roundQuotient_mono .toEven hb hb (Nat.mul_le_mul_right _ ?_)
  rw [mul_tenTo_succ, ← hk]
  nlinarith

/-- What is left after a digit was given up fits. -/
theorem roundQuotient_lt_of_dropped (hq : q < 5 * limit) (hdiv : a * tenTo (k + 1) / b = q) :
    roundQuotient .toEven (a * tenTo k) b < limit := by
  have h10 : a * tenTo k / b ≤ q / 10 := by
    rw [← hdiv, mul_tenTo_succ, Nat.div_div_eq_div_mul, Nat.mul_comm b 10,
      Nat.mul_comm (a * tenTo k) 10, Nat.mul_div_mul_left _ _ (by decide)]
  have := roundQuotient_le_succ .toEven (a * tenTo k) b
  have := limit_eq
  omega

/-- Rounding gives up a digit where the rounded quotient does not fit, and fails on whole numbers
that do not fit. It is called where no further digit fits. -/
theorem settle_divides (ha : a < limit) (hb : 0 < b) (hr : r < b) (hk : q * b + r = a * tenTo k)
    (hq : q < 5 * limit) (hs : s + k ≤ maxScale)
    (hend : s + k = maxScale ∨ limit < q * 10 ∨ limit ≤ q) :
    Divides a b s (settle b q r (s + k)) := by
  have hdiv := div_eq_of_digits hb hr hk
  have hle : q ≤ roundQuotient .toEven (a * tenTo k) b := by
    have := div_le_roundQuotient .toEven (a * tenTo k) b
    omega
  have hnext := mul_ten_le_roundQuotient hb hk
  unfold settle
  rw [hk]
  dsimp only
  split
  · rename_i hlt
    split
    · rename_i h0
      refine ⟨k, rfl, rfl, hlt, h0, hs, ?_⟩
      rcases hend with h | h | h
      · exact .inr (.inl h)
      · exact .inr (.inr (by omega))
      · omega
    · rename_i h0
      have : (maxScale : Int) = 28 := rfl
      refine ⟨by omega, ?_⟩
      rcases hend with h | h | h
      · omega
      · have := roundQuotient_tenTo_mono (a := a) hb (show k + 1 ≤ (-s).toNat by omega)
        omega
      · omega
  · rename_i hge
    split
    · rename_i h1
      -- `k = 0` would mean that `a` itself is too large.
      obtain _ | j := k
      · have := roundQuotient_le .toEven a hb
        simp only [tenTo_zero, Nat.mul_one] at hge
        omega
      have hscale : roundQuotient .toEven (a * tenTo (j + 1)) (10 * b) =
          roundQuotient .toEven (a * tenTo j) b := by
        rw [mul_tenTo_succ, Nat.mul_comm 10 b, roundQuotient_mul_right .toEven hb (by decide)]
      have hlt := roundQuotient_lt_of_dropped hq hdiv
      refine ⟨j, hscale, ?_, by rw [hscale]; exact hlt, by simp only; omega, by simp only; omega,
        .inr (.inr (by omega))⟩
      show s + ((j + 1 : Nat) : Int) - 1 = s + j
      omega
    · rename_i h1
      refine ⟨by omega, ?_⟩
      have := roundQuotient_tenTo_mono (a := a) hb (show k ≤ (-s).toNat by omega)
      omega

/-- The digit loop keeps `q * b + r = a * 10 ^ k`. -/
theorem extend_divides (ha : a < limit) (hb : 0 < b) (hr : r < b)
    (hk : q * b + r = a * tenTo k) (hq : q < limit) (hs : s + k ≤ maxScale) :
    Divides a b s (extend b q r (s + k)) := by
  have hmax : (maxScale : Int) = 28 := rfl
  induction hn : (28 - (s + k)).toNat using Nat.strong_induction_on generalizing q r k with
  | _ n ih =>
    rw [extend]
    split
    · rename_i h0
      exact raise_divides hb hq (by rw [← hk, h0, Nat.add_zero]) hs
    dsimp only
    have hroom := room_le q (min 9 (28 - (s + k)).toNat)
    have hfit := room_mul_le (Nat.le_of_lt hq) (min 9 (28 - (s + k)).toNat)
    split
    · rename_i hp
      refine settle_divides ha hb hr hk (by omega) hs ?_
      rcases limit_lt_of_room_eq_zero hp with h | h
      · exact .inl (by omega)
      · exact .inr (.inl h)
    rename_i hp
    generalize room q (min 9 (28 - (s + k)).toNat) = p at hroom hfit hp
    have hscale : s + (k : Int) + (p : Int) = s + ((k + p : Nat) : Int) := by
      rw [Int.natCast_add, Int.add_assoc]
    have hkp : (q * tenTo p + r * tenTo p / b) * b + r * tenTo p % b = a * tenTo (k + p) := by
      have := Nat.div_add_mod (r * tenTo p) b
      rw [tenTo_add, ← Nat.mul_assoc, ← hk]
      linarith
    have hrp : r * tenTo p % b < b := Nat.mod_lt _ hb
    have hdig : r * tenTo p / b < tenTo p := by
      rw [Nat.div_lt_iff_lt_mul hb, Nat.mul_comm]
      exact Nat.mul_lt_mul_of_pos_left hr (tenTo_pos p)
    have hten : tenTo p ≤ tenTo 9 := tenTo_le (by omega)
    rw [hscale]
    split
    · rename_i hlt
      exact ih _ (by omega) hrp hkp hlt (by omega) rfl
    · rename_i hge
      have : tenTo 9 = 1000000000 := by decide
      have := limit_eq
      exact settle_divides ha hb hrp hkp (by omega) (by omega) (.inr (.inr (by omega)))

/-! ## Trailing zeros -/

/-- `qs` is the quotient `q` at scale `s` without some trailing zeros. -/
def Shortens (q s : Nat) (qs : Nat × Nat) : Prop :=
  qs.2 ≤ s ∧ qs.1 * tenTo (s - qs.2) = q

theorem Shortens.refl (q s : Nat) : Shortens q s (q, s) :=
  ⟨Nat.le_refl s, by simp⟩

/-- `n` zeros more may go if they are there. -/
theorem Shortens.drop {qs : Nat × Nat} {n : Nat} (h : Shortens q n qs) {k : Nat} (hk : k ≤ qs.2)
    (hz : qs.1 % tenTo k = 0) : Shortens q n (qs.1 / tenTo k, qs.2 - k) := by
  obtain ⟨hle, hq⟩ := h
  refine ⟨by dsimp only; omega, ?_⟩
  dsimp only
  rw [show n - (qs.2 - k) = k + (n - qs.2) by omega, tenTo_add, ← Nat.mul_assoc,
    Nat.div_mul_cancel (Nat.dvd_of_mod_eq_zero hz), hq]

theorem dropEights_shortens {n q' s' : Nat} (h : Shortens q n (q', s')) :
    Shortens q n (dropEights q' s') := by
  induction s' using Nat.strong_induction_on generalizing q' with
  | _ s' ih =>
    rw [dropEights]
    split
    · rename_i hc
      exact ih _ (by omega) (h.drop hc.1 hc.2.2)
    · exact h

theorem dropZeros_shortens {n : Nat} {qs : Nat × Nat} (h : Shortens q n qs) (k : Nat) :
    Shortens q n (dropZeros k qs) := by
  unfold dropZeros
  split
  · rename_i hc
    exact h.drop hc.1 hc.2
  · exact h

theorem trim_shortens (q s : Nat) : Shortens q s (trim q s) :=
  dropZeros_shortens (dropZeros_shortens (dropZeros_shortens
    (dropEights_shortens (.refl q s)) 4) 2) 1

/-! ## Division -/

/-- `y` is `a / b` rounded once, perhaps without trailing zeros. -/
def Quotient.Trims (y : Quotient) (a b : Nat) (s : Int) : Prop :=
  ∃ (x : Quotient) (j t : Nat), x.Rounds a b s j ∧ y.scale = t ∧
    Shortens x.coefficient x.scale.toNat (y.coefficient, t)

theorem Quotient.Rounds.trims {x : Quotient} {j : Nat} (h : x.Rounds a b s j) : x.Trims a b s :=
  ⟨x, j, x.scale.toNat, h, (Int.toNat_of_nonneg h.scale_nonneg).symm, .refl _ _⟩

/-- A quotient is rounded once; it is missing only if it is too large. -/
theorem divide_cases (ha : a < limit) (hb : 0 < b) (hs : s ≤ maxScale) :
    (∃ y, divide a b s = some y ∧ y.Trims a b s) ∨
      divide a b s = none ∧ s ≤ 0 ∧ limit ≤ roundQuotient .toEven (a * tenTo (-s).toNat) b := by
  have hdiv : a / b * b + a % b = a * tenTo 0 := by
    rw [tenTo_zero, Nat.mul_one, Nat.div_add_mod' a b]
  have hlt : a / b < limit := Nat.lt_of_le_of_lt (Nat.div_le_self a b) ha
  have hs0 : s + ((0 : Nat) : Int) ≤ maxScale := by simpa using hs
  unfold divide
  split
  · rename_i h0
    have hd := raise_divides hb hlt (by rw [← hdiv, h0, Nat.add_zero]) hs0
    rw [Int.natCast_zero, Int.add_zero] at hd
    cases hx : raise (a / b) s with
    | none => exact .inr ⟨rfl, by simpa only [hx, Divides] using hd⟩
    | some x =>
      rw [hx] at hd
      obtain ⟨j, hj⟩ := hd
      exact .inl ⟨x, rfl, hj.trims⟩
  · have hd := extend_divides ha hb (Nat.mod_lt a hb) hdiv hlt hs0
    rw [Int.natCast_zero, Int.add_zero] at hd
    cases hx : extend b (a / b) (a % b) s with
    | none => exact .inr ⟨rfl, by simpa only [hx, Divides] using hd⟩
    | some x =>
      rw [hx] at hd
      obtain ⟨j, hj⟩ := hd
      exact .inl ⟨_, rfl, x, j, _, hj, rfl, trim_shortens _ _⟩

/-! ## Values -/

theorem coefficient_mk {c : Int} {n : Nat} (hc : c.natAbs < limit) (hn : n ≤ maxScale) :
    coefficient ⟨decide (c < 0), c.natAbs, n, hc, hn⟩ = c := by
  unfold coefficient
  dsimp only
  split
  · rename_i h
    have := of_decide_eq_true h
    omega
  · rename_i h
    have := mt decide_eq_true h
    omega

theorem ofParts?_eq_some {c : Int} {n : Nat} (hc : c.natAbs < limit) (hn : n ≤ maxScale) :
    ∃ d, ofParts? c n = some d ∧ d.value = c / tenTo n := by
  refine ⟨_, dif_pos ⟨hc, hn⟩, ?_⟩
  rw [value, coefficient_mk hc hn]

theorem Shortens.cast_div {q n : Nat} {qs : Nat × Nat} (h : Shortens q n qs) :
    (qs.1 : ℚ) / tenTo qs.2 = q / tenTo n := by
  rw [div_eq_div_iff (tenTo_cast_pos _).ne' (tenTo_cast_pos _).ne', ← h.2,
    show n = n - qs.2 + qs.2 from (Nat.sub_add_cancel h.1).symm, tenTo_add, Nat.add_sub_cancel]
  push_cast
  ring

theorem coefficient_ne_zero {a : Decimal} (h : a.magnitude ≠ 0) : a.coefficient ≠ 0 := by
  rwa [← Int.natAbs_ne_zero, natAbs_coefficient]

/-- The value of a quotient is the rounded one, with the signs of both operands. -/
theorem div?_cases {a b : Decimal} (ha : a.magnitude ≠ 0) (hb : b.magnitude ≠ 0) :
    (∃ (d : Decimal) (x : Quotient) (j : Nat), a.div? b = some d ∧
      x.Rounds a.magnitude b.magnitude (a.scale - b.scale) j ∧
      d.value = a.coefficient.sign * b.coefficient.sign * x.coefficient / tenTo x.scale.toNat) ∨
    a.div? b = none ∧ (a.scale : Int) - b.scale ≤ 0 ∧
      limit ≤ roundQuotient .toEven
        (a.magnitude * tenTo (-((a.scale : Int) - b.scale)).toNat) b.magnitude := by
  have hs : (a.scale : Int) - b.scale ≤ maxScale := by
    have := a.scale_le
    omega
  unfold div?
  rw [if_neg (by simpa using hb), if_neg (by simpa using ha)]
  rcases divide_cases a.magnitude_lt (Nat.pos_of_ne_zero hb) hs with
    ⟨y, hy, x, j, t, hx, ht, hz⟩ | ⟨hnone, h⟩
  · have hy_le : y.coefficient ≤ x.coefficient := by
      rw [← hz.2]
      exact Nat.le_mul_of_pos_right _ (tenTo_pos _)
    have ht_le : y.scale.toNat ≤ maxScale := by
      have ht_le : t ≤ x.scale.toNat := hz.1
      have := hx.scale_le
      omega
    have habs :
        (a.coefficient.sign * b.coefficient.sign * (y.coefficient : Int)).natAbs < limit := by
      rw [Int.natAbs_mul, Int.natAbs_natCast, Int.natAbs_mul,
        Int.natAbs_sign_of_ne_zero (coefficient_ne_zero ha),
        Int.natAbs_sign_of_ne_zero (coefficient_ne_zero hb), Nat.one_mul]
      exact Nat.lt_of_le_of_lt (by omega) hx.coefficient_lt
    obtain ⟨d, hd, hv⟩ := ofParts?_eq_some habs ht_le
    refine .inl ⟨d, x, j, by rw [hy]; exact hd, hx, ?_⟩
    rw [hv, ht, Int.toNat_natCast]
    push_cast
    rw [mul_div_assoc, mul_div_assoc, hz.cast_div]
  · exact .inr ⟨by rw [hnone]; rfl, h⟩

/-- Every decimal has a half: the exact one rounded once. -/
theorem half?_eq_some (a : Decimal) : ∃ (h : Decimal) (j : Nat), a.half? = some h ∧
    roundQuotient .toEven (a.magnitude * tenTo j) 2 < limit ∧
    h.value = a.coefficient.sign * roundQuotient .toEven (a.magnitude * tenTo j) 2 /
      tenTo (a.scale + j) := by
  by_cases ha : a.magnitude = 0
  · have hc : a.coefficient = 0 := by rwa [← Int.natAbs_eq_zero, natAbs_coefficient]
    refine ⟨zero, 0, ?_, by rw [ha]; decide, by rw [hc, value_eq_zero rfl]; simp⟩
    rw [half?, div?, if_neg (by decide), if_pos (isZero_iff.mpr ha)]
  rcases div?_cases ha (b := two) (by decide) with ⟨h, x, j, hh, hx, hv⟩ | ⟨-, hs, hlarge⟩
  · have hscale : x.scale.toNat = a.scale + j := by
      have := hx.scale
      have : (two.scale : Int) = 0 := rfl
      omega
    refine ⟨h, j, hh, hx.coefficient ▸ hx.coefficient_lt, ?_⟩
    rw [hv, hscale, hx.coefficient, show two.coefficient.sign = 1 by decide, Int.cast_one, mul_one]
    rfl
  · -- A half is no larger than the whole.
    exfalso
    have hs0 : (-((a.scale : Int) - two.scale)).toNat = 0 := by
      have : (two.scale : Int) = 0 := rfl
      omega
    rw [hs0, tenTo_zero, Nat.mul_one] at hlarge
    have := roundQuotient_le .toEven a.magnitude (d := two.magnitude) (by decide)
    have := a.magnitude_lt
    omega

end MarketDesk.Decimal
