import Mathlib.Tactic.Linarith
import Mathlib.Tactic.Ring
import MarketDesk.Decimal.Basic

/-!
# Rounding to the nearest whole number

`roundQuotient` depends on the quotient only and is monotone in it (`roundQuotient_mono`). The
coefficient limit is even, so a quotient half a unit below it is rounded up to it
(`limit_le_roundQuotient_iff`). Since a coarser scale makes the rounded coefficient smaller, an
exact number has no decimal at any scale just if its nearest whole number is too large
(`Decimal.fit?_eq_none_iff`).
-/

namespace MarketDesk

variable {n d n' d' k : Nat}

theorem div_le_roundQuotient (tie : Tie) (n d : Nat) : n / d ≤ roundQuotient tie n d := by
  rcases roundQuotient_eq_or tie n d with h | ⟨h, -⟩ <;> omega

theorem roundQuotient_le_succ (tie : Tie) (n d : Nat) : roundQuotient tie n d ≤ n / d + 1 := by
  rcases roundQuotient_eq_or tie n d with h | ⟨h, -⟩ <;> omega

/-- A larger quotient is not rounded to a smaller number. -/
theorem roundQuotient_mono (tie : Tie) (hd : 0 < d) (hd' : 0 < d') (h : n * d' ≤ n' * d) :
    roundQuotient tie n d ≤ roundQuotient tie n' d' := by
  have hle : n / d ≤ n' / d' := by
    rw [Nat.le_div_iff_mul_le hd']
    apply Nat.le_of_mul_le_mul_right _ hd
    calc n / d * d' * d = n / d * d * d' := by ring
      _ ≤ n * d' := Nat.mul_le_mul_right _ (Nat.div_mul_le_self n d)
      _ ≤ n' * d := h
  rcases Nat.lt_or_eq_of_le hle with hlt | heq
  · calc roundQuotient tie n d ≤ n / d + 1 := roundQuotient_le_succ ..
      _ ≤ n' / d' := hlt
      _ ≤ roundQuotient tie n' d' := div_le_roundQuotient ..
  -- The whole parts agree, so the fractions decide.
  have hr : n % d * d' ≤ n' % d' * d := by
    have e : d * (n / d) + n % d = n := Nat.div_add_mod n d
    have e' : d' * (n' / d') + n' % d' = n' := Nat.div_add_mod n' d'
    rw [← heq] at e'
    rw [← e, ← e'] at h
    nlinarith
  unfold roundQuotient
  rw [← heq]
  have h1 : 2 * (n' % d') < d' → 2 * (n % d) < d := fun hlt => by nlinarith
  have h2 : d < 2 * (n % d) → d' < 2 * (n' % d') := fun hlt => by nlinarith
  cases tie <;> dsimp only <;> split_ifs <;> omega

/-- Common factors of dividend and divisor do not matter. -/
theorem roundQuotient_mul_right (tie : Tie) (hd : 0 < d) (hk : 0 < k) :
    roundQuotient tie (n * k) (d * k) = roundQuotient tie n d := by
  have hdk : 0 < d * k := Nat.mul_pos hd hk
  exact Nat.le_antisymm (roundQuotient_mono tie hdk hd (by rw [Nat.mul_assoc, Nat.mul_comm k d]))
    (roundQuotient_mono tie hd hdk (by rw [Nat.mul_assoc, Nat.mul_comm k d]))

theorem roundQuotient_mul_self (tie : Tie) (hd : 0 < d) : roundQuotient tie (k * d) d = k := by
  rw [roundQuotient_of_dvd tie hd ⟨k, Nat.mul_comm k d⟩, Nat.mul_div_cancel k hd]

/-- A quotient is at most half a unit above what it is rounded to. -/
theorem two_mul_le_roundQuotient (tie : Tie) (hd : 0 < d) :
    2 * n ≤ (2 * roundQuotient tie n d + 1) * d := by
  have e : d * (n / d) + n % d = n := Nat.div_add_mod n d
  have hr : n % d < d := Nat.mod_lt n hd
  have hup : 2 * (n % d) ≤ d ∨ roundQuotient tie n d = n / d + 1 := by
    unfold roundQuotient
    split_ifs with h1 h2
    · exact .inl h1.le
    · exact .inr rfl
    · exact .inl (Nat.not_lt.mp h2)
  rcases hup with hr' | hround
  · have hle := div_le_roundQuotient tie n d
    nlinarith
  · rw [hround]
    nlinarith

/-- A further digit makes the rounded quotient at most ten times as large, but for the rounding. -/
theorem roundQuotient_mul_ten_le (tie : Tie) (hd : 0 < d) :
    roundQuotient tie (n * 10) d ≤ 10 * roundQuotient tie n d + 5 := by
  have hle : n * 10 ≤ (10 * roundQuotient tie n d + 5) * d := by
    have := two_mul_le_roundQuotient (n := n) tie hd
    nlinarith
  calc roundQuotient tie (n * 10) d
      ≤ roundQuotient tie ((10 * roundQuotient tie n d + 5) * d) d :=
        roundQuotient_mono tie hd hd (Nat.mul_le_mul_right _ hle)
    _ = 10 * roundQuotient tie n d + 5 := roundQuotient_mul_self tie hd

/-- A quotient half a unit below an even number is rounded up to it, a smaller one is not. -/
theorem le_roundQuotient_iff_of_even (hd : 0 < d) (hk : k % 2 = 0) (hpos : 0 < k) :
    k ≤ roundQuotient .toEven n d ↔ (2 * k - 1) * d ≤ 2 * n := by
  constructor
  · intro hle
    by_contra hlt
    have e : d * (n / d) + n % d = n := Nat.div_add_mod n d
    have hs : (2 * k - 1) * d + d = 2 * (k * d) := by
      rw [← Nat.succ_mul, Nat.succ_eq_add_one, Nat.sub_add_cancel (by omega), Nat.mul_assoc]
    rcases Nat.lt_or_ge (n / d + 1) k with h | h
    · have := roundQuotient_le_succ .toEven n d
      omega
    · have hdk : d * k ≤ d * (n / d + 1) := Nat.mul_le_mul_left d h
      have hr : 2 * (n % d) < d := by
        rw [Nat.mul_comm k d] at hs
        rw [Nat.mul_add, Nat.mul_one] at hdk
        omega
      have hround : roundQuotient .toEven n d = n / d := by
        unfold roundQuotient
        rw [if_pos hr]
      have : d * k ≤ d * (n / d) := Nat.mul_le_mul_left d (hround ▸ hle)
      rw [Nat.mul_comm k d] at hs
      omega
  · intro hle
    have hhalf : roundQuotient .toEven (2 * k - 1) 2 = k := by
      have hdiv : (2 * k - 1) / 2 = k - 1 := by omega
      have hmod : (2 * k - 1) % 2 = 1 := by omega
      simp only [roundQuotient, hdiv, hmod]
      rw [if_neg (by omega), if_neg (by omega)]
      omega
    calc k = roundQuotient .toEven (2 * k - 1) 2 := hhalf.symm
      _ ≤ roundQuotient .toEven n d :=
        roundQuotient_mono .toEven (by decide) hd (by rw [Nat.mul_comm n 2]; exact hle)

theorem natAbs_roundSigned (tie : Tie) (c : Int) (hd : 0 < d) :
    (roundSigned tie c d).natAbs = roundQuotient tie c.natAbs d := by
  rw [roundSigned, Int.natAbs_mul, Int.natAbs_natCast]
  rcases Int.lt_trichotomy c 0 with hc | rfl | hc
  · simp [Int.sign_eq_neg_one_of_neg hc]
  · simp [roundQuotient, hd]
  · simp [Int.sign_eq_one_of_pos hc]

namespace Decimal

theorem limit_eq : limit = 79228162514264337593543950336 := by decide

theorem ofParts?_eq_none_iff {c : Int} {s : Nat} (hs : s ≤ maxScale) :
    ofParts? c s = none ↔ limit ≤ c.natAbs := by
  unfold ofParts?
  split
  · rename_i h
    simp [h.1]
  · rename_i h
    simp only [true_iff]
    omega

/-- A number half a unit below the limit is rounded up to it. -/
theorem limit_le_roundQuotient_iff (hd : 0 < d) :
    limit ≤ roundQuotient .toEven n d ↔ (2 * limit - 1) * d ≤ 2 * n :=
  le_roundQuotient_iff_of_even hd (by decide) (by decide)

/-- Places are dropped down to none, so that only a number too large even when it is whole does not
fit. -/
theorem fitFrom_eq_none_iff {c : Int} {s t : Nat} (ht : t ≤ maxScale) :
    fitFrom c s t = none ↔ limit ≤ roundQuotient .toEven c.natAbs (tenTo s) := by
  induction t with
  | zero =>
    rw [fitFrom, ofParts?_eq_none_iff ht, natAbs_roundSigned _ _ (tenTo_pos s)]
  | succ t ih =>
    have hcoarse : roundQuotient .toEven c.natAbs (tenTo s) ≤
        roundQuotient .toEven c.natAbs (tenTo (s - (t + 1))) :=
      roundQuotient_mono .toEven (tenTo_pos _) (tenTo_pos _)
        (Nat.mul_le_mul_left _ (tenTo_le (Nat.sub_le _ _)))
    rw [fitFrom]
    cases hfine : ofParts? (roundSigned .toEven c (tenTo (s - (t + 1)))) (t + 1) with
    | none => exact ih (Nat.le_of_succ_le ht)
    | some x =>
      have hlt : ¬ limit ≤ roundQuotient .toEven c.natAbs (tenTo (s - (t + 1))) := by
        rw [← natAbs_roundSigned _ _ (tenTo_pos _), ← ofParts?_eq_none_iff ht, hfine]
        exact Option.some_ne_none x
      simp only [reduceCtorEq, false_iff]
      exact fun h => hlt (Nat.le_trans h hcoarse)

/-- An exact number has no decimal just if its absolute value reaches `limit - 1 / 2`. -/
theorem fit?_eq_none_iff {c : Int} {s : Nat} :
    fit? c s = none ↔ (2 * limit - 1) * tenTo s ≤ 2 * c.natAbs := by
  rw [fit?, fitFrom_eq_none_iff (Nat.min_le_right _ _), limit_le_roundQuotient_iff (tenTo_pos s)]

end Decimal

end MarketDesk
