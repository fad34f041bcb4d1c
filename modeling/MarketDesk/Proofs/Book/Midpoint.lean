import MarketDesk.Book.Panel
import MarketDesk.Proofs.Decimal.Doubles

/-!
# The price halfway between two prices

A mid price is rounded more than once: the sum of the prices is rounded before it is halved, and
where the sum is too large its halves are rounded before they are added (`Book.IsMid`). Each of the
two ways keeps the order of the prices. From one way to the other a mid price can slip by one unit
against it, at one place on each side of zero (`Book.IsMid.le_or_slips`).

A price is its own mid price just if its double loses nothing (`Book.IsMid.equiv_iff_doubles`). Such
a price bounds the mid prices of all spreads that it closes (`Book.IsMid.le_ask`,
`Book.IsMid.bid_le`).
-/

namespace MarketDesk

open Decimal

namespace Book

/-- **A price halfway between `v` and `w`**, with what their sum is rounded to. -/
inductive IsMid (v w : ℚ) (m : Decimal) : Option Decimal → Prop
  | sum {s : Decimal} : IsRounded (v + w) (some s) → IsRounded (s.value / 2) (some m) →
    IsMid v w m (some s)
  | halves {x y : Decimal} : IsRounded (v + w) none → IsRounded (v / 2) (some x) →
    IsRounded (w / 2) (some y) → IsRounded (x.value + y.value) (some m) → IsMid v w m none

variable {ask bid a m m' s : Decimal} {o o' : Option Decimal} {v v' w w' : ℚ}

/-- Whether the prices are added first or halved first depends on whether their sum is a decimal; in
both cases each operation rounds the exact number. -/
theorem isMid_of_midOf? (h : midOf? ask bid = some m) :
    IsMid ask.value bid.value m (ask.add? bid) := by
  have hsum := ask.add?_isRounded bid
  unfold midOf? at h
  cases ho : ask.add? bid with
  | some s =>
    rw [ho] at h hsum
    have hhalf := s.half?_isRounded
    rw [show s.half? = some m from h] at hhalf
    exact .sum hsum hhalf
  | none =>
    rw [ho] at h hsum
    obtain ⟨x, hx, h⟩ := Option.bind_eq_some_iff.mp h
    obtain ⟨y, hy, h⟩ := Option.bind_eq_some_iff.mp h
    have hask := ask.half?_isRounded
    have hbid := bid.half?_isRounded
    have hboth := x.add?_isRounded y
    rw [hx] at hask
    rw [hy] at hbid
    rw [h] at hboth
    exact .halves hsum hask hbid hboth

theorem IsMid.comm (h : IsMid v w m o) : IsMid w v m o := by
  cases h with
  | sum hsum hhalf =>
    rw [add_comm] at hsum
    exact .sum hsum hhalf
  | halves hsum hv hw hboth =>
    rw [add_comm] at hsum hboth
    exact .halves hsum hw hv hboth

/-- Mid prices are alike on both sides of zero, so that a bound from above gives one from below. -/
theorem IsMid.neg (h : IsMid v w m o) : IsMid (-v) (-w) m.opposite (o.map opposite) := by
  cases h with
  | sum hsum hhalf =>
    refine .sum ?_ ?_
    · rw [← neg_add]
      exact hsum.neg
    · rw [value_opposite, neg_div]
      exact hhalf.neg
  | @halves x y hsum hv hw hboth =>
    refine .halves (x := x.opposite) (y := y.opposite) ?_ ?_ ?_ ?_
    · rw [← neg_add]
      exact hsum.neg
    · rw [neg_div]
      exact hv.neg
    · rw [neg_div]
      exact hw.neg
    · rw [value_opposite, value_opposite, ← neg_add]
      exact hboth.neg

theorem IsMid.abs_add_lt (h : IsMid v w m (some s)) : |v + w| < (limit : ℚ) - 1 / 2 := by
  cases h with
  | sum hsum _ => exact hsum.abs_lt

theorem IsMid.le_abs_add (h : IsMid v w m none) : (limit : ℚ) - 1 / 2 ≤ |v + w| := by
  cases h with
  | halves hsum _ _ _ => exact hsum.le_abs_of_none

/-! ## The two ways -/

theorem IsMid.le_of_sums {s' : Decimal} (h : IsMid v w m (some s)) (h' : IsMid v' w' m' (some s'))
    (hv : v ≤ v') (hw : w ≤ w') : m ≤ m' := by
  cases h with
  | sum hsum hhalf =>
    cases h' with
    | sum hsum' hhalf' =>
      have hle := le_iff_value_le.mp (hsum.mono hsum' (add_le_add hv hw))
      exact hhalf.mono hhalf' (div_le_div_of_nonneg_right hle zero_le_two)

theorem IsMid.le_of_halves (h : IsMid v w m none) (h' : IsMid v' w' m' none) (hv : v ≤ v')
    (hw : w ≤ w') : m ≤ m' := by
  cases h with
  | halves _ hx hy hboth =>
    cases h' with
    | halves _ hx' hy' hboth' =>
      have hle := le_iff_value_le.mp (hx.mono hx' (div_le_div_of_nonneg_right hv zero_le_two))
      have hle' := le_iff_value_le.mp (hy.mono hy' (div_le_div_of_nonneg_right hw zero_le_two))
      exact hboth.mono hboth' (add_le_add hle hle')

/-- Half a sum is at most half the limit. -/
theorem IsMid.le_halfLimit (h : IsMid v w m (some s)) : m.value ≤ halfLimit := by
  cases h with
  | sum _ hhalf =>
    have hs := (abs_le.mp s.abs_value_le).2
    have hle := le_iff_value_le.mp (hhalf.mono isRounded_half_extreme (by linarith))
    rwa [value_whole (by decide)] at hle

/-- Even if both halves and their sum are rounded down, a sum that is too large has a mid price of
half the limit but for one. -/
theorem IsMid.halfLimit_sub_one_le (h : IsMid v w m none) (hpos : 0 ≤ v + w) :
    (halfLimit : ℚ) - 1 ≤ m.value := by
  have hlarge := h.le_abs_add
  rw [abs_of_nonneg hpos, limit_cast_eq] at hlarge
  cases h with
  | halves _ hx hy hboth =>
    have hx := (abs_le.mp hx.abs_sub_le).1
    have hy := (abs_le.mp hy.abs_sub_le).1
    have hle := le_iff_value_le.mp (isRounded_least_halves.mono hboth (by linarith))
    rw [value_whole (by decide)] at hle
    push_cast at hle
    exact hle

/-! ## The order of mid prices -/

/-- The second of two mid prices is one unit below the first, next to half the limit. -/
def Slips (m m' : Decimal) : Prop :=
  m.value = halfLimit ∧ m'.value = halfLimit - 1 ∨
    m.value = -(halfLimit - 1) ∧ m'.value = -halfLimit

theorem Slips.lt (h : Slips m m') : m' < m := by
  rw [lt_iff_value_lt]
  rcases h with ⟨h, h'⟩ | ⟨h, h'⟩ <;> linarith

/-- From a sum that fits to a larger one that does not. -/
theorem IsMid.le_or_slips_of_halves (h : IsMid v w m (some s)) (h' : IsMid v' w' m' none)
    (hv : v ≤ v') (hw : w ≤ w') :
    m ≤ m' ∨ m.value = halfLimit ∧ m'.value = halfLimit - 1 := by
  have hpos : 0 ≤ v' + w' := by
    have hfits := (abs_lt.mp h.abs_add_lt).1
    by_contra hneg
    have hlarge := h'.le_abs_add
    rw [abs_of_neg (not_le.mp hneg)] at hlarge
    linarith
  have hhigh := h.le_halfLimit
  have hlow := h'.halfLimit_sub_one_le hpos
  by_contra! hnot
  obtain ⟨hlt, hne⟩ := hnot
  rw [le_iff_value_le, not_le] at hlt
  have hten := le_halfLimit_cast
  obtain ⟨k, hk⟩ := exists_int_of_large (a := m) (le_abs.mpr (.inl (by linarith)))
  obtain ⟨k', hk'⟩ := exists_int_of_large (a := m') (le_abs.mpr (.inl hlow))
  rw [hk, hk'] at hlt
  rw [hk] at hhigh
  rw [hk'] at hlow
  have h1 : k ≤ halfLimit := by exact_mod_cast hhigh
  have h2 : (halfLimit : Int) - 1 ≤ k' := by exact_mod_cast hlow
  have h3 : k' < k := by exact_mod_cast hlt
  obtain rfl : k = halfLimit := by omega
  obtain rfl : k' = halfLimit - 1 := by omega
  refine hne (by exact_mod_cast hk) ?_
  rw [hk']
  push_cast
  rfl

/-- **Mid prices keep the order of the prices**, but for a slip between a sum that fits and one that
does not. -/
theorem IsMid.le_or_slips (h : IsMid v w m o) (h' : IsMid v' w' m' o') (hv : v ≤ v')
    (hw : w ≤ w') : m ≤ m' ∨ o.isSome ≠ o'.isSome ∧ Slips m m' := by
  cases o with
  | some s =>
    cases o' with
    | some s' => exact .inl (h.le_of_sums h' hv hw)
    | none => exact (h.le_or_slips_of_halves h' hv hw).imp_right fun hslips => ⟨nofun, .inl hslips⟩
  | none =>
    cases o' with
    | some s' =>
      -- Seen from the other side of zero, the sum that fits is the smaller one.
      refine (h'.neg.le_or_slips_of_halves h.neg (neg_le_neg hv) (neg_le_neg hw)).imp ?_ ?_
      · intro hle
        rw [le_iff_value_le, value_opposite, value_opposite, neg_le_neg_iff] at hle
        exact le_iff_value_le.mpr hle
      · rintro ⟨hm', hm⟩
        rw [value_opposite] at hm hm'
        exact ⟨nofun, .inr ⟨by linarith, by linarith⟩⟩
    | none => exact .inl (h.le_of_halves h' hv hw)

/-! ## Prices that are their own mid price -/

/-- With a lower price, the sum is at most twice a price that doubles without loss, and its half at
most that price. -/
theorem IsMid.le_of_doubles_of_sum (h : IsMid a.value w m (some s)) (hw : w ≤ a.value)
    (ha : a.Doubles) : m ≤ a := by
  have hlow := (abs_lt.mp h.abs_add_lt).1
  cases h with
  | sum hsum hhalf =>
    have hs : s.value ≤ a.value + a.value := by
      rcases ha.cases with ⟨d, hd⟩ | ⟨hlarge, -⟩
      · rw [← hd]
        exact le_iff_value_le.mp (hsum.mono d.isRounded_self (by linarith))
      · have hs := (abs_le.mp s.abs_value_le).2
        rcases le_abs'.mp hlarge with hneg | hpos <;> linarith
    exact hhalf.mono a.isRounded_self (by linarith)

/-- Where the double of the larger price fits, a sum can only be too large below zero. -/
theorem IsMid.le_of_double_fits (h : IsMid a.value w m none) (hw : w ≤ a.value)
    (ha : IsDecimal (a.value + a.value)) : m ≤ a := by
  obtain ⟨d, hd⟩ := ha
  have hd' := abs_le.mp d.abs_value_le
  rw [hd] at hd'
  have hneg : 0 ≤ -a.value + -w := by
    rcases le_abs'.mp h.le_abs_add with hneg | hpos <;> linarith
  have hm := h.neg.halfLimit_sub_one_le hneg
  rw [value_opposite] at hm
  rw [le_iff_value_le]
  by_contra! hlt
  obtain ⟨k, hk⟩ := exists_int_of_large (a := a) (le_abs.mpr (.inr (by linarith)))
  rw [hk, limit_cast_eq] at hd'
  have h1 : -(2 * (halfLimit : Int) - 1) ≤ k + k := by exact_mod_cast hd'.1
  have h2 : (k : ℚ) < -(halfLimit - 1) := by linarith
  have h3 : k < -((halfLimit : Int) - 1) := by exact_mod_cast h2
  omega

theorem IsMid.le_of_half_fits (h : IsMid a.value w m none) (hw : w ≤ a.value)
    (ha : IsDecimal (a.value / 2)) : m ≤ a := by
  cases h with
  | halves _ hx hy hboth =>
    have hxa := hx.value_eq ha
    have hyx := le_iff_value_le.mp (hy.mono hx (div_le_div_of_nonneg_right hw zero_le_two))
    exact hboth.mono a.isRounded_self (by linarith)

theorem IsMid.le_of_doubles (h : IsMid a.value w m o) (hw : w ≤ a.value) (ha : a.Doubles) :
    m ≤ a := by
  cases o with
  | some s => exact h.le_of_doubles_of_sum hw ha
  | none =>
    rcases ha.cases with hdouble | ⟨-, hhalf⟩
    · exact h.le_of_double_fits hw hdouble
    · exact h.le_of_half_fits hw hhalf

/-- A sum that loses no digit is halved within the spread. -/
theorem IsMid.le_of_exact_sum (h : IsMid a.value w m o) (hw : w ≤ a.value)
    (hsum : IsDecimal (a.value + w)) : m ≤ a := by
  cases h with
  | sum hs hhalf =>
    have hexact := hs.value_eq hsum
    exact hhalf.mono a.isRounded_self (by linarith)
  | halves hnone _ _ _ =>
    obtain ⟨d, hd⟩ := hsum
    have hlt := hnone.lt_of_none d
    rw [hd] at hlt
    exact absurd hlt (lt_irrefl _)

/-- **A mid price is within the spread** on the side of a price that can be doubled, and on both
sides of an exact sum. -/
theorem IsMid.le_ask (h : IsMid a.value w m o) (hw : w ≤ a.value)
    (ha : a.Doubles ∨ IsDecimal (a.value + w)) : m ≤ a :=
  ha.elim (h.le_of_doubles hw) (h.le_of_exact_sum hw)

/-- The bound for the bid is the one for the ask, seen from the other side of zero. -/
theorem IsMid.bid_le (h : IsMid v a.value m o) (hv : a.value ≤ v)
    (ha : a.Doubles ∨ IsDecimal (v + a.value)) : a ≤ m := by
  -- Seen from the other side of zero, the bid is the higher price.
  have hneg := h.neg.comm
  rw [← value_opposite] at hneg
  have hsame : a.opposite.Doubles ∨ IsDecimal (a.opposite.value + -v) := by
    refine ha.imp doubles_opposite_iff.mpr ?_
    rintro ⟨d, hd⟩
    exact ⟨d.opposite, by rw [value_opposite, value_opposite, hd]; ring⟩
  have hle := hneg.le_ask (by rwa [value_opposite, neg_le_neg_iff]) hsame
  rw [le_iff_value_le, value_opposite, value_opposite, neg_le_neg_iff] at hle
  exact le_iff_value_le.mpr hle

/-- A price that is its own mid price loses nothing when it is doubled and halved again. -/
theorem IsMid.doubles_of_eq (h : IsMid a.value a.value m o) (hm : m.value = a.value) :
    a.Doubles := by
  rcases Nat.lt_or_ge (2 * a.magnitude) limit with hlt | hlarge
  · exact .inl hlt
  right
  have habs : |a.value + a.value| = 2 * |a.value| := by
    rw [← two_mul, abs_mul, abs_two]
  cases o with
  | some s =>
    have hfits := h.abs_add_lt
    cases hs : a.scale with
    | zero =>
      -- The double of a whole price is whole, so it cannot be rounded to fit.
      have := limit_div_two_le_abs hs hlarge
      linarith
    | succ t =>
      cases h with
      | sum hsum hhalf => exact five_dvd_of_sum hs hlarge hsum hhalf hm
  | none =>
    have hs : a.scale = 0 := by
      have hsum := h.le_abs_add
      have hlimit : (10 : ℚ) ≤ limit := by exact_mod_cast (by decide : 10 ≤ limit)
      exact scale_eq_zero (by linarith)
    cases h with
    | halves _ hx hy hboth =>
      rw [if_pos hs]
      exact two_dvd_of_halves hs hlarge hx hy hboth hm

/-- **The prices that are their own mid price.** -/
theorem IsMid.equiv_iff_doubles (h : IsMid a.value a.value m o) : m ≈ a ↔ a.Doubles := by
  refine ⟨fun hm => h.doubles_of_eq (equiv_def.mp hm), fun ha => equiv_def.mpr ?_⟩
  exact le_antisymm (le_iff_value_le.mp (h.le_ask le_rfl (.inl ha)))
    (le_iff_value_le.mp (h.bid_le le_rfl (.inl ha)))

end Book

end MarketDesk
