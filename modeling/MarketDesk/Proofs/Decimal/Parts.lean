import MarketDesk.Proofs.Decimal.Exact

/-!
# Arithmetic on parts

Sum, difference and half of decimals that are given by coefficient and scale, as decimals and not
only as values: if the exact result fits at the larger scale, it is the result, and it has that
scale (`Decimal.add?_ofParts`, `Decimal.half?_ofParts`).
-/

namespace MarketDesk

theorem roundSigned_one (tie : Tie) (c : Int) : roundSigned tie c 1 = c := by
  rw [roundSigned, roundQuotient_of_dvd _ Nat.one_pos (one_dvd _), Nat.div_one,
    Int.sign_mul_natAbs]

namespace Decimal

variable {c d k : Int} {s t : Nat}

theorem ofParts?_of_lt (hc : c.natAbs < limit) (hs : s ≤ maxScale) :
    ofParts? c s = some (ofParts c s) := by
  obtain ⟨a, ha, -⟩ := ofParts?_eq_some hc hs
  rw [ofParts, ha, Option.getD_some]

theorem ofParts_eq (hc : c.natAbs < limit) (hs : s ≤ maxScale) :
    ofParts c s = ⟨decide (c < 0), c.natAbs, s, hc, hs⟩ := by
  rw [ofParts, ofParts?, dif_pos ⟨hc, hs⟩, Option.getD_some]

theorem magnitude_ofParts (hc : c.natAbs < limit) (hs : s ≤ maxScale) :
    (ofParts c s).magnitude = c.natAbs := by
  rw [ofParts_eq hc hs]

theorem scale_ofParts (hc : c.natAbs < limit) (hs : s ≤ maxScale) :
    (ofParts c s).scale = s := by
  rw [ofParts_eq hc hs]

theorem coefficient_ofParts (hc : c.natAbs < limit) (hs : s ≤ maxScale) :
    (ofParts c s).coefficient = c := by
  rw [ofParts_eq hc hs, coefficient_mk hc hs]

theorem fit?_of_lt (hc : c.natAbs < limit) (hs : s ≤ maxScale) :
    fit? c s = some (ofParts c s) := by
  rw [fit?, Nat.min_eq_left hs]
  cases s with
  | zero => rw [fitFrom, tenTo_zero, roundSigned_one, ofParts?_of_lt hc hs]
  | succ s => rw [fitFrom, Nat.sub_self, tenTo_zero, roundSigned_one, ofParts?_of_lt hc hs]

theorem opposite_ofParts (hc : c.natAbs < limit) (hs : s ≤ maxScale) :
    (ofParts c s).opposite = ofParts (-c) s := by
  have hneg : (-c).natAbs < limit := by rwa [Int.natAbs_neg]
  rw [ofParts_eq hc hs, ofParts_eq hneg hs, opposite]
  rcases eq_or_ne c 0 with rfl | hne
  · rfl
  · rw [if_neg (by simpa [isZero] using hne)]
    simp only [withSign, Int.natAbs_neg, mk.injEq, and_true]
    rw [← decide_not, decide_eq_decide]
    omega

/-- The sum of a number that is not zero and one of no finer scale. -/
theorem add?_ofParts (hc : c ≠ 0) (hcl : c.natAbs < limit) (hdl : d.natAbs < limit) (ht : t ≤ s)
    (hs : s ≤ maxScale) (hsum : (c + d * tenTo (s - t)).natAbs < limit) :
    (ofParts c s).add? (ofParts d t) = some (ofParts (c + d * tenTo (s - t)) s) := by
  have hleft : ¬ (ofParts c s).isZero := by
    rw [isZero_iff, magnitude_ofParts hcl hs]
    omega
  rw [add?, if_neg hleft]
  split
  · rename_i hd
    rw [isZero_iff, magnitude_ofParts hdl (ht.trans hs), Int.natAbs_eq_zero] at hd
    rw [hd, Int.zero_mul, Int.add_zero]
  · rw [scale_ofParts hcl hs, scale_ofParts hdl (ht.trans hs), coefficient_ofParts hcl hs,
      coefficient_ofParts hdl (ht.trans hs), Nat.max_eq_left ht]
    dsimp only
    rw [Nat.sub_self, tenTo_zero, Nat.cast_one, Int.mul_one]
    exact fit?_of_lt hsum hs

/-- An even coefficient is halved exactly and keeps its scale. -/
theorem half?_ofParts (hk : k ≠ 0) (hkl : (2 * k).natAbs < limit) (hs : s ≤ maxScale) :
    (ofParts (2 * k) s).half? = some (ofParts k s) := by
  have hleft : ¬ (ofParts (2 * k) s).isZero := by
    rw [isZero_iff, magnitude_ofParts hkl hs]
    omega
  have htwo : (2 * k).natAbs = k.natAbs * 2 := by omega
  have hquotient : divide (k.natAbs * 2) two.magnitude (s - two.scale) = some ⟨k.natAbs, s⟩ := by
    have hmagnitude : two.magnitude = 2 := rfl
    have hscale : two.scale = 0 := rfl
    rw [hmagnitude, hscale, Nat.cast_zero, Int.sub_zero, divide, Nat.mul_mod_left, if_pos rfl,
      Nat.mul_div_cancel _ Nat.two_pos, raise, if_pos (Int.natCast_nonneg s)]
  have hsign : (2 * k).sign * two.coefficient.sign = k.sign := by
    have hcoefficient : two.coefficient.sign = 1 := by decide
    rw [hcoefficient, Int.mul_one, Int.sign_mul]
    exact Int.one_mul _
  rw [half?, div?, if_neg (by decide), if_neg hleft, magnitude_ofParts hkl hs, scale_ofParts hkl hs,
    coefficient_ofParts hkl hs, htwo, hquotient, Option.bind_eq_bind, Option.bind_some, hsign,
    Int.sign_mul_natAbs, Int.toNat_natCast]
  exact ofParts?_of_lt (by omega) hs

end Decimal

end MarketDesk
