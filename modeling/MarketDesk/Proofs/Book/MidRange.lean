import MarketDesk.Proofs.Book.Run
import MarketDesk.Proofs.Decimal.Quotient
import MarketDesk.Proofs.Decimal.Sum

/-!
# The range of mid prices

Two prices have a mid price unless both are the largest decimal or both are the least one
(`Book.midOf?_eq_none_iff`): half of an extreme price is rounded up, and two such halves add up to
one more than the largest magnitude. These prices at the top of a book are what breaks a request
(`Book.outcome_of_levels`).
-/

namespace MarketDesk

namespace Decimal

variable {a h : Decimal}

/-- Half a magnitude is at most half the limit, to which the largest one is rounded up. -/
theorem two_mul_roundQuotient_le {m : Nat} (hm : m < limit) :
    2 * roundQuotient .toEven m 2 ≤ limit := by
  have hle := roundQuotient_le_succ .toEven m 2
  rw [limit_eq] at hm ⊢
  omega

theorem two_mul_roundQuotient_add_two_le {m : Nat} (hm : m + 1 < limit) :
    2 * roundQuotient .toEven m 2 + 2 ≤ limit := by
  have hle : roundQuotient .toEven m 2 ≤ roundQuotient .toEven ((limit / 2 - 1) * 2) 2 := by
    refine roundQuotient_mono .toEven (by decide) (by decide) ?_
    rw [limit_eq] at hm ⊢
    omega
  rw [roundQuotient_mul_self _ (by decide)] at hle
  rw [limit_eq] at hle ⊢
  omega

/-- The value of a half is the rounded quotient at its scale, up to the sign. -/
theorem abs_value_half (hh : a.half? = some h) :
    ∃ j, roundQuotient .toEven (a.magnitude * tenTo j) 2 < limit ∧
      |h.value| ≤ roundQuotient .toEven (a.magnitude * tenTo j) 2 / tenTo (a.scale + j) := by
  obtain ⟨h', j, hsome, hlt, hvalue⟩ := a.half?_eq_some
  obtain rfl : h = h' := Option.some.inj (hh.symm.trans hsome)
  refine ⟨j, hlt, ?_⟩
  rw [hvalue, abs_div, abs_mul, abs_of_pos (tenTo_cast_pos _), Nat.abs_cast]
  refine div_le_div_of_nonneg_right (mul_le_of_le_one_left (Nat.cast_nonneg _) ?_)
    (tenTo_cast_pos _).le
  rcases Int.sign_trichotomy a.coefficient with hs | hs | hs <;> simp [hs]

/-- Half a price is a whole unit below half the limit unless the price is extreme, and then it does
not pass half the limit. -/
theorem abs_value_half_le (hh : a.half? = some h) :
    |h.value| ≤ limit / 2 - 1 ∨ a = extreme a.negative ∧ |h.value| ≤ limit / 2 := by
  obtain ⟨j, hlt, habs⟩ := abs_value_half hh
  rcases Nat.eq_zero_or_pos (a.scale + j) with hzero | hpos
  · -- A whole number of units was halved.
    obtain ⟨hs, rfl⟩ : a.scale = 0 ∧ j = 0 := by omega
    rw [hs, Nat.add_zero, tenTo_zero, Nat.cast_one, div_one, Nat.mul_one] at habs
    by_cases hm : limit ≤ a.magnitude + 1
    · have hle : (2 * roundQuotient .toEven a.magnitude 2 : ℚ) ≤ limit := by
        exact_mod_cast two_mul_roundQuotient_le a.magnitude_lt
      exact .inr ⟨eq_extreme hs hm, habs.trans (by linarith)⟩
    · have hle : (2 * roundQuotient .toEven a.magnitude 2 + 2 : ℚ) ≤ limit := by
        exact_mod_cast two_mul_roundQuotient_add_two_le (Nat.lt_of_not_le hm)
      exact .inl (habs.trans (by linarith))
  · -- The half has a digit after the point, so it is at most a tenth of the limit.
    refine .inl (habs.trans ?_)
    have hle : (roundQuotient .toEven (a.magnitude * tenTo j) 2 : ℚ) ≤ limit := by
      exact_mod_cast hlt.le
    have hten : (10 : ℚ) ≤ tenTo (a.scale + j) := by exact_mod_cast tenTo_le hpos
    have hlimit : (10 : ℚ) ≤ limit := by exact_mod_cast (by decide : 10 ≤ limit)
    rw [div_le_iff₀ (tenTo_cast_pos _)]
    nlinarith

theorem value_extreme_add_value_extreme (negative : Bool) :
    (extreme negative).value + (extreme !negative).value = 0 := by
  have hsum : (extreme negative).coefficient + (extreme !negative).coefficient = 0 := by
    cases negative <;> decide
  change ((extreme negative).coefficient : ℚ) / tenTo 0 + (extreme !negative).coefficient / tenTo 0
    = 0
  rw [← add_div, ← Int.cast_add, hsum, Int.cast_zero, zero_div]

end Decimal

/-- The first ask and the first bid have one price, the largest decimal or the least one. -/
def Level.ExtremeTops (asks bids : List Level) : Prop :=
  ∃ negative, asks.head?.map Level.price = some (.extreme negative) ∧
    bids.head?.map Level.price = some (.extreme negative)

theorem Level.extremeTops_take {n : Nat} {asks bids : List Level} (hn : 0 < n) :
    ExtremeTops (asks.take n) (bids.take n) ↔ ExtremeTops asks bids := by
  simp only [ExtremeTops, List.head?_take, if_neg (Nat.ne_of_gt hn)]

namespace Book

/-- **Prices without a mid price.** Both are the largest decimal or both are the least one. -/
theorem midOf?_eq_none_iff {ask bid : Decimal} :
    midOf? ask bid = none ↔ ∃ negative, ask = .extreme negative ∧ bid = .extreme negative := by
  constructor
  · intro hnone
    obtain ⟨x, -, hx, -⟩ := ask.half?_eq_some
    obtain ⟨y, -, hy, -⟩ := bid.half?_eq_some
    obtain ⟨hsum, hhalves⟩ : ask.add? bid = none ∧ x.add? y = none := by
      unfold midOf? at hnone
      cases hsum : ask.add? bid with
      | some sum =>
        obtain ⟨m, -, hm, -⟩ := sum.half?_eq_some
        rw [hsum] at hnone
        exact absurd (hm.symm.trans hnone) nofun
      | none =>
        rw [hsum, hx, hy] at hnone
        exact ⟨rfl, hnone⟩
    rw [Decimal.add?_eq_none_iff] at hsum hhalves
    have htriangle := abs_add_le x.value y.value
    rcases Decimal.abs_value_half_le hx with hx | ⟨hask, hx⟩
    · rcases Decimal.abs_value_half_le hy with hy | ⟨-, hy⟩ <;> linarith
    rcases Decimal.abs_value_half_le hy with hy | ⟨hbid, hy⟩
    · linarith
    refine ⟨ask.negative, hask, ?_⟩
    by_contra hne
    have hneg : bid.negative = !ask.negative := by
      refine Bool.eq_not.mpr fun heq => hne ?_
      rw [← heq]
      exact hbid
    rw [hneg] at hbid
    rw [hask, hbid, Decimal.value_extreme_add_value_extreme, abs_zero] at hsum
    have : (1 : ℚ) ≤ Decimal.limit := by exact_mod_cast (by decide : 1 ≤ Decimal.limit)
    linarith
  · rintro ⟨_ | _, rfl, rfl⟩
    · decide +kernel
    · decide +kernel

variable {n m : Nat} {asks bids : List Level} {b : Book} {s : Snapshot}

/-- A mid price overflows where both tops have one extreme price, and nowhere else. -/
theorem overflows_iff : s.Overflows ↔ Level.ExtremeTops s.asks s.bids := by
  unfold Snapshot.Overflows Snapshot.mid? Snapshot.best? Snapshot.bestAsk? Snapshot.bestBid?
    Level.ExtremeTops
  cases s.asks.head? with
  | none => simp
  | some ask =>
    cases s.bids.head? with
    | none => simp
    | some bid => simp [midOf?_eq_none_iff]

theorem limitedTo_overflows_iff (hn : 0 < n) :
    (s.limitedTo n).Overflows ↔ Level.ExtremeTops s.asks s.bids := by
  rw [overflows_iff, Snapshot.limitedTo]
  split
  · exact Level.extremeTops_take hn
  · exact Iff.rfl

theorem apply_breaks (hb : 0 < b.maxLevels) (h : Level.ExtremeTops s.asks s.bids) :
    b.apply s = ⟨b.halted s, .broken, []⟩ :=
  apply_of_overflows ((limitedTo_overflows_iff hb).mpr h)

theorem apply_done (hb : 0 < b.maxLevels) (h : ¬ Level.ExtremeTops s.asks s.bids) :
    (b.apply s).outcome = .done () := by
  rw [apply_of_not_overflows (mt (limitedTo_overflows_iff hb).mp h)]

/-- **What breaks a book.** A mid price is missing only if both prices are the largest decimal or
both are the least one. Levels without a negative size make a snapshot; if the first standing levels
of both sides have one such price, then opening a book with the levels, updating a book with them
and applying their snapshot break, and otherwise all three are granted. -/
theorem breaks_iff_extremeTops (h : Reached Snapshot.Built m b) (hn : 0 < n)
    (hasks : Level.AllValid asks) (hbids : Level.AllValid bids) :
    (∀ ask bid, midOf? ask bid = none ↔
      ∃ negative, ask = .extreme negative ∧ bid = .extreme negative) ∧
    ∃ s, Snapshot.ofLevels asks bids n = .ok s ∧
      (Level.ExtremeTops (Level.standing asks) (Level.standing bids) →
        Book.ofLevels asks bids n = .broken ∧ (b.update asks bids).outcome = .broken ∧
          (b.apply s).outcome = .broken) ∧
      (¬ Level.ExtremeTops (Level.standing asks) (Level.standing bids) →
        (∃ b', Book.ofLevels asks bids n = .done b') ∧ (b.update asks bids).outcome = .done () ∧
          (b.apply s).outcome = .done ()) := by
  have hb := h.maxLevels_pos
  have hbuilt := Snapshot.ofLevels_of_allValid hn hasks hbids
  have hupdate := Snapshot.ofLevels_of_allValid hb hasks hbids
  refine ⟨fun _ _ => midOf?_eq_none_iff, _, hbuilt, fun hextreme => ?_, fun hfits => ?_⟩
  · have htops (k : Nat) (hk : 0 < k) := (Level.extremeTops_take hk).mpr hextreme
    refine ⟨?_, ?_, ?_⟩
    · rw [Book.ofLevels, hbuilt]
      exact ofSnapshot_of_overflows (overflows_iff.mpr (htops n hn))
    · rw [Book.update, hupdate]
      exact congrArg Step.outcome (apply_breaks hb (htops _ hb))
    · exact congrArg Step.outcome (apply_breaks hb (htops n hn))
  · have htops (k : Nat) (hk : 0 < k) := mt (Level.extremeTops_take hk).mp hfits
    refine ⟨?_, ?_, ?_⟩
    · rw [Book.ofLevels, hbuilt]
      exact ⟨_, ofSnapshot_of_not_overflows (mt overflows_iff.mp (htops n hn))⟩
    · rw [Book.update, hupdate]
      exact apply_done hb (htops _ hb)
    · exact apply_done hb (htops n hn)

/-- No size is negative, and still the book cannot be opened with the least price on both sides. -/
theorem breaks_at_least_price :
    Book.ofLevels [⟨.extreme true, .one⟩] [⟨.extreme true, .one⟩] 1 = .broken := by
  have hopened := opened_empty Snapshot.Built Nat.one_pos
  have hvalid : Level.AllValid [⟨.extreme true, .one⟩] := by decide
  obtain ⟨-, s, -, hbroken, -⟩ :=
    breaks_iff_extremeTops (.opened hopened) (n := 1) (by decide) hvalid hvalid
  exact (hbroken ⟨true, rfl, rfl⟩).1

/-- The same with the largest price on both sides, computed. -/
theorem breaks_at_largest_price :
    midOf? (.extreme false) (.extreme false) = none ∧
      Book.ofLevels [⟨.extreme false, .one⟩] [⟨.extreme false, .one⟩] 1 = .broken := by
  decide +kernel

end Book

end MarketDesk
