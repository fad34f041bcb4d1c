import MarketDesk.Proofs.Book.Prices

/-!
# Exact prices

Rounding leaves alone what a decimal stands for. So a mid price and a spread are exact whenever they
can be, a spread is missing only where it is beyond all decimals (`Book.ShowsExact`), and the
direction between two exact mid prices is that of the numbers (`Book.exact_of_run`).
-/

namespace MarketDesk.Book

open Decimal

variable {n : Nat} {b b₀ : Book} {rs : List Request} {s : Snapshot} {ask bid : Level}

/-- The sum of the prices and half of it can be written down. -/
def HasExactMid (ask bid : Decimal) : Prop :=
  IsDecimal (ask.value + bid.value) ∧ IsDecimal ((ask.value + bid.value) / 2)

/-- The direction from one number to another. -/
def exactDirection (v w : ℚ) : Direction :=
  if v < w then .up else if w < v then .down else .flat

/-- **What is shown exactly** of the best prices: the mid price and the spread whenever they can be.
A spread that is not there is beyond all decimals. -/
structure ShowsExact (ask bid : Decimal) (b : Book) : Prop where
  mid : HasExactMid ask bid → ∃ mid, b.mid = some mid ∧ mid.value = (ask.value + bid.value) / 2
  spread : IsDecimal (ask.value - bid.value) →
    ∃ spread, b.spread = some spread ∧ spread.value = ask.value - bid.value
  spread_none : b.spread = none → ∀ d : Decimal, |d.value| < |ask.value - bid.value|

/-- An exact mid price is found, and it is exact: neither the addition nor the halving has to round.
-/
theorem exists_midOf? {ask bid : Decimal} (h : HasExactMid ask bid) :
    ∃ mid, midOf? ask bid = some mid ∧ mid.value = (ask.value + bid.value) / 2 := by
  obtain ⟨s, hs, hsum⟩ := (ask.add?_isRounded bid).exists_of_isDecimal h.1
  have hhalf := s.half?_isRounded
  rw [hsum] at hhalf
  obtain ⟨mid, hmid, hvalue⟩ := hhalf.exists_of_isDecimal h.2
  refine ⟨mid, ?_, hvalue⟩
  rw [midOf?, hs]
  exact hmid

/-- A book shows exact prices where there are any. -/
theorem Priced.showsExact (h : b.Priced) (hask : b.snapshot.bestAsk? = some ask)
    (hbid : b.snapshot.bestBid? = some bid) : ShowsExact ask.price bid.price b := by
  have hspread := ask.price.sub?_isRounded bid.price
  rw [← h.spread_eq hask hbid] at hspread
  refine ⟨?_, hspread.exists_of_isDecimal, ?_⟩
  · intro hexact
    rw [h.mid_eq hask hbid]
    exact exists_midOf? hexact
  · intro hnone
    rw [hnone] at hspread
    exact hspread.lt_of_none

theorem not_overflows_of_hasExactMid (hask : s.bestAsk? = some ask) (hbid : s.bestBid? = some bid)
    (h : HasExactMid ask.price bid.price) : ¬ s.Overflows := by
  obtain ⟨mid, hmid, -⟩ := exists_midOf? h
  rintro ⟨-, hnone⟩
  rw [Snapshot.mid?_eq hask hbid, hmid] at hnone
  cases hnone

/-- **Exact wherever possible.** Best prices with an exact mid price do not break a book, neither
when it is opened nor when they are shown later; mid price and spread are exact where they can be,
and between two snapshots with exact mid prices the direction is that of the exact numbers. -/
theorem exact_of_run (h₀ : Opened Snapshot.Made n b₀) (h : Run Snapshot.Made b₀ rs b) :
    (∀ {s ask bid}, s.bestAsk? = some ask → s.bestBid? = some bid →
      HasExactMid ask.price bid.price →
      ∃ b, Book.ofSnapshot s = .done b ∧ ShowsExact ask.price bid.price b) ∧
    (∀ {ask bid}, b.snapshot.bestAsk? = some ask → b.snapshot.bestBid? = some bid →
      ShowsExact ask.price bid.price b) ∧
    ∀ {r s ask' bid'}, r.snapshot? n = some s → (s.limitedTo n).bestAsk? = some ask' →
      (s.limitedTo n).bestBid? = some bid' → HasExactMid ask'.price bid'.price →
      (b.perform r).outcome = .done () ∧ ShowsExact ask'.price bid'.price (b.perform r).book ∧
      ∀ {ask bid}, b.snapshot.bestAsk? = some ask → b.snapshot.bestBid? = some bid →
        HasExactMid ask.price bid.price →
        (b.perform r).book.direction = exactDirection ((ask.price.value + bid.price.value) / 2)
          ((ask'.price.value + bid'.price.value) / 2) := by
  have hpriced := priced_of_run h₀ h
  obtain rfl := (follows_of_run h₀ h).maxLevels
  refine ⟨?_, hpriced.showsExact, ?_⟩
  · intro s ask bid hask hbid hexact
    have hfits := not_overflows_of_hasExactMid hask hbid hexact
    exact ⟨_, ofSnapshot_of_not_overflows hfits,
      (derived_priced (b := holding s) hfits).showsExact hask hbid⟩
  intro r s ask' bid' hs hask' hbid' hexact'
  have hfits := not_overflows_of_hasExactMid hask' hbid' hexact'
  have hderived := derived_priced (b := b.halted s) hfits
  obtain ⟨hdone, hbook⟩ := perform_shown hs hfits
  rw [hbook]
  refine ⟨hdone, hderived.showsExact hask' hbid', ?_⟩
  intro ask bid hask hbid hexact
  obtain ⟨mid, hmid, hvalue⟩ := (hpriced.showsExact hask hbid).mid hexact
  obtain ⟨mid', hmid', hvalue'⟩ := (hderived.showsExact hask' hbid').mid hexact'
  rw [hpriced.direction_halted hmid hmid', Direction.between, exactDirection, ← hvalue, ← hvalue']
  simp only [lt_iff_value_lt]

/-- Prices of different scales with 29 digits in their sum, then a bid that falls in its last place.
-/
theorem exact_of_run_falling_bid :
    ∃ ask bid bid' b, bid' < bid ∧
      Run Snapshot.Made (holding ⟨[], [], 1⟩) [.update [⟨ask, .one⟩] [⟨bid, .one⟩]] b ∧
      (∃ mid, b.mid = some mid ∧ mid.value = (ask.value + bid.value) / 2) ∧
      (b.perform (.update [⟨ask, .one⟩] [⟨bid', .one⟩])).outcome = .done () ∧
      (b.perform (.update [⟨ask, .one⟩] [⟨bid', .one⟩])).book.direction = .down := by
  let ask : Decimal := .one
  let bid : Decimal := .ofParts 4 28
  let bid' : Decimal := .ofParts 2 28
  let shown : Book := ((holding ⟨[], [], 1⟩).update [⟨ask, .one⟩] [⟨bid, .one⟩]).book
  let next : Snapshot := ⟨[⟨ask, .one⟩], [⟨bid', .one⟩], 1⟩
  have hrun : Run Snapshot.Made (holding ⟨[], [], 1⟩) [.update [⟨ask, .one⟩] [⟨bid, .one⟩]] shown :=
    .single trivial (by decide +kernel)
  have hask : shown.snapshot.bestAsk? = some ⟨ask, .one⟩ := by decide +kernel
  have hbid : shown.snapshot.bestBid? = some ⟨bid, .one⟩ := by decide +kernel
  have hnext : (Request.update [⟨ask, .one⟩] [⟨bid', .one⟩]).snapshot? 1 = some next := by
    decide +kernel
  have hask' : (next.limitedTo 1).bestAsk? = some ⟨ask, .one⟩ := by decide +kernel
  have hbid' : (next.limitedTo 1).bestBid? = some ⟨bid', .one⟩ := by decide +kernel
  have hexact (k : Nat) (hk : k < 10) : HasExactMid ask (.ofParts (2 * k : Nat) maxScale) := by
    have hbound : tenTo 27 * 10 + 20 < limit := by decide
    have hten : tenTo maxScale = tenTo 27 * 10 := rfl
    have hpos := tenTo_cast_pos maxScale
    have hsum : ask.value + (Decimal.ofParts (2 * k : Nat) maxScale).value =
        (tenTo 27 * 10 + 2 * k : Int) / tenTo maxScale := by
      rw [value_one, value_ofParts (by omega) le_rfl, eq_div_iff hpos.ne', add_mul,
        div_mul_cancel₀ _ hpos.ne', hten]
      push_cast
      ring
    have hhalf : ((tenTo 27 * 10 + 2 * k : Int) / tenTo maxScale : ℚ) / 2 =
        (tenTo 27 * 5 + k : Int) / tenTo maxScale := by
      rw [div_right_comm]
      push_cast
      ring
    rw [HasExactMid, hsum, hhalf]
    exact ⟨isDecimal_intCast_div (by omega) le_rfl, isDecimal_intCast_div (by omega) le_rfl⟩
  obtain ⟨-, hshown, hmoved⟩ := exact_of_run (opened_empty _ Nat.one_pos) hrun
  obtain ⟨hdone, -, hdirection⟩ := hmoved hnext hask' hbid' (hexact 1 (by decide))
  have hfalls : bid'.value < bid.value := lt_iff_value_lt.mp (by decide +kernel)
  refine ⟨ask, bid, bid', shown, by decide +kernel, hrun, ?_, hdone, ?_⟩
  · exact (hshown hask hbid).mid (hexact 2 (by decide))
  · refine (hdirection hask hbid (hexact 2 (by decide))).trans ?_
    rw [exactDirection, if_neg (by linarith), if_pos (by linarith)]

end MarketDesk.Book
