import MarketDesk.Proofs.Book.MidLog
import MarketDesk.Proofs.Book.Midpoint
import MarketDesk.Proofs.Book.Room

/-!
# The prices that a book shows

After any requests that do not break, mid price and spread are those of the best prices, and the
next mid price will be compared with the present one (`Book.priced_of_run`). So the rounding of mid
prices decides whether a mid price lies between the best prices (`Book.mid_within_of_run`) and
whether the direction agrees with them when both move one way (`Book.contradicts_iff_slips`).
-/

namespace MarketDesk

namespace Direction

variable {u v : Decimal}

theorem between_eq_down_iff : between (some u) v = .down ↔ v < u := by
  unfold between
  dsimp only
  split_ifs with hup hdown
  · simp [lt_asymm hup]
  · simp [hdown]
  · simp [hdown]

theorem between_eq_up_iff : between (some u) v = .up ↔ u < v := by
  unfold between
  dsimp only
  split_ifs with hup hdown
  · simp [hup]
  · simp [hup]
  · simp [hup]

end Direction

namespace Book

open Decimal

variable {P : Snapshot → Prop} {n : Nat} {b b₀ : Book} {r : Request} {rs : List Request}
  {s : Snapshot} {ask bid ask' bid' : Level}

/-- Mid price and spread belong to the present snapshot, and the mid price is the one to be compared
with. -/
structure Priced (b : Book) : Prop where
  fits : ¬ b.snapshot.Overflows
  mid : b.mid = b.snapshot.mid?
  spread : b.spread = b.snapshot.spread?
  lastMid : b.lastMid = b.snapshot.mid?

theorem derived_priced (h : ¬ b.snapshot.Overflows) : b.derived.Priced := ⟨h, rfl, rfl, rfl⟩

theorem blank_priced (b : Book) : b.blank.Priced := ⟨nofun, rfl, rfl, rfl⟩

theorem opened_priced (h : Opened Snapshot.Made n b) : b.Priced := by
  obtain ⟨s, announces, -, -, hfits, rfl⟩ := h.eq_derived Snapshot.Built.made
  exact derived_priced hfits

theorem Run.single (hr : r.Hands P) (hdone : (b.perform r).outcome ≠ .broken) :
    Run P b [r] (b.perform r).book :=
  Run.nil.snoc hr hdone

theorem Run.reached (h₀ : Opened P n b₀) (h : Run P b₀ rs b) : Reached P n b := by
  induction h with
  | nil => exact .opened h₀
  | snoc _ hr _ ih => exact ih.perform hr

/-- One request that does not break keeps mid price, spread and the reference for the next direction
in step with the best prices. -/
theorem perform_priced (hreached : Reached Snapshot.Made n b) (h : b.Priced)
    (hdone : (b.perform r).outcome ≠ .broken) : (b.perform r).book.Priced := by
  rcases perform_cases hdone with ⟨s, -, hfits, hbook⟩ | ⟨-, -, hbook⟩ | ⟨-, -, hbook⟩ |
    ⟨-, hn, hbook⟩
  · rw [hbook]
    exact derived_priced hfits
  · rwa [hbook]
  · rw [hbook]
    exact blank_priced b
  · -- A book without room has no mid price to forget.
    obtain ⟨k, announces, rfl⟩ := hreached.eq_vacant hn
    rwa [hbook, forgetful_vacant]

theorem priced_of_run (h₀ : Opened Snapshot.Made n b₀) (h : Run Snapshot.Made b₀ rs b) :
    b.Priced := by
  induction h with
  | nil => exact opened_priced h₀
  | snoc h _ hdone ih => exact perform_priced (h.reached h₀) ih hdone

namespace Priced

variable {mid : Decimal}

theorem mid_eq (h : b.Priced) (hask : b.snapshot.bestAsk? = some ask)
    (hbid : b.snapshot.bestBid? = some bid) : b.mid = midOf? ask.price bid.price :=
  h.mid.trans (Snapshot.mid?_eq hask hbid)

theorem spread_eq (h : b.Priced) (hask : b.snapshot.bestAsk? = some ask)
    (hbid : b.snapshot.bestBid? = some bid) : b.spread = ask.price.sub? bid.price :=
  h.spread.trans (Snapshot.spread?_eq hask hbid)

theorem exists_mid (h : b.Priced) (hask : b.snapshot.bestAsk? = some ask)
    (hbid : b.snapshot.bestBid? = some bid) :
    ∃ mid, b.mid = some mid ∧ midOf? ask.price bid.price = some mid := by
  have hbest := Snapshot.best?_eq_some hask hbid
  have hsides := Snapshot.best?_isSome_iff.mp (Option.isSome_of_eq_some hbest)
  obtain ⟨mid, hmid⟩ := Option.isSome_iff_exists.mp ((Snapshot.mid?_isSome_iff h.fits).mpr hsides)
  exact ⟨mid, h.mid.trans hmid, (Snapshot.mid?_eq hask hbid).symm.trans hmid⟩

end Priced

theorem direction_derived (b : Book) :
    b.derived.direction = b.derived.mid.elim .flat (.between b.lastMid) := rfl

theorem Priced.direction_halted {mid mid' : Decimal} (h : b.Priced) (hmid : b.mid = some mid)
    (hmid' : (b.halted s).derived.mid = some mid') :
    (b.halted s).derived.direction = .between (some mid) mid' := by
  have hlast : (b.halted s).lastMid = some mid := by rw [halted, h.lastMid, ← h.mid, hmid]
  rw [direction_derived, hmid', hlast, Option.elim_some]

/-- A request that shows a snapshot. -/
theorem perform_shown (hs : r.snapshot? b.maxLevels = some s)
    (hfits : ¬ (s.limitedTo b.maxLevels).Overflows) :
    (b.perform r).outcome = .done () ∧ (b.perform r).book = (b.halted s).derived := by
  rw [perform_of_snapshot? hs, apply_of_not_overflows hfits]
  exact ⟨rfl, rfl⟩

theorem fits_of_perform (hs : r.snapshot? b.maxLevels = some s)
    (hdone : (b.perform r).outcome ≠ .broken) : ¬ (s.limitedTo b.maxLevels).Overflows := by
  rw [perform_of_snapshot? hs] at hdone
  exact mt apply_outcome_eq_broken_iff.mpr hdone

/-! ## The mid price and the spread -/

/-- **The mid price within the spread.** Unless the best ask is below the best bid, the mid price is
no higher than a best ask that can be doubled and no lower than a best bid that can, and it is
neither where the sum of both has a decimal. Where both are one price, the mid price is that price
just if it can be doubled. -/
theorem mid_within_of_run (h₀ : Opened Snapshot.Made n b₀) (h : Run Snapshot.Made b₀ rs b)
    (hask : b.snapshot.bestAsk? = some ask) (hbid : b.snapshot.bestBid? = some bid)
    (hle : bid.price ≤ ask.price) :
    ∃ mid, b.mid = some mid ∧
      (ask.price.Doubles ∨ IsDecimal (ask.price.value + bid.price.value) → mid ≤ ask.price) ∧
      (bid.price.Doubles ∨ IsDecimal (ask.price.value + bid.price.value) → bid.price ≤ mid) ∧
      (bid.price ≈ ask.price → (mid ≈ ask.price ↔ ask.price.Doubles)) := by
  obtain ⟨mid, hmid, hmidOf⟩ := (priced_of_run h₀ h).exists_mid hask hbid
  have hmid' := isMid_of_midOf? hmidOf
  have hvalue := le_iff_value_le.mp hle
  refine ⟨mid, hmid, ?_, ?_, ?_⟩
  · exact hmid'.le_ask hvalue
  · exact hmid'.bid_le hvalue
  · intro hequiv
    rw [equiv_def.mp hequiv] at hmid'
    exact hmid'.equiv_iff_doubles

/-- Two even prices whose sum is too large. -/
theorem mid_within_of_run_even :
    ∃ ask bid b mid, Run Snapshot.Made (holding ⟨[], [], 1⟩)
      [.update [⟨ask, .one⟩] [⟨bid, .one⟩]] b ∧ ask.add? bid = none ∧ b.mid = some mid ∧
      bid ≤ mid ∧ mid ≤ ask := by
  let ask : Decimal := .ofParts 79228162514264337593543950334 0
  let bid : Decimal := .ofParts 79228162514264337593543950330 0
  let shown : Book := ((holding ⟨[], [], 1⟩).update [⟨ask, .one⟩] [⟨bid, .one⟩]).book
  have hrun : Run Snapshot.Made (holding ⟨[], [], 1⟩) [.update [⟨ask, .one⟩] [⟨bid, .one⟩]] shown :=
    .single trivial (by decide +kernel)
  have hask : shown.snapshot.bestAsk? = some ⟨ask, .one⟩ := by decide +kernel
  have hbid : shown.snapshot.bestBid? = some ⟨bid, .one⟩ := by decide +kernel
  have hle : bid ≤ ask := by decide +kernel
  have haskDoubles : ask.Doubles := by decide +kernel
  have hbidDoubles : bid.Doubles := by decide +kernel
  obtain ⟨mid, hmid, hlower, hupper, -⟩ :=
    mid_within_of_run (opened_empty _ Nat.one_pos) hrun hask hbid hle
  exact ⟨ask, bid, shown, mid, hrun, by decide +kernel, hmid, hupper (.inl hbidDoubles),
    hlower (.inl haskDoubles)⟩

/-- Both best prices are `7.9228162514264337593543950333`, and the mid price ends with `35`. -/
theorem mid_above_ask_at_29_digits :
    ∃ b, Book.ofLevels [⟨.ofParts 79228162514264337593543950333 28, .one⟩]
        [⟨.ofParts 79228162514264337593543950333 28, .one⟩] 1 = .done b ∧
      b.mid = some (.ofParts 79228162514264337593543950335 28) ∧
      Decimal.ofParts 79228162514264337593543950333 28 <
        .ofParts 79228162514264337593543950335 28 :=
  ⟨(holding ⟨[⟨.ofParts 79228162514264337593543950333 28, .one⟩],
    [⟨.ofParts 79228162514264337593543950333 28, .one⟩], 1⟩).derived,
    by decide +kernel, by decide +kernel, by decide +kernel⟩

/-! ## The mid price and the direction -/

/-- Of two pairs of prices one has a sum that fits into a decimal. -/
def OneSumFits (ask bid ask' bid' : Decimal) : Prop :=
  (ask.add? bid).isSome ≠ (ask'.add? bid').isSome

theorem midOf?_lt_iff {ask bid ask' bid' mid mid' : Decimal} (hmid : midOf? ask bid = some mid)
    (hmid' : midOf? ask' bid' = some mid') (hask : ask ≤ ask') (hbid : bid ≤ bid') :
    mid' < mid ↔ OneSumFits ask bid ask' bid' ∧ Slips mid mid' := by
  have hle := (isMid_of_midOf? hmid).le_or_slips (isMid_of_midOf? hmid')
    (le_iff_value_le.mp hask) (le_iff_value_le.mp hbid)
  refine ⟨fun hlt => hle.resolve_left (not_le_of_gt hlt), fun hslips => hslips.2.lt⟩

/-- **Directions against both prices.** Two mid prices are in the order of the prices, except that
one may slip below the other where one of the sums fits into a decimal and the other one does not.
So when the next snapshot lowers neither of the best prices, the direction is down just where the
mid price slips, and likewise upwards. -/
theorem contradicts_iff_slips (h₀ : Opened Snapshot.Made n b₀) (h : Run Snapshot.Made b₀ rs b)
    (hask : b.snapshot.bestAsk? = some ask) (hbid : b.snapshot.bestBid? = some bid)
    (hs : r.snapshot? n = some s) (hask' : (s.limitedTo n).bestAsk? = some ask')
    (hbid' : (s.limitedTo n).bestBid? = some bid') (hdone : (b.perform r).outcome ≠ .broken) :
    (∀ {a c a' c' m m' : Decimal}, midOf? a c = some m → midOf? a' c' = some m' → a ≤ a' → c ≤ c' →
      (m' < m ↔ OneSumFits a c a' c' ∧ Slips m m')) ∧
    ∃ mid mid', b.mid = some mid ∧ (b.perform r).book.mid = some mid' ∧
      (ask.price ≤ ask'.price → bid.price ≤ bid'.price → ((b.perform r).book.direction = .down ↔
        OneSumFits ask.price bid.price ask'.price bid'.price ∧ Slips mid mid')) ∧
      (ask'.price ≤ ask.price → bid'.price ≤ bid.price → ((b.perform r).book.direction = .up ↔
        OneSumFits ask.price bid.price ask'.price bid'.price ∧ Slips mid' mid)) := by
  have hpriced := priced_of_run h₀ h
  obtain rfl := (follows_of_run h₀ h).maxLevels
  obtain ⟨mid, hmid, hmidOf⟩ := hpriced.exists_mid hask hbid
  have hfits := fits_of_perform hs hdone
  obtain ⟨-, hbook⟩ := perform_shown hs hfits
  obtain ⟨mid', hmid', hmidOf'⟩ :=
    (derived_priced (b := b.halted s) hfits).exists_mid hask' hbid'
  refine ⟨midOf?_lt_iff, mid, mid', hmid, ?_, ?_, ?_⟩
  · rw [hbook, hmid']
  · intro hle hle'
    rw [hbook, hpriced.direction_halted hmid hmid', Direction.between_eq_down_iff]
    exact midOf?_lt_iff hmidOf hmidOf' hle hle'
  · intro hle hle'
    rw [hbook, hpriced.direction_halted hmid hmid', Direction.between_eq_up_iff, OneSumFits,
      ne_comm]
    exact midOf?_lt_iff hmidOf' hmidOf hle hle'

/-- The bid rises from `2.4` to `2.5`, and the sum of both prices does not fit any more. -/
theorem contradicts_iff_slips_at_limit :
    ∃ ask bid bid' b mid mid', bid < bid' ∧
      Run Snapshot.Made (holding ⟨[], [], 1⟩) [.update [⟨ask, .one⟩] [⟨bid, .one⟩]] b ∧
      b.mid = some mid ∧
      (b.perform (.update [⟨ask, .one⟩] [⟨bid', .one⟩])).book.mid = some mid' ∧
      Slips mid mid' := by
  let ask : Decimal := .ofParts 79228162514264337593543950333 0
  let bid : Decimal := .ofParts 24 1
  let bid' : Decimal := .ofParts 25 1
  let shown : Book := ((holding ⟨[], [], 1⟩).update [⟨ask, .one⟩] [⟨bid, .one⟩]).book
  let next : Snapshot := ⟨[⟨ask, .one⟩], [⟨bid', .one⟩], 1⟩
  have hrun : Run Snapshot.Made (holding ⟨[], [], 1⟩) [.update [⟨ask, .one⟩] [⟨bid, .one⟩]] shown :=
    .single trivial (by decide +kernel)
  have hask : shown.snapshot.bestAsk? = some ⟨ask, .one⟩ := by decide +kernel
  have hbid : shown.snapshot.bestBid? = some ⟨bid, .one⟩ := by decide +kernel
  have hnext : (Request.update [⟨ask, .one⟩] [⟨bid', .one⟩]).snapshot? 1 = some next := by
    decide +kernel
  have hask' : (next.limitedTo 1).bestAsk? = some ⟨ask, .one⟩ := by decide +kernel
  have hbid' : (next.limitedTo 1).bestBid? = some ⟨bid', .one⟩ := by decide +kernel
  have hdone : (shown.perform (.update [⟨ask, .one⟩] [⟨bid', .one⟩])).outcome ≠ .broken := by
    decide +kernel
  obtain ⟨-, mid, mid', hmid, hmid', hrise, -⟩ := contradicts_iff_slips
    (opened_empty _ Nat.one_pos) hrun hask hbid hnext hask' hbid' hdone
  have hdown : (shown.perform (.update [⟨ask, .one⟩] [⟨bid', .one⟩])).book.direction = .down := by
    decide +kernel
  have hle : bid ≤ bid' := by decide +kernel
  exact ⟨ask, bid, bid', shown, mid, mid', by decide +kernel, hrun, hmid, hmid',
    ((hrise le_rfl hle).mp hdown).2⟩

/-- The same steps, computed: the direction is down though the bid has risen. -/
theorem direction_down_of_rising_bid :
    ∃ b, Book.ofLevels [⟨.ofParts 79228162514264337593543950333 0, .one⟩]
        [⟨.ofParts 24 1, .one⟩] 1 = .done b ∧
      (b.update [⟨.ofParts 79228162514264337593543950333 0, .one⟩]
        [⟨.ofParts 25 1, .one⟩]).outcome = .done () ∧
      (b.update [⟨.ofParts 79228162514264337593543950333 0, .one⟩]
        [⟨.ofParts 25 1, .one⟩]).book.direction = .down :=
  ⟨(holding ⟨[⟨.ofParts 79228162514264337593543950333 0, .one⟩],
    [⟨.ofParts 24 1, .one⟩], 1⟩).derived,
    by decide +kernel, by decide +kernel, by decide +kernel⟩

end Book

end MarketDesk
