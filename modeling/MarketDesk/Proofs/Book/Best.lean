import MarketDesk.Proofs.Book.Trace
import MarketDesk.Proofs.Decimal.Order

/-!
# The best prices of a ranked feed

A book does not sort. If a feed supplies each side from the best price on, the levels that stand
are still in that order after the removed ones are dropped, so that the book holds the best of them
(`Level.tops_take`); an update then shows the mid price and the spread of the best prices that were
supplied, and the spread is below zero just if these cross (`Book.showsBest_of_update`).
-/

namespace MarketDesk

namespace Level

section Ranked

/- Which of two prices is at least as good: the lower one among asks, the higher one among bids. -/
variable (R : Decimal → Decimal → Prop)

/-- The levels come from the best price on. -/
def Ranked (levels : List Level) : Prop :=
  levels.Pairwise fun l l' => R l.price l'.price

instance [DecidableRel R] (levels : List Level) : Decidable (Ranked R levels) :=
  inferInstanceAs (Decidable (levels.Pairwise fun l l' => R l.price l'.price))

/-- The level stands, and none that stands has a better price. -/
def IsBest (supplied : List Level) (l : Level) : Prop :=
  l ∈ standing supplied ∧ ∀ l' ∈ standing supplied, R l.price l'.price

instance [DecidableRel R] (supplied : List Level) (l : Level) : Decidable (IsBest R supplied l) :=
  inferInstanceAs (Decidable (_ ∧ ∀ l' ∈ standing supplied, R l.price l'.price))

/-- **What is held of a side** that is supplied from the best price on: it is in the same order, the
first level is the best of all that stand, and no level that is dropped is better than one that is
held. -/
structure Tops (supplied held : List Level) : Prop where
  ranked : Ranked R held
  best : standing supplied ≠ [] → ∃ top, held.head? = some top ∧ IsBest R supplied top
  dropped : ∃ rest, standing supplied = held ++ rest ∧
    ∀ l ∈ held, ∀ l' ∈ rest, R l.price l'.price

variable {R} {n : Nat} {levels : List Level}

theorem Ranked.standing (h : Ranked R levels) : Ranked R (standing levels) :=
  h.filter _

theorem Ranked.isBest_head (hrefl : ∀ p, R p p) (h : Ranked R levels) {top : Level}
    {rest : List Level} (hs : Level.standing levels = top :: rest) : IsBest R levels top := by
  have hranked := h.standing
  rw [Ranked, hs, List.pairwise_cons] at hranked
  rw [IsBest, hs, List.forall_mem_cons]
  exact ⟨List.mem_cons_self, hrefl top.price, hranked.1⟩

/-- The first level that stands is the best one, and any room above zero keeps it. -/
theorem tops_take (hrefl : ∀ p, R p p) (hn : 0 < n) (h : Ranked R levels) :
    Tops R levels ((standing levels).take n) := by
  have hranked := h.standing
  rw [Ranked, ← List.take_append_drop n (standing levels), List.pairwise_append] at hranked
  obtain ⟨hheld, -, hdropped⟩ := hranked
  refine ⟨hheld, ?_, _, (List.take_append_drop n _).symm, hdropped⟩
  intro hne
  obtain ⟨top, rest, hs⟩ := List.exists_cons_of_ne_nil hne
  refine ⟨top, ?_, h.isBest_head hrefl hs⟩
  rw [List.head?_take, if_neg hn.ne', hs, List.head?_cons]

theorem Tops.held_eq_nil {supplied held : List Level} (h : Tops R supplied held)
    (hs : Level.standing supplied = []) : held = [] := by
  obtain ⟨rest, hrest, -⟩ := h.dropped
  rw [hs] at hrest
  exact (List.append_eq_nil_iff.mp hrest.symm).1

end Ranked

variable {asks bids : List Level} {ask ask' bid bid' : Level}

/-- It does not matter which of several best levels are compared. -/
theorem IsBest.crossed_iff (hask : IsBest (· ≤ ·) asks ask) (hask' : IsBest (· ≤ ·) asks ask')
    (hbid : IsBest (· ≥ ·) bids bid) (hbid' : IsBest (· ≥ ·) bids bid') :
    ask.price < bid.price ↔ ask'.price < bid'.price := by
  constructor
  · intro hlt
    calc ask'.price ≤ ask.price := hask'.2 ask hask.1
      _ < bid.price := hlt
      _ ≤ bid'.price := hbid'.2 bid hbid.1
  · intro hlt
    calc ask.price ≤ ask'.price := hask.2 ask' hask'.1
      _ < bid'.price := hlt
      _ ≤ bid.price := hbid.2 bid' hbid'.1

end Level

namespace Book

/-- **The book shows the best** of what was supplied. The mid price and the spread are those of the
first levels, which are the best; a spread is below zero just if the best ask is below the best
bid. Where no level stands on a side there is no price to show. -/
structure ShowsBest (asks bids : List Level) (b : Book) : Prop where
  heldAsks : Level.Tops (· ≤ ·) asks b.snapshot.asks
  heldBids : Level.Tops (· ≥ ·) bids b.snapshot.bids
  mid : ∀ {ask bid}, b.snapshot.bestAsk? = some ask → b.snapshot.bestBid? = some bid →
    b.mid = midOf? ask.price bid.price ∧ b.mid.isSome
  spread : ∀ {ask bid}, b.snapshot.bestAsk? = some ask → b.snapshot.bestBid? = some bid →
    b.spread = ask.price.sub? bid.price
  crossed : ∀ {ask bid v}, Level.IsBest (· ≤ ·) asks ask → Level.IsBest (· ≥ ·) bids bid →
    b.spread = some v → (v < .zero ↔ ask.price < bid.price)
  unpriced : Level.standing asks = [] ∨ Level.standing bids = [] → b.mid = none ∧ b.spread = none

variable {asks bids : List Level} {b : Book} {s : Snapshot}

/-- The best levels of both sides decide what is computed from a snapshot. -/
theorem derived_showsBest (hasks : Level.Tops (· ≤ ·) asks b.snapshot.asks)
    (hbids : Level.Tops (· ≥ ·) bids b.snapshot.bids) (hfits : ¬ b.snapshot.Overflows) :
    ShowsBest asks bids b.derived := by
  refine ⟨hasks, hbids, ?_, Snapshot.spread?_eq, ?_, ?_⟩
  · intro ask bid hask hbid
    have hbest := Snapshot.best?_eq_some hask hbid
    have hsides := Snapshot.best?_isSome_iff.mp (Option.isSome_of_eq_some hbest)
    exact ⟨Snapshot.mid?_eq hask hbid, (Snapshot.mid?_isSome_iff hfits).mpr hsides⟩
  · intro ask bid v hask hbid hv
    obtain ⟨topAsk, htop, hbest⟩ := hasks.best (List.ne_nil_of_mem hask.1)
    obtain ⟨topBid, htop', hbest'⟩ := hbids.best (List.ne_nil_of_mem hbid.1)
    have hsub : topAsk.price.sub? topBid.price = some v := by
      rw [← Snapshot.spread?_eq htop htop']
      exact hv
    exact (Decimal.sub?_lt_zero_iff hsub).trans (hbest.crossed_iff hask hbest' hbid)
  · intro hempty
    have hnone : b.snapshot.best? = none :=
      Snapshot.best?_eq_none_iff.mpr (hempty.imp hasks.held_eq_nil hbids.held_eq_nil)
    exact ⟨Snapshot.mid?_eq_none_of_best? hnone, Snapshot.spread?_eq_none_of_best? hnone⟩

/-- An update that does not break holds the snapshot of its levels, which needs no further cut. -/
theorem update_of_ofLevels (h : Snapshot.ofLevels asks bids b.maxLevels = .ok s)
    (hdone : (b.update asks bids).outcome ≠ .broken) :
    ¬ s.Overflows ∧ (b.update asks bids).outcome = .done () ∧
      (b.update asks bids).book = (b.halted s).derived ∧ (b.halted s).snapshot = s := by
  obtain ⟨-, -, -, hs⟩ := Snapshot.ofLevels_eq_ok_iff.mp h
  have hlimit : s.limitedTo b.maxLevels = s := Snapshot.limitedTo_of_le (by rw [hs])
  have happly : b.update asks bids = b.apply s := by rw [update, h]
  rw [happly] at hdone ⊢
  have hfits := mt apply_outcome_eq_broken_iff.mpr hdone
  rw [apply_of_not_overflows hfits]
  rw [hlimit] at hfits
  exact ⟨hfits, rfl, rfl, hlimit⟩

/-- **The best of a ranked feed.** A book in any state, with room for a level, is updated with asks
that do not fall and bids that do not rise in price, removed levels anywhere among them. Unless no
decimal holds their mid price, the update is granted, and the book shows the best of all levels that
were supplied, however many it holds. -/
theorem showsBest_of_update (hb : 0 < b.maxLevels) (hasks : Level.AllValid asks)
    (hbids : Level.AllValid bids) (hrise : Level.Ranked (· ≤ ·) asks)
    (hfall : Level.Ranked (· ≥ ·) bids) (hdone : (b.update asks bids).outcome ≠ .broken) :
    (b.update asks bids).outcome = .done () ∧ ShowsBest asks bids (b.update asks bids).book := by
  have hlevels := Snapshot.ofLevels_of_allValid hb hasks hbids
  obtain ⟨hfits, houtcome, hbook, hsnapshot⟩ := update_of_ofLevels hlevels hdone
  refine ⟨houtcome, ?_⟩
  rw [hbook]
  apply derived_showsBest
  · rw [hsnapshot]
    exact Level.tops_take le_refl hb hrise
  · rw [hsnapshot]
    exact Level.tops_take (R := (· ≥ ·)) le_refl hb hfall
  · rwa [hsnapshot]

/-- Behind removed levels stand asks from `1` and bids from `2` on; the book holds one level of each
side, and its spread is `-1`. -/
theorem showsBest_of_update_crossed :
    ∃ asks bids b, ((holding ⟨[], [], 1⟩).update asks bids).book = b ∧ ShowsBest asks bids b ∧
      b.snapshot.asks.length = 1 ∧ b.spread = some (.ofParts (-1) 0) ∧
      Decimal.ofParts (-1) 0 < .zero := by
  let asks : List Level := [⟨.zero, .zero⟩, ⟨.one, .two⟩, ⟨.two, .one⟩]
  let bids : List Level := [⟨.two, .zero⟩, ⟨.two, .one⟩, ⟨.one, .one⟩]
  have hasks : Level.AllValid asks := by decide
  have hbids : Level.AllValid bids := by decide
  have hrise : Level.Ranked (· ≤ ·) asks := by decide
  have hfall : Level.Ranked (· ≥ ·) bids := by decide
  have hdone : ((holding ⟨[], [], 1⟩).update asks bids).outcome ≠ .broken := by decide +kernel
  obtain ⟨-, hshows⟩ := showsBest_of_update Nat.one_pos hasks hbids hrise hfall hdone
  have hspread : ((holding ⟨[], [], 1⟩).update asks bids).book.spread =
      some (.ofParts (-1) 0) := by decide +kernel
  have hbestAsk : Level.IsBest (· ≤ ·) asks ⟨.one, .two⟩ := by decide
  have hbestBid : Level.IsBest (· ≥ ·) bids ⟨.two, .one⟩ := by decide
  have hcrossed := (hshows.crossed hbestAsk hbestBid hspread).mpr (by decide)
  exact ⟨asks, bids, _, rfl, hshows, by decide +kernel, hspread, hcrossed⟩

end Book

end MarketDesk
