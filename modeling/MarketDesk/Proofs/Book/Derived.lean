import MarketDesk.Book.Panel
import MarketDesk.Proofs.Decimal.Value

/-!
# What a book shows beside its levels

`Book.derived` writes down in one piece what `Book.derive?` computes from the levels and from the
last mid price. The computation has a result unless the snapshot overflows: both sides have levels
and no decimal holds the price halfway between them (`Book.derive?_eq_some_iff`,
`Book.derive?_eq_none_iff`). The requests to a book are restated with it.
-/

namespace MarketDesk

namespace Snapshot

/-- The prices of the best ask and the best bid; none if a side is empty. -/
def best? (s : Snapshot) : Option (Decimal × Decimal) :=
  match s.bestAsk?, s.bestBid? with
  | some ask, some bid => some (ask.price, bid.price)
  | _, _ => none

/-- The price halfway between the best prices. -/
def mid? (s : Snapshot) : Option Decimal :=
  s.best?.bind fun p => Book.midOf? p.1 p.2

/-- The distance of the best prices. -/
def spread? (s : Snapshot) : Option Decimal :=
  s.best?.bind fun p => p.1.sub? p.2

/-- Both sides have levels, and no decimal holds the price halfway between the best ones. -/
def Overflows (s : Snapshot) : Prop :=
  s.best?.isSome ∧ s.mid? = none

instance (s : Snapshot) : Decidable s.Overflows :=
  inferInstanceAs (Decidable (_ ∧ _))

variable {s : Snapshot}

theorem best?_isSome_iff : s.best?.isSome ↔ s.asks ≠ [] ∧ s.bids ≠ [] := by
  unfold best? bestAsk? bestBid?
  cases s.asks <;> cases s.bids <;> simp

theorem exists_bests (h : s.best?.isSome) :
    ∃ ask bid, s.bestAsk? = some ask ∧ s.bestBid? = some bid := by
  cases ha : s.bestAsk? with
  | none => simp [best?, ha] at h
  | some ask =>
    cases hb : s.bestBid? with
    | none => simp [best?, ha, hb] at h
    | some bid => exact ⟨ask, bid, rfl, rfl⟩

theorem best?_eq_none_iff : s.best? = none ↔ s.asks = [] ∨ s.bids = [] := by
  unfold best? bestAsk? bestBid?
  cases s.asks <;> cases s.bids <;> simp

theorem best?_eq_some {ask bid : Level} (ha : s.bestAsk? = some ask) (hb : s.bestBid? = some bid) :
    s.best? = some (ask.price, bid.price) := by
  rw [best?, ha, hb]

theorem mid?_eq {ask bid : Level} (ha : s.bestAsk? = some ask) (hb : s.bestBid? = some bid) :
    s.mid? = Book.midOf? ask.price bid.price := by
  rw [mid?, best?_eq_some ha hb, Option.bind_some]

theorem spread?_eq {ask bid : Level} (ha : s.bestAsk? = some ask) (hb : s.bestBid? = some bid) :
    s.spread? = ask.price.sub? bid.price := by
  rw [spread?, best?_eq_some ha hb, Option.bind_some]

theorem mid?_isSome_iff (h : ¬ s.Overflows) : s.mid?.isSome ↔ s.asks ≠ [] ∧ s.bids ≠ [] := by
  rw [← best?_isSome_iff]
  refine ⟨fun hm => ?_, fun hb => ?_⟩
  · obtain ⟨v, hv⟩ := Option.isSome_iff_exists.mp hm
    obtain ⟨p, hp, -⟩ := Option.bind_eq_some_iff.mp hv
    simp [hp]
  · exact Option.isSome_iff_ne_none.mpr fun hm => h ⟨hb, hm⟩

theorem mid?_eq_none_of_best? (h : s.best? = none) : s.mid? = none := by
  rw [mid?, h, Option.bind_none]

theorem spread?_eq_none_of_best? (h : s.best? = none) : s.spread? = none := by
  rw [spread?, h, Option.bind_none]

theorem empty_of_pos {n : Nat} (h : 0 < n) : empty n = .ok ⟨[], [], n⟩ := by
  simp [empty, ofLevels, side, Nat.ne_of_gt h, bind, Except.bind, pure, Except.pure]

theorem sides_of_spread?_isSome (h : s.spread?.isSome) : s.asks ≠ [] ∧ s.bids ≠ [] := by
  rw [← best?_isSome_iff, Option.isSome_iff_ne_none]
  intro hnone
  rw [spread?_eq_none_of_best? hnone] at h
  cases h

end Snapshot

namespace Book

variable {b b' : Book} {s : Snapshot}

/-- The book with everything beside the levels computed from them and from the last mid price. -/
def derived (b : Book) : Book :=
  { b with
    mid := b.snapshot.mid?
    spread := b.snapshot.spread?
    direction := b.snapshot.mid?.elim .flat (.between b.lastMid)
    lastMid := b.snapshot.mid?
    maxAmount := largest (b.snapshot.levels.map Level.size) }

theorem direction_derived_of_mid? (h : b.snapshot.mid? = none) : b.derived.direction = .flat := by
  rw [derived, h, Option.elim_none]

private theorem derive?_of_best? (h : b.snapshot.best? = none) : b.derive? = some b.derived := by
  rw [derived, Snapshot.mid?_eq_none_of_best? h, Snapshot.spread?_eq_none_of_best? h]
  unfold derive?
  cases ha : b.snapshot.bestAsk? with
  | none => rfl
  | some ask =>
    cases hb : b.snapshot.bestBid? with
    | none => rfl
    | some bid => simp [Snapshot.best?_eq_some ha hb] at h

private theorem derive?_of_bests {ask bid : Level} (ha : b.snapshot.bestAsk? = some ask)
    (hb : b.snapshot.bestBid? = some bid) :
    b.derive? = (midOf? ask.price bid.price).map fun _ => b.derived := by
  rw [derive?, derived, Snapshot.mid?_eq ha hb, Snapshot.spread?_eq ha hb, ha, hb]
  dsimp only
  cases midOf? ask.price bid.price <;> rfl

theorem derive?_of_overflows (h : b.snapshot.Overflows) : b.derive? = none := by
  obtain ⟨ask, bid, ha, hb⟩ := Snapshot.exists_bests h.1
  rw [derive?_of_bests ha hb, ← Snapshot.mid?_eq ha hb, h.2, Option.map_none]

theorem derive?_of_not_overflows (h : ¬ b.snapshot.Overflows) : b.derive? = some b.derived := by
  by_cases hbest : b.snapshot.best?.isSome
  · obtain ⟨ask, bid, ha, hb⟩ := Snapshot.exists_bests hbest
    obtain ⟨v, hv⟩ := Option.ne_none_iff_exists'.mp fun hmid => h ⟨hbest, hmid⟩
    rw [derive?_of_bests ha hb, ← Snapshot.mid?_eq ha hb, hv, Option.map_some]
  · exact derive?_of_best? (Option.not_isSome_iff_eq_none.mp hbest)

theorem derive?_eq_some_iff : b.derive? = some b' ↔ ¬ b.snapshot.Overflows ∧ b' = b.derived := by
  by_cases h : b.snapshot.Overflows
  · simp [derive?_of_overflows h, h]
  · simp [derive?_of_not_overflows h, h, eq_comm]

theorem derive?_eq_none_iff : b.derive? = none ↔ b.snapshot.Overflows := by
  by_cases h : b.snapshot.Overflows
  · simp [derive?_of_overflows h, h]
  · simp [derive?_of_not_overflows h, h]

theorem apply_of_overflows (h : (s.limitedTo b.maxLevels).Overflows) :
    b.apply s = ⟨b.halted s, .broken, []⟩ := by
  have hnone : b.stage? s = none := derive?_eq_none_iff.mpr h
  rw [apply, hnone]

theorem apply_of_not_overflows (h : ¬ (s.limitedTo b.maxLevels).Overflows) :
    b.apply s = ⟨(b.halted s).derived, .done (),
      if b.announces then [(b.halted s).derived.changeEvent] else []⟩ := by
  have hsome : b.stage? s = some (b.halted s).derived := derive?_eq_some_iff.mpr ⟨h, rfl⟩
  rw [apply, hsome]

theorem apply_outcome_eq_broken_iff :
    (b.apply s).outcome = .broken ↔ (s.limitedTo b.maxLevels).Overflows := by
  by_cases h : (s.limitedTo b.maxLevels).Overflows
  · simp [apply_of_overflows h, h]
  · simp [apply_of_not_overflows h, h]

/-- A book with the levels of a snapshot and nothing computed from them yet. -/
def holding (s : Snapshot) : Book := { snapshot := s, maxLevels := s.maxLevels }

theorem ofSnapshot_of_overflows (h : s.Overflows) : ofSnapshot s = .broken := by
  have hnone : (holding s).derive? = none := derive?_of_overflows h
  rw [holding] at hnone
  rw [ofSnapshot, hnone, Outcome.ofOption]

theorem ofSnapshot_of_not_overflows (h : ¬ s.Overflows) :
    ofSnapshot s = .done (holding s).derived := by
  have hsome : (holding s).derive? = some (holding s).derived := derive?_of_not_overflows h
  rw [holding] at hsome
  rw [ofSnapshot, hsome, Outcome.ofOption, holding]

theorem ofSnapshot_eq_done_iff :
    ofSnapshot s = .done b ↔ ¬ s.Overflows ∧ b = (holding s).derived := by
  by_cases h : s.Overflows
  · simp [ofSnapshot_of_overflows h, h]
  · simp [ofSnapshot_of_not_overflows h, h, eq_comm]

/-- The book without levels, as it is when nothing has been counted. -/
def blank (b : Book) : Book :=
  { snapshot := ⟨[], [], b.maxLevels⟩, maxLevels := b.maxLevels, updates := 0,
    announces := b.announces }

theorem reset_of_pos (h : 0 < b.maxLevels) : b.reset = ⟨b.blank, .done (), []⟩ := by
  rw [reset, Snapshot.empty_of_pos h]
  rfl

theorem reset_of_zero (h : b.maxLevels = 0) :
    b.reset = ⟨b.forgetful, .refused .noLevels, []⟩ := by
  rw [reset, h]
  rfl

end Book

end MarketDesk
