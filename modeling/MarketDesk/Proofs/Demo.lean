import MarketDesk.Demo
import MarketDesk.Proofs.Book.Best
import MarketDesk.Proofs.Book.Preparation
import MarketDesk.Proofs.Book.Trace
import MarketDesk.Proofs.Decimal.Parts
import MarketDesk.Proofs.Results

/-!
# The demonstration

The market of the demonstration moves as a whole: at every offset in the range of the feed its
levels are as many, as far apart and as large as at any other (`Demo.snapshot_eq`). A book that is
fed with it shows the mid price and the spread without rounding, and its direction tells how the
offset changed (`Demo.Fed.perform`), one offset after another (`Demo.shows_of_offsets`).
-/

namespace MarketDesk.Demo

open Decimal

/-- The offset is a number of 64 bits that is no nearer than 1000 to the least and to the largest
one. -/
def InRange (offset : Int) : Prop :=
  -2 ^ 63 + 1000 ≤ offset ∧ offset ≤ 2 ^ 63 - 1 - 1000

instance (offset : Int) : Decidable (InRange offset) :=
  inferInstanceAs (Decidable (_ ∧ _))

variable {m i j : Nat} {offset previous : Int} {before : Option Int} {front : List Int} {b : Book}

theorem two_le_maxScale : 2 ≤ maxScale := by decide

theorem one_le_maxScale : 1 ≤ maxScale := Nat.le_of_succ_le two_le_maxScale

theorem tenTo_two : tenTo 2 = 100 := by decide

theorem value_hundredths {c : Int} (hc : c.natAbs < limit) : (ofParts c 2).value = c / 100 := by
  rw [value_ofParts hc two_le_maxScale, tenTo_two, Nat.cast_ofNat]

/-! ## Levels -/

def askAt (offset : Int) (i : Nat) : Level :=
  ⟨.ofParts (10050 + (i + offset) * 100) 2, .ofParts (15 + i) 1⟩

def bidAt (offset : Int) (i : Nat) : Level :=
  ⟨.ofParts (100 - i + offset) 0, .ofParts (20 + 2 * i) 1⟩

/-- Whatever the offset, the coefficients of the prices are far below the limit. -/
theorem coefficient_lt (h : InRange offset) (hi : i < depth) :
    (10050 + (i + offset) * 100).natAbs < limit ∧ (100 - i + offset).natAbs < limit := by
  have hi : i < 10 := hi
  obtain ⟨hlow, hhigh⟩ := h
  rw [limit_eq]
  omega

/-- The asks of an offset in range are computed without overflow. -/
theorem asks?_eq (h : InRange offset) :
    asks? offset = some ((List.range depth).map (askAt offset)) := by
  refine mapM_eq_map ?_
  intro i hi
  have hi : i < 10 := List.mem_range.mp hi
  have hlimit := limit_eq
  have hshift_lt : (i + offset).natAbs < limit := by
    obtain ⟨hlow, hhigh⟩ := h
    omega
  have hbase : ofParts? 10050 2 = some (.ofParts 10050 2) :=
    ofParts?_of_lt (by omega) two_le_maxScale
  have hshift : ofParts? (i + offset) 0 = some (.ofParts (i + offset) 0) :=
    ofParts?_of_lt hshift_lt (Nat.zero_le _)
  have hprice : (Decimal.ofParts 10050 2).add? (.ofParts (i + offset) 0) =
      some (askAt offset i).price :=
    add?_ofParts (by omega) (by omega) hshift_lt (Nat.zero_le _) two_le_maxScale
      (coefficient_lt h hi).1
  have hsize : ofParts? (15 + i) 1 = some (askAt offset i).size :=
    ofParts?_of_lt (by omega) one_le_maxScale
  rw [hbase, hshift, hsize]
  simp only [Option.bind_eq_bind, Option.bind_some, hprice]
  rfl

theorem bids?_eq (h : InRange offset) :
    bids? offset = some ((List.range depth).map (bidAt offset)) := by
  refine mapM_eq_map ?_
  intro i hi
  have hi : i < 10 := List.mem_range.mp hi
  have hlimit := limit_eq
  have hprice : ofParts? (100 - i + offset) 0 = some (bidAt offset i).price :=
    ofParts?_of_lt (coefficient_lt h hi).2 (Nat.zero_le _)
  have hsize : ofParts? (20 + 2 * i) 1 = some (bidAt offset i).size :=
    ofParts?_of_lt (by omega) one_le_maxScale
  rw [hprice, hsize]
  rfl

theorem value_askAt (h : InRange offset) (hi : i < depth) :
    (askAt offset i).price.value = 100.5 + i + offset := by
  rw [askAt, value_hundredths (coefficient_lt h hi).1]
  push_cast
  ring

theorem value_bidAt (h : InRange offset) (hi : i < depth) :
    (bidAt offset i).price.value = 100 - i + offset := by
  rw [bidAt, value_whole (coefficient_lt h hi).2]
  push_cast
  ring

/-- A positive number of tenths. -/
theorem zero_lt_ofParts {c : Int} (hc : 0 < c) (hcl : c.natAbs < limit) : .zero < ofParts c 1 := by
  rw [zero_lt_iff, coefficient_ofParts hcl one_le_maxScale]
  exact hc

theorem zero_lt_size_askAt (hi : i < depth) : .zero < (askAt offset i).size := by
  have hi : i < 10 := hi
  exact zero_lt_ofParts (by omega) (by rw [limit_eq]; omega)

theorem zero_lt_size_bidAt (hi : i < depth) : .zero < (bidAt offset i).size := by
  have hi : i < 10 := hi
  exact zero_lt_ofParts (by omega) (by rw [limit_eq]; omega)

/-! ## Snapshots -/

/-- The levels of a side, cut to the limit. -/
def side (m : Nat) (level : Nat → Level) : List Level :=
  ((List.range depth).map level).take m

theorem length_side (m : Nat) (level : Nat → Level) : (side m level).length = min m depth := by
  rw [side, List.length_take, List.length_map, List.length_range]

theorem head?_side (hm : 0 < m) (level : Nat → Level) : (side m level).head? = some (level 0) := by
  rw [side, List.head?_take, if_neg hm.ne']
  rfl

/-- Levels that are ranked by their numbers. -/
theorem ranked_side {R : Decimal → Decimal → Prop} {level : Nat → Level}
    (h : ∀ i j, i < j → j < depth → R (level i).price (level j).price) :
    Level.Ranked R (side m level) := by
  refine List.Pairwise.sublist (List.take_sublist _ _) ?_
  rw [List.pairwise_map]
  refine List.pairwise_lt_range.imp_of_mem ?_
  intro i j _ hj hlt
  exact h i j hlt (List.mem_range.mp hj)

/-- The snapshot at an offset. -/
def shown (m : Nat) (offset : Int) : Snapshot := ⟨side m (askAt offset), side m (bidAt offset), m⟩

theorem standing_map (level : Nat → Level) (h : ∀ i < depth, .zero < (level i).size) :
    Level.AllValid ((List.range depth).map level) ∧
      Level.standing ((List.range depth).map level) = (List.range depth).map level := by
  have hpos : ∀ l ∈ (List.range depth).map level, .zero < l.size := by
    intro l hl
    obtain ⟨i, hi, rfl⟩ := List.mem_map.mp hl
    exact h i (List.mem_range.mp hi)
  exact ⟨fun l hl => (hpos l hl).le, Level.standing_of_size_pos hpos⟩

theorem snapshot_eq (hm : 0 < m) (h : InRange offset) :
    snapshot offset m = .done (shown m offset) := by
  obtain ⟨hasks, hstand⟩ := standing_map (askAt offset) (fun _ => zero_lt_size_askAt)
  obtain ⟨hbids, hstand'⟩ := standing_map (bidAt offset) (fun _ => zero_lt_size_bidAt)
  have hlevels := Snapshot.ofLevels_of_allValid hm hasks hbids
  rw [hstand, hstand'] at hlevels
  rw [snapshot, asks?_eq h, bids?_eq h]
  dsimp only
  rw [hlevels]
  rfl

/-! ## What a book shows -/

/-- The mid price at an offset. -/
def midAt (offset : Int) : Decimal := .ofParts (10025 + offset * 100) 2

theorem midCoefficient_lt (h : InRange offset) : (10025 + offset * 100).natAbs < limit := by
  obtain ⟨hlow, hhigh⟩ := h
  rw [limit_eq]
  omega

theorem value_midAt (h : InRange offset) : (midAt offset).value = 100.25 + offset := by
  rw [midAt, value_hundredths (midCoefficient_lt h)]
  push_cast
  ring

theorem midAt_lt_iff (h : InRange offset) (h' : InRange previous) :
    midAt previous < midAt offset ↔ previous < offset := by
  rw [lt_iff_value_lt, value_midAt h, value_midAt h', add_lt_add_iff_left, Int.cast_lt]

theorem price_askAt_zero (offset : Int) :
    (askAt offset 0).price = .ofParts (10050 + offset * 100) 2 := by
  rw [askAt, Nat.cast_zero, zero_add]

theorem price_bidAt_zero (offset : Int) : (bidAt offset 0).price = .ofParts (100 + offset) 0 := by
  rw [bidAt, Nat.cast_zero, sub_zero]

/-- The mid price of the best prices is exact. -/
theorem midOf?_tops (h : InRange offset) :
    Book.midOf? (askAt offset 0).price (bidAt offset 0).price = some (midAt offset) := by
  obtain ⟨hlow, hhigh⟩ := h
  have hlimit := limit_eq
  have hsum : (10050 + offset * 100) + (100 + offset) * (tenTo 2 : Nat) =
      2 * (10025 + offset * 100) := by
    rw [tenTo_two]
    omega
  have hdouble : (2 * (10025 + offset * 100)).natAbs < limit := by omega
  have hadd : (askAt offset 0).price.add? (bidAt offset 0).price =
      some (.ofParts (2 * (10025 + offset * 100)) 2) := by
    rw [price_askAt_zero, price_bidAt_zero, ← hsum]
    exact add?_ofParts (by omega) (by omega) (by omega) (Nat.zero_le _) two_le_maxScale
      (hsum ▸ hdouble)
  rw [Book.midOf?, hadd]
  exact half?_ofParts (by omega) hdouble two_le_maxScale

theorem sub?_tops (h : InRange offset) :
    (askAt offset 0).price.sub? (bidAt offset 0).price = some (.ofParts 50 2) := by
  obtain ⟨hlow, hhigh⟩ := h
  have hlimit := limit_eq
  have hdiff : (10050 + offset * 100) + -(100 + offset) * (tenTo 2 : Nat) = 50 := by
    rw [tenTo_two]
    omega
  have hopposite : (bidAt offset 0).price.opposite = .ofParts (-(100 + offset)) 0 := by
    rw [price_bidAt_zero]
    exact opposite_ofParts (by omega) (Nat.zero_le _)
  rw [sub?, hopposite, price_askAt_zero, ← hdiff]
  refine add?_ofParts (by omega) (by omega) (by omega) (Nat.zero_le _) two_le_maxScale ?_
  rw [hdiff]
  omega

/-- How the market moved to the offset; it did not if there is no previous one. -/
def move (before : Option Int) (offset : Int) : Direction :=
  match before with
  | none => .flat
  | some previous =>
    if previous < offset then .up else if offset < previous then .down else .flat

/-- **The book shows the market** at an offset. The mid price and the spread are exact and have two
fraction digits. -/
structure Shows (m : Nat) (before : Option Int) (offset : Int) (b : Book) : Prop where
  asks_length : b.snapshot.asks.length = min m 10
  bids_length : b.snapshot.bids.length = min m 10
  asks_rise : Level.Ranked (· < ·) b.snapshot.asks
  bids_fall : Level.Ranked (· > ·) b.snapshot.bids
  uncrossed : ∃ ask bid, b.snapshot.bestAsk? = some ask ∧ b.snapshot.bestBid? = some bid ∧
    bid.price < ask.price
  mid : ∃ mid, b.mid = some mid ∧ mid.value = 100.25 + offset ∧ mid.scale = 2
  spread : ∃ spread, b.spread = some spread ∧ spread.value = 0.5 ∧ spread.scale = 2
  direction : b.direction = move before offset

/-- A book that is fed with the market at one offset after another. -/
def feed (m : Nat) : Machine Book Int Book.Step where
  perform b offset :=
    match snapshot offset m with
    | .done s => b.apply s
    | .refused e => ⟨b, .refused e, []⟩
    | .broken => ⟨b, .broken, []⟩
  next := Book.Step.book

/-- The book takes `m` levels, and the last offset with which it was fed is `before`. -/
structure Fed (m : Nat) (before : Option Int) (b : Book) : Prop where
  maxLevels : b.maxLevels = m
  lastMid : b.lastMid = before.map midAt
  inRange : ∀ previous, before = some previous → InRange previous

theorem between_eq_move (h : InRange offset)
    (hbefore : ∀ previous, before = some previous → InRange previous) :
    Direction.between (before.map midAt) (midAt offset) = move before offset := by
  cases before with
  | none => rfl
  | some previous =>
    have hprevious := hbefore previous rfl
    simp only [Option.map_some, Direction.between, move, midAt_lt_iff h hprevious,
      midAt_lt_iff hprevious h]

theorem bestAsk?_shown (hm : 0 < m) : (shown m offset).bestAsk? = some (askAt offset 0) :=
  head?_side hm _

theorem bestBid?_shown (hm : 0 < m) : (shown m offset).bestBid? = some (bidAt offset 0) :=
  head?_side hm _

theorem mid?_shown (hm : 0 < m) (h : InRange offset) :
    (shown m offset).mid? = some (midAt offset) := by
  rw [Snapshot.mid?_eq (bestAsk?_shown hm) (bestBid?_shown hm), midOf?_tops h]

theorem spread?_shown (hm : 0 < m) (h : InRange offset) :
    (shown m offset).spread? = some (.ofParts 50 2) := by
  rw [Snapshot.spread?_eq (bestAsk?_shown hm) (bestBid?_shown hm), sub?_tops h]

theorem ranked_asks (h : InRange offset) : Level.Ranked (· < ·) (side m (askAt offset)) := by
  refine ranked_side ?_
  intro i j hlt hj
  rw [lt_iff_value_lt, value_askAt h (hlt.trans hj), value_askAt h hj]
  have hcast : (i : ℚ) < j := Nat.cast_lt.mpr hlt
  linarith

theorem ranked_bids (h : InRange offset) : Level.Ranked (· > ·) (side m (bidAt offset)) := by
  refine ranked_side ?_
  intro i j hlt hj
  rw [gt_iff_lt, lt_iff_value_lt, value_bidAt h (hlt.trans hj), value_bidAt h hj]
  have hcast : (i : ℚ) < j := Nat.cast_lt.mpr hlt
  linarith

theorem uncrossed (h : InRange offset) : (bidAt offset 0).price < (askAt offset 0).price := by
  rw [lt_iff_value_lt, value_askAt h (by decide), value_bidAt h (by decide)]
  linarith

/-- A book with the levels of an offset, and with the mid price of the previous one to compare. -/
theorem shows_derived (hm : 0 < m) (h : InRange offset)
    (hbefore : ∀ previous, before = some previous → InRange previous)
    (hsnapshot : b.snapshot = shown m offset) (hlast : b.lastMid = before.map midAt) :
    Shows m before offset b.derived where
  asks_length := by
    rw [Book.derived, hsnapshot]
    exact length_side m _
  bids_length := by
    rw [Book.derived, hsnapshot]
    exact length_side m _
  asks_rise := by
    rw [Book.derived, hsnapshot]
    exact ranked_asks h
  bids_fall := by
    rw [Book.derived, hsnapshot]
    exact ranked_bids h
  uncrossed := by
    rw [Book.derived, hsnapshot]
    exact ⟨_, _, bestAsk?_shown hm, bestBid?_shown hm, uncrossed h⟩
  mid := by
    rw [Book.derived, hsnapshot]
    exact ⟨_, mid?_shown hm h, value_midAt h, scale_ofParts (midCoefficient_lt h) two_le_maxScale⟩
  spread := by
    rw [Book.derived, hsnapshot]
    refine ⟨_, spread?_shown hm h, ?_, rfl⟩
    rw [value_hundredths (by decide)]
    norm_num
  direction := by
    rw [Book.derived, hsnapshot, mid?_shown hm h, Option.elim_some, hlast]
    exact between_eq_move h hbefore

/-- **One offset**: the snapshot is granted and shown, and the next one will be compared with it. -/
theorem Fed.perform (hm : 0 < m) (h : InRange offset) (hfed : Fed m before b) :
    ((feed m).perform b offset).outcome = .done () ∧
      Shows m before offset ((feed m).perform b offset).book ∧
      Fed m (some offset) ((feed m).perform b offset).book := by
  have hlimit : (shown m offset).limitedTo b.maxLevels = shown m offset :=
    Snapshot.limitedTo_of_le hfed.maxLevels.ge
  have hfits : ¬ ((shown m offset).limitedTo b.maxLevels).Overflows := by
    rw [hlimit]
    intro hoverflows
    cases (mid?_shown hm h).symm.trans hoverflows.2
  have hstep : (feed m).perform b offset = b.apply (shown m offset) := by
    simp only [feed, snapshot_eq hm h]
  rw [hstep, Book.apply_of_not_overflows hfits]
  refine ⟨rfl, shows_derived hm h hfed.inRange hlimit hfed.lastMid, hfed.maxLevels, ?_, ?_⟩
  · rw [Book.derived, Book.halted, hlimit]
    exact mid?_shown hm h
  · rintro _ ⟨⟩
    exact h

/-- A book that is fed with offsets in range has shown the last one of them, if there was any. -/
theorem fed_after (hm : 0 < m) (hfed : Fed m none b) (hfront : ∀ offset ∈ front, InRange offset) :
    Fed m front.getLast? ((feed m).after b front) := by
  induction front using List.reverseRecOn with
  | nil => exact hfed
  | append_singleton front offset ih =>
    obtain ⟨hfront, hoffset⟩ := List.forall_mem_append.mp hfront
    rw [Machine.after_append, List.getLast?_concat]
    exact ((ih hfront).perform hm (hoffset offset List.mem_cons_self)).2.2

theorem fed_empty (m : Nat) : Fed m none (Book.holding ⟨[], [], m⟩) := ⟨rfl, rfl, nofun⟩

/-- **The demonstration at any offsets.** A new book with room for a level takes the market at every
offset of the list, one after another, and shows each time what belongs to the offset, with the
direction in which the market moved from the offset before. -/
theorem shows_of_offsets {offsets : List Int} (hm : 0 < m)
    (h : ∀ offset ∈ offsets, InRange offset) :
    ∃ b, Book.new m = .done b ∧ ∀ front offset back, offsets = front ++ offset :: back →
      ((feed m).perform ((feed m).after b front) offset).outcome = .done () ∧
        Shows m front.getLast? offset ((feed m).perform ((feed m).after b front) offset).book := by
  refine ⟨_, Book.new_of_pos hm, ?_⟩
  rintro front offset back rfl
  obtain ⟨hfront, hback⟩ := List.forall_mem_append.mp h
  obtain ⟨hdone, hshows, -⟩ :=
    (fed_after hm (fed_empty m) hfront).perform hm (hback offset List.mem_cons_self)
  exact ⟨hdone, hshows⟩

/-- The best bid falls to zero and below. -/
theorem shows_of_offsets_below_zero : ∃ b, Book.new 7 = .done b ∧
    Shows 7 (some (-100)) (-101) ((feed 7).perform ((feed 7).after b [-100]) (-101)).book ∧
    move (some (-100)) (-101) = .down := by
  have hrange : ∀ offset ∈ [-100, -101], InRange offset := by decide
  obtain ⟨b, hb, hsteps⟩ := shows_of_offsets (m := 7) (by decide) hrange
  obtain ⟨-, hshows⟩ := hsteps [-100] (-101) [] rfl
  exact ⟨b, hb, hshows, by decide⟩

end MarketDesk.Demo
