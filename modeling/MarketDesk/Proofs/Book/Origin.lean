import MarketDesk.Book.Snapshot

/-!
# Where snapshots come from

Snapshots are made from two lists of levels (`Snapshot.Built`) and narrowed afterwards
(`Snapshot.Made`). `Snapshot.ofLevels_eq_ok_iff` says when two lists make a snapshot and which one;
a snapshot that is narrowed is the one for fewer levels (`Snapshot.ofLevels_limitedTo`), and one
that was made shows no more levels than its limit, each with a size above zero
(`Snapshot.Made.sound`).
-/

namespace MarketDesk

namespace Decimal

variable {a : Decimal}

theorem zero_lt_iff : .zero < a ↔ 0 < a.coefficient := by
  rw [lt_def]
  simp [zero, coefficient]

theorem zero_le_iff : .zero ≤ a ↔ 0 ≤ a.coefficient := by
  rw [le_def]
  simp [zero, coefficient]

theorem isNegative_iff_lt_zero : a.isNegative = true ↔ a < .zero := by
  rw [isNegative_iff, lt_def]
  simp [zero, coefficient]

theorem isNegative_eq_false_iff : a.isNegative = false ↔ .zero ≤ a := by
  rw [zero_le_iff, ← Bool.not_eq_true, isNegative_iff, Int.not_lt]

theorem not_zero_le_iff : ¬ .zero ≤ a ↔ a < .zero := by
  rw [← isNegative_eq_false_iff, Bool.not_eq_false, isNegative_iff_lt_zero]

end Decimal

namespace Level

/-- The levels of a side that are in the book. -/
def standing (levels : List Level) : List Level :=
  levels.filter fun l => !l.isRemoved

/-- No size is below zero. -/
def AllValid (levels : List Level) : Prop :=
  ∀ l ∈ levels, Decimal.zero ≤ l.size

instance (levels : List Level) : Decidable (AllValid levels) :=
  inferInstanceAs (Decidable (∀ l ∈ levels, Decimal.zero ≤ l.size))

variable {levels : List Level}

theorem find?_isNegative_eq_none_iff :
    levels.find? (fun l => l.size.isNegative) = none ↔ AllValid levels := by
  simp only [List.find?_eq_none, AllValid, Bool.not_eq_true, Decimal.isNegative_eq_false_iff]

theorem zero_lt_size_of_mem_standing {l : Level} (h : AllValid levels)
    (hl : l ∈ standing levels) : .zero < l.size := by
  obtain ⟨hl, hstands⟩ := List.mem_filter.mp hl
  have hle := Decimal.zero_le_iff.mp (h l hl)
  have hne : l.size.magnitude ≠ 0 := by simpa [isRemoved, Decimal.isZero] using hstands
  rw [← Decimal.natAbs_coefficient] at hne
  exact Decimal.zero_lt_iff.mpr (by omega)

end Level

namespace Snapshot

variable {asks bids levels : List Level} {n m : Nat} {s : Snapshot}

theorem side_eq_ok_iff {kept : List Level} :
    side n levels = .ok kept ↔ Level.AllValid levels ∧ kept = (Level.standing levels).take n := by
  rw [side, ← Level.find?_isNegative_eq_none_iff]
  cases levels.find? (fun l => l.size.isNegative) with
  | none => simp [eq_comm, Level.standing]
  | some bad => simp

/-- **Prepared levels.** Two lists make a snapshot just if there is room and no size is below zero;
each side is then cut from the levels that stand. -/
theorem ofLevels_eq_ok_iff :
    ofLevels asks bids n = .ok s ↔ 0 < n ∧ Level.AllValid asks ∧ Level.AllValid bids ∧
      s = ⟨(Level.standing asks).take n, (Level.standing bids).take n, n⟩ := by
  unfold ofLevels
  split
  · rename_i h
    simp [h]
  rename_i hn
  have hpos := Nat.pos_of_ne_zero hn
  cases ha : side n asks with
  | error e =>
    have : ¬ Level.AllValid asks := fun h => by
      rw [side_eq_ok_iff.mpr ⟨h, rfl⟩] at ha
      cases ha
    simp [bind, Except.bind, this]
  | ok as =>
    obtain ⟨hasks, rfl⟩ := side_eq_ok_iff.mp ha
    cases hb : side n bids with
    | error e =>
      have : ¬ Level.AllValid bids := fun h => by
        rw [side_eq_ok_iff.mpr ⟨h, rfl⟩] at hb
        cases hb
      simp [bind, Except.bind, this]
    | ok bs =>
      obtain ⟨hbids, rfl⟩ := side_eq_ok_iff.mp hb
      simp only [bind, Except.bind, pure, Except.pure, Except.ok.injEq, hpos, hasks, hbids,
        true_and]
      exact eq_comm

/-- Levels without a negative size make a snapshot for any number of levels above zero. -/
theorem ofLevels_of_allValid (hn : 0 < n) (hasks : Level.AllValid asks)
    (hbids : Level.AllValid bids) : ofLevels asks bids n =
      .ok ⟨(Level.standing asks).take n, (Level.standing bids).take n, n⟩ :=
  ofLevels_eq_ok_iff.mpr ⟨hn, hasks, hbids, rfl⟩

/-- The snapshot comes straight from two lists of levels. -/
def Built (s : Snapshot) : Prop :=
  ∃ asks bids n, ofLevels asks bids n = .ok s

/-- The snapshot comes from two lists of levels and may have been narrowed. -/
inductive Made : Snapshot → Prop
  | ofLevels {asks bids : List Level} {n : Nat} {s : Snapshot} :
    Snapshot.ofLevels asks bids n = .ok s → Made s
  | limitedTo {s : Snapshot} (n : Nat) : Made s → Made (s.limitedTo n)

theorem Built.made (h : s.Built) : s.Made :=
  let ⟨_, _, _, h⟩ := h
  .ofLevels h

theorem Built.maxLevels_pos (h : s.Built) : 0 < s.maxLevels := by
  obtain ⟨asks, bids, n, h⟩ := h
  obtain ⟨hn, -, -, rfl⟩ := ofLevels_eq_ok_iff.mp h
  exact hn

/-- No side has more levels than the limit, and every level has a size. -/
structure Sound (s : Snapshot) : Prop where
  asks_length : s.asks.length ≤ s.maxLevels
  bids_length : s.bids.length ≤ s.maxLevels
  size_pos : ∀ l ∈ s.levels, .zero < l.size

theorem Sound.limitedTo (h : s.Sound) (n : Nat) : (s.limitedTo n).Sound := by
  unfold Snapshot.limitedTo
  split
  · refine ⟨List.length_take_le .., List.length_take_le .., fun l hl => h.size_pos l ?_⟩
    rcases List.mem_append.mp hl with hl | hl
    · exact List.mem_append_left _ (List.mem_of_mem_take hl)
    · exact List.mem_append_right _ (List.mem_of_mem_take hl)
  · exact h

theorem Sound.eq_of_no_room (h : s.Sound) (hs : s.maxLevels = 0) : s = ⟨[], [], 0⟩ := by
  obtain ⟨asks, bids, maxLevels⟩ := s
  obtain rfl : maxLevels = 0 := hs
  obtain rfl : asks = [] := List.eq_nil_of_length_eq_zero (Nat.le_zero.mp h.asks_length)
  obtain rfl : bids = [] := List.eq_nil_of_length_eq_zero (Nat.le_zero.mp h.bids_length)
  rfl

theorem maxLevels_limitedTo (s : Snapshot) (n : Nat) :
    (s.limitedTo n).maxLevels = min n s.maxLevels := by
  unfold limitedTo
  split
  · dsimp only
    omega
  · omega

theorem limitedTo_of_le (h : s.maxLevels ≤ n) : s.limitedTo n = s := by
  rw [limitedTo, if_neg (Nat.not_lt.mpr h)]

/-- Narrowing twice is narrowing to the lesser limit. -/
theorem limitedTo_limitedTo (s : Snapshot) (m n : Nat) :
    (s.limitedTo m).limitedTo n = s.limitedTo (min m n) := by
  rcases Nat.lt_or_ge m s.maxLevels with hm | hm
  · rcases Nat.lt_or_ge n m with hn | hn
    · have hnm := Nat.le_of_lt hn
      have hns : n < s.maxLevels := Nat.lt_trans hn hm
      rw [Nat.min_eq_right hnm]
      simp only [limitedTo, hm, hn, hns, if_true, List.take_take, Nat.min_eq_left hnm]
    · rw [Nat.min_eq_left hn]
      refine limitedTo_of_le ?_
      rw [maxLevels_limitedTo]
      exact Nat.le_trans (Nat.min_le_left ..) hn
  · rw [limitedTo_of_le hm]
    rcases Nat.le_total m n with hn | hn
    · rw [Nat.min_eq_left hn, limitedTo_of_le hm, limitedTo_of_le (Nat.le_trans hm hn)]
    · rw [Nat.min_eq_right hn]

theorem limitedTo_limitedTo_self (s : Snapshot) (n : Nat) :
    (s.limitedTo n).limitedTo n = s.limitedTo n := by
  rw [limitedTo_limitedTo, Nat.min_self]

/-- A snapshot that is narrowed is the snapshot for fewer levels. -/
theorem ofLevels_limitedTo (hm : 0 < m) (h : ofLevels asks bids n = .ok s) :
    ofLevels asks bids (min m n) = .ok (s.limitedTo m) := by
  obtain ⟨hn, hasks, hbids, rfl⟩ := ofLevels_eq_ok_iff.mp h
  refine ofLevels_eq_ok_iff.mpr ⟨by omega, hasks, hbids, ?_⟩
  rw [limitedTo]
  split
  · rename_i hlt
    have hmn := Nat.le_of_lt hlt
    rw [Nat.min_eq_left hmn, List.take_take, List.take_take, Nat.min_eq_left hmn]
  · rename_i hle
    rw [Nat.min_eq_right (Nat.not_lt.mp hle)]

/-- The levels of a snapshot were checked when it was prepared, and narrowing only drops some. -/
theorem Made.sound (h : s.Made) : s.Sound := by
  induction h with
  | ofLevels h =>
    obtain ⟨-, hasks, hbids, rfl⟩ := ofLevels_eq_ok_iff.mp h
    refine ⟨List.length_take_le .., List.length_take_le .., fun l hl => ?_⟩
    rcases List.mem_append.mp hl with hl | hl
    · exact Level.zero_lt_size_of_mem_standing hasks (List.mem_of_mem_take hl)
    · exact Level.zero_lt_size_of_mem_standing hbids (List.mem_of_mem_take hl)
  | limitedTo n _ ih => exact ih.limitedTo n

end Snapshot

end MarketDesk
