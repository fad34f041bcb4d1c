import MarketDesk.Proofs.Book.Trace

/-!
# Reset books

A reset takes a book back to what a new one is, whatever state it was in, but for the count of
updates, which starts one lower. The count decides nothing (`Book.Performs.counted`), so that a
reset book and a new one are told apart by nothing else, and by nothing at all after the next reset
(`Book.reset_looksAlike_new`).
-/

namespace MarketDesk.Book

variable {b : Book} {r : Request}

/-- The book with more updates counted. -/
def counted (b : Book) (k : Nat) : Book := { b with updates := b.updates + k }

/-- The step with more updates counted in its book. -/
def Step.counted (s : Step) (k : Nat) : Step := { s with book := s.book.counted k }

theorem halted_counted (b : Book) (k : Nat) (s : Snapshot) :
    (b.counted k).halted s = (b.halted s).counted k := by
  simp only [halted, counted, Nat.add_right_comm]

/-- No step but a reset depends on the count or changes it otherwise. -/
theorem Performs.counted {s : Step} (h : Performs b r s) (hr : r ≠ .reset) (k : Nat) :
    Performs (b.counted k) r (s.counted k) := by
  cases h with
  | shown hs hfits =>
    have hstep := Performs.shown (b := b.counted k) hs hfits
    rw [halted_counted] at hstep
    exact hstep
  | broken hs h =>
    have hstep := Performs.broken (b := b.counted k) hs h
    rw [halted_counted] at hstep
    exact hstep
  | refused he => exact .refused (b := b.counted k) he
  | reset => exact absurd rfl hr
  | noRoom => exact absurd rfl hr

theorem perform_counted (b : Book) (k : Nat) (hr : r ≠ .reset) :
    (b.counted k).perform r = (b.perform r).counted k :=
  ((performs b r).counted hr k).eq

/-- A reset forgets the count. -/
theorem reset_counted (hb : 0 < b.maxLevels) (k : Nat) : (b.counted k).reset = b.reset := by
  have hb' : 0 < (b.counted k).maxLevels := hb
  rw [reset_of_pos hb, reset_of_pos hb']
  rfl

/-- The count of updates has no influence on the answer or on the event of a request. -/
theorem perform_counted_answers (hb : 0 < b.maxLevels) (k : Nat) (r : Request) :
    ((b.counted k).perform r).outcome = (b.perform r).outcome ∧
      ((b.counted k).perform r).events = (b.perform r).events := by
  by_cases hr : r = .reset
  · subst hr
    rw [perform, reset_counted hb]
    exact ⟨rfl, rfl⟩
  · rw [perform_counted b k hr]
    exact ⟨rfl, rfl⟩

/-- A lead in the count stays until the first reset. -/
theorem after_counted (hb : 0 < b.maxLevels) (k : Nat) (rs : List Request) :
    ∃ j, machine.after (b.counted k) rs = (machine.after b rs).counted j ∧
      (.reset ∉ rs → j = k) ∧ (.reset ∈ rs → j = 0) := by
  induction rs generalizing b with
  | nil => exact ⟨k, rfl, fun _ => rfl, nofun⟩
  | cons r rs ih =>
    by_cases hr : r = .reset
    · subst hr
      refine ⟨0, ?_, fun h => absurd List.mem_cons_self h, fun _ => rfl⟩
      change machine.after (b.counted k).reset.book rs = machine.after b.reset.book rs
      rw [reset_counted hb]
    · have hlimit : 0 < (b.perform r).book.maxLevels := by rwa [maxLevels_perform]
      obtain ⟨j, hafter, hj⟩ := ih hlimit
      refine ⟨j, ?_, by simpa [Ne.symm hr] using hj⟩
      change machine.after ((b.counted k).perform r).book rs = _
      rw [perform_counted b k hr]
      exact hafter

/-- **What readers find** is the same in two books, except how many updates they count. -/
structure LooksAlike (b b' : Book) : Prop where
  snapshot : b'.snapshot = b.snapshot
  maxLevels : b'.maxLevels = b.maxLevels
  mid : b'.mid = b.mid
  spread : b'.spread = b.spread
  direction : b'.direction = b.direction
  maxAmount : b'.maxAmount = b.maxAmount
  lastMid : b'.lastMid = b.lastMid
  rowCount : b'.rowCount = b.rowCount
  rows : b'.rows? = b.rows?
  rowAt : ∀ index, b'.rowAt index = b.rowAt index
  row : ∀ slot, b'.row? slot = b.row? slot
  slotAt : ∀ index, b'.slotAt index = b.slotAt index
  indexOf : ∀ slot, b'.indexOf? slot = b.indexOf? slot
  depth : ∀ size, b'.depth? size = b.depth? size

/-- Two books that differ in the count of updates look alike. -/
theorem looksAlike_counted (b : Book) (k : Nat) : LooksAlike b (b.counted k) where
  snapshot := rfl
  maxLevels := rfl
  mid := rfl
  spread := rfl
  direction := rfl
  maxAmount := rfl
  lastMid := rfl
  rowCount := rfl
  rows := rfl
  rowAt _ := rfl
  row slot := by cases slot <;> rfl
  slotAt _ := rfl
  indexOf _ := rfl
  depth _ := rfl

/-- **A reset book is like a new one.** The book may be in any state, also one that a broken request
left, as long as it has room for a level: the reset is granted, and after it and any further
requests the readers find what they find in a new book with the same limit and the same subscribers
after the same requests, and the next request is answered and published in the same way. The new
book has counted one update more until the first reset among the requests, and as many from then
on. -/
theorem reset_looksAlike_new (hb : 0 < b.maxLevels) :
    b.reset.outcome = .done () ∧ b.reset.events = [] ∧
      ∃ fresh, Book.new b.maxLevels = .done fresh ∧ ∀ rs b₁ b₂,
        machine.after b.reset.book rs = b₁ →
        machine.after { fresh with announces := b.announces } rs = b₂ →
        LooksAlike b₁ b₂ ∧
        (∀ r, (b₂.perform r).outcome = (b₁.perform r).outcome ∧
          (b₂.perform r).events = (b₁.perform r).events) ∧
        (.reset ∉ rs → b₂.updates = b₁.updates + 1) ∧ (.reset ∈ rs → b₂.updates = b₁.updates) := by
  have hblank : 0 < b.blank.maxLevels := hb
  rw [reset_of_pos hb]
  refine ⟨rfl, rfl, _, new_of_pos hb, ?_⟩
  rintro rs b₁ b₂ rfl rfl
  have hnew : { holding ⟨[], [], b.maxLevels⟩ with announces := b.announces } = b.blank.counted 1 :=
    rfl
  obtain ⟨j, hafter, hone, hzero⟩ := after_counted hblank 1 rs
  have hroom : 0 < (machine.after b.blank rs).maxLevels := by rwa [maxLevels_after]
  rw [hnew, hafter]
  refine ⟨looksAlike_counted _ j, perform_counted_answers hroom j, fun h => ?_, fun h => ?_⟩
  · rw [hone h]
    rfl
  · rw [hzero h]
    rfl

/-- The levels and values that a broken request leaves are gone after a reset and leave no trace in
what comes next. -/
theorem reset_looksAlike_new_of_torn :
    ∃ torn fresh b₁ b₂,
      (holding ⟨[], [], 1⟩).apply ⟨[⟨.extreme false, .one⟩], [⟨.extreme false, .one⟩], 1⟩ =
        ⟨torn, .broken, []⟩ ∧
      Book.new torn.maxLevels = .done fresh ∧
      machine.after torn.reset.book [.update [⟨.two, .one⟩] [⟨.one, .one⟩]] = b₁ ∧
      machine.after { fresh with announces := torn.announces }
        [.update [⟨.two, .one⟩] [⟨.one, .one⟩]] = b₂ ∧
      LooksAlike b₁ b₂ ∧ b₂.updates = b₁.updates + 1 := by
  let s : Snapshot := ⟨[⟨.extreme false, .one⟩], [⟨.extreme false, .one⟩], 1⟩
  have hbroken : (s.limitedTo (holding ⟨[], [], 1⟩).maxLevels).Overflows := by decide +kernel
  have hroom : 0 < ((holding ⟨[], [], 1⟩).halted s).maxLevels := Nat.one_pos
  obtain ⟨-, -, fresh, hfresh, hafter⟩ := reset_looksAlike_new hroom
  obtain ⟨halike, -, hone, -⟩ := hafter _ _ _ rfl rfl
  exact ⟨_, fresh, _, _, apply_of_overflows hbroken, hfresh, rfl, rfl, halike, hone (by simp)⟩

end MarketDesk.Book
