import MarketDesk.Proofs.Book.Run

/-!
# Coherence of a book

Everything a book shows belongs to one snapshot: `Book.Coherent` lists what holds of the fields, and
`Book.coherent_of_run` proves it of every book that was opened and has handled any requests. The
list has to speak of the last mid price and of the limit of the snapshot, on which the next request
depends.
-/

namespace MarketDesk.Book

section Largest

variable {a : Decimal} {sizes : List Decimal}

/-- Folding `Decimal.maxRight` gives the start or one of the list, and none of them is larger. -/
private theorem foldl_maxRight (a : Decimal) (sizes : List Decimal) :
    sizes.foldl Decimal.maxRight a ∈ a :: sizes ∧
      ∀ c ∈ a :: sizes, c ≤ sizes.foldl Decimal.maxRight a := by
  induction sizes generalizing a with
  | nil => simp
  | cons b sizes ih =>
    obtain ⟨hmem, hall⟩ := ih (a.maxRight b)
    obtain ⟨hmax, hrest⟩ := List.forall_mem_cons.mp hall
    obtain ⟨ha, hb⟩ := Decimal.le_maxRight a b
    rw [List.foldl_cons]
    refine ⟨?_, ?_⟩
    · rcases List.mem_cons.mp hmem with h | h
      · rw [h]
        rcases Decimal.maxRight_eq_or a b with h | h <;> simp [h]
      · simp [h]
    · rw [List.forall_mem_cons, List.forall_mem_cons]
      exact ⟨ha.trans hmax, hb.trans hmax, hrest⟩

theorem largest_mem (h : sizes ≠ []) : largest sizes ∈ sizes := by
  cases sizes with
  | nil => exact absurd rfl h
  | cons b sizes => exact (foldl_maxRight b sizes).1

theorem le_largest (h : a ∈ sizes) : a ≤ largest sizes := by
  cases sizes with
  | nil => cases h
  | cons b sizes => exact (foldl_maxRight b sizes).2 a h

theorem zero_lt_largest (h : ∀ c ∈ sizes, .zero < c) : .zero < largest sizes := by
  cases sizes with
  | nil => exact Decimal.zero_lt_iff.mpr Int.one_pos
  | cons b sizes => exact h _ (largest_mem (List.cons_ne_nil b sizes))

end Largest

/-- The bars are measured by the largest size that the book holds. -/
structure Measured (b : Book) : Prop where
  size_pos : ∀ l ∈ b.snapshot.levels, .zero < l.size
  maxAmount_eq : b.maxAmount = largest (b.snapshot.levels.map Level.size)

namespace Measured

variable {b : Book} {l : Level}

theorem maxAmount_pos (h : b.Measured) : .zero < b.maxAmount := by
  rw [h.maxAmount_eq]
  refine zero_lt_largest ?_
  intro c hc
  obtain ⟨l, hl, rfl⟩ := List.mem_map.mp hc
  exact h.size_pos l hl

theorem size_le (h : b.Measured) (hl : l ∈ b.snapshot.levels) : l.size ≤ b.maxAmount := by
  rw [h.maxAmount_eq]
  exact le_largest (List.mem_map_of_mem hl)

theorem exists_size_eq (h : b.Measured) (hne : b.snapshot.levels ≠ []) :
    ∃ l ∈ b.snapshot.levels, l.size = b.maxAmount := by
  rw [h.maxAmount_eq]
  exact List.mem_map.mp (largest_mem (mt List.map_eq_nil_iff.mp hne))

end Measured

theorem derived_measured {b : Book} (h : b.snapshot.Sound) : b.derived.Measured :=
  ⟨h.size_pos, rfl⟩

/-- **Coherence** of a book that was opened for `n` levels: no field belongs to another snapshot
than the levels do. -/
structure Coherent (n : Nat) (b : Book) : Prop where
  maxLevels : b.maxLevels = n
  asks_length : b.snapshot.asks.length ≤ n
  bids_length : b.snapshot.bids.length ≤ n
  size_pos : ∀ l ∈ b.snapshot.levels, .zero < l.size
  limit_pos : 0 < b.snapshot.maxLevels
  limit_le : b.snapshot.maxLevels ≤ n
  mid_isSome : b.mid.isSome ↔ b.snapshot.asks ≠ [] ∧ b.snapshot.bids ≠ []
  mid_eq : ∀ {ask bid}, b.snapshot.bestAsk? = some ask → b.snapshot.bestBid? = some bid →
    b.mid = midOf? ask.price bid.price
  spread_isSome : b.spread.isSome → b.snapshot.asks ≠ [] ∧ b.snapshot.bids ≠ []
  spread_eq : ∀ {ask bid}, b.snapshot.bestAsk? = some ask → b.snapshot.bestBid? = some bid →
    b.spread = ask.price.sub? bid.price
  lastMid_eq : b.lastMid = b.mid
  direction_flat : b.mid = none → b.direction = .flat
  maxAmount_pos : .zero < b.maxAmount
  maxAmount_empty : b.snapshot.levels = [] → b.maxAmount = .one
  maxAmount_mem : b.snapshot.levels ≠ [] → ∃ l ∈ b.snapshot.levels, l.size = b.maxAmount
  size_le : ∀ l ∈ b.snapshot.levels, l.size ≤ b.maxAmount

variable {n : Nat} {b b₀ : Book} {s : Snapshot} {r : Request} {rs : List Request}

/-- What is computed from a sound snapshot is coherent, whatever the book held before. -/
theorem derived_coherent (hlimit : b.maxLevels = n) (hsound : b.snapshot.Sound)
    (hpos : 0 < b.snapshot.maxLevels) (hle : b.snapshot.maxLevels ≤ n)
    (h : ¬ b.snapshot.Overflows) : Coherent n b.derived where
  maxLevels := hlimit
  asks_length := hsound.asks_length.trans hle
  bids_length := hsound.bids_length.trans hle
  size_pos := hsound.size_pos
  limit_pos := hpos
  limit_le := hle
  mid_isSome := Snapshot.mid?_isSome_iff h
  mid_eq := Snapshot.mid?_eq
  spread_isSome := Snapshot.sides_of_spread?_isSome
  spread_eq := Snapshot.spread?_eq
  lastMid_eq := rfl
  direction_flat := direction_derived_of_mid?
  maxAmount_pos := (derived_measured hsound).maxAmount_pos
  maxAmount_empty hempty := congrArg (fun ls : List Level => largest (ls.map Level.size)) hempty
  maxAmount_mem := (derived_measured hsound).exists_size_eq
  size_le _ := (derived_measured hsound).size_le

theorem opened_coherent (h : Opened Snapshot.Built n b) : Coherent n b := by
  obtain ⟨s, announces, hs, rfl, hfits, rfl⟩ := h.eq_derived id
  exact derived_coherent rfl hs.made.sound hs.maxLevels_pos (Nat.le_refl _) hfits

/-- A snapshot straight from levels keeps room for a level when it is cut to a book's limit. -/
theorem halted_coherent (hlimit : b.maxLevels = n) (hn : 0 < n) (hs : s.Built)
    (hfits : ¬ (s.limitedTo b.maxLevels).Overflows) : Coherent n (b.halted s).derived := by
  have hmin := s.maxLevels_limitedTo b.maxLevels
  have hpos := hs.maxLevels_pos
  refine derived_coherent hlimit (hs.made.sound.limitedTo _) ?_ ?_ hfits
  · change 0 < (s.limitedTo b.maxLevels).maxLevels
    omega
  · change (s.limitedTo b.maxLevels).maxLevels ≤ n
    omega

theorem Coherent.pos (h : Coherent n b) : 0 < n :=
  Nat.lt_of_lt_of_le h.limit_pos h.limit_le

theorem Coherent.not_overflows (h : Coherent n b) : ¬ b.snapshot.Overflows := by
  rintro ⟨hbest, hnone⟩
  obtain ⟨ask, bid, ha, hb⟩ := Snapshot.exists_bests hbest
  have hmid := h.mid_isSome.mpr (Snapshot.best?_isSome_iff.mp hbest)
  rw [h.mid_eq ha hb, ← Snapshot.mid?_eq ha hb, hnone] at hmid
  cases hmid

theorem blank_coherent (h : Coherent n b) : Coherent n b.blank := by
  have hn := h.pos
  have hb := h.maxLevels
  have hsound : b.blank.snapshot.Sound := ⟨Nat.zero_le _, Nat.zero_le _, nofun⟩
  change Coherent n b.blank.derived
  refine derived_coherent hb hsound ?_ ?_ nofun
  · change 0 < b.maxLevels
    omega
  · exact Nat.le_of_eq hb

/-- One request that does not break keeps a book coherent; a refused one keeps it because it changes
nothing. -/
theorem perform_coherent (h : Coherent n b) (hr : r.Hands Snapshot.Built)
    (hdone : (b.perform r).outcome ≠ .broken) : Coherent n (b.perform r).book := by
  rcases perform_cases hdone with ⟨s, hs, hfits, hbook⟩ | ⟨-, -, hbook⟩ | ⟨-, -, hbook⟩ | ⟨-, hn, -⟩
  · rw [hbook]
    exact halted_coherent h.maxLevels h.pos (Request.snapshot?_kind id hr hs) hfits
  · rwa [hbook]
  · rw [hbook]
    exact blank_coherent h
  · have := h.pos
    rw [← h.maxLevels, hn] at this
    cases this

/-- **A book stays coherent.** It does not matter how the book was opened, in which order it was
updated, given snapshots of any limit and reset, and which of the updates were refused. -/
theorem coherent_of_run (h₀ : Opened Snapshot.Built n b₀) (h : Run Snapshot.Built b₀ rs b) :
    Coherent n b := by
  induction h with
  | nil => exact opened_coherent h₀
  | snoc _ hr hdone ih => exact perform_coherent ih hr hdone

/-- A snapshot for three levels, a refused update and a reset. -/
theorem coherent_of_run_reset :
    ∃ b, Run Snapshot.Built (holding ⟨[], [], 2⟩)
      [.apply ⟨[⟨.two, .one⟩], [⟨.one, .two⟩], 3⟩, .update [] [⟨.one, .extreme true⟩], .reset] b ∧
      Coherent 2 b := by
  have hbuilt : Snapshot.Built ⟨[⟨.two, .one⟩], [⟨.one, .two⟩], 3⟩ :=
    ⟨[⟨.two, .one⟩], [⟨.one, .two⟩], 3, rfl⟩
  have h₀ : Run Snapshot.Built (holding ⟨[], [], 2⟩) [] _ := .nil
  have h₁ := h₀.snoc (r := .apply ⟨[⟨.two, .one⟩], [⟨.one, .two⟩], 3⟩) hbuilt
    (by decide +kernel)
  have h₂ := h₁.snoc (r := .update [] [⟨.one, .extreme true⟩]) trivial (by decide +kernel)
  have h₃ := h₂.snoc (r := .reset) trivial (by decide +kernel)
  exact ⟨_, h₃, coherent_of_run (opened_empty _ (by decide)) h₃⟩

end MarketDesk.Book
