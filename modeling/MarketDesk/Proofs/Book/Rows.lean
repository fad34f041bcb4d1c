import Mathlib.Data.List.Forall2
import MarketDesk.Proofs.Book.Derived
import MarketDesk.Proofs.Book.Slots

/-!
# The rows of a book

A row can be asked for by its number, by its slot, or with all others. The three ways go back to one
list, the asks, the mid price and the bids with their rows (`Book.listed`): a row number is a
position of the list (`Book.rowAt_eq`), the number of a slot is the position of its row
(`Slot.ofIndex?_eq_some_iff`), and all rows are the list from its first to its last position. So
they agree (`Book.rowsAgree`).
-/

namespace MarketDesk

namespace Book

variable {b : Book} {kind : RowKind} {tone : Tone} {l : Level} {row : Row} {rows : List Row}
  {index : Nat} {s : Slot}

/-! ## Slots -/

theorem slotAt_eq_done_iff : b.slotAt index = .done s ↔
    s.Fits b.snapshot.asks.length b.snapshot.bids.length ∧
      s.toIndex b.snapshot.asks.length = index := by
  rw [slotAt, ← Slot.ofIndex?_eq_some_iff]
  cases Slot.ofIndex? index b.snapshot.asks.length b.snapshot.bids.length <;> simp

theorem slotAt_of_le (h : b.rowCount ≤ index) :
    b.slotAt index = .refused (.rowOutOfRange index b.rowCount) := by
  rw [slotAt, Slot.ofIndex?_eq_none_iff.mpr h]

theorem row?_isSome_iff :
    (b.row? s).isSome ↔ s.Fits b.snapshot.asks.length b.snapshot.bids.length := by
  cases s <;> simp [row?, Slot.Fits]

/-! ## The list of rows -/

/-- The rows from the top, each as far as it can be computed. -/
def listed (b : Book) : List (Outcome Row) :=
  b.snapshot.asks.map (b.levelRow .ask .negative) ++
    .done b.midRow :: b.snapshot.bids.map (b.levelRow .bid .positive)

theorem length_listed (b : Book) : b.listed.length = b.rowCount := by
  simp only [listed, rowCount, List.length_append, List.length_cons, List.length_map]
  omega

/-- The row of a slot stands under the number of the slot. -/
theorem listed_toIndex (h : s.Fits b.snapshot.asks.length b.snapshot.bids.length) :
    b.listed[s.toIndex b.snapshot.asks.length]? = b.row? s := by
  cases s with
  | ask i =>
    have hi : i < (b.snapshot.asks.map (b.levelRow .ask .negative)).length := by
      rw [List.length_map]
      exact h
    rw [listed, Slot.toIndex, List.getElem?_append_left hi, List.getElem?_map]
    rfl
  | mid => simp [listed, Slot.toIndex, row?]
  | bid i =>
    have hi : (b.snapshot.asks.map (b.levelRow .ask .negative)).length ≤
        b.snapshot.asks.length + 1 + i := by
      rw [List.length_map]
      omega
    rw [listed, Slot.toIndex, List.getElem?_append_right hi, List.length_map,
      show b.snapshot.asks.length + 1 + i - b.snapshot.asks.length = i + 1 by omega,
      List.getElem?_cons_succ, List.getElem?_map]
    rfl

/-- A number is answered from the list of rows, and refused beyond its end. -/
theorem rowAt_eq (b : Book) (index : Nat) :
    b.rowAt index = b.listed[index]?.getD (.refused (.rowOutOfRange index b.rowCount)) := by
  rcases Nat.lt_or_ge index b.rowCount with hlt | hge
  · obtain ⟨s, hs⟩ : ∃ s, Slot.ofIndex? index b.snapshot.asks.length b.snapshot.bids.length =
        some s := by
      refine Option.ne_none_iff_exists'.mp fun hnone => ?_
      exact Nat.not_le_of_lt hlt (Slot.ofIndex?_eq_none_iff.mp hnone)
    obtain ⟨hfits, hindex⟩ := Slot.ofIndex?_eq_some_iff.mp hs
    have hrow := listed_toIndex hfits
    rw [hindex] at hrow
    rw [rowAt, slotAt, hs, hrow]
  · rw [rowAt, slotAt_of_le hge, List.getElem?_eq_none (b.length_listed ▸ hge), Option.getD_none]

theorem rows?_eq (b : Book) : b.rows? = Outcome.collect b.listed := by
  have hall : (List.range b.rowCount).map b.rowAt = b.listed := by
    refine List.ext_getElem (by simp [length_listed]) fun i _ hi => ?_
    rw [List.getElem_map, List.getElem_range, rowAt_eq, List.getElem?_eq_getElem hi,
      Option.getD_some]
  rw [rows?, hall]

/-! ## Rows -/

/-- The row shows a level: its price and size, what they come to, and a bar for the size. -/
structure ShowsLevel (b : Book) (kind : RowKind) (tone : Tone) (l : Level) (row : Row) :
    Prop where
  kind : row.kind = kind
  price : row.price = some l.price
  size : row.size = some l.size
  total : row.total = l.total?
  spread : row.spread = none
  depth : b.depth? l.size = some row.depth
  tone : row.tone = tone

/-- The row shows the mid price and the spread. -/
structure ShowsMid (b : Book) (row : Row) : Prop where
  kind : row.kind = .mid
  price : row.price = b.mid
  size : row.size = none
  total : row.total = none
  spread : row.spread = b.spread
  depth : row.depth = 1.0
  tone : row.tone = b.direction.tone

/-- The bars of all levels can be computed. -/
def HasDepths (b : Book) : Prop := ∀ l ∈ b.snapshot.levels, (b.depth? l.size).isSome

instance (b : Book) : Decidable b.HasDepths :=
  inferInstanceAs (Decidable (∀ l ∈ b.snapshot.levels, _))

theorem exists_levelRow (h : (b.depth? l.size).isSome) (kind : RowKind) (tone : Tone) :
    ∃ row, b.levelRow kind tone l = .done row ∧ b.ShowsLevel kind tone l row := by
  obtain ⟨depth, hdepth⟩ := Option.isSome_iff_exists.mp h
  refine ⟨_, by rw [levelRow, hdepth]; rfl, ?_⟩
  exact ⟨rfl, rfl, rfl, rfl, rfl, hdepth, rfl⟩

theorem exists_levelRows {ls : List Level} (h : ∀ l ∈ ls, (b.depth? l.size).isSome)
    (kind : RowKind) (tone : Tone) :
    ∃ rows : List Row, ls.map (b.levelRow kind tone) = rows.map .done ∧
      List.Forall₂ (b.ShowsLevel kind tone) ls rows := by
  induction ls with
  | nil => exact ⟨[], rfl, .nil⟩
  | cons l ls ih =>
    obtain ⟨hl, hls⟩ := List.forall_mem_cons.mp h
    obtain ⟨row, hrow, hshows⟩ := exists_levelRow hl kind tone
    obtain ⟨rows, hrows, hall⟩ := ih hls
    exact ⟨row :: rows, by rw [List.map_cons, hrow, hrows, List.map_cons], .cons hshows hall⟩

/-- **Rows that agree** with each other: the asks, the mid price and the bids are the rows, in this
order; every row has its number, no other number is answered, and every slot that the book has,
which are those of its rows, has the number of its row. A row number is a number of 64 bits, which
is enough for every book in memory. -/
structure RowsAgree (b : Book) (rows : List Row) : Prop where
  order : ∃ asks mid bids, rows = asks ++ mid :: bids ∧
    List.Forall₂ (b.ShowsLevel .ask .negative) b.snapshot.asks asks ∧ b.ShowsMid mid ∧
    List.Forall₂ (b.ShowsLevel .bid .positive) b.snapshot.bids bids
  rows? : b.rows? = some rows
  rowCount : b.rowCount = b.snapshot.asks.length + 1 + b.snapshot.bids.length
  length : rows.length = b.rowCount
  rowAt_done : ∀ i row, b.rowAt i = .done row ↔ rows[i]? = some row
  rowAt_refused : ∀ i, b.rowCount ≤ i → b.rowAt i = .refused (.rowOutOfRange i b.rowCount)
  row? : ∀ s, (b.row? s).isSome ↔ s.Fits b.snapshot.asks.length b.snapshot.bids.length
  indexOf : b.rowCount ≤ Slot.indexLimit → ∀ s, (b.row? s).isSome →
    ∃ i row, b.indexOf? s = some i ∧ b.row? s = some (.done row) ∧ b.rowAt i = .done row ∧
      b.slotAt i = .done s

/-- All ways to a row agree once the list of rows is there: each of them is answered from it. -/
theorem rowsAgree_of_listed (hlisted : b.listed = rows.map .done)
    (horder : ∃ asks mid bids, rows = asks ++ mid :: bids ∧
      List.Forall₂ (b.ShowsLevel .ask .negative) b.snapshot.asks asks ∧ b.ShowsMid mid ∧
      List.Forall₂ (b.ShowsLevel .bid .positive) b.snapshot.bids bids) : b.RowsAgree rows := by
  have hlength : rows.length = b.rowCount := by
    rw [← b.length_listed, hlisted, List.length_map]
  have hrow (i : Nat) (row : Row) : b.rowAt i = .done row ↔ rows[i]? = some row := by
    rw [rowAt_eq, hlisted, List.getElem?_map]
    cases rows[i]? <;> simp
  refine ⟨horder, ?_, rfl, hlength, hrow, fun i hi => ?_, fun s => row?_isSome_iff, ?_⟩
  · rw [rows?_eq, hlisted, Outcome.collect_map_done]
  · rw [rowAt_eq, List.getElem?_eq_none (b.length_listed ▸ hi), Option.getD_none]
  · intro hlimit s hs
    have hfits := row?_isSome_iff.mp hs
    have hat : b.row? s = rows[s.toIndex b.snapshot.asks.length]?.map .done := by
      rw [← listed_toIndex hfits, hlisted, List.getElem?_map]
    obtain ⟨row, hat'⟩ := Option.isSome_iff_exists.mp (by rwa [hat, Option.isSome_map] at hs)
    refine ⟨_, row, hfits.toIndex?_eq hlimit, ?_, (hrow _ _).mpr hat', ?_⟩
    · rw [hat, hat', Option.map_some]
    · exact slotAt_eq_done_iff.mpr ⟨hfits, rfl⟩

/-- A book whose depths can be computed has all its rows, in the order asks, mid price, bids. -/
theorem exists_listed (h : b.HasDepths) : ∃ rows : List Row, b.listed = rows.map .done ∧
    ∃ asks mid bids, rows = asks ++ mid :: bids ∧
      List.Forall₂ (b.ShowsLevel .ask .negative) b.snapshot.asks asks ∧ b.ShowsMid mid ∧
      List.Forall₂ (b.ShowsLevel .bid .positive) b.snapshot.bids bids := by
  have hsides := List.forall_mem_append.mp h
  obtain ⟨asks, hasks, hshown⟩ := exists_levelRows hsides.1 .ask .negative
  obtain ⟨bids, hbids, hshown'⟩ := exists_levelRows hsides.2 .bid .positive
  refine ⟨asks ++ b.midRow :: bids, ?_, ?_⟩
  · rw [listed, hasks, hbids, List.map_append, List.map_cons]
  · exact ⟨asks, b.midRow, bids, rfl, hshown, ⟨rfl, rfl, rfl, rfl, rfl, rfl, rfl⟩, hshown'⟩

/-- **The three ways to a row agree.** A book in any state whose bars can be computed has one list
of rows, whichever way they are asked for. -/
theorem rowsAgree (h : b.HasDepths) : ∃ rows, b.RowsAgree rows := by
  obtain ⟨rows, hlisted, horder⟩ := exists_listed h
  exact ⟨rows, rowsAgree_of_listed hlisted horder⟩

/-- Two asks and one bid after an update: the bid stands in the last of four rows. -/
theorem rowsAgree_after_update :
    ∃ b rows, ((holding ⟨[], [], 7⟩).update [⟨.two, .one⟩, ⟨.two, .two⟩] [⟨.one, .one⟩]).book = b ∧
      b.RowsAgree rows ∧ b.rows? = some rows ∧ rows.length = 4 ∧
      ∃ row, b.row? (.bid 0) = some (.done row) ∧ rows[3]? = some row := by
  let b := ((holding ⟨[], [], 7⟩).update [⟨.two, .one⟩, ⟨.two, .two⟩] [⟨.one, .one⟩]).book
  have hdepths : b.HasDepths := by decide +kernel
  obtain ⟨rows, hrows⟩ := rowsAgree hdepths
  have hcount : b.rowCount = 4 := by decide +kernel
  obtain ⟨i, row, hi, hrow, hat, -⟩ := hrows.indexOf (by rw [hcount]; decide) (.bid 0)
    (by decide +kernel)
  have hthree : some 3 = b.indexOf? (.bid 0) := by decide +kernel
  obtain rfl : 3 = i := Option.some.inj (hthree.trans hi)
  exact ⟨b, rows, rfl, hrows, hrows.rows?, hrows.length.trans hcount, row, hrow,
    (hrows.rowAt_done 3 row).mp hat⟩

end Book

end MarketDesk
