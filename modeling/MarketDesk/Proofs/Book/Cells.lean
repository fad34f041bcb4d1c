import MarketDesk.Book.Cells
import MarketDesk.Proofs.Book.Shares
import MarketDesk.Proofs.Decimal.Field
import MarketDesk.Proofs.Results

/-!
# The cells of a book

A row can be painted if each of its columns has a text for it (`Row.Painted`). With the default
settings the columns of prices and totals have room for every decimal, and the one of the amounts
for sizes of at most 27 whole digits (`Row.painted_default_iff`). A book takes larger sizes, so that
it has rows that cannot be painted (`Book.painted_of_run`).
-/

namespace MarketDesk

open Decimal

variable {a : Option Decimal} {places : Nat}

theorem optionalText?_isSome_iff :
    (optionalText? a places).isSome ↔ ∀ d, a = some d → (d.fixed? places).isSome := by
  cases a <;> simp [optionalText?]

theorem optionalText?_isSome_of_le_two (h : places ≤ 2) : (optionalText? a places).isSome := by
  rw [optionalText?_isSome_iff]
  intro d _
  exact d.fixed?_isSome_of_le_two h

namespace Row

variable {settings : BookSettings} {r : Row}

/-- **The row can be painted**: there is a text for each of the three columns. -/
def Painted (settings : BookSettings) (r : Row) : Prop :=
  ∃ cells, r.cells? settings = some cells ∧ cells.length = 3

theorem painted_iff : r.Painted settings ↔ ∀ c ∈ BookColumn.all, (r.cell? settings c).isSome :=
  exists_mapM_iff

/-- Only a size can be too long for its column. -/
theorem painted_default_iff (hmid : r.isMid → r.size = none) :
    r.Painted {} ↔ ∀ size, r.size = some size → |size.value| < tenTo 27 := by
  have hprice : (r.cell? {} .price).isSome := optionalText?_isSome_of_le_two le_rfl
  have htotal : (r.cell? {} .total).isSome := by
    rw [cell?]
    split
    · rfl
    · exact optionalText?_isSome_of_le_two le_rfl
  have hamount : (r.cell? {} .amount).isSome ↔
      ∀ size, r.size = some size → |size.value| < tenTo 27 := by
    rw [cell?]
    split
    · rename_i h
      rw [hmid h]
      exact iff_of_true (optionalText?_isSome_of_le_two le_rfl) nofun
    · rw [optionalText?_isSome_iff]
      refine forall_congr' fun size => forall_congr' fun _ => ?_
      rw [fixed?_isSome_iff]
      exact ⟨fun h => h.2 (by decide), fun h => ⟨by decide, fun _ => h⟩⟩
  rw [painted_iff]
  simp only [BookColumn.all, List.forall_mem_cons, hprice, htotal, hamount, List.not_mem_nil,
    true_and, and_true, false_imp_iff, implies_true]

end Row

namespace Book

variable {n : Nat} {b b₀ : Book} {rs : List Request} {l : Level} {row : Row} {rows : List Row}

/-! ## Rows and levels -/

/-- Each row is the row of a level with its size, or the row of the mid price, which has none. -/
theorem RowsAgree.row_cases (h : b.RowsAgree rows) (hrow : row ∈ rows) :
    (∃ l ∈ b.snapshot.levels, row.isMid = false ∧ row.size = some l.size) ∨
      row.isMid = true ∧ row.size = none := by
  obtain ⟨asks, mid, bids, rfl, hasks, hmid, hbids⟩ := h.order
  rcases List.mem_append.mp hrow with hrow | hrow
  · obtain ⟨l, hl, hshows⟩ := exists_rel_of_mem hasks hrow
    refine .inl ⟨l, List.mem_append_left _ hl, ?_, hshows.size⟩
    rw [Row.isMid, hshows.kind]
    rfl
  rcases List.mem_cons.mp hrow with rfl | hrow
  · refine .inr ⟨?_, hmid.size⟩
    rw [Row.isMid, hmid.kind]
    rfl
  · obtain ⟨l, hl, hshows⟩ := exists_rel_of_mem hbids hrow
    refine .inl ⟨l, List.mem_append_right _ hl, ?_, hshows.size⟩
    rw [Row.isMid, hshows.kind]
    rfl

theorem RowsAgree.exists_row (h : b.RowsAgree rows) (hl : l ∈ b.snapshot.levels) :
    ∃ row ∈ rows, row.size = some l.size := by
  obtain ⟨asks, mid, bids, rfl, hasks, -, hbids⟩ := h.order
  rcases List.mem_append.mp hl with hl | hl
  · obtain ⟨row, hrow, hshows⟩ := exists_rel_of_mem hasks.flip hl
    exact ⟨row, List.mem_append_left _ hrow, hshows.size⟩
  · obtain ⟨row, hrow, hshows⟩ := exists_rel_of_mem hbids.flip hl
    exact ⟨row, List.mem_append_right _ (List.mem_cons_of_mem _ hrow), hshows.size⟩

/-! ## Books that can be painted -/

/-- A row can be painted just if its size is below `10 ^ 27`; prices and totals set no bound. -/
theorem Measured.painted (h : b.Measured) : ∃ rows, b.rows? = some rows ∧
    (∀ row ∈ rows, row.Painted {} ↔ ∀ size, row.size = some size → size.value < tenTo 27) ∧
    ((∀ row ∈ rows, row.Painted {}) ↔ ∀ l ∈ b.snapshot.levels, l.size.value < tenTo 27) := by
  obtain ⟨rows, hlisted, horder⟩ := exists_listed h.hasDepths
  have hrows := rowsAgree_of_listed hlisted horder
  have hpainted : ∀ row ∈ rows,
      (row.Painted {} ↔ ∀ size, row.size = some size → size.value < tenTo 27) := by
    intro row hrow
    rcases hrows.row_cases hrow with ⟨l, hl, hmid, hsize⟩ | ⟨-, hsize⟩
    · have hpos : 0 < l.size.value := by
        rw [← value_zero, ← lt_iff_value_lt]
        exact h.size_pos l hl
      rw [Row.painted_default_iff (by simp [hmid]), hsize]
      simp only [Option.some.injEq, forall_eq', abs_of_pos hpos]
    · rw [Row.painted_default_iff (fun _ => hsize), hsize]
      simp
  refine ⟨rows, hrows.rows?, hpainted, fun hall l hl => ?_, fun hall row hrow => ?_⟩
  · obtain ⟨row, hrow, hsize⟩ := hrows.exists_row hl
    exact (hpainted row hrow).mp (hall row hrow) _ hsize
  · rw [hpainted row hrow]
    intro size hsize
    rcases hrows.row_cases hrow with ⟨l, hl, -, hsize'⟩ | ⟨-, hsize'⟩
    · obtain rfl := Option.some.inj (hsize'.symm.trans hsize)
      exact hall l hl
    · cases hsize'.symm.trans hsize

/-- **What can be painted of a book.** A book is opened and handles any requests of which none
breaks: it has all its rows, and one of them can be painted with the default settings just if its
size has at most 27 whole digits, whatever the prices, the totals and the spread are. -/
theorem painted_of_run (h₀ : Opened Snapshot.Made n b₀) (h : Run Snapshot.Made b₀ rs b) :
    ∃ rows, b.rows? = some rows ∧
      (∀ row ∈ rows, row.Painted {} ↔ ∀ size, row.size = some size → size.value < tenTo 27) ∧
      ((∀ row ∈ rows, row.Painted {}) ↔ ∀ l ∈ b.snapshot.levels, l.size.value < tenTo 27) :=
  (measured_of_run h₀ h).painted

/-- The largest price with the largest size that has room, across the least price. -/
theorem painted_of_run_extreme_prices :
    ∃ b rows, Run Snapshot.Made (holding ⟨[], [], 7⟩)
      [.update [⟨.extreme false, .ofParts (10 ^ 28 - 1) 1⟩] [⟨.extreme true, .one⟩]] b ∧
      b.rows? = some rows ∧ ∀ row ∈ rows, row.Painted {} := by
  have h : Run Snapshot.Made (holding ⟨[], [], 7⟩)
      [.update [⟨.extreme false, .ofParts (10 ^ 28 - 1) 1⟩] [⟨.extreme true, .one⟩]] _ :=
    Run.nil.snoc trivial (by decide +kernel)
  obtain ⟨rows, hrows, -, hpainted⟩ := painted_of_run (opened_empty _ (by decide)) h
  refine ⟨_, rows, h, hrows, hpainted.mpr ?_⟩
  decide +kernel

/-- A size of 28 whole digits stands in the book, and there is no text for its row. -/
theorem not_painted_at_28_digits :
    ∃ b₀ b rows, Book.new 7 = .done b₀ ∧
      Run Snapshot.Made b₀ [.update [⟨.one, .ofParts (10 ^ 27) 0⟩] []] b ∧ b.rows? = some rows ∧
      rows.map (Row.cells? {}) = [none, some ["", "", ""]] := by
  have h : Run Snapshot.Made (holding ⟨[], [], 7⟩)
      [.update [⟨.one, .ofParts (10 ^ 27) 0⟩] []] _ :=
    Run.nil.snoc trivial (by decide +kernel)
  exact ⟨_, _, _, new_of_pos (by decide), h, rfl, by decide +kernel⟩

end Book

end MarketDesk
