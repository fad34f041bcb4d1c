import MarketDesk.Proofs.Book.Coherence
import MarketDesk.Proofs.Book.Rows
import MarketDesk.Proofs.Decimal.Order

/-!
# Shares of the largest size

The bar of a level is as long as the share that its size has in the largest size of the book. Every
step that does not break leaves a book that is measured by its own largest size
(`Book.perform_measured`), however narrow the snapshots were; such a book has the share of each of
its levels, in the order of their sizes, and therefore all its rows (`Book.hasShares_of_run`).
-/

namespace MarketDesk.Book

variable {n : Nat} {b b₀ : Book} {r : Request} {rs : List Request} {l l' : Level} {q q' : Decimal}

/-! ## Measured books -/

theorem opened_measured (h : Opened Snapshot.Made n b) : b.Measured := by
  obtain ⟨s, announces, hs, -, -, rfl⟩ := h.eq_derived Snapshot.Built.made
  exact derived_measured hs.sound

theorem blank_measured (b : Book) : b.blank.Measured := ⟨nofun, rfl⟩

/-- One request that does not break keeps the largest size of a book the basis of its depths. -/
theorem perform_measured (h : b.Measured) (hr : r.Hands Snapshot.Made)
    (hdone : (b.perform r).outcome ≠ .broken) : (b.perform r).book.Measured := by
  rcases perform_cases hdone with ⟨s, hs, -, hbook⟩ | ⟨-, -, hbook⟩ | ⟨-, -, hbook⟩ | ⟨-, -, hbook⟩
  · have hmade : s.Made := Request.snapshot?_kind Snapshot.Built.made hr hs
    rw [hbook]
    exact derived_measured (hmade.sound.limitedTo b.maxLevels)
  · rwa [hbook]
  · rw [hbook]
    exact blank_measured b
  · rw [hbook]
    exact ⟨h.size_pos, h.maxAmount_eq⟩

theorem measured_of_run (h₀ : Opened Snapshot.Made n b₀) (h : Run Snapshot.Made b₀ rs b) :
    b.Measured := by
  induction h with
  | nil => exact opened_measured h₀
  | snoc _ hr hdone ih => exact perform_measured ih hr hdone

/-! ## Shares -/

namespace Measured

theorem exists_share (h : b.Measured) (hl : l ∈ b.snapshot.levels) :
    ∃ q, b.share? l.size = some q ∧ .zero ≤ q ∧ q ≤ .one :=
  Decimal.exists_div?_of_le h.maxAmount_pos (h.size_pos l hl).le (h.size_le hl)

theorem exists_share_of_largest (h : b.Measured) (hl : l ∈ b.snapshot.levels)
    (hmax : ∀ l' ∈ b.snapshot.levels, l'.size ≤ l.size) :
    ∃ q, b.share? l.size = some q ∧ q ≈ .one := by
  obtain ⟨m, hm, heq⟩ := h.exists_size_eq (List.ne_nil_of_mem hl)
  have hequiv : l.size ≈ b.maxAmount := by
    have hle := Decimal.le_iff_value_le.mp (h.size_le hl)
    have hge := Decimal.le_iff_value_le.mp (heq ▸ hmax m hm)
    exact Decimal.equiv_def.mpr (le_antisymm hle hge)
  exact Decimal.exists_div?_of_equiv h.maxAmount_pos hequiv

theorem share_mono (h : b.Measured) (hle : l.size ≤ l'.size) (hq : b.share? l.size = some q)
    (hq' : b.share? l'.size = some q') : q ≤ q' :=
  Decimal.div?_mono h.maxAmount_pos hle hq hq'

theorem hasDepths (h : b.Measured) : b.HasDepths := by
  intro l hl
  obtain ⟨q, hq, -⟩ := h.exists_share hl
  simp [depth?, hq]

end Measured

theorem exists_rows (h : b.HasDepths) : ∃ rows, b.rows? = some rows ∧ rows.length = b.rowCount := by
  obtain ⟨rows, hlisted, horder⟩ := exists_listed h
  have hrows := rowsAgree_of_listed hlisted horder
  exact ⟨rows, hrows.rows?, hrows.length⟩

/-- **The shares of a book**: there is something to divide by, every level has a share from zero to
one, a level of the largest size has all, and a level that is no larger has no larger share. So
there are all rows. -/
structure HasShares (b : Book) : Prop where
  maxAmount_pos : .zero < b.maxAmount
  share : ∀ l ∈ b.snapshot.levels, ∃ q, b.share? l.size = some q ∧ .zero ≤ q ∧ q ≤ .one
  share_of_largest : ∀ l ∈ b.snapshot.levels, (∀ l' ∈ b.snapshot.levels, l'.size ≤ l.size) →
    ∃ q, b.share? l.size = some q ∧ q ≈ .one
  share_mono : ∀ l ∈ b.snapshot.levels, ∀ l' ∈ b.snapshot.levels, l.size ≤ l'.size →
    ∃ q q', b.share? l.size = some q ∧ b.share? l'.size = some q' ∧ q ≤ q'
  rows : ∃ rows, b.rows? = some rows ∧ rows.length = b.rowCount

/-- **Bars in order.** A book is opened, also with a narrowed snapshot, and handles any requests of
which none breaks: the quotients behind its bars have a result, and they are ordered as the sizes
are. -/
theorem hasShares_of_run (h₀ : Opened Snapshot.Made n b₀) (h : Run Snapshot.Made b₀ rs b) :
    b.HasShares := by
  have hmeasured := measured_of_run h₀ h
  refine ⟨hmeasured.maxAmount_pos, ?_, ?_, ?_, exists_rows hmeasured.hasDepths⟩
  · intro l hl
    exact hmeasured.exists_share hl
  · intro l hl hmax
    exact hmeasured.exists_share_of_largest hl hmax
  · intro l hl l' hl' hle
    obtain ⟨q, hq, -⟩ := hmeasured.exists_share hl
    obtain ⟨q', hq', -⟩ := hmeasured.exists_share hl'
    exact ⟨q, q', hq, hq', hmeasured.share_mono hle hq hq'⟩

/-- Sizes `1`, `2` and `3.0`, after a refused update: a third is rounded once, and there are four
rows. -/
theorem hasShares_of_run_thirds :
    ∃ b rows, Run Snapshot.Made (holding ⟨[], [], 7⟩)
      [.update [⟨.two, .one⟩, ⟨.two, .two⟩] [⟨.one, .ofParts 30 1⟩],
        .update [] [⟨.one, .extreme true⟩]] b ∧ b.HasShares ∧ b.rows? = some rows ∧
      rows.length = 4 ∧ b.share? .one = some (.ofParts 3333333333333333333333333333 28) := by
  have h₀ : Run Snapshot.Made (holding ⟨[], [], 7⟩) [] _ := .nil
  have h₁ := h₀.snoc (r := .update [⟨.two, .one⟩, ⟨.two, .two⟩] [⟨.one, .ofParts 30 1⟩]) trivial
    (by decide +kernel)
  have h₂ := h₁.snoc (r := .update [] [⟨.one, .extreme true⟩]) trivial (by decide +kernel)
  have hshares := hasShares_of_run (opened_empty _ (by decide)) h₂
  obtain ⟨rows, hrows, hlength⟩ := hshares.rows
  exact ⟨_, rows, h₂, hshares, hrows, hlength.trans (by decide +kernel), by decide +kernel⟩

end MarketDesk.Book
