import Mathlib.Tactic.SplitIfs
import MarketDesk.Book.Slot

/-!
# Slots and row numbers

A book with so many asks and bids has a slot for each of them and one for the mid price. Its row
numbers and its slots are the same addresses: each number below the count of rows has one slot and
each slot one number (`Slot.ofIndex?_eq_some_iff`), and the numbers follow the slots from the top
(`Slot.above_iff_toIndex_lt`). Row numbers of a machine are enough to compute one from the other: no
difference falls below zero on the way to a slot (`Slot.locate_eq`), and the number of a slot stays
in range if all rows can be counted (`Slot.Fits.toIndex?_eq`).
-/

namespace MarketDesk

namespace Slot

variable {index asks bids : Nat} {s t : Slot}

/-! ## Numbers and slots -/

/-- A book with so many asks and bids has the slot. -/
def Fits (asks bids : Nat) : Slot → Prop
  | .ask i => i < asks
  | .mid => True
  | .bid i => i < bids

/-- A number belongs to a slot just if the book has the slot and the slot has the number. -/
theorem ofIndex?_eq_some_iff :
    ofIndex? index asks bids = some s ↔ s.Fits asks bids ∧ s.toIndex asks = index := by
  unfold ofIndex?
  cases s with
  | ask i =>
    simp only [Fits, toIndex]
    split_ifs <;> simp <;> omega
  | mid =>
    simp only [Fits, toIndex, true_and]
    split_ifs <;> simp <;> omega
  | bid i =>
    simp only [Fits, toIndex]
    split_ifs <;> simp <;> omega

theorem ofIndex?_eq_none_iff : ofIndex? index asks bids = none ↔ asks + 1 + bids ≤ index := by
  unfold ofIndex?
  split_ifs <;> simp <;> omega

/-- The rows of two asks and three bids, and one number too many. -/
example : (List.range 7).map (ofIndex? · 2 3) =
    [some (.ask 0), some (.ask 1), some .mid, some (.bid 0), some (.bid 1), some (.bid 2), none] :=
  rfl

theorem Fits.toIndex_lt (h : s.Fits asks bids) : s.toIndex asks < asks + 1 + bids := by
  cases s <;> simp only [Fits, toIndex] at h ⊢ <;> omega

/-! ## The arithmetic of row numbers -/

theorem minus?_add (n k : Nat) : minus? (n + k) n = some k := by
  rw [minus?, if_pos (Nat.le_add_right n k), Nat.add_sub_cancel_left]

/-- The checked subtractions never fail, since each follows a comparison that makes room for it. -/
theorem locate_eq (index asks bids : Nat) :
    locate index asks bids = .done (ofIndex? index asks bids) := by
  by_cases hask : index < asks
  · simp only [locate, ofIndex?, if_pos hask]
  by_cases hmid : index = asks
  · simp only [locate, ofIndex?, if_neg hask, if_pos hmid]
  -- The row is below that of the mid price, so both differences are there.
  obtain ⟨i, rfl⟩ : ∃ i, index = asks + (1 + i) := ⟨index - asks - 1, by omega⟩
  simp only [locate, ofIndex?, if_neg hask, if_neg hmid, minus?_add, Nat.add_sub_cancel_left,
    Option.bind_eq_bind, Option.bind_some]
  rfl

theorem Fits.toIndex?_eq (h : s.Fits asks bids) (hlimit : asks + 1 + bids ≤ indexLimit) :
    s.toIndex? asks = some (s.toIndex asks) :=
  if_pos (Nat.lt_of_lt_of_le h.toIndex_lt hlimit)

/-! ## The order from the top -/

/-- The slot stands above another one: an ask above the mid price and the mid price above a bid,
and each side in the order of its numbers. -/
inductive Above : Slot → Slot → Prop where
  | ask {i j : Nat} (h : i < j) : Above (.ask i) (.ask j)
  | ask_mid {i : Nat} : Above (.ask i) .mid
  | ask_bid {i j : Nat} : Above (.ask i) (.bid j)
  | mid_bid {j : Nat} : Above .mid (.bid j)
  | bid {i j : Nat} (h : i < j) : Above (.bid i) (.bid j)

/-- Slots stand in the order of their numbers: the asks, the mid price, the bids. -/
theorem above_iff_toIndex_lt (hs : s.Fits asks bids) (ht : t.Fits asks bids) :
    s.Above t ↔ s.toIndex asks < t.toIndex asks := by
  constructor
  · intro h
    cases h with
    | ask h => exact h
    | ask_mid => exact hs
    | ask_bid => simp only [Fits, toIndex] at hs ⊢; omega
    | mid_bid => simp only [toIndex]; omega
    | bid h => exact Nat.add_lt_add_left h _
  · intro h
    cases s with
    | ask i =>
      cases t with
      | ask j => exact .ask h
      | mid => exact .ask_mid
      | bid j => exact .ask_bid
    | mid =>
      cases t with
      | ask j => exact absurd h (Nat.lt_asymm ht)
      | mid => exact absurd h (Nat.lt_irrefl _)
      | bid j => exact .mid_bid
    | bid i =>
      cases t with
      | ask j => simp only [Fits, toIndex] at ht h; omega
      | mid => simp only [toIndex] at h; omega
      | bid j => exact .bid (Nat.lt_of_add_lt_add_left h)

/-! ## Addresses -/

/-- **Addresses of rows.** The row numbers of a book with so many asks and bids and its slots undo
each other; the numbers that have no slot are those beyond the last row, and the slots come in the
order of their numbers. All of it is computed in row numbers. -/
structure Addressing (asks bids : Nat) : Prop where
  /-- No row number makes a difference fall below zero. -/
  located : ∀ index : Nat, locate index asks bids = .done (ofIndex? index asks bids)
  /-- The number of a slot that the book has is in the range of row numbers. -/
  numbered : ∀ s : Slot, s.Fits asks bids → s.toIndex? asks = some (s.toIndex asks)
  toIndex_ofIndex? : ∀ (index : Nat) (s : Slot), ofIndex? index asks bids = some s →
    s.Fits asks bids ∧ s.toIndex asks = index
  ofIndex?_toIndex : ∀ s : Slot, s.Fits asks bids → ofIndex? (s.toIndex asks) asks bids = some s
  ofIndex?_none : ∀ index : Nat, ofIndex? index asks bids = none ↔ asks + 1 + bids ≤ index
  order : ∀ (i j : Nat) (s t : Slot), ofIndex? i asks bids = some s →
    ofIndex? j asks bids = some t → (i < j ↔ s.Above t)

/-- **Row numbers and slots are one addressing** of every book whose rows can be counted. -/
theorem addressing (h : asks + 1 + bids ≤ indexLimit) : Addressing asks bids where
  located index := locate_eq index asks bids
  numbered _ hs := hs.toIndex?_eq h
  toIndex_ofIndex? _ _ := ofIndex?_eq_some_iff.mp
  ofIndex?_toIndex _ hs := ofIndex?_eq_some_iff.mpr ⟨hs, rfl⟩
  ofIndex?_none _ := ofIndex?_eq_none_iff
  order i j s t hi hj := by
    obtain ⟨hs, rfl⟩ := ofIndex?_eq_some_iff.mp hi
    obtain ⟨ht, rfl⟩ := ofIndex?_eq_some_iff.mp hj
    exact (above_iff_toIndex_lt hs ht).symm

/-- The most rows that can be counted: the last bid is found by its number, and the one row number
that is left has no slot. -/
theorem addressing_largest :
    twoTo 63 + 1 + (twoTo 63 - 2) ≤ indexLimit ∧ Addressing (twoTo 63) (twoTo 63 - 2) ∧
      (bid (twoTo 63 - 3)).toIndex? (twoTo 63) = some (indexLimit - 2) ∧
      locate (indexLimit - 2) (twoTo 63) (twoTo 63 - 2) = .done (some (.bid (twoTo 63 - 3))) ∧
      locate (indexLimit - 1) (twoTo 63) (twoTo 63 - 2) = .done none := by
  have hlimit : twoTo 63 + 1 + (twoTo 63 - 2) ≤ indexLimit := by decide
  have haddr := addressing hlimit
  have hfits : (bid (twoTo 63 - 3)).Fits (twoTo 63) (twoTo 63 - 2) :=
    show twoTo 63 - 3 < twoTo 63 - 2 by decide
  have hlast : (bid (twoTo 63 - 3)).toIndex (twoTo 63) = indexLimit - 2 := by decide
  refine ⟨hlimit, haddr, ?_, ?_, ?_⟩
  · rw [haddr.numbered _ hfits, hlast]
  · rw [haddr.located, ← hlast, haddr.ofIndex?_toIndex _ hfits]
  · rw [haddr.located, (haddr.ofIndex?_none _).mpr (by decide)]

end Slot

end MarketDesk
