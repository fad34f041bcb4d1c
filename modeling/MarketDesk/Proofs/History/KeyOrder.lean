import MarketDesk.History.Panel
import MarketDesk.Proofs.Decimal.Rounded

/-!
# The order of the sort keys

Each key compares orders by one of their fields. The comparisons are total preorders
(`SortKey.cmp` is a `Std.TransCmp`), so that a sorting in either direction is one too
(`Sorting.le_trans`, `Sorting.le_total`), and it says of two orders what its key says
(`Sorting.le_iff_permits`). `SortKey.Ties` says which orders a key does not tell apart, without
comparing them; `SortKey.lawful_cmp` puts both together.
-/

namespace MarketDesk

open Std (TransCmp OrientedCmp)

/-- A comparison of what `f` reads. -/
theorem transCmp_of_map {α β : Type} (f : α → β) (cmp : β → β → Ordering) [TransCmp cmp] :
    TransCmp fun a b => cmp (f a) (f b) where
  eq_swap {a b} := (OrientedCmp.eq_swap : cmp (f a) (f b) = _)
  isLE_trans hab hbc := TransCmp.isLE_trans hab hbc

instance : TransCmp Date.cmp :=
  inferInstanceAs (TransCmp (compareLex (compareOn Date.year)
    (compareLex (compareOn Date.month) (compareOn Date.day))))

instance : TransCmp Instant.cmp :=
  have := transCmp_of_map Instant.date Date.cmp
  inferInstanceAs (TransCmp (compareLex (fun a b : Instant => a.date.cmp b.date)
    (compareLex (compareOn Instant.second) (compareOn Instant.nano))))

instance : TransCmp Decimal.cmp := by
  have h := transCmp_of_map Decimal.value compare
  simpa only [← Decimal.cmp_eq_compare_value] using h

instance (k : SortKey) : TransCmp k.cmp :=
  match k with
  | .symbol => transCmp_of_map Order.symbol compare
  | .time => transCmp_of_map Order.time Instant.cmp
  | .price => transCmp_of_map Order.price Decimal.cmp
  | .amount => transCmp_of_map Order.amount Decimal.cmp
  | .total => transCmp_of_map Order.total Decimal.cmp
  | .status => transCmp_of_map (fun o : Order => o.status.rank) compare

theorem SortKey.cmp_swap (k : SortKey) (a b : Order) : k.cmp b a = (k.cmp a b).swap :=
  OrientedCmp.eq_swap

namespace Sorting

variable {s : Sorting} {a b : Order}

/-- The key allows `a` to stand above `b`: it is not larger if sorted upwards and not smaller if
sorted downwards. -/
def Permits (s : Sorting) (a b : Order) : Prop :=
  if s.descending then (s.key.cmp a b).isGE else (s.key.cmp a b).isLE

theorem le_iff_permits : s.le a b = true ↔ s.Permits a b := by
  unfold le Permits
  cases s.descending with
  | false => rfl
  | true => rw [s.key.cmp_swap a b, Ordering.isLE_swap]

theorem permits_of_eq (h : s.key.cmp a b = .eq) : s.Permits a b := by
  unfold Permits
  rw [h]
  split <;> rfl

theorem eq_of_permits (hab : s.Permits a b) (hba : s.Permits b a) : s.key.cmp a b = .eq := by
  unfold Permits at hab hba
  rw [s.key.cmp_swap a b] at hba
  cases hd : s.descending <;> cases hc : s.key.cmp a b <;> simp_all

theorem le_trans (s : Sorting) (a b c : Order) (hab : s.le a b = true) (hbc : s.le b c = true) :
    s.le a c = true := by
  unfold le at *
  by_cases hd : s.descending
  · rw [if_pos hd] at *
    exact TransCmp.isLE_trans hbc hab
  · rw [if_neg hd] at *
    exact TransCmp.isLE_trans hab hbc

theorem le_total (s : Sorting) (a b : Order) : (s.le a b || s.le b a) = true := by
  unfold le
  rw [s.key.cmp_swap a b]
  cases s.descending <;> cases s.key.cmp a b <;> rfl

end Sorting

/-! ## What a comparison of orders can be relied on for -/

/-- **A comparison to sort by**: it is reflexive, total and transitive, and the other way round it
gives the opposite answer. -/
structure LawfulCmp {α : Type} (cmp : α → α → Ordering) : Prop where
  refl : ∀ a, cmp a a = .eq
  swap : ∀ a b, cmp b a = (cmp a b).swap
  total : ∀ a b, (cmp a b).isLE ∨ (cmp b a).isLE
  trans : ∀ {a b c}, (cmp a b).isLE → (cmp b c).isLE → (cmp a c).isLE

namespace LawfulCmp

variable {α : Type} {cmp : α → α → Ordering}

theorem of_transCmp [TransCmp cmp] : LawfulCmp cmp where
  refl _ := Std.ReflCmp.compare_self
  swap _ _ := OrientedCmp.eq_swap
  total a b := by
    rw [(OrientedCmp.eq_swap : cmp b a = (cmp a b).swap)]
    cases cmp a b <;> simp
  trans hab hbc := TransCmp.isLE_trans hab hbc

theorem reversed (h : LawfulCmp cmp) : LawfulCmp fun a b => (cmp a b).swap where
  refl a := by rw [h.refl, Ordering.swap_eq]
  swap a b := by rw [h.swap a b]
  total a b := by
    rw [← h.swap, ← h.swap]
    exact (h.total a b).symm
  trans {a b c} hab hbc := by
    rw [← h.swap] at hab hbc ⊢
    exact h.trans hbc hab

end LawfulCmp

/-! ## Ties -/

theorem Date.cmp_eq_iff {a b : Date} : a.cmp b = .eq ↔ a = b := by
  obtain ⟨year, month, day, _⟩ := a
  obtain ⟨year', month', day', _⟩ := b
  simp [Date.cmp, Ordering.then_eq_eq]

theorem Instant.cmp_eq_iff {a b : Instant} : a.cmp b = .eq ↔ a = b := by
  obtain ⟨date, second, nano, _, _, _⟩ := a
  obtain ⟨date', second', nano', _, _, _⟩ := b
  simp [Instant.cmp, Ordering.then_eq_eq, Date.cmp_eq_iff]

/-- The states are the same, or neither has a meaning of its own. -/
def OrderStatus.SamePlace (s t : OrderStatus) : Prop :=
  s = t ∨ ∃ text text', s = .other text ∧ t = .other text'

theorem OrderStatus.rank_eq_iff {s t : OrderStatus} : s.rank = t.rank ↔ s.SamePlace t := by
  cases s <;> cases t <;> simp [rank, SamePlace]

namespace SortKey

/-- Two orders agree in what a key sorts by. Numbers of one value agree, whatever their scales. -/
def Ties : SortKey → Order → Order → Prop
  | .symbol, a, b => a.symbol = b.symbol
  | .time, a, b => a.time = b.time
  | .price, a, b => a.price.value = b.price.value
  | .amount, a, b => a.amount.value = b.amount.value
  | .total, a, b => a.total.value = b.total.value
  | .status, a, b => a.status.SamePlace b.status

theorem cmp_eq_iff_ties (k : SortKey) (a b : Order) : k.cmp a b = .eq ↔ k.Ties a b := by
  cases k with
  | symbol => exact Std.compare_eq_iff_eq
  | time => exact Instant.cmp_eq_iff
  | price => exact Decimal.equiv_iff_cmp.symm
  | amount => exact Decimal.equiv_iff_cmp.symm
  | total => exact Decimal.equiv_iff_cmp.symm
  | status => exact Std.compare_eq_iff_eq.trans OrderStatus.rank_eq_iff

/-- **Sorting can rely on every key.** The comparison by a key is lawful, and so is the one that
sorts downwards; a sorting asks one of the two. Orders compare as equal just if they agree in what
the key sorts by. -/
theorem lawful_cmp (k : SortKey) :
    LawfulCmp k.cmp ∧ (LawfulCmp fun a b => (k.cmp a b).swap) ∧
      (∀ descending a b, Sorting.le ⟨k, descending⟩ a b =
        (if descending then (k.cmp a b).swap else k.cmp a b).isLE) ∧
      ∀ a b, k.cmp a b = .eq ↔ k.Ties a b := by
  have hlawful : LawfulCmp k.cmp := .of_transCmp
  refine ⟨hlawful, hlawful.reversed, ?_, k.cmp_eq_iff_ties⟩
  intro descending a b
  rw [Sorting.le, k.cmp_swap a b]
  cases descending <;> rfl

end SortKey

end MarketDesk
