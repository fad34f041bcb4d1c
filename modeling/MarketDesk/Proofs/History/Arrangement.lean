import Mathlib.Data.List.Nodup
import MarketDesk.Proofs.History.KeyOrder

/-!
# The rows of a list of orders

`History.Lists` says which positions of a list a panel shows, and in which order, without saying how
they are found. `History.arrange` finds them (`History.lists_arrange`), and no other view has the
property (`History.Lists.unique`).
-/

namespace MarketDesk

/-- Elements that a sorting need not tell apart are left in their order. -/
theorem filter_mergeSort_of_ties {α : Type} {le : α → α → Bool}
    (htrans : ∀ a b c, le a b = true → le b c = true → le a c = true)
    (htotal : ∀ a b, (le a b || le b a) = true) {p : α → Bool}
    (hties : ∀ a b, p a = true → p b = true → le a b = true) (l : List α) :
    (l.mergeSort le).filter p = l.filter p := by
  have hsorted : (l.filter p).Pairwise fun a b => le a b = true :=
    List.pairwise_of_forall_mem_list fun a ha b hb =>
      hties a b (List.of_mem_filter ha) (List.of_mem_filter hb)
  have hsub := (List.sublist_mergeSort htrans htotal hsorted List.filter_sublist).filter p
  rw [List.filter_filter] at hsub
  simp only [Bool.and_self] at hsub
  exact (hsub.eq_of_length ((List.mergeSort_perm l le).filter p).length_eq.symm).symm

namespace History

variable {orders : List Order} {filter : Filter} {sorting : Option Sorting} {view view' : List Nat}

/-- The order at position `i` of the list stands above the one at position `j`: as they were pushed,
or as the sorting permits and, where the key does not tell them apart, as they were pushed. -/
def Precedes (orders : List Order) (sorting : Option Sorting) (i j : Nat) : Prop :=
  match sorting with
  | none => i < j
  | some s => ∀ a b, orders[i]? = some a → orders[j]? = some b →
    s.Permits a b ∧ (s.key.cmp a b = .eq → i < j)

/-- **The rows that are asked for**, as positions in the list: those of the orders in the tab, each
once, in the order of the sorting. -/
structure Lists (orders : List Order) (filter : Filter) (sorting : Option Sorting)
    (view : List Nat) : Prop where
  mem_iff : ∀ i, i ∈ view ↔ ∃ o, orders[i]? = some o ∧ o.isIn filter
  nodup : view.Nodup
  ordered : view.Pairwise (Precedes orders sorting)

/-- What is asked for is one view. -/
theorem Lists.unique (h : Lists orders filter sorting view)
    (h' : Lists orders filter sorting view') : view = view' := by
  have hperm : view.Perm view' :=
    (List.perm_ext_iff_of_nodup h.nodup h'.nodup).mpr fun i => by rw [h.mem_iff, h'.mem_iff]
  refine hperm.eq_of_pairwise (fun i j hi hj hij hji => ?_) h.ordered h'.ordered
  cases sorting with
  | none => exact absurd hji (Nat.lt_asymm hij)
  | some s =>
    obtain ⟨a, ha, -⟩ := (h.mem_iff i).mp hi
    obtain ⟨b, hb, -⟩ := (h'.mem_iff j).mp hj
    obtain ⟨hab, hlt⟩ := hij a b ha hb
    obtain ⟨hba, hgt⟩ := hji b a hb ha
    have heq := Sorting.eq_of_permits hab hba
    exact absurd (hgt (Sorting.eq_of_permits hba hab)) (Nat.lt_asymm (hlt heq))

/-- The orders in a tab with their positions, as they were pushed. -/
theorem pairwise_filter_zipIdx (orders : List Order) (p : Placed → Bool) :
    (orders.zipIdx.filter p).Pairwise fun a b => a.2 < b.2 := by
  refine List.Pairwise.filter p ?_
  rw [← List.pairwise_map (f := Prod.snd), List.zipIdx_map_snd]
  exact List.pairwise_lt_range'

theorem arrange_perm (orders : List Order) (filter : Filter) (sorting : Option Sorting) :
    (arrange orders filter sorting).Perm (orders.zipIdx.filter fun o => o.1.isIn filter) := by
  cases sorting with
  | none => exact .refl _
  | some s => exact List.mergeSort_perm ..

theorem mem_arrange_iff {o : Placed} :
    o ∈ arrange orders filter sorting ↔ orders[o.2]? = some o.1 ∧ o.1.isIn filter := by
  rw [(arrange_perm orders filter sorting).mem_iff, List.mem_filter, List.mem_zipIdx_iff_getElem?]

/-- A sorted view is in the order of its key, and orders with the same key stay in the order in
which they came, also when the view is sorted downwards. -/
theorem pairwise_arrange_some (orders : List Order) (filter : Filter) (s : Sorting) :
    (arrange orders filter (some s)).Pairwise fun a b =>
      s.Permits a.1 b.1 ∧ (s.key.cmp a.1 b.1 = .eq → a.2 < b.2) := by
  have htrans (a b c : Placed) := s.le_trans a.1 b.1 c.1
  have htotal (a b : Placed) := s.le_total a.1 b.1
  have hsorted := List.pairwise_mergeSort htrans htotal
    (orders.zipIdx.filter fun o => o.1.isIn filter)
  rw [List.pairwise_iff_forall_sublist] at hsorted ⊢
  intro a b hab
  refine ⟨Sorting.le_iff_permits.mp (hsorted hab), fun heq => ?_⟩
  -- Both are among the elements that tie with the first one; sorting does not move those.
  let ties (o : Placed) : Bool := s.key.cmp a.1 o.1 == .eq
  have hties (x y : Placed) (hx : ties x = true) (hy : ties y = true) : s.le x.1 y.1 = true := by
    have hxy : s.key.cmp x.1 y.1 = s.key.cmp a.1 y.1 :=
      (Std.TransCmp.congr_left (eq_of_beq hx)).symm
    exact Sorting.le_iff_permits.mpr (Sorting.permits_of_eq (hxy.trans (eq_of_beq hy)))
  have hkept : [a, b].filter ties = [a, b] := by
    have haa : s.key.cmp a.1 a.1 = .eq := Std.ReflCmp.compare_self
    simp [ties, haa, heq]
  have hsub := hab.filter ties
  rw [hkept, arrange, filter_mergeSort_of_ties htrans htotal hties] at hsub
  exact List.pairwise_iff_forall_sublist.mp (pairwise_filter_zipIdx orders _)
    (hsub.trans List.filter_sublist)

/-- **The panel shows what is asked for.** -/
theorem lists_arrange (orders : List Order) (filter : Filter) (sorting : Option Sorting) :
    Lists orders filter sorting ((arrange orders filter sorting).map Prod.snd) where
  mem_iff i := by
    simp [mem_arrange_iff]
  nodup := by
    refine ((arrange_perm orders filter sorting).map Prod.snd).nodup_iff.mpr ?_
    exact (List.pairwise_map.mpr (pairwise_filter_zipIdx orders _)).nodup
  ordered := by
    rw [List.pairwise_map]
    cases sorting with
    | none => exact pairwise_filter_zipIdx orders _
    | some s =>
      refine (pairwise_arrange_some orders filter s).imp_of_mem ?_
      intro a b ha hb h a' b' ha' hb'
      obtain rfl := Option.some.inj ((mem_arrange_iff.mp ha).1.symm.trans ha')
      obtain rfl := Option.some.inj ((mem_arrange_iff.mp hb).1.symm.trans hb')
      exact h

end History

end MarketDesk
