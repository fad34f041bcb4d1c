import MarketDesk.Proofs.History.Rows

/-!
# The tabs of the history panel

The rows of a tab are those of the tab of all orders without the orders that belong elsewhere, and
they stand in the same order (`History.rows_onTab`). Nothing has to be known of the sorting for
this: the positions that are left over from all orders are a view that the tab asks for, and there
is only one such view. So the open orders and the others partition the list, and it does not matter
whether a user goes to a tab or sorts the rows first (`History.tabs_partition`).
-/

namespace MarketDesk.History

variable {orders : List Order} {sorting : Option Sorting} {view : List Nat} {h : History}

/-- The panel when its user goes to a tab. -/
def onTab (h : History) (f : Filter) : History := (h.setFilter f).history

/-- The panel when its user sorts the rows, or goes back to the order in which they were pushed. -/
def inOrder (h : History) : Option Sorting → History
  | some s => (h.sortBy s).history
  | none => h.clearSort.history

/-- The order at a position belongs to the tab. -/
def isAt (orders : List Order) (f : Filter) (i : Nat) : Bool := orders[i]?.any fun o => o.isIn f

/-! ## What is left of all orders -/

/-- The positions of a tab are those of its orders in the list of all, in the same order. -/
theorem Lists.filter_isAt (hl : Lists orders .all sorting view) (f : Filter) :
    Lists orders f sorting (view.filter (isAt orders f)) where
  mem_iff i := by
    rw [List.mem_filter, hl.mem_iff, isAt, Option.any_eq_true]
    constructor
    · rintro ⟨-, ho⟩
      exact ho
    · rintro ⟨o, ho, hin⟩
      exact ⟨⟨o, ho, rfl⟩, o, ho, hin⟩
  nodup := hl.nodup.filter _
  ordered := hl.ordered.filter _

/-- Picking positions by the orders that stand there is picking the orders. -/
theorem filterMap_filter_isAt (orders : List Order) (f : Filter) (view : List Nat) :
    (view.filter (isAt orders f)).filterMap (orders[·]?) =
      (view.filterMap (orders[·]?)).filter fun o => o.isIn f := by
  induction view with
  | nil => rfl
  | cons i view ih =>
    cases ho : orders[i]? with
    | none => simp [isAt, ho, ih]
    | some o =>
      cases hin : o.isIn f with
      | false => simp [isAt, ho, hin, ih]
      | true => simp [isAt, ho, hin, ih]

/-! ## Going to a tab -/

/-- Going to the tab that is open already is no exception, since its rows are there. -/
theorem Arranged.onTab_eq (hh : h.Arranged) (f : Filter) :
    h.onTab f = arranged { h with filter := f } := by
  rw [onTab, setFilter]
  split
  · rename_i hf
    rw [arranged, ← hf, ← hh]
  · rfl

/-- Another sorting arranges the same orders anew. -/
theorem Arranged.inOrder_eq (hh : h.Arranged) (sorting : Option Sorting) :
    h.inOrder sorting = arranged { h with sorting := sorting } := by
  cases sorting with
  | some s => rfl
  | none =>
    rw [inOrder, clearSort_eq]
    split
    · rename_i hs
      rw [arranged, ← hs, ← hh]
    · rfl

theorem Arranged.arranged_onTab (hh : h.Arranged) (f : Filter) : (h.onTab f).Arranged := by
  rw [hh.onTab_eq]
  exact arranged_arranged _

theorem Arranged.arranged_inOrder (hh : h.Arranged) (sorting : Option Sorting) :
    (h.inOrder sorting).Arranged := by
  rw [hh.inOrder_eq]
  exact arranged_arranged _

theorem Arranged.onTab_inOrder (hh : h.Arranged) (f : Filter) (sorting : Option Sorting) :
    (h.onTab f).inOrder sorting = (h.inOrder sorting).onTab f := by
  rw [(hh.arranged_onTab f).inOrder_eq, (hh.arranged_inOrder sorting).onTab_eq, hh.onTab_eq,
    hh.inOrder_eq]
  rfl

/-! ## Rows of tabs -/

theorem Arranged.lists_onTab (hh : h.Arranged) (f : Filter) :
    Lists h.orders f h.sorting (h.onTab f).view := by
  rw [hh.onTab_eq]
  exact lists_arrange ..

theorem Arranged.view_onTab (hh : h.Arranged) (f : Filter) :
    (h.onTab f).view = (h.onTab .all).view.filter (isAt h.orders f) :=
  (hh.lists_onTab f).unique ((hh.lists_onTab .all).filter_isAt f)

theorem Arranged.orders_onTab (hh : h.Arranged) (f : Filter) : (h.onTab f).orders = h.orders := by
  rw [hh.onTab_eq]
  rfl

theorem Arranged.rows_onTab (hh : h.Arranged) (f : Filter) :
    (h.onTab f).rows = (h.onTab .all).rows.filter fun o => o.isIn f := by
  rw [rows, rows, hh.orders_onTab, hh.orders_onTab, hh.view_onTab, filterMap_filter_isAt]

theorem Arranged.rows_eq (hh : h.Arranged) :
    h.rows = (arrange h.orders h.filter h.sorting).map Prod.fst := by
  rw [rows, hh, List.filterMap_map, ← List.filterMap_eq_map]
  refine List.filterMap_congr fun o ho => ?_
  exact (mem_arrange_iff.mp ho).1

theorem Arranged.rows_onTab_all_perm (hh : h.Arranged) : (h.onTab .all).rows.Perm h.orders := by
  have hperm := (arrange_perm h.orders .all h.sorting).map Prod.fst
  have hall : (h.orders.zipIdx.filter fun o => o.1.isIn .all) = h.orders.zipIdx :=
    List.filter_eq_self.mpr fun _ _ => rfl
  rw [hall, List.zipIdx_map_fst] at hperm
  rw [(hh.arranged_onTab .all).rows_eq, hh.onTab_eq]
  exact hperm

theorem Arranged.length_rows (hh : h.Arranged) : h.rows.length = h.rowCount :=
  hh.shows.rowCount.symm

/-- **Tabs that partition a list**: the open orders and the other ones, each as they stand among all
orders. -/
structure TabsPartition (h : History) : Prop where
  sorting : ∀ f, (h.onTab f).sorting = h.sorting
  all : (h.onTab .all).rows.Perm h.orders
  openOrders : (h.onTab .openOrders).rows = (h.onTab .all).rows.filter Order.isCancelable
  orderHistory : (h.onTab .orderHistory).rows = (h.onTab .all).rows.filter (!·.isCancelable)
  view : ∀ f, (h.onTab f).view = (h.onTab .all).view.filter (isAt h.orders f)
  disjoint : (h.onTab .openOrders).view.Disjoint (h.onTab .orderHistory).view
  rowCount : (h.onTab .openOrders).rowCount + (h.onTab .orderHistory).rowCount =
    (h.onTab .all).rowCount
  onTab_inOrder : ∀ f sorting, (h.onTab f).inOrder sorting = (h.inOrder sorting).onTab f

theorem Arranged.disjoint_onTab (hh : h.Arranged) :
    (h.onTab .openOrders).view.Disjoint (h.onTab .orderHistory).view := by
  intro i hopen hpast
  obtain ⟨o, ho, hin⟩ := ((hh.lists_onTab .openOrders).mem_iff i).mp hopen
  obtain ⟨o', ho', hnot⟩ := ((hh.lists_onTab .orderHistory).mem_iff i).mp hpast
  obtain rfl := Option.some.inj (ho.symm.trans ho')
  simp only [Order.isIn, Bool.not_eq_true'] at hin hnot
  exact Bool.false_ne_true (hnot.symm.trans hin)

/-- **The tabs partition the list.** Whatever a panel has been asked and however it is sorted, the
open orders and the others, each from the tab of all orders and in the order they have there, make
up the list; and a panel that goes to a tab and is sorted is the panel that is sorted and goes to
the tab. -/
theorem tabs_partition (orders : List Order) (rs : List Request) :
    TabsPartition (machine.after (ofOrders orders) rs) := by
  have hh := arranged_after orders rs
  generalize machine.after (ofOrders orders) rs = h at hh
  refine ⟨fun f => ?_, hh.rows_onTab_all_perm, hh.rows_onTab .openOrders,
    hh.rows_onTab .orderHistory, hh.view_onTab, hh.disjoint_onTab, ?_, hh.onTab_inOrder⟩
  · rw [hh.onTab_eq]
    rfl
  · have hlength := List.length_eq_length_filter_add (l := (h.onTab .all).rows) Order.isCancelable
    rw [← (hh.arranged_onTab _).length_rows, ← (hh.arranged_onTab _).length_rows,
      ← (hh.arranged_onTab _).length_rows, hh.rows_onTab .openOrders, hh.rows_onTab .orderHistory]
    exact hlength.symm

end MarketDesk.History
