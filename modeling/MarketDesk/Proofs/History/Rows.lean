import MarketDesk.Proofs.History.Arrangement
import MarketDesk.Proofs.History.Run

/-!
# What the history panel shows

After any requests the rows are those that the last list, tab and sorting ask for
(`History.Shows`), so that they do not depend on how the panel came to them
(`History.shows_of_run`).
-/

namespace MarketDesk.History

variable {orders : List Order} {filter : Filter} {sorting : Option Sorting} {view : List Nat}
  {h h' : History}

/-- **A panel that shows what is asked for.** The rows are the orders at the listed positions; a row
number is answered just if there is such a row. -/
structure Shows (orders : List Order) (filter : Filter) (sorting : Option Sorting)
    (h : History) : Prop where
  orders_eq : h.orders = orders
  filter_eq : h.filter = filter
  sorting_eq : h.sorting = sorting
  lists : Lists orders filter sorting h.view
  rows : h.rows.map some = h.view.map fun i => orders[i]?
  rowCount : h.rowCount = h.rows.length
  rowAt_done : ∀ i o, h.rows[i]? = some o → h.rowAt i = .done o
  rowAt_refused : ∀ i, h.rowCount ≤ i → h.rowAt i = .refused (.rowOutOfRange i h.rowCount)

/-- A listed position is a position of the list. -/
theorem Lists.getElem?_isSome (hl : Lists orders filter sorting view) {i : Nat} (hi : i ∈ view) :
    (orders[i]?).isSome := by
  obtain ⟨o, ho, -⟩ := (hl.mem_iff i).mp hi
  rw [ho, Option.isSome_some]

/-- All that is shown of an arranged list follows from its orders, its tab and its sorting. -/
theorem Arranged.shows (hh : h.Arranged) : Shows h.orders h.filter h.sorting h := by
  have hlists : Lists h.orders h.filter h.sorting h.view := by
    rw [hh]
    exact lists_arrange ..
  have hrows : h.rows.map some = h.view.map fun i => h.orders[i]? := by
    rw [rows, List.map_filterMap_some_eq_filter_map_isSome, List.filter_eq_self]
    rintro _ ho
    obtain ⟨i, hi, rfl⟩ := List.mem_map.mp ho
    exact hlists.getElem?_isSome hi
  have hlength : h.rowCount = h.rows.length := by
    have hlen := congrArg List.length hrows
    rw [List.length_map, List.length_map] at hlen
    exact hlen.symm
  have hrow (i : Nat) : h.rows[i]? = h.view[i]?.bind fun j => h.orders[j]? := by
    have hi := congrArg (fun l => (l[i]?).bind id) hrows
    simpa [Option.bind_map, Function.comp_def] using hi
  refine ⟨rfl, rfl, rfl, hlists, hrows, hlength, fun i o ho => ?_, fun i hi => ?_⟩
  · rw [rowAt, ← hrow, ho]
  · rw [rowAt, ← hrow, List.getElem?_eq_none (hlength ▸ hi)]

/-- Two panels that show the same thing show it in the same way. -/
theorem Shows.unique (hh : Shows orders filter sorting h) (hh' : Shows orders filter sorting h') :
    h'.view = h.view ∧ h'.rows = h.rows ∧ ∀ i, h'.rowAt i = h.rowAt i := by
  have hview : h'.view = h.view := hh'.lists.unique hh.lists
  have horders : h'.orders = h.orders := hh'.orders_eq.trans hh.orders_eq.symm
  refine ⟨hview, ?_, fun i => ?_⟩
  · rw [History.rows, hview, horders, ← History.rows]
  · rw [rowAt, History.rowCount, hview, horders, ← History.rowCount, ← rowAt]

/-- **Rows do not depend on the way.** After any requests a panel shows what the last list that was
pushed, the last tab and the last sorting ask for. Two panels that ended with the same list, tab and
sorting show the same rows, whatever each was asked before. -/
theorem shows_of_run (orders : List Order) (rs : List Request) :
    Shows ((rs.filterMap Request.orders?).getLastD orders)
      ((rs.filterMap Request.filter?).getLastD .all)
      ((rs.filterMap Request.sorting?).getLastD none) (machine.after (ofOrders orders) rs) ∧
    ∀ orders' rs' h h', machine.after (ofOrders orders) rs = h →
      machine.after (ofOrders orders') rs' = h' →
      h'.orders = h.orders → h'.filter = h.filter → h'.sorting = h.sorting →
      h'.view = h.view ∧ h'.rows = h.rows ∧ ∀ i, h'.rowAt i = h.rowAt i := by
  refine ⟨?_, ?_⟩
  · have hshows := (arranged_after orders rs).shows
    rwa [orders_after, filter_after, sorting_after] at hshows
  · rintro orders' rs' h h' rfl rfl horders hfilter hsorting
    have hshows' := (arranged_after orders' rs').shows
    rw [horders, hfilter, hsorting] at hshows'
    exact (arranged_after orders rs).shows.unique hshows'

/-- One panel is sorted downwards before it gets the list; the other has the list, is sorted by
another key and unsorted again in another tab, and comes to the same choices last. -/
theorem shows_of_run_either_way :
    ∃ o o' : Order, o.price = .one ∧ o'.price = .two ∧
      (machine.after (ofOrders []) [.sortBy ⟨.price, true⟩, .update [o, o', o]]).rows =
        (machine.after (ofOrders [o, o', o])
          [.setFilter .openOrders, .sortBy ⟨.symbol, false⟩, .clearSort, .cancel "1",
            .setFilter .all, .sortBy ⟨.price, true⟩]).rows := by
  let time : Instant := { date := { year := 2024, month := 1, day := 1 }, second := 0, nano := 0 }
  let o : Order := ⟨"1", "BTC/USDT", time, .limit, .buy, .one, .one, .zero, .one, .live⟩
  refine ⟨o, { o with id := "2", price := .two, status := .filled }, rfl, rfl, ?_⟩
  exact ((shows_of_run _ _).2 _ _ _ _ rfl rfl rfl rfl rfl).2.1

end MarketDesk.History
