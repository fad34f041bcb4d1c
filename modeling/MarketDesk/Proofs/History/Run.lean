import MarketDesk.History.Panel
import MarketDesk.Proofs.Machine

/-!
# Runs of the history panel

The panel handles requests in any order (`History.machine`); `History.Performs` says what one of
them can do. List, tab and sorting are what the last requests chose that choose one
(`History.orders_after`, `History.filter_after`, `History.sorting_after`); a request to cancel
chooses nothing.
-/

namespace MarketDesk.History

inductive Request where
  /-- Starts again with another tab. -/
  | withFilter (f : Filter)
  | announcing
  | update (orders : List Order)
  | setFilter (f : Filter)
  | sortBy (s : Sorting)
  | clearSort
  | cancel (id : String)

/-- What a request leads to: the panel afterwards, the answer to a request to cancel, and what is
published. -/
structure Turn where
  history : History
  answer : Option CancelOutcome
  events : List Event

def Step.turn (s : Step) : Turn := ⟨s.history, none, s.events⟩

/-- Handles a request. -/
def perform (h : History) : Request → Turn
  | .withFilter f => ⟨h.withFilter f, none, []⟩
  | .announcing => ⟨h.announcing, none, []⟩
  | .update orders => (h.update orders).turn
  | .setFilter f => (h.setFilter f).turn
  | .sortBy s => (h.sortBy s).turn
  | .clearSort => h.clearSort.turn
  | .cancel id => ⟨h, some (h.cancel id).1, (h.cancel id).2⟩

/-- The history panel. -/
def machine : Machine History Request Turn := ⟨perform, Turn.history⟩

namespace Request

/-- The list that is pushed. -/
def orders? : Request → Option (List Order)
  | .update orders => some orders
  | _ => none

/-- The tab that is chosen. -/
def filter? : Request → Option Filter
  | .withFilter f | .setFilter f => some f
  | _ => none

/-- The sorting that is chosen, which may be none. -/
def sorting? : Request → Option (Option Sorting)
  | .sortBy s => some (some s)
  | .clearSort => some none
  | _ => none

/-- The request is one to show the orders in another way. -/
def rearranges : Request → Bool
  | .update _ | .setFilter _ | .sortBy _ | .clearSort => true
  | _ => false

def isCancel : Request → Bool
  | .cancel _ => true
  | _ => false

/-- The request is for the tab that is open or for the order in which the list was pushed when it
is not sorted. -/
def Repeats (h : History) : Request → Prop
  | .setFilter f => h.filter = f
  | .clearSort => h.sorting = none
  | _ => False

end Request

/-- The panel with what a request chooses, but with the old rows. -/
def choosing (h : History) (r : Request) : History :=
  { h with
    orders := r.orders?.getD h.orders
    filter := r.filter?.getD h.filter
    sorting := r.sorting?.getD h.sorting }

/-- The rows are those of the present list, tab and sorting. -/
def Arranged (h : History) : Prop :=
  h.view = (arrange h.orders h.filter h.sorting).map Prod.snd

theorem arranged_arranged (h : History) : h.arranged.Arranged := rfl

variable {h : History}

theorem clearSort_eq (h : History) :
    h.clearSort = if h.sorting = none then ⟨h, []⟩ else changed { h with sorting := none } := by
  unfold clearSort
  split
  · rename_i hs
    rw [if_pos hs]
  · rename_i s hs
    rw [if_neg (by simp [hs])]

/-- **The steps of a panel.** The panel starts again with another tab or gets subscribers; it is
asked for what it shows already, or for something else, which it shows and tells; or it answers a
request to cancel. -/
inductive Performs (h : History) : Request → Turn → Prop
  | withFilter (f : Filter) : Performs h (.withFilter f) ⟨h.withFilter f, none, []⟩
  | announcing : Performs h .announcing ⟨h.announcing, none, []⟩
  | repeated {r : Request} : r.rearranges → r.Repeats h → Performs h r ⟨h, none, []⟩
  | changed {r : Request} : r.rearranges → ¬ r.Repeats h →
    Performs h r (changed (h.choosing r)).turn
  | cancel (id : String) : Performs h (.cancel id) ⟨h, some (h.cancel id).1, (h.cancel id).2⟩

/-- Every request of a list is one of these steps. -/
theorem performs (h : History) (r : Request) : Performs h r (h.perform r) := by
  cases r with
  | withFilter f => exact .withFilter f
  | announcing => exact .announcing
  | update orders => exact .changed rfl id
  | setFilter f =>
    by_cases hf : h.filter = f
    · rw [perform, setFilter, if_pos hf]
      exact .repeated rfl hf
    · rw [perform, setFilter, if_neg hf]
      exact .changed rfl hf
  | sortBy s => exact .changed rfl id
  | clearSort =>
    by_cases hs : h.sorting = none
    · rw [perform, clearSort_eq, if_pos hs]
      exact .repeated rfl hs
    · rw [perform, clearSort_eq, if_neg hs]
      exact .changed rfl hs
  | cancel id => exact .cancel id

theorem Request.Repeats.choosing_eq {r : Request} (hr : r.Repeats h) : h.choosing r = h := by
  cases r with
  | setFilter f =>
    obtain rfl : h.filter = f := hr
    rfl
  | clearSort =>
    have hs : none = h.sorting := Eq.symm hr
    rw [choosing, Request.sorting?, Option.getD_some, hs]
    rfl
  | _ => cases hr

/-- The panel computes its rows anew, unless the request leaves list, tab and sorting as they
are. -/
theorem perform_cases (h : History) (r : Request) :
    (h.choosing r = h ∧ ∃ announces, (h.perform r).history = { h with announces }) ∨
    (h.perform r).history = (h.choosing r).arranged := by
  have hstep := performs h r
  generalize h.perform r = t at hstep
  cases hstep with
  | withFilter f => exact .inr rfl
  | announcing => exact .inl ⟨rfl, true, rfl⟩
  | repeated _ hr => exact .inl ⟨hr.choosing_eq, h.announces, rfl⟩
  | changed => exact .inr rfl
  | cancel id => exact .inl ⟨rfl, h.announces, rfl⟩

theorem perform_arranged (hh : h.Arranged) (r : Request) : (h.perform r).history.Arranged := by
  rcases perform_cases h r with ⟨-, announces, heq⟩ | heq
  · rw [heq]
    exact hh
  · rw [heq]
    exact arranged_arranged _

theorem arranged_after (orders : List Order) (rs : List Request) :
    (machine.after (ofOrders orders) rs).Arranged :=
  Machine.after_keeps (I := Arranged) (fun r h => perform_arranged h r) (arranged_arranged _) rs

/-- What a request does not choose stays as it is. -/
theorem perform_choices (h : History) (r : Request) :
    (h.perform r).history.orders = r.orders?.getD h.orders ∧
      (h.perform r).history.filter = r.filter?.getD h.filter ∧
      (h.perform r).history.sorting = r.sorting?.getD h.sorting := by
  rcases perform_cases h r with ⟨hsame, announces, heq⟩ | heq
  · rw [heq]
    exact ⟨congrArg History.orders hsame.symm, congrArg History.filter hsame.symm,
      congrArg History.sorting hsame.symm⟩
  · rw [heq]
    exact ⟨rfl, rfl, rfl⟩

theorem orders_after (h : History) (rs : List Request) :
    (machine.after h rs).orders = (rs.filterMap Request.orders?).getLastD h.orders :=
  Machine.after_chosen (fun h r => (perform_choices h r).1) h rs

theorem filter_after (h : History) (rs : List Request) :
    (machine.after h rs).filter = (rs.filterMap Request.filter?).getLastD h.filter :=
  Machine.after_chosen (fun h r => (perform_choices h r).2.1) h rs

theorem sorting_after (h : History) (rs : List Request) :
    (machine.after h rs).sorting = (rs.filterMap Request.sorting?).getLastD h.sorting :=
  Machine.after_chosen (fun h r => (perform_choices h r).2.2) h rs

end MarketDesk.History
