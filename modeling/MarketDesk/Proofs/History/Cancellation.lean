import Mathlib.Data.List.Nodup
import MarketDesk.Demo
import MarketDesk.History.Cells
import MarketDesk.Proofs.History.Announcement

/-!
# Requests to cancel

A request to cancel names an order by its identifier. The answer is that of the first order in the
latest list that has it (`History.Answers`), whichever tab is open and however the rows are sorted.
The signals to the order manager are the requests that are granted (`History.signals_of_run`). A row
is answered for itself unless an order with another state stands before it under the same identifier
(`History.cancel_of_mem_rows`).
-/

namespace MarketDesk

theorem OrderStatus.isCancelable_iff {s : OrderStatus} :
    s.isCancelable ↔ s = .live ∨ s = .partlyFilled := by
  cases s <;> simp [isCancelable]

namespace History

variable {h : History} {orders : List Order} {id : String} {o first : Order} {r : Request}
  {rs : List Request} {t : Turn} {answer : CancelOutcome}

/-- The first order of a list that has the identifier. -/
def FirstWith (orders : List Order) (id : String) (o : Order) : Prop :=
  ∃ front back, orders = front ++ o :: back ∧ o.id = id ∧ ∀ o' ∈ front, o'.id ≠ id

theorem FirstWith.mem (hfirst : FirstWith orders id first) : first ∈ orders := by
  obtain ⟨front, back, rfl, -, -⟩ := hfirst
  exact List.mem_append_right _ List.mem_cons_self

theorem FirstWith.id_eq (hfirst : FirstWith orders id first) : first.id = id := by
  obtain ⟨-, -, -, hid, -⟩ := hfirst
  exact hid

theorem find?_eq_some_iff : h.find? id = some o ↔ FirstWith h.orders id o := by
  rw [find?, List.find?_eq_some_iff_append, FirstWith]
  constructor
  · rintro ⟨hid, front, back, horders, hfront⟩
    refine ⟨front, back, horders, eq_of_beq hid, fun o' ho' => ?_⟩
    simpa using hfront o' ho'
  · rintro ⟨front, back, horders, hid, hfront⟩
    refine ⟨beq_iff_eq.mpr hid, front, back, horders, fun o' ho' => ?_⟩
    simpa using hfront o' ho'

theorem find?_eq_none_iff : h.find? id = none ↔ ∀ o ∈ h.orders, o.id ≠ id := by
  simp only [find?, List.find?_eq_none, beq_iff_eq, ne_eq]

/-- **The answer to a request to cancel**: it is granted if the first order with the identifier
waits for more, and refused with the state of that order if it does not; without such an order it
comes too late. -/
inductive Answers (orders : List Order) (id : String) : CancelOutcome → Prop
  | requested {o : Order} : FirstWith orders id o → o.status = .live ∨ o.status = .partlyFilled →
    Answers orders id (.requested id)
  | stale : (∀ o ∈ orders, o.id ≠ id) → Answers orders id .stale
  | notCancelable {o : Order} : FirstWith orders id o → o.status ≠ .live →
    o.status ≠ .partlyFilled → Answers orders id (.notCancelable o.status)

theorem cancelOutcome_of_firstWith (hfirst : FirstWith h.orders id first) :
    h.cancelOutcome id =
      if first.isCancelable then .requested id else .notCancelable first.status := by
  rw [cancelOutcome, find?_eq_some_iff.mpr hfirst]

theorem cancelOutcome_of_forall_ne (hnone : ∀ o ∈ h.orders, o.id ≠ id) :
    h.cancelOutcome id = .stale := by
  rw [cancelOutcome, find?_eq_none_iff.mpr hnone]

/-- A request to cancel is answered by the first order with the identifier and by nothing else. -/
theorem cancelOutcome_eq_iff : h.cancelOutcome id = answer ↔ Answers h.orders id answer := by
  constructor
  · rintro rfl
    cases hfind : h.find? id with
    | none =>
      have hnone := find?_eq_none_iff.mp hfind
      rw [cancelOutcome_of_forall_ne hnone]
      exact .stale hnone
    | some o =>
      have hfirst := find?_eq_some_iff.mp hfind
      rw [cancelOutcome_of_firstWith hfirst]
      split
      · rename_i hopen
        exact .requested hfirst (OrderStatus.isCancelable_iff.mp hopen)
      · rename_i hover
        obtain ⟨hlive, hpartly⟩ := not_or.mp (mt OrderStatus.isCancelable_iff.mpr hover)
        exact .notCancelable hfirst hlive hpartly
  · intro hanswer
    cases hanswer with
    | requested hfirst hopen =>
      rw [cancelOutcome_of_firstWith hfirst]
      exact if_pos (OrderStatus.isCancelable_iff.mpr hopen)
    | stale hnone => exact cancelOutcome_of_forall_ne hnone
    | notCancelable hfirst hlive hpartly =>
      rw [cancelOutcome_of_firstWith hfirst]
      exact if_neg (mt OrderStatus.isCancelable_iff.mp (not_or.mpr ⟨hlive, hpartly⟩))

/-- An order as a request to cancel it should be answered: it is granted and signalled if the order
can be cancelled, and the answer is the state of the order otherwise. -/
def AnsweredForItself (h : History) (o : Order) : Prop :=
  h.cancel o.id =
    if o.isCancelable then
      (.requested o.id,
        if h.announces then [⟨.cancelRequested o.id, "trade_history", .high⟩] else [])
    else (.notCancelable o.status, [])

instance (h : History) (o : Order) : Decidable (AnsweredForItself h o) :=
  inferInstanceAs (Decidable (_ = _))

theorem FirstWith.answeredForItself (hfirst : FirstWith h.orders id first) :
    AnsweredForItself h first := by
  obtain rfl : first.id = id := hfirst.id_eq
  rw [AnsweredForItself, cancel, cancelOutcome_of_firstWith hfirst]
  cases first.isCancelable with
  | false => simp [CancelOutcome.isRequested]
  | true => simp [CancelOutcome.isRequested, cancelEvent, Event.of, Notice.isCancel]

/-! ## Rows -/

theorem mem_orders_of_mem_rows (ho : o ∈ h.rows) : o ∈ h.orders := by
  obtain ⟨i, -, hi⟩ := List.mem_filterMap.mp ho
  exact List.mem_of_getElem? hi

theorem exists_firstWith (ho : o ∈ h.orders) : ∃ first, FirstWith h.orders o.id first := by
  cases hfind : h.find? o.id with
  | none => exact absurd rfl (find?_eq_none_iff.mp hfind o ho)
  | some first => exact ⟨first, find?_eq_some_iff.mp hfind⟩

theorem FirstWith.eq_of_nodup (hfirst : FirstWith orders o.id first) (ho : o ∈ orders)
    (hids : (orders.map Order.id).Nodup) : first = o :=
  List.inj_on_of_nodup_map hids hfirst.mem ho hfirst.id_eq

/-- An order is answered for itself if the first order with its identifier would be answered alike.
-/
theorem answeredForItself_iff (hfirst : FirstWith h.orders o.id first) :
    AnsweredForItself h o ↔ (o.isCancelable → first.isCancelable) ∧
      (¬ o.isCancelable → first.status = o.status) := by
  have hanswer := hfirst.answeredForItself
  rw [AnsweredForItself, hfirst.id_eq] at hanswer
  rw [AnsweredForItself, hanswer]
  by_cases hopen : o.isCancelable
  · by_cases hopen' : first.isCancelable
    · simp [hopen, hopen']
    · simp [hopen, hopen']
  · by_cases hopen' : first.isCancelable
    · -- A granted request is no answer for an order that is over.
      have hne : first.status ≠ o.status := fun heq => hopen ((congrArg _ heq).symm.trans hopen')
      simp [hopen, hopen', hne]
    · simp [hopen, hopen']

theorem cell?_action_eq_cancel_iff (settings : HistorySettings) (o : Order) :
    o.cell? settings .action = some "Cancel" ↔ o.isCancelable := by
  cases h : o.isCancelable <;> simp [Order.cell?, h]

/-- **Rows that offer to cancel.** The answer to a row's request is that of the first order in the
latest list with its identifier. A row that offers to cancel is granted it just if that order can be
cancelled, and another row is answered with its own state just if that order is in the same state.
If no two orders of the list share an identifier, every row is answered for itself. -/
theorem cancel_of_mem_rows (orders : List Order) (rs : List Request)
    (hh : machine.after (ofOrders orders) rs = h) (ho : o ∈ h.rows) :
    (∀ settings, o.cell? settings .action = some "Cancel" ↔ o.isCancelable) ∧
    ∃ first, FirstWith ((rs.filterMap Request.orders?).getLastD orders) o.id first ∧
      AnsweredForItself h first ∧
      (AnsweredForItself h o ↔ (o.isCancelable → first.isCancelable) ∧
        (¬ o.isCancelable → first.status = o.status)) ∧
      ((((rs.filterMap Request.orders?).getLastD orders).map Order.id).Nodup → first = o) := by
  have hlist : (rs.filterMap Request.orders?).getLastD orders = h.orders := by
    rw [← hh, orders_after]
    rfl
  have hmem := mem_orders_of_mem_rows ho
  obtain ⟨first, hfirst⟩ := exists_firstWith hmem
  rw [hlist]
  exact ⟨fun settings => cell?_action_eq_cancel_iff settings o, first, hfirst,
    hfirst.answeredForItself, answeredForItself_iff hfirst, hfirst.eq_of_nodup hmem⟩

/-- The tab of past orders in a list with an identifier for each order. -/
theorem cancel_of_mem_rows_past :
    ∃ orders h o, machine.after (ofOrders orders) [.setFilter .orderHistory] = h ∧ o ∈ h.rows ∧
      o.status = .filled ∧ AnsweredForItself h o := by
  let o : Order := { Demo.order 0 with id := "2", status := .filled }
  let orders : List Order := [{ Demo.order 0 with id := "1" }, o]
  have hmem : o ∈ (machine.after (ofOrders orders) [.setFilter .orderHistory]).rows := by
    decide +kernel
  obtain ⟨-, first, -, hanswered, -, hfirst⟩ := cancel_of_mem_rows orders _ rfl hmem
  obtain rfl := hfirst (by decide +kernel)
  exact ⟨orders, _, _, rfl, hmem, rfl, hanswered⟩

/-- Two orders with one identifier, the first of which has come to an end: the tab of open orders
shows the second one, which offers to be cancelled and cannot be. -/
theorem not_answeredForItself_of_repeated_id :
    ∃ orders h o, machine.after (ofOrders orders) [.withFilter .openOrders, .announcing] = h ∧
      h.rows = [o] ∧ o.isCancelable ∧ h.cancel o.id = (.notCancelable .filled, []) ∧
      ¬ AnsweredForItself h o := by
  let o : Order := { Demo.order 0 with id := "1" }
  let orders : List Order := [{ o with status := .filled }, o]
  refine ⟨orders, _, o, rfl, ?_⟩
  decide +kernel

/-! ## Signals -/

/-- The identifier in a request to cancel that is granted. -/
def granted? : Request × Turn → Option String
  | (.cancel id, t) => if t.answer = some (.requested id) then some id else none
  | _ => none

theorem granted?_of_rearranges (hr : r.rearranges) : granted? (r, t) = none := by
  cases r with
  | cancel id => cases hr
  | _ => rfl

/-- An answer that grants a request names the order that was asked for. -/
theorem isRequested_cancelOutcome (h : History) (id : String) :
    (h.cancelOutcome id).isRequested = decide (h.cancelOutcome id = .requested id) := by
  have hanswer : Answers h.orders id (h.cancelOutcome id) := cancelOutcome_eq_iff.mp rfl
  generalize h.cancelOutcome id = answer at hanswer ⊢
  cases hanswer with
  | requested => simp [CancelOutcome.isRequested]
  | stale => rfl
  | notCancelable => rfl

/-- A turn signals the order manager just if it grants a request. -/
theorem Performs.signals (ht : Performs h r t) (hh : h.announces) :
    t.events.filter (fun e => e.notice.isCancel) =
      ((granted? (r, t)).map fun id => ⟨.cancelRequested id, "trade_history", .high⟩).toList := by
  cases ht with
  | withFilter => rfl
  | announcing => rfl
  | repeated hr =>
    rw [granted?_of_rearranges hr]
    rfl
  | changed hr =>
    rw [granted?_of_rearranges hr, changed_events (h := h.choosing r) hh]
    rfl
  | cancel id =>
    simp only [History.cancel, granted?, hh, isRequested_cancelOutcome, Bool.true_and,
      Option.some.injEq]
    by_cases hanswer : h.cancelOutcome id = .requested id
    · simp [hanswer, cancelEvent, Event.of, Notice.isCancel]
    · simp [hanswer]

/-- **Signals are granted requests.** While a panel with subscribers handles requests, the signals
to the order manager are the granted requests to cancel, one for each, in order. At any moment the
answer to a request to cancel is that of the first order in the latest list with the identifier; the
request changes nothing, and it is answered in the same way until another list is pushed. -/
theorem signals_of_run (orders : List Order) (rs₀ rs : List Request)
    (hh : machine.after (ofOrders orders) rs₀ = h) (hannounces : h.announces) :
    ((machine.trace h rs).flatMap Turn.events).filter (fun e => e.notice.isCancel) =
      ((machine.turns h rs).filterMap granted?).map
        (fun id => ⟨.cancelRequested id, "trade_history", .high⟩) ∧
    ∀ front id back, rs = front ++ .cancel id :: back → ∀ now, machine.after h front = now →
      (∀ answer, (now.perform (.cancel id)).answer = some answer ↔
        Answers (((rs₀ ++ front).filterMap Request.orders?).getLastD orders) id answer) ∧
      (now.perform (.cancel id)).history = now ∧
      ∀ later, (∀ r ∈ later, r.orders? = none) →
        ((machine.after now later).perform (.cancel id)).answer =
          (now.perform (.cancel id)).answer := by
  have hkeep {h : History} (r : Request) (hh : h.announces) : (h.perform r).history.announces :=
    (performs h r).announces hh
  refine ⟨?_, ?_⟩
  · rw [List.filter_flatMap, List.map_filterMap]
    exact Machine.flatMap_trace (I := fun h : History => h.announces = true) hkeep
      (fun r hh => (performs _ r).signals hh) hannounces rs
  · -- Only the list decides, and tabs and sortings leave it alone.
    rintro front id back - now hnow
    have hlist : ((rs₀ ++ front).filterMap Request.orders?).getLastD orders = now.orders := by
      rw [← hnow, ← hh, ← Machine.after_append, orders_after]
      rfl
    refine ⟨fun answer => ?_, rfl, fun later hlater => ?_⟩
    · rw [hlist, ← cancelOutcome_eq_iff]
      exact Option.some_inj
    · have hsame : (machine.after now later).orders = now.orders := by
        rw [orders_after, List.filterMap_eq_nil_iff.mpr hlater]
        rfl
      change some ((machine.after now later).cancelOutcome id) = some (now.cancelOutcome id)
      rw [cancelOutcome, cancelOutcome, find?, find?, hsame]

/-- An order that the open tab hides is asked to be cancelled, before and after a sorting; one that
has come to an end and one that is not there are asked in between. -/
theorem signals_of_run_hidden :
    ∃ h rs now, machine.after h [.cancel "1"] = now ∧
      ((machine.trace h rs).flatMap Turn.events).filter (fun e => e.notice.isCancel) =
        [⟨.cancelRequested "1", "trade_history", .high⟩,
          ⟨.cancelRequested "1", "trade_history", .high⟩] ∧
      (now.perform (.cancel "2")).answer = some (.notCancelable .filled) := by
  let done : Order := { Demo.order 0 with id := "2", status := .filled }
  let orders : List Order := [{ Demo.order 0 with id := "1" }, done]
  let rs : List Request := [.cancel "1", .cancel "2", .cancel "3", .sortBy ⟨.price, true⟩,
    .cancel "1"]
  obtain ⟨hsignals, hanswers⟩ := signals_of_run orders [.announcing, .setFilter .orderHistory] rs
    rfl rfl
  obtain ⟨hanswer, -, -⟩ := hanswers [.cancel "1"] "2" _ rfl _ rfl
  have hgranted : (machine.turns (machine.after (ofOrders orders)
      [.announcing, .setFilter .orderHistory]) rs).filterMap granted? = ["1", "1"] := by
    decide +kernel
  have hfirst : FirstWith orders "2" done := ⟨orders.take 1, [], rfl, rfl, by decide +kernel⟩
  rw [hgranted] at hsignals
  exact ⟨_, rs, _, rfl, hsignals,
    (hanswer _).mpr (.notCancelable hfirst (by decide) (by decide))⟩

end History

end MarketDesk
