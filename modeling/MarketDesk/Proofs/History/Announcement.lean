import MarketDesk.Demo
import MarketDesk.Proofs.History.Run

/-!
# What the history panel announces

A panel with subscribers tells each change of what it shows, with the count of the new rows; a
request that it does not tell has changed nothing (`History.told_unless_repeated`). So the count
that was told last is the present one.
-/

namespace MarketDesk

/-- The count of rows of a history panel, if that is what the event tells. -/
def Event.historyRows? (e : Event) : Option Nat :=
  match e.notice with
  | .historyChanged rowCount => some rowCount
  | _ => none

namespace History

/-- The counts of rows that are told in a turn. -/
def Turn.toldRows (t : Turn) : List Nat := t.events.filterMap Event.historyRows?

/-- The counts of rows that are told while a panel handles requests. -/
def toldRows (h : History) (rs : List Request) : List Nat :=
  ((machine.trace h rs).flatMap Turn.events).filterMap Event.historyRows?

variable {h : History} {r : Request} {t : Turn}

theorem changed_events (hh : h.announces) : (changed h).turn.events =
    [⟨.historyChanged (changed h).history.rowCount, "trade_history", .normal⟩] :=
  if_pos hh

theorem historyRows?_of_mem_cancel (h : History) (id : String) :
    ∀ e ∈ (h.cancel id).2, e.historyRows? = none := by
  intro e he
  rw [cancel] at he
  split at he
  · obtain rfl := List.mem_singleton.mp he
    rfl
  · cases he

namespace Performs

theorem announces (ht : Performs h r t) (hh : h.announces) : t.history.announces := by
  cases ht with
  | announcing => rfl
  | _ => exact hh

/-- A turn tells the count of the rows that are shown after it, or it tells nothing of rows; then a
panel in use is as it was. -/
theorem tells (ht : Performs h r t) (hh : h.announces) :
    t.toldRows = [t.history.rowCount] ∨
      t.toldRows = [] ∧ (r.rearranges ∨ r.isCancel → t.history = h) := by
  cases ht with
  | withFilter f => exact .inr ⟨rfl, nofun⟩
  | announcing => exact .inr ⟨rfl, nofun⟩
  | repeated => exact .inr ⟨rfl, fun _ => rfl⟩
  | changed =>
    have hh' : (h.choosing r).announces := hh
    refine .inl ?_
    rw [Turn.toldRows, changed_events hh']
    rfl
  | cancel id =>
    exact .inr ⟨List.filterMap_eq_nil_iff.mpr (historyRows?_of_mem_cancel h id), fun _ => rfl⟩

theorem toldRows_eq (ht : Performs h r t) (hh : h.announces) :
    t.toldRows = t.toldRows.head?.toList := by
  rcases ht.tells hh with htold | ⟨htold, -⟩
  · rw [htold]
    rfl
  · rw [htold]
    rfl

theorem rowCount (ht : Performs h r t) (hh : h.announces) (hr : r.rearranges ∨ r.isCancel) :
    t.history.rowCount = t.toldRows.head?.getD h.rowCount := by
  rcases ht.tells hh with htold | ⟨htold, hsame⟩
  · rw [htold]
    rfl
  · rw [htold, hsame hr]
    rfl

end Performs

/-- The present count of rows is the one that was told last, and the first one if none was told. -/
theorem rowCount_after (hh : h.announces) (rs : List Request)
    (hrs : ∀ r ∈ rs, r.rearranges ∨ r.isCancel) :
    (machine.after h rs).rowCount = (toldRows h rs).getLastD h.rowCount := by
  have hkeep {h : History} (r : Request) (hh : h.announces) : (h.perform r).history.announces :=
    (performs h r).announces hh
  -- What a turn tells is at most one count, which is its count of rows.
  have htold : toldRows h rs = (machine.turns h rs).filterMap fun t => t.2.toldRows.head? := by
    rw [toldRows, List.filterMap_flatMap]
    exact Machine.flatMap_trace (I := fun h : History => h.announces = true) hkeep
      (fun r hh => (performs _ r).toldRows_eq hh) hh rs
  rw [htold]
  refine Machine.after_told (I := fun h : History => h.announces = true)
    (P := fun t => t.1.rearranges ∨ t.1.isCancel) hkeep
    (fun r hh hr => (performs _ r).rowCount hh hr) hh rs fun t ht => ?_
  exact hrs t.1 (List.of_mem_zip ht).1

/-- **No silent change.** A request to show the orders in another way leads to one event with the
count of the new rows, or it is for what is shown already, and then nothing is published and nothing
has changed. A request to cancel changes nothing and tells nothing of rows. So after any of these
requests the count of rows is the one that was told last. -/
theorem told_unless_repeated (hh : h.announces) :
    (∀ r : Request, r.rearranges →
      (¬ r.Repeats h ∧ (h.perform r).events =
        [⟨.historyChanged (h.perform r).history.rowCount, "trade_history", .normal⟩]) ∨
      (r.Repeats h ∧ (h.perform r).events = [] ∧ (h.perform r).history = h)) ∧
    (∀ id, (h.perform (.cancel id)).history = h ∧
      ∀ e ∈ (h.perform (.cancel id)).events, e.historyRows? = none) ∧
    ∀ rs, (∀ r ∈ rs, r.rearranges ∨ r.isCancel) → ∀ k, (toldRows h rs).getLast? = some k →
      (machine.after h rs).rowCount = k := by
  refine ⟨fun r hr => ?_, fun id => ⟨rfl, historyRows?_of_mem_cancel h id⟩, fun rs hrs k hk => ?_⟩
  · have hstep := performs h r
    generalize h.perform r = t at hstep ⊢
    cases hstep with
    | withFilter => cases hr
    | announcing => cases hr
    | repeated _ hrepeats => exact .inr ⟨hrepeats, rfl, rfl⟩
    | changed _ hnew => exact .inl ⟨hnew, changed_events (h := h.choosing r) hh⟩
    | cancel => cases hr
  · rw [rowCount_after hh rs hrs, List.getLastD_eq_getLast?, hk, Option.getD_some]

/-- Two orders, one of which has come to an end: the tab of open orders is told once, and nothing is
told when it is asked for again. -/
theorem told_unless_repeated_same_tab :
    ∃ h rs, toldRows h rs = [1] ∧ rs.length = 4 ∧ (machine.after h rs).rowCount = 1 := by
  let h := (ofOrders [{ Demo.order 0 with id := "1" },
    { Demo.order 1 with id := "2", status := .filled }]).announcing
  let rs : List Request :=
    [.setFilter .openOrders, .cancel "1", .setFilter .openOrders, .clearSort]
  have hannounces : h.announces := rfl
  have hlast := (told_unless_repeated hannounces).2.2 rs (by decide) 1 (by decide +kernel)
  exact ⟨h, rs, by decide +kernel, rfl, hlast⟩

end History

end MarketDesk
