import MarketDesk.Notice.Bus
import MarketDesk.Proofs.Book.Trace

/-!
# What a book announces

A book with subscribers publishes to a bus (`Book.wired`): one event for each snapshot that it shows
and none for anything else. It counts the same snapshots. What the subscribers do about the events,
failing included, and whether there are any, does not matter to the book (`Book.announced_of_run`).
-/

namespace MarketDesk

/-- A bus publishes events one after another. -/
def Bus.machine : Machine Bus Event Bus.Publication := ⟨Bus.publish, Bus.Publication.bus⟩

namespace Book

/-- A book that publishes to a bus. -/
def wired : Machine (Book × Bus) Request (Machine.Fed Step Bus Bus.Publication) :=
  machine.feeding Step.events Bus.machine

namespace Turn

/-- A snapshot is applied: the request came with one, by itself or as lists of levels, and was
granted. -/
def applies (t : Turn) : Bool := !t.1.isReset && decide (t.2.outcome = .done ())

/-- The count of updates starts anew: the request was a reset and was granted. -/
def restarts (t : Turn) : Bool := t.1.isReset && decide (t.2.outcome = .done ())

/-- The event that tells of an applied snapshot: the count of rows and the direction are those of
the book after the turn. -/
def event? (t : Turn) : Option Event :=
  if t.applies then
    some ⟨.bookChanged t.2.book.rowCount t.2.book.direction, "order_book", .normal⟩
  else none

/-- The count of updates after the turn. -/
def tally (k : Nat) (t : Turn) : Nat :=
  if t.restarts then 0 else if t.applies then k + 1 else k

variable {t : Turn} {turns : List Turn} {k : Nat}

theorem foldl_tally_of_not_restarts (h : ∀ t ∈ turns, ¬ restarts t) (k : Nat) :
    turns.foldl tally k = k + turns.countP applies := by
  induction turns generalizing k with
  | nil => rfl
  | cons t turns ih =>
    obtain ⟨ht, hturns⟩ := List.forall_mem_cons.mp h
    rw [List.foldl_cons, ih hturns, tally, if_neg ht, List.countP_cons]
    split <;> omega

end Turn

/-- The events that tell of the snapshots that a book applies, in the order in which it does. -/
def told (b : Book) (rs : List Request) : List Event :=
  (machine.turns b rs).filterMap Turn.event?

/-- The book without subscribers. -/
def muted (b : Book) : Book := { b with announces := false }

/-- The step without subscribers. -/
def Step.muted (s : Step) : Step := ⟨s.book.muted, s.outcome, []⟩

/-- **What is announced** of the requests to a book with subscribers on a bus: its steps are not
affected by the bus, their events are those that tell of the applied snapshots, and the bus
publishes these and no others. Without subscribers the steps are the same but for the events. -/
structure Announces (b : Book) (bus : Bus) (rs : List Request) : Prop where
  steps : (wired.trace (b, bus) rs).map Machine.Fed.step = machine.trace b rs
  events : (machine.trace b rs).flatMap Step.events = told b rs
  published : (wired.trace (b, bus) rs).flatMap Machine.Fed.answers =
    Bus.machine.trace bus (told b rs)
  after : wired.after (b, bus) rs = (machine.after b rs, Bus.machine.after bus (told b rs))
  muted_trace : machine.trace b.muted rs = (machine.trace b rs).map Step.muted
  muted_after : machine.after b.muted rs = (machine.after b rs).muted

/-- **What is counted**: the snapshots since the last reset that was granted or, if there was none,
since the book was opened, which counts as one. -/
structure Counts (turns : List Turn) (updates : Nat) : Prop where
  opened : (∀ t ∈ turns, ¬ t.restarts) → updates = 1 + turns.countP Turn.applies
  restarted : ∀ front t back, turns = front ++ t :: back → t.restarts →
    (∀ t' ∈ back, ¬ Turn.restarts t') → updates = back.countP Turn.applies

variable {b b₀ : Book} {r : Request} {rs : List Request} {s : Step} {n : Nat}

namespace Performs

theorem announces (h : Performs b r s) : s.book.announces = b.announces := by
  cases h <;> rfl

/-- A book with subscribers has the one event of an applied snapshot and no other. -/
theorem events (h : Performs b r s) (hb : b.announces) :
    s.events = (Turn.event? (r, s)).toList := by
  cases h with
  | shown hs =>
    have hr := Request.isReset_of_snapshot? hs
    simp only [Turn.event?, Turn.applies, hr, hb]
    rfl
  | broken => simp [Turn.event?, Turn.applies]
  | refused => rfl
  | reset => rfl
  | noRoom => rfl

/-- The count of updates goes on as the turn says. A request that breaks is left out, since it
counts a snapshot of which only the levels are shown. -/
theorem updates (h : Performs b r s) (hdone : s.outcome ≠ .broken) :
    s.book.updates = Turn.tally b.updates (r, s) := by
  cases h with
  | shown hs =>
    have hr := Request.isReset_of_snapshot? hs
    simp [Turn.tally, Turn.restarts, Turn.applies, hr, derived, halted]
  | broken => exact absurd rfl hdone
  | refused => rfl
  | reset => rfl
  | noRoom => rfl

/-- A reset is granted just if there is room for a level. -/
theorem reset_outcome (h : Performs b r s) (hr : r.isReset) :
    s.outcome = .done () ↔ 0 < b.maxLevels := by
  cases h with
  | shown hs => simp [Request.isReset_of_snapshot? hs] at hr
  | broken hs => simp [Request.isReset_of_snapshot? hs] at hr
  | refused => cases hr
  | reset hn => simp [hn]
  | noRoom hn => simp [hn]

/-- Subscribers make no difference to a step but for the events. -/
theorem muted (h : Performs b r s) : Performs b.muted r s.muted := by
  cases h with
  | shown hs hfits => exact .shown (b := b.muted) hs hfits
  | broken hs h => exact .broken (b := b.muted) hs h
  | refused he => exact .refused (b := b.muted) he
  | reset hn => exact .reset (b := b.muted) hn
  | noRoom hn => exact .noRoom (b := b.muted) hn

end Performs

theorem perform_muted (b : Book) (r : Request) : b.muted.perform r = (b.perform r).muted :=
  (performs b r).muted.eq

/-- The counts of updates over a run that does not break. -/
theorem updates_after (b : Book) (rs : List Request)
    (hrs : ∀ t ∈ machine.turns b rs, t.2.outcome ≠ .broken) :
    (machine.after b rs).updates = (machine.turns b rs).foldl Turn.tally b.updates :=
  Machine.after_eq_foldl (I := fun _ => True) (P := fun t => t.2.outcome ≠ .broken)
    (fun _ h => h) (fun r _ hdone => (performs _ r).updates hdone) trivial rs hrs

theorem counts_of_foldl {turns : List Turn} {updates : Nat}
    (h : updates = turns.foldl Turn.tally 1) : Counts turns updates where
  opened hturns := by rw [h, Turn.foldl_tally_of_not_restarts hturns]
  restarted front t back hturns ht hback := by
    rw [h, hturns, List.foldl_append, List.foldl_cons, Turn.tally, if_pos ht,
      Turn.foldl_tally_of_not_restarts hback, Nat.zero_add]

/-- A bus, or the lack of subscribers, makes no difference to the book; the events of its steps are
what goes to the bus. -/
theorem announces_run (hb : b.announces) (bus : Bus) (rs : List Request) :
    Announces b bus rs := by
  have hevents : (machine.trace b rs).flatMap Step.events = told b rs :=
    Machine.flatMap_trace (I := fun b : Book => b.announces = true)
      (fun r hb => (performs _ r).announces.trans hb) (fun r hb => (performs _ r).events hb) hb rs
  refine ⟨Machine.trace_feeding .., hevents, ?_, ?_, ?_, ?_⟩
  · rw [← hevents]
    exact Machine.answers_feeding ..
  · rw [← hevents]
    exact Machine.after_feeding ..
  · exact Machine.trace_follows (f := muted) (g := Step.muted) perform_muted (fun _ => rfl) b rs
  · exact Machine.after_follows (f := muted) (g := Step.muted) perform_muted (fun _ => rfl) b rs

theorem Opened.starts (h : Opened Snapshot.Made n b) : b.maxLevels = n ∧ b.updates = 1 := by
  obtain ⟨s, announces, -, hn, -, rfl⟩ := h.eq_derived Snapshot.Built.made
  exact ⟨hn, rfl⟩

theorem resets_of_maxLevels (hb : b.maxLevels = n) (rs : List Request) :
    ∀ t ∈ machine.turns b rs, t.1.isReset → (t.2.outcome = .done () ↔ 0 < n) :=
  Machine.forall_mem_turns (I := fun b : Book => b.maxLevels = n)
    (fun r hb => (maxLevels_perform _ r).trans hb)
    (fun r hb hr => hb ▸ (performs _ r).reset_outcome hr) hb rs

/-- **One event for each snapshot that is applied**, in order, with the count of rows and the
direction that the book then shows; nothing for a refused update or a reset. The book may have been
in use before the subscribers came. -/
theorem announced_of_run (h₀ : Opened Snapshot.Made n b₀) (rs₀ rs : List Request) (bus : Bus)
    (hb : machine.after b₀ rs₀ = b) :
    Announces b.announcing bus rs ∧
    ∀ turns, machine.turns b₀ rs₀ ++ machine.turns b.announcing rs = turns →
      (∀ t ∈ turns, t.1.isReset → (t.2.outcome = .done () ↔ 0 < n)) ∧
      ((∀ t ∈ turns, t.2.outcome ≠ .broken) →
        Counts turns (wired.after (b.announcing, bus) rs).1.updates) := by
  obtain ⟨hlimit, hone⟩ := h₀.starts
  have hannounces := announces_run (b := b.announcing) rfl bus rs
  refine ⟨hannounces, ?_⟩
  rintro turns rfl
  refine ⟨fun t ht => ?_, fun hturns => counts_of_foldl ?_⟩
  · -- The limit decides, and no request changes it.
    have hlimit' : b.announcing.maxLevels = n := by
      rw [← hlimit, ← maxLevels_after b₀ rs₀, hb]
      rfl
    rcases List.mem_append.mp ht with ht | ht
    · exact resets_of_maxLevels hlimit rs₀ t ht
    · exact resets_of_maxLevels hlimit' rs t ht
  · -- The count goes on from where it stood when the subscribers came.
    obtain ⟨hturns₀, hturns⟩ := List.forall_mem_append.mp hturns
    have hbefore : b.announcing.updates = (machine.turns b₀ rs₀).foldl Turn.tally 1 := by
      rw [← hone, ← updates_after b₀ rs₀ hturns₀, hb]
      rfl
    rw [hannounces.after, List.foldl_append, ← hbefore]
    exact updates_after b.announcing rs hturns

/-- A book for one level is updated before its only subscriber comes, which fails at each event.
Then it is updated, refuses an update, is reset and gets a snapshot for three levels: two events,
and one snapshot is counted. -/
theorem announced_of_run_failing_subscriber :
    ∃ b bus rs turns, Announces b bus rs ∧ (told b rs).length = 2 ∧
      Counts turns (wired.after (b, bus) rs).1.updates ∧ turns.countP Turn.applies = 3 ∧
      (wired.after (b, bus) rs).1.updates = 1 := by
  let bus : Bus := ({} : Bus).subscribe { id := "1", topic := none, reaction := some ⟨none, .fail⟩ }
  let rs₀ : List Request := [.update [⟨.two, .one⟩] [⟨.one, .one⟩]]
  let rs : List Request := [.update [⟨.two, .one⟩] [⟨.two, .one⟩],
    .update [] [⟨.one, .extreme true⟩], .reset, .apply ⟨[⟨.two, .two⟩, ⟨.two, .one⟩], [], 3⟩]
  have hopened := opened_empty Snapshot.Made Nat.one_pos
  obtain ⟨hannounces, hturns⟩ := announced_of_run hopened rs₀ rs bus rfl
  obtain ⟨-, hcounts⟩ := hturns _ rfl
  exact ⟨_, bus, rs, _, hannounces, by decide +kernel, hcounts (by decide +kernel),
    by decide +kernel, by decide +kernel⟩

end Book

end MarketDesk
