import MarketDesk.Book.Request
import MarketDesk.Proofs.Book.Derived
import MarketDesk.Proofs.Book.Origin

/-!
# Runs of a book

A book is opened for a number of levels (`Book.Opened`) and then handles requests one after another
(`Book.Run`); a request that breaks ends the run. `Book.Opened.eq_derived` says what an opened book
looks like and `Book.perform_cases` what one request does to a book. Both are stated for any kind
`P` of snapshots that a caller hands over, since some results need snapshots straight from levels
and others hold for narrowed ones too.
-/

namespace MarketDesk.Book

namespace Request

def isReset : Request → Bool
  | .reset => true
  | _ => false

/-- A snapshot that comes with the request is of the given kind. -/
def Hands (P : Snapshot → Prop) : Request → Prop
  | .apply s => P s
  | _ => True

/-- The snapshot that a book for `n` levels shows for the request, before it is cut to the limit;
none for a refused update and for a reset. -/
def snapshot? (n : Nat) : Request → Option Snapshot
  | .update asks bids => (Snapshot.ofLevels asks bids n).toOption
  | .apply s => some s
  | .reset => none

theorem snapshot?_update_eq_some_iff {n : Nat} {asks bids : List Level} {s : Snapshot} :
    (update asks bids).snapshot? n = some s ↔ Snapshot.ofLevels asks bids n = .ok s := by
  rw [snapshot?]
  cases Snapshot.ofLevels asks bids n <;> simp [Except.toOption]

theorem snapshot?_update_eq_none_iff {n : Nat} {asks bids : List Level} :
    (update asks bids).snapshot? n = none ↔ ∃ e, Snapshot.ofLevels asks bids n = .error e := by
  rw [snapshot?]
  cases Snapshot.ofLevels asks bids n <;> simp [Except.toOption]

theorem isReset_of_snapshot? {n : Nat} {r : Request} {s : Snapshot} (h : r.snapshot? n = some s) :
    r.isReset = false := by
  cases r with
  | update asks bids => rfl
  | apply s' => rfl
  | reset => cases h

theorem snapshot?_kind {P : Snapshot → Prop} (hP : ∀ {s : Snapshot}, s.Built → P s) {n : Nat}
    {r : Request} {s : Snapshot} (hr : r.Hands P) (h : r.snapshot? n = some s) : P s := by
  cases r with
  | update asks bids => exact hP ⟨asks, bids, n, snapshot?_update_eq_some_iff.mp h⟩
  | apply s' =>
    obtain rfl := Option.some.inj h
    exact hr
  | reset => cases h

end Request

/-- A book that was opened for `n` levels, with a snapshot of the given kind where one is handed
over. -/
inductive Opened (P : Snapshot → Prop) (n : Nat) : Book → Prop
  | new {b : Book} : Book.new n = .done b → Opened P n b
  | ofLevels {asks bids : List Level} {b : Book} :
    Book.ofLevels asks bids n = .done b → Opened P n b
  | ofSnapshot {s : Snapshot} {b : Book} :
    P s → s.maxLevels = n → Book.ofSnapshot s = .done b → Opened P n b
  | announcing {b : Book} : Opened P n b → Opened P n b.announcing

/-- Requests that a book handles one after another, none of which breaks. The last request stands at
the end of the list. -/
inductive Run (P : Snapshot → Prop) (b₀ : Book) : List Request → Book → Prop
  | nil : Run P b₀ [] b₀
  | snoc {rs : List Request} {b : Book} {r : Request} : Run P b₀ rs b → r.Hands P →
    (b.perform r).outcome ≠ .broken → Run P b₀ (rs ++ [r]) (b.perform r).book

/-- A book that was opened and has handled requests, broken ones among them: a shared book goes on
with what a broken request left. -/
inductive Reached (P : Snapshot → Prop) (n : Nat) : Book → Prop
  | opened {b : Book} : Opened P n b → Reached P n b
  | perform {b : Book} {r : Request} : Reached P n b → r.Hands P → Reached P n (b.perform r).book

variable {P : Snapshot → Prop} {n : Nat} {b b₀ : Book} {r : Request} {rs : List Request}

theorem ofLevels_eq_done {asks bids : List Level} (h : Book.ofLevels asks bids n = .done b) :
    ∃ s, Snapshot.ofLevels asks bids n = .ok s ∧ Book.ofSnapshot s = .done b := by
  unfold Book.ofLevels at h
  split at h
  · exact ⟨_, ‹_›, h⟩
  · cases h

theorem new_of_pos (hn : 0 < n) : Book.new n = .done (holding ⟨[], [], n⟩) := by
  have hempty : Snapshot.ofLevels [] [] n = .ok ⟨[], [], n⟩ := Snapshot.empty_of_pos hn
  rw [Book.new, Book.ofLevels, hempty]
  rfl

theorem opened_empty (P : Snapshot → Prop) (hn : 0 < n) : Opened P n (holding ⟨[], [], n⟩) :=
  .new (new_of_pos hn)

/-- **Opened books.** The snapshot is of the kind that was handed over, and the rest of the book is
computed from it. -/
theorem Opened.eq_derived (hP : ∀ {s : Snapshot}, s.Built → P s) (h : Opened P n b) :
    ∃ s announces, P s ∧ s.maxLevels = n ∧ ¬ s.Overflows ∧
      b = { holding s with announces }.derived := by
  have made {asks bids : List Level} {b : Book} (h : Book.ofLevels asks bids n = .done b) :
      ∃ s announces, P s ∧ s.maxLevels = n ∧ ¬ s.Overflows ∧
        b = { holding s with announces }.derived := by
    obtain ⟨s, hs, hb⟩ := ofLevels_eq_done h
    obtain ⟨hs', rfl⟩ := ofSnapshot_eq_done_iff.mp hb
    obtain ⟨-, -, -, hlimit⟩ := Snapshot.ofLevels_eq_ok_iff.mp hs
    exact ⟨s, false, hP ⟨_, _, _, hs⟩, by rw [hlimit], hs', rfl⟩
  induction h with
  | new h => exact made h
  | ofLevels h => exact made h
  | ofSnapshot hs hn h =>
    obtain ⟨hs', rfl⟩ := ofSnapshot_eq_done_iff.mp h
    exact ⟨_, false, hs, hn, hs', rfl⟩
  | announcing _ ih =>
    obtain ⟨s, _, hs, hn, hs', rfl⟩ := ih
    exact ⟨s, true, hs, hn, hs', rfl⟩

/-- A request that comes with a snapshot applies it. -/
theorem perform_of_snapshot? {s : Snapshot} (h : r.snapshot? b.maxLevels = some s) :
    b.perform r = b.apply s := by
  cases r with
  | update asks bids =>
    rw [perform, Book.update, Request.snapshot?_update_eq_some_iff.mp h]
  | apply s' =>
    obtain rfl := Option.some.inj h
    rfl
  | reset => cases h

/-- **The steps of a book.** A snapshot is shown, or it overflows and breaks the request when the
levels are already replaced; a refused update does nothing; a reset is granted if there is room for
a level, and is otherwise refused after the reference to earlier mid prices is gone. -/
inductive Performs (b : Book) : Request → Step → Prop
  | shown {r : Request} {s : Snapshot} : r.snapshot? b.maxLevels = some s →
    ¬ (s.limitedTo b.maxLevels).Overflows →
    Performs b r ⟨(b.halted s).derived, .done (),
      if b.announces then [(b.halted s).derived.changeEvent] else []⟩
  | broken {r : Request} {s : Snapshot} : r.snapshot? b.maxLevels = some s →
    (s.limitedTo b.maxLevels).Overflows → Performs b r ⟨b.halted s, .broken, []⟩
  | refused {asks bids : List Level} {e : PanelError} :
    Snapshot.ofLevels asks bids b.maxLevels = .error e →
    Performs b (.update asks bids) ⟨b, .refused e, []⟩
  | reset : 0 < b.maxLevels → Performs b .reset ⟨b.blank, .done (), []⟩
  | noRoom : b.maxLevels = 0 → Performs b .reset ⟨b.forgetful, .refused .noLevels, []⟩

theorem Performs.eq {t : Step} (h : Performs b r t) : b.perform r = t := by
  cases h with
  | shown hs hfits => rw [perform_of_snapshot? hs, apply_of_not_overflows hfits]
  | broken hs h => rw [perform_of_snapshot? hs, apply_of_overflows h]
  | refused he => rw [perform, Book.update, he]
  | reset hn => rw [perform, reset_of_pos hn]
  | noRoom hn => rw [perform, reset_of_zero hn]

/-- Every request of a book is one of these steps. -/
theorem performs (b : Book) (r : Request) : Performs b r (b.perform r) := by
  have apply_performs {r : Request} {s : Snapshot} (hs : r.snapshot? b.maxLevels = some s) :
      Performs b r (b.perform r) := by
    by_cases h : (s.limitedTo b.maxLevels).Overflows
    · have hstep : Performs b r _ := .broken hs h
      rwa [hstep.eq]
    · have hstep : Performs b r _ := .shown hs h
      rwa [hstep.eq]
  cases r with
  | update asks bids =>
    cases hs : Snapshot.ofLevels asks bids b.maxLevels with
    | ok s => exact apply_performs (Request.snapshot?_update_eq_some_iff.mpr hs)
    | error e =>
      have hstep : Performs b (.update asks bids) _ := .refused hs
      rwa [hstep.eq]
  | apply s => exact apply_performs rfl
  | reset =>
    rcases Nat.eq_zero_or_pos b.maxLevels with hn | hn
    · have hstep : Performs b .reset _ := .noRoom hn
      rwa [hstep.eq]
    · have hstep : Performs b .reset _ := .reset hn
      rwa [hstep.eq]

/-- **One request** that does not break, by the book that it leaves. -/
theorem perform_cases (h : (b.perform r).outcome ≠ .broken) :
    (∃ s, r.snapshot? b.maxLevels = some s ∧ ¬ (s.limitedTo b.maxLevels).Overflows ∧
      (b.perform r).book = (b.halted s).derived) ∨
    (r ≠ .reset ∧ r.snapshot? b.maxLevels = none ∧ (b.perform r).book = b) ∨
    (r = .reset ∧ 0 < b.maxLevels ∧ (b.perform r).book = b.blank) ∨
    (r = .reset ∧ b.maxLevels = 0 ∧ (b.perform r).book = b.forgetful) := by
  have hstep := performs b r
  generalize b.perform r = t at h hstep
  cases hstep with
  | shown hs hfits => exact .inl ⟨_, hs, hfits, rfl⟩
  | broken => exact absurd rfl h
  | refused he =>
    exact .inr (.inl ⟨nofun, Request.snapshot?_update_eq_none_iff.mpr ⟨_, he⟩, rfl⟩)
  | reset hn => exact .inr (.inr (.inl ⟨rfl, hn, rfl⟩))
  | noRoom hn => exact .inr (.inr (.inr ⟨rfl, hn, rfl⟩))

theorem maxLevels_perform (b : Book) (r : Request) :
    (b.perform r).book.maxLevels = b.maxLevels := by
  have hstep := performs b r
  generalize b.perform r = t at hstep
  cases hstep <;> rfl

theorem Reached.maxLevels_pos (h : Reached Snapshot.Built n b) : 0 < b.maxLevels := by
  induction h with
  | opened h =>
    obtain ⟨s, _, hs, -, -, rfl⟩ := h.eq_derived id
    exact hs.maxLevels_pos
  | perform _ _ ih => rwa [maxLevels_perform]

end MarketDesk.Book
