import MarketDesk.Proofs.Book.Rescaled
import MarketDesk.Proofs.Book.Room

/-!
# Feeds at other scales

A feed supplies lists of levels. The levels that a book holds are some of those that came with them,
so a book is followed together with the lists that it took its levels from (`Sourced`). Two feeds
that supply the same numbers at other scales (`Feed.Rescaled`) lead to the same answers, to levels
from the same places of the lists and to the same numbers beside them (`Sourced.agree_of_rescaled`).
-/

namespace MarketDesk

/-! ## Places -/

/-- What is held is picked from two lists of supplies, at the same places of both. -/
inductive SamePlaces {α : Type} : List α → List α → List α → List α → Prop
  | nil (as bs : List α) : SamePlaces as bs [] []
  | skip (a b : α) {as bs held held' : List α} : SamePlaces as bs held held' →
    SamePlaces (a :: as) (b :: bs) held held'
  | keep (a b : α) {as bs held held' : List α} : SamePlaces as bs held held' →
    SamePlaces (a :: as) (b :: bs) (a :: held) (b :: held')

namespace SamePlaces

variable {α : Type} {as bs held held' : List α}

theorem take (h : SamePlaces as bs held held') (n : Nat) :
    SamePlaces as bs (held.take n) (held'.take n) := by
  induction h generalizing n with
  | nil as bs =>
    rw [List.take_nil]
    exact .nil as bs
  | skip a b _ ih => exact .skip a b (ih n)
  | keep a b _ ih =>
    cases n with
    | zero => exact .nil _ _
    | succ n => exact .keep a b (ih n)

theorem filter {R : α → α → Prop} {p : α → Bool} (h : List.Forall₂ R as bs)
    (hp : ∀ {a b}, R a b → p a = p b) : SamePlaces as bs (as.filter p) (bs.filter p) := by
  induction h with
  | nil => exact .nil [] []
  | cons hab _ ih =>
    rw [List.filter_cons, List.filter_cons, hp hab]
    split
    · exact .keep _ _ ih
    · exact .skip _ _ ih

end SamePlaces

/-- The asks and the bids as a feed supplies them. -/
structure Sides where
  asks : List Level
  bids : List Level

namespace Sides

/-- The same levels at other scales. -/
structure Rescaled (d d' : Sides) : Prop where
  asks : List.Forall₂ Level.Rescaled d.asks d'.asks
  bids : List.Forall₂ Level.Rescaled d.bids d'.bids

/-- Two snapshots hold levels from the same places of what was supplied. -/
structure Picked (d d' : Sides) (s s' : Snapshot) : Prop where
  asks : SamePlaces d.asks d'.asks s.asks s'.asks
  bids : SamePlaces d.bids d'.bids s.bids s'.bids

/-- Two snapshots of the same levels at other scales, from the same places. -/
def Made (d d' : Sides) (s s' : Snapshot) : Prop := s.Rescaled s' ∧ d.Picked d' s s'

variable {d d' : Sides} {s s' : Snapshot}

theorem Made.limitedTo (h : d.Made d' s s') (n : Nat) :
    d.Made d' (s.limitedTo n) (s'.limitedTo n) := by
  obtain ⟨hrescaled, hpicked⟩ := h
  refine ⟨hrescaled.limitedTo n, ?_⟩
  unfold Snapshot.limitedTo
  rw [hrescaled.maxLevels]
  split
  · exact ⟨hpicked.asks.take n, hpicked.bids.take n⟩
  · exact hpicked

theorem Made.narrowed (h : d.Made d' s s') (limits : List Nat) :
    d.Made d' (s.narrowed limits) (s'.narrowed limits) := by
  induction limits generalizing s s' with
  | nil => exact h
  | cons n limits ih => exact ih (h.limitedTo n)

theorem samePlaces_standing {ls ls' : List Level} (h : List.Forall₂ Level.Rescaled ls ls') :
    SamePlaces ls ls' (Level.standing ls) (Level.standing ls') := by
  refine SamePlaces.filter h fun hl => ?_
  rw [hl.isRemoved]

/-- Rescaled supplies are accepted or refused alike, and the snapshots take their levels from the
same places. -/
theorem Rescaled.made (h : d.Rescaled d') (n : Nat) :
    CheckedRel (d.Made d') (Snapshot.ofLevels d.asks d.bids n)
      (Snapshot.ofLevels d'.asks d'.bids n) := by
  have hchecked := Snapshot.ofLevels_rescaled h.asks h.bids n
  generalize hs : Snapshot.ofLevels d.asks d.bids n = c at hchecked ⊢
  generalize hs' : Snapshot.ofLevels d'.asks d'.bids n = c' at hchecked ⊢
  cases hchecked with
  | error he => exact .error he
  | ok hrescaled =>
    obtain ⟨-, -, -, rfl⟩ := Snapshot.ofLevels_eq_ok_iff.mp hs
    obtain ⟨-, -, -, rfl⟩ := Snapshot.ofLevels_eq_ok_iff.mp hs'
    refine .ok ⟨hrescaled, ?_, ?_⟩
    · exact (samePlaces_standing h.asks).take n
    · exact (samePlaces_standing h.bids).take n

end Sides

/-- What a snapshot is made of: lists of levels, the number of levels that it is made for and the
limits that it is narrowed to afterwards. -/
structure Supply where
  sides : Sides
  room : Nat
  limits : List Nat

namespace Supply

def snapshot (p : Supply) : Except PanelError Snapshot := do
  let s ← Snapshot.ofLevels p.sides.asks p.sides.bids p.room
  pure (s.narrowed p.limits)

/-- The same supply with the levels at other scales. -/
structure Rescaled (p p' : Supply) : Prop where
  sides : p.sides.Rescaled p'.sides
  room : p.room = p'.room
  limits : p.limits = p'.limits

theorem Rescaled.snapshot {p p' : Supply} (h : p.Rescaled p') :
    CheckedRel (p.sides.Made p'.sides) p.snapshot p'.snapshot := by
  unfold Supply.snapshot
  rw [h.room, h.limits]
  refine (h.sides.made p'.room).bind fun hmade => ?_
  exact .ok (hmade.narrowed p'.limits)

end Supply

/-! ## Feeds -/

/-- What a feed asks of a book. -/
inductive Feed where
  | update (sides : Sides)
  /-- A snapshot is made elsewhere and shown if it was not refused. -/
  | apply (supply : Supply)
  | reset

namespace Feed

def sides : Feed → Sides
  | .update sides => sides
  | .apply supply => supply.sides
  | .reset => ⟨[], []⟩

/-- The request that the book gets, unless there is no snapshot to show. -/
def request? : Feed → Except PanelError Book.Request
  | .update sides => .ok (.update sides.asks sides.bids)
  | .apply supply => do
    let s ← supply.snapshot
    pure (.apply s)
  | .reset => .ok .reset

/-- The same demand with the levels at other scales. -/
inductive Rescaled : Feed → Feed → Prop
  | update {d d' : Sides} : d.Rescaled d' → Rescaled (.update d) (.update d')
  | apply {p p' : Supply} : p.Rescaled p' → Rescaled (.apply p) (.apply p')
  | reset : Rescaled .reset .reset

end Feed

/-- A book and the lists that it took its levels from. -/
structure Sourced where
  book : Book
  sides : Sides

namespace Sourced

/-- What a demand leads to. -/
structure Step where
  sourced : Sourced
  outcome : Outcome Unit
  events : List Event

/-- The lists are replaced with the levels, which a refused request leaves as they are. -/
def took (s : Sourced) (d : Sides) (t : Book.Step) : Step :=
  match t.outcome with
  | .refused _ => ⟨⟨t.book, s.sides⟩, t.outcome, t.events⟩
  | _ => ⟨⟨t.book, d⟩, t.outcome, t.events⟩

def perform (s : Sourced) (f : Feed) : Step :=
  match f.request? with
  | .ok r => s.took f.sides (s.book.perform r)
  | .error e => ⟨s, .refused e, []⟩

/-- A book that is fed. -/
def machine : Machine Sourced Feed Step := ⟨perform, Step.sourced⟩

end Sourced

/-- The ways to open a book. -/
inductive Opening where
  | new (n : Nat)
  | ofLevels (sides : Sides) (n : Nat)
  | ofSnapshot (supply : Supply)
  | announcing (o : Opening)

namespace Opening

def sides : Opening → Sides
  | .new _ => ⟨[], []⟩
  | .ofLevels sides _ => sides
  | .ofSnapshot supply => supply.sides
  | .announcing o => o.sides

def book : Opening → Outcome Book
  | .new n => Book.new n
  | .ofLevels sides n => Book.ofLevels sides.asks sides.bids n
  | .ofSnapshot supply =>
    match supply.snapshot with
    | .ok s => Book.ofSnapshot s
    | .error e => .refused e
  | .announcing o =>
    match o.book with
    | .done b => .done b.announcing
    | .refused e => .refused e
    | .broken => .broken

def sourced (o : Opening) : Outcome Sourced :=
  match o.book with
  | .done b => .done ⟨b, o.sides⟩
  | .refused e => .refused e
  | .broken => .broken

/-- The same opening with the levels at other scales. -/
inductive Rescaled : Opening → Opening → Prop
  | new (n : Nat) : Rescaled (.new n) (.new n)
  | ofLevels {d d' : Sides} (n : Nat) : d.Rescaled d' → Rescaled (.ofLevels d n) (.ofLevels d' n)
  | ofSnapshot {p p' : Supply} : p.Rescaled p' → Rescaled (.ofSnapshot p) (.ofSnapshot p')
  | announcing {o o' : Opening} : Rescaled o o' → Rescaled (.announcing o) (.announcing o')

end Opening

/-! ## Runs -/

/-- Also a broken request leaves the levels of the new snapshot. -/
theorem Book.snapshot_apply (b : Book) (s : Snapshot) :
    (b.apply s).book.snapshot = s.limitedTo b.maxLevels := by
  by_cases h : (s.limitedTo b.maxLevels).Overflows
  · rw [apply_of_overflows h]
    rfl
  · rw [apply_of_not_overflows h]
    rfl

namespace Sourced

/-- Two books are the same but for the scales of their decimals, and hold levels from the same
places of what was supplied. -/
structure Rescaled (s s' : Sourced) : Prop where
  book : s.book.Rescaled s'.book
  picked : s.sides.Picked s'.sides s.book.snapshot s'.book.snapshot

/-- **Agreement of two books** that were supplied the same numbers at other scales: they hold levels
from the same places, and what readers find is the same in number. -/
structure Agree (s s' : Sourced) : Prop extends Rescaled s s' where
  rowCount : s.book.rowCount = s'.book.rowCount
  rows : Option.Rel (List.Forall₂ Row.Rescaled) s.book.rows? s'.book.rows?
  rowAt : ∀ index, Outcome.Rel Row.Rescaled (s.book.rowAt index) (s'.book.rowAt index)

/-- The same answer and the same events, and books that agree afterwards. -/
structure Step.Agree (t t' : Step) : Prop where
  sourced : t.sourced.Agree t'.sourced
  outcome : Outcome.Rel (· = ·) t.outcome t'.outcome
  events : t.events = t'.events

variable {s s' : Sourced} {d d' : Sides} {f f' : Feed} {o o' : Opening}

theorem Rescaled.agree (h : s.Rescaled s') : s.Agree s' :=
  ⟨h, h.book.rowCount, h.book.rows?, h.book.rowAt⟩

/-- A granted request replaces the supply on both sides, and the held levels are picked from the new
one. -/
theorem took_agree {t t' : Book.Step} (h : t.Rescaled t') (hgranted : ∀ e, t.outcome ≠ .refused e)
    (hpicked : d.Picked d' t.book.snapshot t'.book.snapshot) :
    (s.took d t).Agree (s'.took d' t') := by
  obtain ⟨book, outcome, events⟩ := t
  obtain ⟨book', outcome', events'⟩ := t'
  obtain ⟨hbook, houtcome, hevents⟩ := h
  cases houtcome with
  | done h => exact ⟨Rescaled.agree ⟨hbook, hpicked⟩, .done h, hevents⟩
  | refused => exact absurd rfl (hgranted _)
  | broken => exact ⟨Rescaled.agree ⟨hbook, hpicked⟩, .broken, hevents⟩

theorem took_apply_agree {q q' : Snapshot} (h : s.Rescaled s') (hq : d.Made d' q q') :
    (s.took d (s.book.apply q)).Agree (s'.took d' (s'.book.apply q')) := by
  refine took_agree (Book.apply_rescaled h.book hq.1) (s.book.apply_ne_refused q) ?_
  rw [Book.snapshot_apply, Book.snapshot_apply, h.book.maxLevels]
  exact (hq.limitedTo _).2

/-- One request: the answers agree, and so do the levels that the books then hold and the places
they come from. -/
theorem perform_agree (h : s.Rescaled s') (hf : f.Rescaled f') :
    (s.perform f).Agree (s'.perform f') := by
  have refused {e e' : PanelError} (he : e.Rescaled e') :
      Step.Agree ⟨s, .refused e, []⟩ ⟨s', .refused e', []⟩ := ⟨h.agree, .refused he, rfl⟩
  cases hf with
  | @update d d' hd =>
    change (s.took d (s.book.update d.asks d.bids)).Agree
      (s'.took d' (s'.book.update d'.asks d'.bids))
    have hchecked := hd.made s.book.maxLevels
    unfold Book.update
    rw [← h.book.maxLevels]
    generalize Snapshot.ofLevels d.asks d.bids _ = c at hchecked
    generalize Snapshot.ofLevels d'.asks d'.bids _ = c' at hchecked
    cases hchecked with
    | ok hmade => exact took_apply_agree h hmade
    | error he => exact refused he
  | apply hp =>
    have hchecked := hp.snapshot
    unfold perform Feed.request?
    dsimp only
    generalize Supply.snapshot _ = c at hchecked
    generalize Supply.snapshot _ = c' at hchecked
    cases hchecked with
    | ok hmade => exact took_apply_agree h hmade
    | error he => exact refused he
  | reset =>
    change (s.took ⟨[], []⟩ s.book.reset).Agree (s'.took ⟨[], []⟩ s'.book.reset)
    rcases Nat.eq_zero_or_pos s.book.maxLevels with hn | hn
    -- Without room the reset is refused, but only after it has forgotten the last mid price.
    · rw [Book.reset_of_zero hn, Book.reset_of_zero (h.book.maxLevels ▸ hn)]
      exact ⟨Rescaled.agree ⟨h.book.forgetful, h.picked⟩, .refused .noLevels, rfl⟩
    · rw [Book.reset_of_pos hn, Book.reset_of_pos (h.book.maxLevels ▸ hn)]
      exact ⟨Rescaled.agree ⟨h.book.blank, .nil _ _, .nil _ _⟩, .done rfl, rfl⟩

/-- Books opened with rescaled snapshots are rescaled, or both openings break. -/
theorem ofSnapshot_agree {q q' : Snapshot} (h : d.Made d' q q') :
    Outcome.Rel (fun b b' => Rescaled ⟨b, d⟩ ⟨b', d'⟩) (Book.ofSnapshot q)
      (Book.ofSnapshot q') := by
  by_cases hover : q.Overflows
  · have hover' := h.1.overflows_iff.mp hover
    rw [Book.ofSnapshot_of_overflows hover, Book.ofSnapshot_of_overflows hover']
    exact .broken
  · have hover' := mt h.1.overflows_iff.mpr hover
    rw [Book.ofSnapshot_of_not_overflows hover, Book.ofSnapshot_of_not_overflows hover']
    exact .done ⟨(Book.holding_rescaled h.1).derived, h.2⟩

theorem ofLevels_agree (h : d.Rescaled d') (n : Nat) :
    Outcome.Rel (fun b b' => Rescaled ⟨b, d⟩ ⟨b', d'⟩) (Book.ofLevels d.asks d.bids n)
      (Book.ofLevels d'.asks d'.bids n) := by
  have hchecked := h.made n
  unfold Book.ofLevels
  generalize Snapshot.ofLevels d.asks d.bids n = c at hchecked
  generalize Snapshot.ofLevels d'.asks d'.bids n = c' at hchecked
  cases hchecked with
  | ok hmade => exact ofSnapshot_agree hmade
  | error he => exact .refused he

/-- However a book is opened, rescaled supplies lead to rescaled books or to the same refusal. -/
theorem book_agree (h : o.Rescaled o') :
    Outcome.Rel (fun b b' => Rescaled ⟨b, o.sides⟩ ⟨b', o'.sides⟩) o.book o'.book := by
  induction h with
  | new n =>
    have hempty : Sides.Rescaled ⟨[], []⟩ ⟨[], []⟩ := ⟨.nil, .nil⟩
    exact ofLevels_agree hempty n
  | ofLevels n hd => exact ofLevels_agree hd n
  | ofSnapshot hp =>
    have hchecked := hp.snapshot
    unfold Opening.book
    generalize Supply.snapshot _ = c at hchecked
    generalize Supply.snapshot _ = c' at hchecked
    cases hchecked with
    | ok hmade => exact ofSnapshot_agree hmade
    | error he => exact .refused he
  | @announcing o o' _ ih =>
    unfold Opening.book Opening.sides
    generalize o.book = c at ih
    generalize o'.book = c' at ih
    cases ih with
    | done h => exact .done ⟨{ h.book with announces := rfl }, h.picked⟩
    | refused he => exact .refused he
    | broken => exact .broken

theorem opened_agree (h : o.Rescaled o') : Outcome.Rel Rescaled o.sourced o'.sourced := by
  have hbook := book_agree h
  unfold Opening.sourced
  generalize o.book = c at hbook
  generalize o'.book = c' at hbook
  cases hbook with
  | done h => exact .done h
  | refused he => exact .refused he
  | broken => exact .broken

/-- **Trailing zeros in a feed do not matter.** Two books are opened in the same way and asked for
the same, for the same numbers of levels, where corresponding prices and sizes are equal in number
but may have different scales. Either neither is opened, for the same cause, or both are. Then after
each demand, refused and broken ones among them, the answers and the events are the same, the books
hold as many levels from the same places of what was supplied, all numbers beside them are missing
in both or equal, and so are the rows. -/
theorem agree_of_rescaled (ho : o.Rescaled o') {fs fs' : List Feed}
    (hfs : List.Forall₂ Feed.Rescaled fs fs') :
    Outcome.Rel (fun s s' => s.Agree s' ∧
      List.Forall₂ Step.Agree (machine.trace s fs) (machine.trace s' fs'))
      o.sourced o'.sourced := by
  have hopened := opened_agree ho
  generalize o.sourced = c at hopened ⊢
  generalize o'.sourced = c' at hopened ⊢
  cases hopened with
  | done h =>
    refine .done ⟨h.agree, ?_⟩
    refine Machine.trace_rel (fun hs hf => ?_) (fun ht => ?_) h hfs
    · exact perform_agree hs hf
    · exact ht.sourced.toRescaled
  | refused he => exact .refused he
  | broken => exact .broken

/-- `100.5` is supplied as it is and as `100.500`; of the two asks the first is removed, and the
second demand is refused. -/
theorem agree_of_rescaled_hundred :
    let fs : List Feed := [
      .update ⟨[⟨.two, .zero⟩, ⟨.ofParts 1005 1, .one⟩], [⟨.ofParts 100 0, .two⟩]⟩,
      .apply ⟨⟨[], [⟨.one, .ofParts (-5) 1⟩]⟩, 3, [1]⟩]
    let fs' : List Feed := [
      .update ⟨[⟨.two, .ofParts 0 2⟩, ⟨.ofParts 100500 3, .one⟩], [⟨.ofParts 100000 3, .two⟩]⟩,
      .apply ⟨⟨[], [⟨.ofParts 10 1, .ofParts (-50) 2⟩]⟩, 3, [1]⟩]
    ∃ s, (Opening.announcing (.new 2)).sourced = .done s ∧
      List.Forall₂ Step.Agree (machine.trace s fs) (machine.trace s fs') := by
  intro fs fs'
  have hopened : (Opening.announcing (.new 2)).sourced =
    .done ⟨(Book.holding ⟨[], [], 2⟩).announcing, ⟨[], []⟩⟩ := rfl
  have hlevel {l l' : Level} (hprice : l.price.cmp l'.price = .eq)
      (hsize : l.size.cmp l'.size = .eq) : l.Rescaled l' :=
    ⟨Decimal.equiv_iff_cmp.mpr hprice, Decimal.equiv_iff_cmp.mpr hsize⟩
  have hfs : List.Forall₂ Feed.Rescaled fs fs' := by
    refine .cons (.update ⟨?_, ?_⟩) (.cons (.apply ⟨⟨.nil, ?_⟩, rfl, rfl⟩) .nil)
    · exact .cons (hlevel rfl rfl) (.cons (hlevel rfl rfl) .nil)
    · exact .cons (hlevel rfl rfl) .nil
    · exact .cons (hlevel rfl rfl) .nil
  have hagree := agree_of_rescaled (.announcing (.new 2)) hfs
  rw [hopened] at hagree
  cases hagree with
  | done h => exact ⟨_, hopened, h.2⟩

end Sourced

end MarketDesk
