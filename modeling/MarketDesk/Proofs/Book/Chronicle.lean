import MarketDesk.Proofs.Book.Trace

/-!
# What goes on record

The subscribers of a shared book may make requests of their own while they are called, so that a
request ends only after those that it caused. The log has them in the order in which the lock was
given back, and in this order they are the requests to a book on its own. `SharedBook.Recorded` says
what goes on record, entry by entry. A handler that keeps the record hands this on to whatever calls
it (`SharedBook.Recorded.perform`), and every conduct of a subscriber makes such a handler
(`SharedBook.Conduct.keepsRecord`), so that a whole run is on record (`SharedBook.recorded_run`).
-/

namespace MarketDesk

/-- An element of a list of two parts stands in the first or in the second. -/
theorem append_cons_eq_append {α : Type} {x : α} {front back first second : List α}
    (h : front ++ x :: back = first ++ second) :
    (∃ back', first = front ++ x :: back') ∨
      ∃ front', front = first ++ front' ∧ second = front' ++ x :: back := by
  rcases List.append_eq_append_iff.mp h with ⟨rest, hfirst, hsecond⟩ | ⟨front', hfront, hsecond⟩
  · cases rest with
    | nil => exact .inr ⟨[], by rw [hfirst]; simp, hsecond.symm⟩
    | cons y rest =>
      obtain ⟨rfl, -⟩ := List.cons.inj hsecond
      exact .inl ⟨rest, hfirst⟩
  · exact .inr ⟨front', hfront, hsecond⟩

namespace SharedBook

namespace Entry

def turn? : Entry → Option Book.Turn
  | .turn t => some t
  | _ => none

def event? : Entry → Option Event
  | .published event => some event
  | _ => none

end Entry

/-- The turns on record. -/
def turns (log : List Entry) : List Book.Turn := log.filterMap Entry.turn?

/-- The requests on record, those of the subscribers among them. -/
def requests (log : List Entry) : List Book.Request := (turns log).map Prod.fst

/-- The events on record. -/
def events (log : List Entry) : List Event := log.filterMap Entry.event?

/-- The subscribers are called about a step that is on record and that they are to hear of. -/
structure Announced (log : List Entry) (cause : Book.Step) : Prop where
  turn : ∃ r, .turn (r, cause) ∈ log
  event : cause.events ≠ []

theorem Announced.append {log : List Entry} {cause : Book.Step} (h : Announced log cause)
    (log' : List Entry) : Announced (log ++ log') cause where
  turn := h.turn.imp fun _ => List.mem_append_left log'
  event := h.event

/-- **What goes on record** of a shared book that stored `b₀` at first. A request is on record with
what it does to the stored book and with the events of that; a subscriber that is called about such
a step reads the book that is stored by then. -/
inductive Recorded (b₀ : Book) : List Entry → Book → Prop
  | nil : Recorded b₀ [] b₀
  | turn {log : List Entry} {b : Book} (r : Book.Request) : Recorded b₀ log b →
    Recorded b₀ (log ++ .turn (r, b.perform r) :: (b.perform r).events.map .published)
      (b.perform r).book
  | read {log : List Entry} {b : Book} {cause : Book.Step} (i : Nat) : Recorded b₀ log b →
    Announced log cause → Recorded b₀ (log ++ [.read cause i b]) b

/-- Whatever is on record, what the subscribers do goes on record behind it. -/
def Handler.KeepsRecord (handle : Handler) (b₀ : Book) : Prop :=
  ∀ {log : List Entry} {b : SharedBook} {cause : Book.Step} (i : Nat),
    Recorded b₀ log b.stored → Announced log cause →
      Recorded b₀ (log ++ (handle i cause b).log) (handle i cause b).book.stored

variable {b₀ : Book} {b : SharedBook} {log : List Entry} {handle : Handler} {r : Book.Request}
  {cause : Book.Step} {event : Event}

section Calls

variable (visits : SharedBook → Visit) (publish : Bus → Event → Bus.Publication) (event : Event)
  (b : SharedBook) (i : Nat)

theorem call_log : (call publish visits event b i).log = (visits b).log := by
  unfold call
  dsimp only
  split <;> rfl

/-- The bus does not touch the stored book. -/
theorem call_stored : (call publish visits event b i).book.stored = (visits b).book.stored := by
  unfold call
  dsimp only
  split <;> rfl

end Calls

namespace Recorded

theorem callAll (hhandle : handle.KeepsRecord b₀) (publish : Bus → Event → Bus.Publication)
    (event : Event) (is : List Nat) (h : Recorded b₀ log b.stored) (ht : Announced log cause) :
    Recorded b₀ (log ++ (SharedBook.callAll publish (fun i => handle i cause) event b is).log)
      (SharedBook.callAll publish (fun i => handle i cause) event b is).book.stored := by
  induction is generalizing log b with
  | nil => rwa [SharedBook.callAll, List.append_nil]
  | cons i is ih =>
    have hcall := hhandle i h ht
    rw [← call_log _ publish event b i, ← call_stored _ publish event b i] at hcall
    rw [SharedBook.callAll, ← List.append_assoc]
    exact ih hcall (ht.append _)

theorem publish (hhandle : handle.KeepsRecord b₀)
    (h : Recorded b₀ (log ++ [.published event]) b.stored) (ht : Announced log cause) :
    Recorded b₀ (log ++ (b.publish event fun i => handle i cause).log)
      (b.publish event fun i => handle i cause).book.stored := by
  -- The bus counts the event before it calls anybody, which leaves the stored book alone.
  have hcalls := callAll (b := { b with bus.stats.published := b.bus.stats.published + 1 }) hhandle
    b.bus.inner event (b.bus.receivers event) h (ht.append _)
  rwa [List.append_assoc] at hcalls

/-- A request, by whom it may be: what it does to the stored book and what the subscribers do about
it. -/
theorem perform (hhandle : handle.KeepsRecord b₀) (r : Book.Request)
    (h : Recorded b₀ log b.stored) :
    Recorded b₀ (log ++ (b.perform r handle).log) (b.perform r handle).book.stored := by
  have hturn := h.turn r
  obtain ⟨t, hsettles, heq⟩ := perform_settles b r handle
  rw [heq, hsettles.swap_eq]
  cases hsettles with
  | quiet hevents =>
    rw [hevents] at hturn
    exact hturn
  | told hevents ht =>
    subst ht
    rw [hevents, List.map_singleton, List.append_cons] at hturn
    have hannounced : Announced (log ++ [.turn (r, b.stored.perform r)]) (b.stored.perform r) :=
      ⟨⟨r, List.mem_append_right _ (List.mem_singleton_self _)⟩, by rw [hevents]; nofun⟩
    have htold := publish (b := { b with stored := (b.stored.perform r).book }) hhandle hturn
      hannounced
    rwa [List.append_assoc] at htold

end Recorded

/-- What a subscriber does goes on record, however many requests it makes and whoever is called
about them. -/
theorem Conduct.keepsRecord (c : Conduct) (b₀ : Book) : Handler.KeepsRecord c.run b₀ := by
  induction c with
  | done | fail =>
    intro log b cause i h _
    rwa [run, List.append_nil]
  | read next ih =>
    intro log b cause i h ht
    have hnext := ih b.read i (h.read i ht) (ht.append _)
    rwa [List.append_assoc] at hnext
  | request r' replies next ihreplies ihnext =>
    intro log b cause i h ht
    have hreplies : Handler.KeepsRecord (handler replies) b₀ := fun j => ihreplies j j
    have hrequest := h.perform hreplies r'
    have hnext := ihnext (b.perform r' (handler replies)).outcome i hrequest (ht.append _)
    rwa [List.append_assoc] at hnext

/-- The log of a run. -/
def record (b : SharedBook) (es : List Errand) : List Entry :=
  (machine.trace b es).flatMap Step.log

theorem Recorded.run (h : Recorded b₀ log b.stored) (es : List Errand) :
    Recorded b₀ (log ++ record b es) (machine.after b es).stored := by
  induction es generalizing log b with
  | nil => rwa [record, Machine.trace, List.flatMap_nil, List.append_nil]
  | cons e es ih =>
    have hreplies : Handler.KeepsRecord (Conduct.handler e.replies) b₀ :=
      fun i => (e.replies i).keepsRecord b₀ i
    have hrun := ih (h.perform hreplies e.request)
    rwa [List.append_assoc] at hrun

/-- All that happens in a run goes on record. -/
theorem recorded_run (b : SharedBook) (es : List Errand) :
    Recorded b.stored (record b es) (machine.after b es).stored :=
  Recorded.nil.run es

/-! ## What the record says -/

theorem turns_append_turn (log : List Entry) (t : Book.Turn) (es : List Event) :
    turns (log ++ .turn t :: es.map .published) = turns log ++ [t] := by
  simp [turns, Entry.turn?, List.filterMap_append, List.filterMap_map, Function.comp_def]

theorem turns_append_read (log : List Entry) (cause : Book.Step) (i : Nat) (b : Book) :
    turns (log ++ [.read cause i b]) = turns log := by
  simp [turns, Entry.turn?]

theorem events_append_turn (log : List Entry) (t : Book.Turn) (es : List Event) :
    events (log ++ .turn t :: es.map .published) = events log ++ es := by
  have hpublished : Entry.event? ∘ Entry.published = some := rfl
  rw [events, List.filterMap_append, List.filterMap_cons_none rfl, List.filterMap_map, hpublished,
    List.filterMap_some, events]

theorem events_append_read (log : List Entry) (cause : Book.Step) (i : Nat) (b : Book) :
    events (log ++ [.read cause i b]) = events log := by
  simp [events, Entry.event?]

namespace Recorded

variable {b b' : Book} {front back : List Entry} {i : Nat}

/-- The requests on record are those of a book on its own. -/
theorem turns_eq (h : Recorded b₀ log b) :
    turns log = Book.machine.turns b₀ (requests log) ∧
      b = Book.machine.after b₀ (requests log) := by
  induction h with
  | nil => exact ⟨rfl, rfl⟩
  | turn r _ ih =>
    obtain ⟨hturns, hstored⟩ := ih
    rw [requests, turns_append_turn, List.map_append, ← requests, List.map_singleton,
      Machine.turns_append, Machine.after_append, ← hturns, ← hstored]
    exact ⟨rfl, rfl⟩
  | read i _ _ ih => rwa [requests, turns_append_read]

/-- The events on record are those of the requests on record. -/
theorem events_eq (h : Recorded b₀ log b) :
    events log = (Book.machine.trace b₀ (requests log)).flatMap Book.Step.events := by
  induction h with
  | nil => rfl
  | turn r h ih =>
    obtain ⟨-, hstored⟩ := h.turns_eq
    rw [requests, turns_append_turn, List.map_append, ← requests, List.map_singleton,
      Machine.trace_append, ← hstored, List.flatMap_append, ← ih, events_append_turn]
    exact congrArg _ (List.append_nil _).symm
  | read i _ _ ih => rw [requests, turns_append_read, ← requests, ← ih, events_append_read]

/-- What a subscriber has read is the book that was stored at that point of the record. -/
theorem of_read (h : Recorded b₀ (front ++ .read cause i b' :: back) b) :
    Recorded b₀ front b' ∧ Announced front cause := by
  generalize hlog : front ++ .read cause i b' :: back = log at h
  induction h generalizing back with
  | nil => exact absurd hlog (by simp)
  | @turn _ b r h ih =>
    rcases append_cons_eq_append hlog with ⟨back', rfl⟩ | ⟨front', -, hentries⟩
    · exact ih rfl
    · -- No entry of a turn is a reading.
      have hmem : Entry.read cause i b' ∈
          Entry.turn (r, b.perform r) :: (b.perform r).events.map .published := by
        rw [hentries]
        exact List.mem_append_right _ List.mem_cons_self
      simp at hmem
  | read j h ht ih =>
    rcases append_cons_eq_append hlog with ⟨back', rfl⟩ | ⟨front', rfl, hentries⟩
    · exact ih rfl
    · cases front' with
      | nil =>
        cases hentries
        rw [List.append_nil]
        exact ⟨h, ht⟩
      | cons => simp at hentries

end Recorded

end SharedBook

end MarketDesk
