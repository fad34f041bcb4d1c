import MarketDesk.Proofs.Book.Announcement
import MarketDesk.Proofs.Book.Chronicle

/-!
# Subscribers that only read

A subscriber that makes no request of its own (`SharedBook.Conduct.Watches`) leaves the shared book
alone, so that every subscriber of an event finds what the first one found. What is on record of a
request is then fixed by the step of the book on its own: its event, and the readings of those who
get it (`SharedBook.handle_of_watched`). A run is the run of the book on its own
(`SharedBook.trace_of_watched`), and if nobody fails either, the bus does what it would do for a
book that publishes to it directly (`SharedBook.trace_of_attended`).
-/

namespace MarketDesk.SharedBook

namespace Conduct

/-- It makes no request, whatever it finds. -/
inductive Watches : Conduct → Prop
  | done : Watches .done
  | fail : Watches .fail
  | read {next : Book → Conduct} : (∀ b, Watches (next b)) → Watches (.read next)

/-- How often it reads as long as the book stays the same. -/
def looks (b : Book) : Conduct → Nat
  | .read next => looks b (next b) + 1
  | _ => 0

/-- It fails if the book stays the same. -/
def fails (b : Book) : Conduct → Bool
  | .fail => true
  | .read next => fails b (next b)
  | _ => false

/-- The shared book comes back as it was, with one reading on record for each look. -/
theorem Watches.run_eq {c : Conduct} (h : c.Watches) (i : Nat) (cause : Book.Step)
    (b : SharedBook) : c.run i cause b =
      ⟨b, [], c.fails b.stored, .replicate (c.looks b.stored) (.read cause i b.stored)⟩ := by
  induction h with
  | done | fail => rfl
  | read _ ih =>
    rw [run, SharedBook.read, ih]
    rfl

/-- It makes no request and does not fail, whatever it finds. -/
inductive Attends : Conduct → Prop
  | done : Attends .done
  | read {next : Book → Conduct} : (∀ b, Attends (next b)) → Attends (.read next)

theorem Attends.watches {c : Conduct} (h : c.Attends) : c.Watches := by
  induction h with
  | done => exact .done
  | read _ ih => exact .read ih

theorem Attends.run_eq {c : Conduct} (h : c.Attends) (i : Nat) (cause : Book.Step)
    (b : SharedBook) : c.run i cause b =
      ⟨b, [], false, .replicate (c.looks b.stored) (.read cause i b.stored)⟩ := by
  have hfails : c.fails b.stored = false := by
    induction h with
    | done => rfl
    | read _ ih => exact ih b.stored
  rw [h.watches.run_eq, hfails]

end Conduct

/-- The readings of a change by the subscribers that get its event. -/
def readings (replies : Nat → Conduct) (cause : Book.Step) (is : List Nat) : List Entry :=
  is.flatMap fun i => .replicate ((replies i).looks cause.book) (.read cause i cause.book)

section Calls

variable {replies : Nat → Conduct} {cause : Book.Step} {b : SharedBook}
  (publish : Bus → Event → Bus.Publication) (event : Event)

/-- The subscribers are called one after another, and none of them finds another book. -/
theorem callAll_of_watches (h : ∀ i, (replies i).Watches) (hb : b.stored = cause.book)
    (is : List Nat) :
    (callAll publish (fun i => Conduct.handler replies i cause) event b is).book.stored =
        cause.book ∧
      (callAll publish (fun i => Conduct.handler replies i cause) event b is).log =
        readings replies cause is := by
  induction is generalizing b with
  | nil => exact ⟨hb, rfl⟩
  | cons i is ih =>
    have hvisit := (h i).run_eq i cause b
    have hstored := call_stored ((replies i).run i cause) publish event b i
    have hlog := call_log ((replies i).run i cause) publish event b i
    rw [hvisit, hb] at hstored hlog
    obtain ⟨hstored', hlog'⟩ := ih hstored
    exact ⟨hstored', congrArg₂ (· ++ ·) hlog hlog'⟩

/-- The bus calls those that do not fail as if they did not turn to the book. -/
theorem callAll_of_attends (h : ∀ i, (replies i).Attends) (hb : b.stored = cause.book)
    (is : List Nat) {r : Bus.Round} (hr : Bus.visitAll publish event b.bus is = r) :
    callAll publish (fun i => Conduct.handler replies i cause) event b is =
      ⟨{ b with bus := r.bus }, r.notes, r.delivered, r.failed, readings replies cause is⟩ := by
  subst hr
  induction is generalizing b with
  | nil => rfl
  | cons i is ih =>
    have hcall : call publish (Conduct.handler replies i cause) event b i =
        ⟨{ b with bus := (Bus.visit publish event b.bus i).bus },
          (Bus.visit publish event b.bus i).notes, (Bus.visit publish event b.bus i).failed,
          .replicate ((replies i).looks b.stored) (.read cause i b.stored)⟩ := by
      rw [call, Conduct.handler, (h i).run_eq i cause b]
      rfl
    have hrest := ih (b := { b with bus := (Bus.visit publish event b.bus i).bus }) hb
    rw [callAll, hcall]
    dsimp only at hrest ⊢
    rw [hrest, hb]
    rfl

/-- Publishing to subscribers that make no requests leaves the stored book alone. -/
theorem publish_of_watches (h : ∀ i, (replies i).Watches) (hb : b.stored = cause.book) :
    (b.publish event fun i => Conduct.handler replies i cause).book.stored = cause.book ∧
      (b.publish event fun i => Conduct.handler replies i cause).log =
        .published event :: readings replies cause (b.bus.receivers event) := by
  have hcalls := callAll_of_watches b.bus.inner event h
    (b := { b with bus.stats.published := b.bus.stats.published + 1 }) hb (b.bus.receivers event)
  exact ⟨hcalls.1, congrArg (List.cons _) hcalls.2⟩

/-- Publishing to subscribers that do not fail either is publishing to the bus alone. -/
theorem publish_of_attends (h : ∀ i, (replies i).Attends) (hb : b.stored = cause.book) :
    b.publish event (fun i => Conduct.handler replies i cause) =
      ⟨{ b with bus := (b.bus.publish event).bus }, b.bus.publish event,
        .published event :: readings replies cause (b.bus.receivers event)⟩ := by
  have hcalls := callAll_of_attends b.bus.inner event h
    (b := { b with bus.stats.published := b.bus.stats.published + 1 }) hb (b.bus.receivers event)
    rfl
  dsimp only at hcalls
  rw [publish, hcalls, Bus.publish_eq_publishOnce]
  rfl

end Calls

/-- **What is on record of telling** those who get the events of a step and do not change the book:
each event and the readings of it. -/
def tellings (replies : Nat → Conduct) (bus : Bus) (swap : Book.Step) : List Entry :=
  swap.events.flatMap fun event =>
    .published event :: readings replies swap (bus.receivers event)

variable {replies : Nat → Conduct} {swap cause : Book.Step} {b : SharedBook} {t : Step}
  {e : Errand} {found : Book} {bus : Bus} {i : Nat}

/-- All of them read the book that the step has left. -/
theorem of_read_mem_tellings (h : .read cause i found ∈ tellings replies bus swap) :
    cause = swap ∧ found = swap.book := by
  obtain ⟨event, -, hevent⟩ := List.mem_flatMap.mp h
  rcases List.mem_cons.mp hevent with h | h
  · cases h
  · obtain ⟨j, -, hj⟩ := List.mem_flatMap.mp h
    cases List.eq_of_mem_replicate hj
    exact ⟨rfl, rfl⟩

/-- What follows a swap is then fixed by the swap and the bus. -/
theorem Settles.of_watches (hsettles : Settles b (Conduct.handler replies) swap t)
    (h : ∀ i, (replies i).Watches) :
    t.book.stored = swap.book ∧ t.log = tellings replies b.bus swap := by
  cases hsettles with
  | quiet hevents =>
    rw [tellings, hevents]
    exact ⟨rfl, rfl⟩
  | told hevents ht =>
    subst ht
    rw [tellings, hevents, List.flatMap_singleton]
    exact publish_of_watches _ h rfl

/-- The request comes with subscribers that make none. -/
def Errand.Watched (e : Errand) : Prop := ∀ i, (e.replies i).Watches

/-- The request comes with subscribers that make none and do not fail. -/
def Errand.Attended (e : Errand) : Prop := ∀ i, (e.replies i).Attends

theorem Errand.Attended.watched (h : e.Attended) : e.Watched := fun i => (h i).watches

/-- **A request with subscribers that make none**: the stored book is what the lock was given back
with, and the record has the turn, its event and the readings of it. -/
theorem handle_of_watched (h : e.Watched) (b : SharedBook) :
    (b.handle e).book.stored = (b.handle e).swap.book ∧
      (b.handle e).log =
        .turn (e.request, (b.handle e).swap) :: tellings e.replies b.bus (b.handle e).swap := by
  obtain ⟨t, hsettles, heq⟩ := perform_settles b e.request (Conduct.handler e.replies)
  obtain ⟨hstored, hlog⟩ := hsettles.of_watches h
  rw [handle, heq, hsettles.swap_eq]
  exact ⟨hstored, congrArg (List.cons _) hlog⟩

/-- A step of a shared book as a step of a book that publishes to the bus. -/
def Step.fed (t : Step) : Machine.Fed Book.Step Bus Bus.Publication :=
  ⟨t.swap, t.answers, t.book.bus⟩

/-- Under the lock a request is handled as without sharing, and the bus gets the same event. -/
theorem handle_of_attended (h : e.Attended) (b : SharedBook) :
    (b.handle e).fed = Book.wired.perform (b.stored, b.bus) e.request := by
  have hwired : Book.wired.perform (b.stored, b.bus) e.request =
      ⟨b.stored.perform e.request, Bus.machine.trace b.bus (b.stored.perform e.request).events,
        Bus.machine.after b.bus (b.stored.perform e.request).events⟩ := rfl
  obtain ⟨t, hsettles, heq⟩ := perform_settles b e.request (Conduct.handler e.replies)
  rw [handle, heq, hwired]
  cases hsettles with
  | quiet hevents =>
    rw [hevents]
    rfl
  | told hevents ht =>
    subst ht
    rw [hevents, publish_of_attends _ h rfl]
    rfl

/-- A step of a shared book as a step of a book on its own, with the events on record. -/
def Step.plain (t : Step) : Book.Step := ⟨t.book.read, t.outcome, events t.log⟩

theorem events_readings (replies : Nat → Conduct) (cause : Book.Step) (is : List Nat) :
    events (readings replies cause is) = [] := by
  refine List.filterMap_eq_nil_iff.mpr fun entry h => ?_
  obtain ⟨i, -, hi⟩ := List.mem_flatMap.mp h
  rw [List.eq_of_mem_replicate hi]
  rfl

theorem events_tellings (replies : Nat → Conduct) (bus : Bus) (swap : Book.Step) :
    events (tellings replies bus swap) = swap.events := by
  have htold (event : Event) : List.filterMap Entry.event?
      (.published event :: readings replies swap (bus.receivers event)) = [event] :=
    congrArg (List.cons event) (events_readings replies swap (bus.receivers event))
  rw [events, tellings, List.filterMap_flatMap]
  simp only [htold, List.flatMap_singleton']

/-- One step of a shared book is one step of the book that it stores. -/
theorem plain_handle (h : e.Watched) (b : SharedBook) :
    (b.handle e).plain = b.stored.perform e.request := by
  obtain ⟨hstored, hlog⟩ := handle_of_watched h b
  have hevents : events (b.handle e).log = (b.handle e).swap.events := by
    rw [hlog, events, List.filterMap_cons_none rfl, ← events, events_tellings]
  rw [Step.plain, read, hstored, hevents, ← swap_perform b e.request]
  rfl

/-- A shared book whose subscribers only read is the book that it stores. -/
theorem trace_of_watched (b : SharedBook) {es : List Errand} (h : ∀ e ∈ es, e.Watched) :
    (machine.trace b es).map Step.plain = Book.machine.trace b.stored (es.map Errand.request) ∧
      (machine.after b es).stored = Book.machine.after b.stored (es.map Errand.request) := by
  have hperform (b : SharedBook) (e : Errand) (he : e.Watched) :
      Book.machine.perform b.stored e.request = (machine.perform b e).plain :=
    (plain_handle he b).symm
  exact ⟨(Machine.trace_map hperform (fun _ _ _ => rfl) b es h).symm,
    (Machine.after_map hperform (fun _ _ _ => rfl) b es h).symm⟩

/-- If they do not fail either, it does to the bus what the book on its own would do. -/
theorem trace_of_attended (b : SharedBook) {es : List Errand} (h : ∀ e ∈ es, e.Attended) :
    (machine.trace b es).map Step.fed =
        Book.wired.trace (b.stored, b.bus) (es.map Errand.request) ∧
      ((machine.after b es).stored, (machine.after b es).bus) =
        Book.wired.after (b.stored, b.bus) (es.map Errand.request) := by
  have hperform (b : SharedBook) (e : Errand) (he : e.Attended) :
      Book.wired.perform (b.stored, b.bus) e.request = (machine.perform b e).fed :=
    (handle_of_attended he b).symm
  have hnext (b : SharedBook) (e : Errand) (he : e.Attended) :
      Book.wired.next (machine.perform b e).fed =
        ((machine.perform b e).book.stored, (machine.perform b e).book.bus) :=
    congrArg (·, _) (handle_of_watched he.watched b).1.symm
  exact ⟨(Machine.trace_map (f := fun b => (b.stored, b.bus)) hperform hnext b es h).symm,
    (Machine.after_map (f := fun b => (b.stored, b.bus)) hperform hnext b es h).symm⟩

end MarketDesk.SharedBook
