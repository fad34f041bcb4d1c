import MarketDesk.Book.Shared
import MarketDesk.Proofs.Book.Run
import MarketDesk.Proofs.Machine

/-!
# Books as machines

A book on its own handles requests, a shared book handles them together with what its subscribers do
when they are told. Under the lock, a request to the shared book does to the stored book what it
does to a book on its own; what follows is left to the bus and the subscribers
(`SharedBook.perform_settles`).
-/

namespace MarketDesk

namespace Book

/-- A book on its own. -/
def machine : Machine Book Request Step := ⟨perform, Step.book⟩

theorem trace_cons (b : Book) (r : Request) (rs : List Request) :
    machine.trace b (r :: rs) = b.perform r :: machine.trace (b.perform r).book rs := rfl

theorem maxLevels_after (b : Book) (rs : List Request) :
    (machine.after b rs).maxLevels = b.maxLevels :=
  Machine.after_keeps (I := fun b' : Book => b'.maxLevels = b.maxLevels)
    (fun r h => (maxLevels_perform _ r).trans h) rfl rs

end Book

namespace SharedBook

/-- A shared book with subscribers. -/
def machine : Machine SharedBook Errand Step := ⟨SharedBook.handle, Step.book⟩

/-- **What follows a swap**: nothing if there is no event to tell of, and otherwise the subscribers
are called about it. -/
inductive Settles (b : SharedBook) (handle : Handler) (swap : Book.Step) : Step → Prop
  | quiet : swap.events = [] →
    Settles b handle swap ⟨swap, { b with stored := swap.book }, [], []⟩
  | told {event : Event} {t : Telling} : swap.events = [event] →
    SharedBook.publish { b with stored := swap.book } event (fun i => handle i swap) = t →
    Settles b handle swap ⟨swap, t.book, [t.answer], t.log⟩

namespace Settles

variable {b : SharedBook} {handle : Handler} {swap : Book.Step} {t : Step}

theorem swap_eq (h : Settles b handle swap t) : t.swap = swap := by
  cases h <;> rfl

theorem eq_of_quiet (h : Settles b handle swap t) (hswap : swap.events = []) :
    t = ⟨swap, { b with stored := swap.book }, [], []⟩ := by
  cases h with
  | quiet => rfl
  | told htold =>
    rw [hswap] at htold
    cases htold

end Settles

/-- A snapshot is staged under the lock as by the book on its own, and what follows depends on its
event. -/
theorem apply_settles (b : SharedBook) (s : Snapshot) (handle : Handler) :
    Settles b handle (b.stored.apply s) (b.apply s handle) := by
  unfold apply Book.apply
  cases h : b.stored.stage? s with
  | none => exact .quiet rfl
  | some stored =>
    have hannounces : stored.announces = b.stored.announces := by
      obtain ⟨-, rfl⟩ := Book.derive?_eq_some_iff.mp h
      rfl
    dsimp only
    rw [← hannounces]
    split
    · exact .told rfl rfl
    · exact .quiet rfl

theorem update_settles (b : SharedBook) (asks bids : List Level) (handle : Handler) :
    Settles b handle (b.stored.update asks bids) (b.update asks bids handle) := by
  unfold update Book.update
  rw [read]
  cases Snapshot.ofLevels asks bids b.stored.maxLevels with
  | error e => exact .quiet rfl
  | ok s => exact apply_settles b s handle

/-- **A request to a shared book** does to the stored book what it does to a book on its own. -/
theorem perform_settles (b : SharedBook) (r : Book.Request) (handle : Handler) :
    ∃ t, Settles b handle (b.stored.perform r) t ∧
      b.perform r handle = { t with log := .turn (r, t.swap) :: t.log } := by
  cases r with
  | update asks bids => exact ⟨_, update_settles b asks bids handle, rfl⟩
  | apply s => exact ⟨_, apply_settles b s handle, rfl⟩
  | reset =>
    have hquiet : b.stored.reset.events = [] := by
      rcases Nat.eq_zero_or_pos b.stored.maxLevels with hn | hn
      · rw [Book.reset_of_zero hn]
      · rw [Book.reset_of_pos hn]
    exact ⟨_, .quiet hquiet, rfl⟩

/-- What happens under the lock is what a snapshot does to the book on its own. -/
theorem swap_apply (b : SharedBook) (s : Snapshot) (handle : Handler) :
    (b.apply s handle).swap = b.stored.apply s :=
  (apply_settles b s handle).swap_eq

theorem swap_update (b : SharedBook) (asks bids : List Level) (handle : Handler) :
    (b.update asks bids handle).swap = b.stored.update asks bids :=
  (update_settles b asks bids handle).swap_eq

theorem swap_perform (b : SharedBook) (r : Book.Request) (handle : Handler) :
    (b.perform r handle).swap = b.stored.perform r := by
  obtain ⟨t, ht, heq⟩ := perform_settles b r handle
  rw [heq]
  exact ht.swap_eq

end SharedBook

end MarketDesk
