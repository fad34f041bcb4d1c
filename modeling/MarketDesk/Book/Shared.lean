import MarketDesk.Book.Request
import MarketDesk.Notice.Bus

/-!
A book between a feed, its readers and the subscribers of its changes. The book stands behind a
lock: who has the lock works on the book itself, and for all others there is a shared book again
when the lock is given back, also after a request that broke. A snapshot is staged and stored under
the lock and the change is published afterwards, so that the subscribers of the bus find the lock
free. They may read the book and make requests of their own, which are published while those behind
them still wait for the first event.

What a subscriber does about the book is its own affair and may differ from one call to the next: a
request comes with the conduct of the subscribers that are called about it (`SharedBook.Conduct`).
-/

namespace MarketDesk

/-- A book that several parties hold, and the bus to which it publishes if it has subscribers. -/
structure SharedBook where
  stored : Book
  bus : Bus := {}
deriving DecidableEq

namespace SharedBook

/-- The stored book. -/
def read (b : SharedBook) : Book := b.stored

/-- What is on record about a shared book. -/
inductive Entry where
  /-- A request was handled and the lock was given back; nobody was told yet. -/
  | turn (t : Book.Turn)
  /-- An event went to the bus. -/
  | published (event : Event)
  /-- The subscriber at a position, called about the change of a step, read the book. -/
  | read (cause : Book.Step) (subscriber : Nat) (found : Book)

/-! ## Publishing -/

/-- What calling a subscriber leads to. -/
structure Visit where
  book : SharedBook
  notes : List Note
  failed : Bool
  log : List Entry

/-- The subscribers: what the one at a position does with the shared book when it is called about
the change of a step. -/
abbrev Handler := Nat → Book.Step → SharedBook → Visit

/-- Calls subscriber `i`, which turns to the book first and to the bus afterwards. -/
def call (publish : Bus → Event → Bus.Publication) (handle : SharedBook → Visit) (e : Event)
    (b : SharedBook) (i : Nat) : Visit :=
  let v := handle b
  if v.failed then v
  else
    let w := Bus.visit publish e v.book.bus i
    ⟨{ v.book with bus := w.bus }, v.notes ++ w.notes, w.failed, v.log⟩

/-- Calls of several subscribers, one after another. -/
structure Round where
  book : SharedBook
  notes : List Note
  delivered : Nat
  failed : Nat
  log : List Entry

def callAll (publish : Bus → Event → Bus.Publication) (handle : Nat → SharedBook → Visit)
    (e : Event) : SharedBook → List Nat → Round
  | b, [] => ⟨b, [], 0, 0, []⟩
  | b, i :: is =>
    let v := call publish (handle i) e b i
    let r := callAll publish handle e v.book is
    { r with
      notes := v.notes ++ r.notes
      delivered := r.delivered + (if v.failed then 0 else 1)
      failed := r.failed + (if v.failed then 1 else 0)
      log := v.log ++ r.log }

/-- What publishing a change leads to: the book when all subscribers were called, and the answer of
the bus. -/
structure Telling where
  book : SharedBook
  answer : Bus.Publication
  log : List Entry

/-- Publishes a change to the bus, whose subscribers turn to the book when they are called. -/
def publish (b : SharedBook) (e : Event) (handle : Nat → SharedBook → Visit) : Telling :=
  let counted := { b.bus with stats := { b.bus.stats with published := b.bus.stats.published + 1 } }
  let r := callAll b.bus.inner handle e { b with bus := counted } (b.bus.receivers e)
  let stats := { r.book.bus.stats with
    deliveries := r.book.bus.stats.deliveries + r.delivered
    errors := r.book.bus.stats.errors + r.failed }
  let bus := { r.book.bus with stats }
  ⟨{ r.book with bus }, ⟨bus, r.notes, r.delivered⟩, .published e :: r.log⟩

/-! ## Requests -/

/-- What a request to a shared book leads to. -/
structure Step where
  /-- What it led to when the lock was given back and nobody was told yet. -/
  swap : Book.Step
  /-- The shared book when everybody was told. -/
  book : SharedBook
  /-- The answers of the bus. -/
  answers : List Bus.Publication
  /-- What happened after the lock was given back. -/
  log : List Entry

namespace Step

/-- How the request ended. A subscriber that fails does not break it. -/
def outcome (s : Step) : Outcome Unit := s.swap.outcome

/-- What the subscribers noted. -/
def notes (s : Step) : List Note := s.answers.flatMap Bus.Publication.notes

end Step

/-- Shows another snapshot. The stored book is replaced under the lock, by what is left of it if
staging breaks; the change goes to the bus when the lock is free. -/
def apply (b : SharedBook) (s : Snapshot) (handle : Handler) : Step :=
  match b.stored.stage? s with
  | none =>
    let stored := b.stored.halted s
    ⟨⟨stored, .broken, []⟩, { b with stored }, [], []⟩
  | some stored =>
    let free := { b with stored }
    if stored.announces then
      let swap := ⟨stored, .done (), [stored.changeEvent]⟩
      let t := free.publish stored.changeEvent fun i => handle i swap
      ⟨swap, t.book, [t.answer], t.log⟩
    else ⟨⟨stored, .done (), []⟩, free, [], []⟩

/-- Shows the snapshot of two lists of levels, limited as the stored book is. -/
def update (b : SharedBook) (asks bids : List Level) (handle : Handler) : Step :=
  match Snapshot.ofLevels asks bids b.read.maxLevels with
  | .ok s => b.apply s handle
  | .error e => ⟨⟨b.read, .refused e, []⟩, b, [], []⟩

/-- Empties the stored book under the lock. Nothing is published. -/
def reset (b : SharedBook) : Step :=
  let s := b.stored.reset
  ⟨s, { b with stored := s.book }, [], []⟩

/-- Handles a request and puts it on record. -/
def perform (b : SharedBook) (r : Book.Request) (handle : Handler) : Step :=
  let s := match r with
    | .update asks bids => b.update asks bids handle
    | .apply s => b.apply s handle
    | .reset => b.reset
  { s with log := .turn (r, s.swap) :: s.log }

/-! ## Subscribers -/

/-- What a subscriber does with the shared book when it is called. What it does next may depend on
the book that it has read and on how its request ended. -/
inductive Conduct where
  | done
  | fail
  | read (next : Book → Conduct)
  /-- It makes a request of its own; the subscribers that are called about it behave as given. -/
  | request (r : Book.Request) (replies : Nat → Conduct) (next : Outcome Unit → Conduct)

/-- What the subscriber at a position, called about the change of a step, does with the book. -/
def Conduct.run : Conduct → Handler
  | .done, _, _, b => ⟨b, [], false, []⟩
  | .fail, _, _, b => ⟨b, [], true, []⟩
  | .read next, i, cause, b =>
    let v := (next b.read).run i cause b
    { v with log := .read cause i b.read :: v.log }
  | .request r replies next, i, cause, b =>
    let s := b.perform r fun j => (replies j).run j
    let v := (next s.outcome).run i cause s.book
    { v with notes := s.notes ++ v.notes, log := s.log ++ v.log }

/-- The subscribers at their positions. -/
def Conduct.handler (replies : Nat → Conduct) : Handler := fun i => (replies i).run i

/-- A request with what the subscribers that are called about it do, by their positions. -/
structure Errand where
  request : Book.Request
  replies : Nat → Conduct

/-- Handles a request with its subscribers. -/
def handle (b : SharedBook) (e : Errand) : Step :=
  b.perform e.request (Conduct.handler e.replies)

end SharedBook

end MarketDesk
