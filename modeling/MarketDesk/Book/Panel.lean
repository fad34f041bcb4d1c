import MarketDesk.Book.Row
import MarketDesk.Book.Snapshot
import MarketDesk.Decimal.Division
import MarketDesk.Decimal.Double
import MarketDesk.Notice.Event

/-!
The order book panel. A book takes snapshots one after another; what it shows beside the levels (mid
price, spread, direction, the base of the depth bars) is computed once for each snapshot. The only
thing it remembers from earlier snapshots is the last mid price.

Each request to a book is a function to a `Book.Step`: the book afterwards, how the request ended
and the events that were published. A snapshot whose mid price no decimal can hold breaks the
request when the levels are already replaced (`Book.halted`).
-/

namespace MarketDesk

/-- The state of the order book panel. -/
structure Book where
  snapshot : Snapshot
  /-- No snapshot shows more levels on a side than this. -/
  maxLevels : Nat
  mid : Option Decimal := none
  spread : Option Decimal := none
  direction : Direction := .flat
  /-- The size that fills a depth bar. -/
  maxAmount : Decimal := .one
  lastMid : Option Decimal := none
  /-- The number of snapshots since the book was made or reset. -/
  updates : Nat := 1
  /-- Changes are published. -/
  announces : Bool := false
deriving DecidableEq

namespace Book

/-- The price halfway between the best prices: half their sum or, where no decimal can hold the sum,
the sum of their halves. -/
def midOf? (ask bid : Decimal) : Option Decimal :=
  match ask.add? bid with
  | some sum => sum.half?
  | none => do (← ask.half?).add? (← bid.half?)

/-- The largest of some sizes and of equal ones the last; one if there are none. -/
def largest : List Decimal → Decimal
  | [] => .one
  | a :: rest => rest.foldl Decimal.maxRight a

/-- Computes from the levels what is shown beside them. A book with an empty side has no mid price
and forgets the last one. -/
def derive? (b : Book) : Option Book :=
  let maxAmount := largest (b.snapshot.levels.map Level.size)
  match b.snapshot.bestAsk?, b.snapshot.bestBid? with
  | some ask, some bid => do
    let mid ← midOf? ask.price bid.price
    pure { b with
      mid := some mid
      spread := ask.price.sub? bid.price
      direction := .between b.lastMid mid
      lastMid := some mid
      maxAmount }
  | _, _ =>
    some { b with mid := none, spread := none, direction := .flat, lastMid := none, maxAmount }

/-- The book that starts with a snapshot. -/
def ofSnapshot (s : Snapshot) : Outcome Book :=
  .ofOption (derive? { snapshot := s, maxLevels := s.maxLevels })

/-- The book that starts with two lists of levels. -/
def ofLevels (asks bids : List Level) (maxLevels : Nat) : Outcome Book :=
  match Snapshot.ofLevels asks bids maxLevels with
  | .ok s => ofSnapshot s
  | .error e => .refused e

/-- The empty book. -/
def new (maxLevels : Nat) : Outcome Book :=
  ofLevels [] [] maxLevels

/-- The book with its changes published from now on. -/
def announcing (b : Book) : Book := { b with announces := true }

def rowCount (b : Book) : Nat :=
  b.snapshot.asks.length + 1 + b.snapshot.bids.length

/-- The event that tells of the book's present snapshot. -/
def changeEvent (b : Book) : Event :=
  .of (.bookChanged b.rowCount b.direction) "order_book"

/-- What a request to a book leads to. -/
structure Step where
  book : Book
  outcome : Outcome Unit
  events : List Event
deriving DecidableEq

/-- The book with the levels of another snapshot, cut to the book's limit, and the old values beside
them. -/
def halted (b : Book) (s : Snapshot) : Book :=
  { b with snapshot := s.limitedTo b.maxLevels, updates := b.updates + 1 }

/-- The book that shows another snapshot; none if its mid price has no decimal. -/
def stage? (b : Book) (s : Snapshot) : Option Book :=
  derive? (b.halted s)

/-- Shows another snapshot and publishes the change. -/
def apply (b : Book) (s : Snapshot) : Step :=
  match b.stage? s with
  | some b' => ⟨b', .done (), if b.announces then [b'.changeEvent] else []⟩
  | none => ⟨b.halted s, .broken, []⟩

/-- Shows the snapshot of two lists of levels. A refused one leaves the book as it is. -/
def update (b : Book) (asks bids : List Level) : Step :=
  match Snapshot.ofLevels asks bids b.maxLevels with
  | .ok s => b.apply s
  | .error e => ⟨b, .refused e, []⟩

/-- The book without any reference to earlier mid prices. -/
def forgetful (b : Book) : Book := { b with lastMid := none, direction := .flat }

/-- Empties the book and starts counting anew. Nothing is published. -/
def reset (b : Book) : Step :=
  match Snapshot.empty b.maxLevels with
  | .error e => ⟨b.forgetful, .refused e, []⟩
  | .ok s =>
    match derive? { b.forgetful with snapshot := s } with
    | some b' => ⟨{ b' with updates := 0 }, .done (), []⟩
    | none => ⟨{ b.forgetful with snapshot := s }, .broken, []⟩

/-- The slot of a row. -/
def slotAt (b : Book) (index : Nat) : Outcome Slot :=
  match Slot.ofIndex? index b.snapshot.asks.length b.snapshot.bids.length with
  | some s => .done s
  | none => .refused (.rowOutOfRange index b.rowCount)

/-- The row number of a slot, if it is in the range of row numbers. -/
def indexOf? (b : Book) (s : Slot) : Option Nat :=
  s.toIndex? b.snapshot.asks.length

/-- A size as a share of the largest size in the book. -/
def share? (b : Book) (size : Decimal) : Option Decimal :=
  size.div? b.maxAmount

/-- The length of the depth bar of a size. -/
def depth? (b : Book) (size : Decimal) : Option Float :=
  (b.share? size).map Decimal.toFloat

/-- The row of a level. -/
def levelRow (b : Book) (kind : RowKind) (tone : Tone) (l : Level) : Outcome Row :=
  .ofOption <| (b.depth? l.size).map fun depth =>
    { kind, price := some l.price, size := some l.size, total := l.total?, spread := none, depth,
      tone }

/-- The row of the mid price. -/
def midRow (b : Book) : Row :=
  { kind := .mid, price := b.mid, size := none, total := none, spread := b.spread, depth := 1.0,
    tone := b.direction.tone }

/-- The row in a slot; nothing if the book has no such slot. -/
def row? (b : Book) : Slot → Option (Outcome Row)
  | .ask i => b.snapshot.asks[i]?.map (b.levelRow .ask .negative)
  | .bid i => b.snapshot.bids[i]?.map (b.levelRow .bid .positive)
  | .mid => some (.done b.midRow)

/-- The row of a number. -/
def rowAt (b : Book) (index : Nat) : Outcome Row :=
  match b.slotAt index with
  | .done s => (b.row? s).getD (.refused (.rowOutOfRange index b.rowCount))
  | .refused e => .refused e
  | .broken => .broken

/-- All rows from the top; none if the bar of one of them cannot be computed. -/
def rows? (b : Book) : Option (List Row) :=
  Outcome.collect ((List.range b.rowCount).map b.rowAt)

end Book

end MarketDesk
