import MarketDesk.Book.Level
import MarketDesk.Outcome

/-!
Snapshots of a book as the feed delivers them. A snapshot keeps the order in which the levels came:
it neither sorts nor merges them, it drops removed levels and cuts each side to its limit.
-/

namespace MarketDesk

/-- The two sides of a book at one moment, the best level first. -/
structure Snapshot where
  asks : List Level
  bids : List Level
  maxLevels : Nat
deriving DecidableEq

namespace Snapshot

/-- One side of a snapshot: refused for its first negative size, otherwise the first `maxLevels`
levels that are not removed. -/
def side (maxLevels : Nat) (levels : List Level) : Except PanelError (List Level) :=
  match levels.find? (fun l => l.size.isNegative) with
  | some bad => .error (.negativeSize bad.price)
  | none => .ok ((levels.filter (fun l => !l.isRemoved)).take maxLevels)

/-- The snapshot of two lists of levels. The asks are checked before the bids. -/
def ofLevels (asks bids : List Level) (maxLevels : Nat) : Except PanelError Snapshot :=
  if maxLevels = 0 then .error .noLevels
  else do
    let asks ← side maxLevels asks
    let bids ← side maxLevels bids
    pure ⟨asks, bids, maxLevels⟩

/-- The snapshot without levels. -/
def empty (maxLevels : Nat) : Except PanelError Snapshot :=
  ofLevels [] [] maxLevels

/-- The snapshot narrowed to a smaller limit; a larger one changes nothing. -/
def limitedTo (s : Snapshot) (maxLevels : Nat) : Snapshot :=
  if maxLevels < s.maxLevels then
    ⟨s.asks.take maxLevels, s.bids.take maxLevels, maxLevels⟩
  else s

def bestAsk? (s : Snapshot) : Option Level := s.asks.head?

def bestBid? (s : Snapshot) : Option Level := s.bids.head?

def isTwoSided (s : Snapshot) : Bool := !s.asks.isEmpty && !s.bids.isEmpty

/-- All levels, the asks first. -/
def levels (s : Snapshot) : List Level := s.asks ++ s.bids

end Snapshot

end MarketDesk
