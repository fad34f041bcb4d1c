import MarketDesk.Book.Snapshot
import MarketDesk.History.Order

/-!
The market of the demonstration: ten levels on each side that move up and down as a whole, and eight
orders that all can be cancelled.
-/

namespace MarketDesk.Demo

/-- The number of levels on a side. -/
def depth : Nat := 10

/-- The asks: from 100.50 upwards in steps of one, sizes from 1.5 in steps of 0.1. -/
def asks? (offset : Int) : Option (List Level) :=
  (List.range depth).mapM fun (i : Nat) => do
    let base ← Decimal.ofParts? 10050 2
    let shift ← Decimal.ofParts? (i + offset) 0
    pure ⟨← base.add? shift, ← Decimal.ofParts? (15 + i) 1⟩

/-- The bids: from 100 downwards in steps of one, sizes from 2.0 in steps of 0.2. -/
def bids? (offset : Int) : Option (List Level) :=
  (List.range depth).mapM fun (i : Nat) => do
    pure ⟨← Decimal.ofParts? (100 - i + offset) 0, ← Decimal.ofParts? (20 + 2 * i) 1⟩

/-- Both sides, moved by `offset`. -/
def snapshot (offset : Int) (maxLevels : Nat) : Outcome Snapshot :=
  match asks? offset, bids? offset with
  | some asks, some bids =>
    match Snapshot.ofLevels asks bids maxLevels with
    | .ok s => .done s
    | .error e => .refused e
  | _, _ => .broken

/-- The moment of the latest order. -/
def latest : Instant :=
  ⟨⟨2025, 1, 26, by decide⟩, 63000, 0, by decide, by decide, by decide⟩

/-- The order with number `i`, which is five minutes older than the one before it. -/
def order (i : Nat) : Order where
  id := Text.ofNat (1000 + i)
  symbol := "ETH/USDT"
  time := (latest.later? (-5 * i)).getD latest
  type := if i % 2 = 0 then .stopLimit else .limit
  side := if i % 3 = 0 then .sell else .buy
  price := .ofParts 90 2
  amount := .ofParts 85 1
  filledPercent := .ofParts 10 0
  total := .ofParts 715 0
  status := if i % 2 = 0 then .partlyFilled else .live

def orders : List Order := (List.range 8).map order

end MarketDesk.Demo
