import MarketDesk.Book.Panel

/-!
What can be asked of a book, as data.
-/

namespace MarketDesk.Book

/-- A request that changes a book. -/
inductive Request where
  | update (asks bids : List Level)
  | apply (s : Snapshot)
  | reset

/-- Handles a request. -/
def perform (b : Book) : Request → Step
  | .update asks bids => b.update asks bids
  | .apply s => b.apply s
  | .reset => b.reset

/-- A request with the step that it leads to. -/
abbrev Turn := Request × Step

end MarketDesk.Book
