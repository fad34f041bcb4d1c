import MarketDesk.Proofs.Book.Refusal
import MarketDesk.Proofs.Book.Rows
import MarketDesk.Proofs.Decimal.Rounded
import MarketDesk.Proofs.Results

/-!
# Books at other scales

Two books may be the same but for the scales of their decimals (`Book.Rescaled`). Then so is what
they compute beside the levels (`Book.Rescaled.derived`), since every operation on decimals is exact
but for one rounding that does not see the scales, and so are their rows (`Book.Rescaled.listed`);
a snapshot of the same levels leaves them like that (`Book.apply_rescaled`).
-/

namespace MarketDesk

variable {α β γ δ : Type} {R : α → β → Prop} {T : γ → δ → Prop}

/-! ## Answers -/

/-- The same cause, at a price of the same value where there is one. -/
inductive PanelError.Rescaled : PanelError → PanelError → Prop
  | rowOutOfRange (index rowCount : Nat) :
    Rescaled (.rowOutOfRange index rowCount) (.rowOutOfRange index rowCount)
  | negativeSize {price price' : Decimal} : price ≈ price' →
    Rescaled (.negativeSize price) (.negativeSize price')
  | noLevels : Rescaled .noLevels .noLevels

/-- Both are granted, refused for the same cause, or broken. -/
inductive Outcome.Rel (R : α → β → Prop) : Outcome α → Outcome β → Prop
  | done {a : α} {b : β} : R a b → Rel R (.done a) (.done b)
  | refused {e e' : PanelError} : e.Rescaled e' → Rel R (.refused e) (.refused e')
  | broken : Rel R .broken .broken

/-- Both are there, or both are refused for the same cause. -/
inductive CheckedRel (R : α → β → Prop) : Except PanelError α → Except PanelError β → Prop
  | ok {a : α} {b : β} : R a b → CheckedRel R (.ok a) (.ok b)
  | error {e e' : PanelError} : e.Rescaled e' → CheckedRel R (.error e) (.error e')

theorem CheckedRel.bind {c : Except PanelError α} {c' : Except PanelError β}
    {f : α → Except PanelError γ} {f' : β → Except PanelError δ} (h : CheckedRel R c c')
    (hf : ∀ {a b}, R a b → CheckedRel T (f a) (f' b)) : CheckedRel T (c >>= f) (c' >>= f') := by
  cases h with
  | ok hab => exact hf hab
  | error he => exact .error he

namespace Outcome

/-- Lists of related results are collected alike: into related lists, or not at all. -/
theorem rel_collect {os : List (Outcome α)} {os' : List (Outcome β)}
    (h : List.Forall₂ (Rel R) os os') :
    Option.Rel (List.Forall₂ R) (collect os) (collect os') := by
  induction h with
  | nil => exact .some .nil
  | cons hhead _ ih =>
    cases hhead with
    | done hab =>
      rw [collect, collect]
      generalize collect _ = o at ih
      generalize collect _ = o' at ih
      cases ih with
      | some hrest => exact .some (.cons hab hrest)
      | none => exact .none
    | refused => exact ih
    | broken => exact .none

end Outcome

/-! ## Levels -/

/-- The same level at other scales. -/
structure Level.Rescaled (l l' : Level) : Prop where
  price : l.price ≈ l'.price
  size : l.size ≈ l'.size

namespace Level

variable {l l' : Level} {ls ls' : List Level}

theorem Rescaled.total? (h : l.Rescaled l') : Option.Rel (· ≈ ·) l.total? l'.total? :=
  Decimal.mul?_congr h.price h.size

theorem Rescaled.isRemoved (h : l.Rescaled l') : l.isRemoved = l'.isRemoved :=
  Decimal.isZero_congr h.size

theorem rescaled_standing (h : List.Forall₂ Rescaled ls ls') :
    List.Forall₂ Rescaled (standing ls) (standing ls') := by
  refine List.rel_filter (fun l l' hl => ?_) h
  dsimp only
  rw [hl.isRemoved]

end Level

/-! ## Snapshots -/

/-- The same levels at other scales, in the same order. -/
structure Snapshot.Rescaled (s s' : Snapshot) : Prop where
  asks : List.Forall₂ Level.Rescaled s.asks s'.asks
  bids : List.Forall₂ Level.Rescaled s.bids s'.bids
  maxLevels : s.maxLevels = s'.maxLevels

namespace Snapshot

variable {asks asks' bids bids' ls ls' : List Level} {s s' : Snapshot}

/-- Rescaled sides are refused or prepared alike. -/
theorem side_rescaled (h : List.Forall₂ Level.Rescaled ls ls') (n : Nat) :
    CheckedRel (List.Forall₂ Level.Rescaled) (side n ls) (side n ls') := by
  have hfind : Option.Rel Level.Rescaled (ls.find? fun l => l.size.isNegative)
      (ls'.find? fun l => l.size.isNegative) :=
    rel_find? h fun hl => Decimal.isNegative_congr hl.size
  unfold side
  generalize ls.find? _ = bad at hfind
  generalize ls'.find? _ = bad' at hfind
  cases hfind with
  | some hl => exact .error (.negativeSize hl.price)
  | none => exact .ok (List.forall₂_take n (Level.rescaled_standing h))

theorem ofLevels_rescaled (hasks : List.Forall₂ Level.Rescaled asks asks')
    (hbids : List.Forall₂ Level.Rescaled bids bids') (n : Nat) :
    CheckedRel Rescaled (ofLevels asks bids n) (ofLevels asks' bids' n) := by
  unfold ofLevels
  split
  · exact .error .noLevels
  · refine (side_rescaled hasks n).bind fun hasks => ?_
    refine (side_rescaled hbids n).bind fun hbids => ?_
    exact .ok ⟨hasks, hbids, rfl⟩

theorem Rescaled.limitedTo (h : s.Rescaled s') (n : Nat) :
    (s.limitedTo n).Rescaled (s'.limitedTo n) := by
  unfold Snapshot.limitedTo
  rw [h.maxLevels]
  split
  · exact ⟨List.forall₂_take n h.asks, List.forall₂_take n h.bids, rfl⟩
  · exact h

theorem Rescaled.levels (h : s.Rescaled s') :
    List.Forall₂ Level.Rescaled s.levels s'.levels :=
  List.rel_append h.asks h.bids

/-- Two prices at other scales. -/
def PricesRescaled (p p' : Decimal × Decimal) : Prop := p.1 ≈ p'.1 ∧ p.2 ≈ p'.2

/-- Rescaled snapshots have rescaled tops, or neither has both. -/
theorem Rescaled.best? (h : s.Rescaled s') : Option.Rel PricesRescaled s.best? s'.best? := by
  have hask := rel_head? h.asks
  have hbid := rel_head? h.bids
  unfold Snapshot.best? bestAsk? bestBid?
  generalize s.asks.head? = ask at hask
  generalize s'.asks.head? = ask' at hask
  generalize s.bids.head? = bid at hbid
  generalize s'.bids.head? = bid' at hbid
  cases hask with
  | none => exact .none
  | some hask =>
    cases hbid with
    | none => exact .none
    | some hbid => exact .some ⟨hask.price, hbid.price⟩

end Snapshot

namespace Book

/-- Mid prices of prices with the same values have the same value, or both overflow: neither the sum
nor the halves see the scale. -/
theorem midOf?_congr {ask ask' bid bid' : Decimal} (hask : ask ≈ ask') (hbid : bid ≈ bid') :
    Option.Rel (· ≈ ·) (midOf? ask bid) (midOf? ask' bid') := by
  have hsum := Decimal.add?_congr hask hbid
  unfold midOf?
  generalize ask.add? bid = sum at hsum
  generalize ask'.add? bid' = sum' at hsum
  cases hsum with
  | some h => exact Decimal.half?_congr h
  | none =>
    refine rel_bind (Decimal.half?_congr hask) fun hask => ?_
    refine rel_bind (Decimal.half?_congr hbid) fun hbid => ?_
    exact Decimal.add?_congr hask hbid

end Book

namespace Snapshot

variable {s s' : Snapshot}

theorem Rescaled.mid? (h : s.Rescaled s') : Option.Rel (· ≈ ·) s.mid? s'.mid? :=
  rel_bind h.best? fun hp => Book.midOf?_congr hp.1 hp.2

theorem Rescaled.spread? (h : s.Rescaled s') : Option.Rel (· ≈ ·) s.spread? s'.spread? :=
  rel_bind h.best? fun hp => Decimal.sub?_congr hp.1 hp.2

theorem Rescaled.overflows_iff (h : s.Rescaled s') : s.Overflows ↔ s'.Overflows := by
  unfold Overflows
  rw [rel_isSome h.best?, rel_eq_none_iff h.mid?]

end Snapshot

theorem Direction.between_congr {previous previous' : Option Decimal} {mid mid' : Decimal}
    (hprevious : Option.Rel (· ≈ ·) previous previous') (hmid : mid ≈ mid') :
    between previous mid = between previous' mid' := by
  cases hprevious with
  | none => rfl
  | some h =>
    simp only [between, Decimal.lt_congr h hmid, Decimal.lt_congr hmid h]

/-! ## Books -/

/-- Two books are the same but for the scales of their decimals. -/
structure Book.Rescaled (b b' : Book) : Prop where
  snapshot : b.snapshot.Rescaled b'.snapshot
  maxLevels : b.maxLevels = b'.maxLevels
  mid : Option.Rel (· ≈ ·) b.mid b'.mid
  spread : Option.Rel (· ≈ ·) b.spread b'.spread
  direction : b.direction = b'.direction
  maxAmount : b.maxAmount ≈ b'.maxAmount
  lastMid : Option.Rel (· ≈ ·) b.lastMid b'.lastMid
  updates : b.updates = b'.updates
  announces : b.announces = b'.announces

/-- The same row but for the scales of its decimals; the bar is not compared. -/
structure Row.Rescaled (row row' : Row) : Prop where
  kind : row.kind = row'.kind
  price : Option.Rel (· ≈ ·) row.price row'.price
  size : Option.Rel (· ≈ ·) row.size row'.size
  total : Option.Rel (· ≈ ·) row.total row'.total
  spread : Option.Rel (· ≈ ·) row.spread row'.spread
  tone : row.tone = row'.tone

namespace Book

variable {b b' : Book} {s s' : Snapshot} {l l' : Level}

theorem foldl_maxRight_congr {sizes sizes' : List Decimal} {a a' : Decimal}
    (h : List.Forall₂ (· ≈ ·) sizes sizes') (ha : a ≈ a') :
    sizes.foldl Decimal.maxRight a ≈ sizes'.foldl Decimal.maxRight a' := by
  induction h generalizing a a' with
  | nil => exact ha
  | cons hsize _ ih => exact ih (Decimal.maxRight_congr ha hsize)

theorem largest_congr {sizes sizes' : List Decimal} (h : List.Forall₂ (· ≈ ·) sizes sizes') :
    largest sizes ≈ largest sizes' := by
  cases h with
  | nil => exact Setoid.refl Decimal.one
  | cons hhead hrest => exact foldl_maxRight_congr hrest hhead

/-- Everything that is computed from a snapshot depends on the values of its decimals alone. -/
theorem Rescaled.derived (h : b.Rescaled b') : b.derived.Rescaled b'.derived where
  snapshot := h.snapshot
  maxLevels := h.maxLevels
  mid := h.snapshot.mid?
  spread := h.snapshot.spread?
  direction := by
    have hmid := h.snapshot.mid?
    have hlast := h.lastMid
    unfold Book.derived
    dsimp only
    generalize b.snapshot.mid? = mid at hmid
    generalize b'.snapshot.mid? = mid' at hmid
    cases hmid with
    | none => rfl
    | some hmid => exact Direction.between_congr hlast hmid
  maxAmount := largest_congr (List.rel_map (fun _ _ hl => hl.size) h.snapshot.levels)
  lastMid := h.snapshot.mid?
  updates := h.updates
  announces := h.announces

theorem Rescaled.halted (h : b.Rescaled b') (hs : s.Rescaled s') :
    (b.halted s).Rescaled (b'.halted s') where
  snapshot := by
    rw [Book.halted, Book.halted, h.maxLevels]
    exact hs.limitedTo b'.maxLevels
  maxLevels := h.maxLevels
  mid := h.mid
  spread := h.spread
  direction := h.direction
  maxAmount := h.maxAmount
  lastMid := h.lastMid
  updates := congrArg (· + 1) h.updates
  announces := h.announces

theorem Rescaled.forgetful (h : b.Rescaled b') : b.forgetful.Rescaled b'.forgetful :=
  { h with direction := rfl, lastMid := .none }

theorem holding_rescaled (h : s.Rescaled s') : (holding s).Rescaled (holding s') where
  snapshot := h
  maxLevels := h.maxLevels
  mid := .none
  spread := .none
  direction := rfl
  maxAmount := Setoid.refl Decimal.one
  lastMid := .none
  updates := rfl
  announces := rfl

theorem Rescaled.blank (h : b.Rescaled b') : b.blank.Rescaled b'.blank where
  snapshot := ⟨.nil, .nil, h.maxLevels⟩
  maxLevels := h.maxLevels
  mid := .none
  spread := .none
  direction := rfl
  maxAmount := Setoid.refl Decimal.one
  lastMid := .none
  updates := rfl
  announces := h.announces

theorem Rescaled.rowCount (h : b.Rescaled b') : b.rowCount = b'.rowCount := by
  rw [Book.rowCount, Book.rowCount, h.snapshot.asks.length_eq, h.snapshot.bids.length_eq]

theorem Rescaled.changeEvent (h : b.Rescaled b') : b.changeEvent = b'.changeEvent := by
  rw [Book.changeEvent, Book.changeEvent, h.rowCount, h.direction]

/-! ## Rows -/

theorem Rescaled.levelRow (h : b.Rescaled b') (kind : RowKind) (tone : Tone)
    (hl : l.Rescaled l') :
    Outcome.Rel Row.Rescaled (b.levelRow kind tone l) (b'.levelRow kind tone l') := by
  have hshare := Decimal.div?_congr hl.size h.maxAmount
  unfold Book.levelRow depth? share?
  generalize l.size.div? b.maxAmount = share at hshare
  generalize l'.size.div? b'.maxAmount = share' at hshare
  cases hshare with
  | none => exact .broken
  | some => exact .done ⟨rfl, .some hl.price, .some hl.size, hl.total?, .none, rfl⟩

theorem Rescaled.midRow (h : b.Rescaled b') : b.midRow.Rescaled b'.midRow :=
  ⟨rfl, h.mid, .none, .none, h.spread, congrArg Direction.tone h.direction⟩

theorem Rescaled.listed (h : b.Rescaled b') :
    List.Forall₂ (Outcome.Rel Row.Rescaled) b.listed b'.listed := by
  refine List.rel_append ?_ (.cons (.done h.midRow) ?_)
  · exact List.rel_map (fun _ _ hl => h.levelRow .ask .negative hl) h.snapshot.asks
  · exact List.rel_map (fun _ _ hl => h.levelRow .bid .positive hl) h.snapshot.bids

theorem Rescaled.rows? (h : b.Rescaled b') :
    Option.Rel (List.Forall₂ Row.Rescaled) b.rows? b'.rows? := by
  rw [rows?_eq, rows?_eq]
  exact Outcome.rel_collect h.listed

theorem Rescaled.rowAt (h : b.Rescaled b') (index : Nat) :
    Outcome.Rel Row.Rescaled (b.rowAt index) (b'.rowAt index) := by
  have hrow := rel_getElem? h.listed index
  rw [rowAt_eq, rowAt_eq, h.rowCount]
  generalize b.listed[index]? = row at hrow
  generalize b'.listed[index]? = row' at hrow
  cases hrow with
  | some h => exact h
  | none => exact .refused (.rowOutOfRange index b'.rowCount)

/-! ## Steps -/

/-- The same answer and the same events; the book afterwards at other scales. -/
structure Step.Rescaled (t t' : Step) : Prop where
  book : t.book.Rescaled t'.book
  outcome : Outcome.Rel (· = ·) t.outcome t'.outcome
  events : t.events = t'.events

/-- Showing rescaled snapshots leads to rescaled steps; both break or neither does. -/
theorem apply_rescaled (h : b.Rescaled b') (hs : s.Rescaled s') :
    (b.apply s).Rescaled (b'.apply s') := by
  have hhalted := h.halted hs
  by_cases hover : (s.limitedTo b.maxLevels).Overflows
  · have hover' : (s'.limitedTo b'.maxLevels).Overflows :=
      hhalted.snapshot.overflows_iff.mp hover
    rw [apply_of_overflows hover, apply_of_overflows hover']
    exact ⟨hhalted, .broken, rfl⟩
  · have hover' : ¬ (s'.limitedTo b'.maxLevels).Overflows :=
      mt hhalted.snapshot.overflows_iff.mpr hover
    rw [apply_of_not_overflows hover, apply_of_not_overflows hover']
    refine ⟨hhalted.derived, .done rfl, ?_⟩
    dsimp only
    rw [h.announces, hhalted.derived.changeEvent]

end Book

end MarketDesk
