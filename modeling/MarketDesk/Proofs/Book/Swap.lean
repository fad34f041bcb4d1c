import MarketDesk.Proofs.Book.Coherence
import MarketDesk.Proofs.Book.MidRange
import MarketDesk.Proofs.Book.Readers

/-!
# Swapping the snapshot of a shared book

A request to a shared book should leave the book as it was or make it show another snapshot with
everything that follows from it (`SharedBook.AllOrNothing`). It does, except where the tops of both
sides have one extreme price: the mid price is missing then, the request breaks after the levels are
replaced, and the readers find the new levels beside the old values
(`SharedBook.allOrNothing_iff_not_extremeTops`).
-/

namespace MarketDesk

namespace SharedBook

variable {n m : Nat} {asks bids : List Level} {b : SharedBook} {s : Snapshot}

/-- `b'` is what `b` becomes with another snapshot: the snapshot cut to the limit, everything beside
the levels computed from it, the direction by the last mid price of `b`, and one update more. -/
structure Swapped (b : Book) (s : Snapshot) (b' : Book) : Prop where
  snapshot : b'.snapshot = s.limitedTo b.maxLevels
  coherent : Book.Coherent b.maxLevels b'
  direction : b'.direction = b'.mid.elim .flat (.between b.lastMid)
  updates : b'.updates = b.updates + 1
  announces : b'.announces = b.announces

/-- The book is as it was or shows the snapshot. -/
def AllOrNothing (b : Book) (s : Snapshot) (b' : Book) : Prop :=
  b' = b ∨ Swapped b s b'

theorem extremeTops_of_ofLevels (hs : Snapshot.ofLevels asks bids n = .ok s) :
    Level.ExtremeTops s.asks s.bids ↔
      Level.ExtremeTops (Level.standing asks) (Level.standing bids) := by
  obtain ⟨hn, -, -, rfl⟩ := Snapshot.ofLevels_eq_ok_iff.mp hs
  exact Level.extremeTops_take hn

/-- A swap that does not break leaves the book of the new snapshot. -/
theorem swapped_apply {b : Book} (hb : 0 < b.maxLevels) (hs : s.Built)
    (h : ¬ Level.ExtremeTops s.asks s.bids) : Swapped b s (b.apply s).book := by
  have hfits := mt (Book.limitedTo_overflows_iff hb).mp h
  rw [Book.apply_of_not_overflows hfits]
  exact ⟨rfl, Book.halted_coherent rfl hb hs hfits, rfl, rfl, rfl⟩

/-- A request that breaks leaves what is left of the book, and nobody is told. -/
theorem apply_of_extremeTops (hb : 0 < b.read.maxLevels) (h : Level.ExtremeTops s.asks s.bids)
    (handle : Handler) : b.apply s handle =
      ⟨⟨b.read.halted s, .broken, []⟩, { b with stored := b.read.halted s }, [], []⟩ := by
  have hbreaks : b.stored.apply s = ⟨b.stored.halted s, .broken, []⟩ := Book.apply_breaks hb h
  rw [(apply_settles b s handle).eq_of_quiet (by rw [hbreaks]), hbreaks]
  rfl

/-- No book at all is what the swap should lead to, since its mid price would be missing. -/
theorem not_swapped_of_extremeTops {b b' : Book} (hb : 0 < b.maxLevels)
    (h : Level.ExtremeTops s.asks s.bids) : ¬ Swapped b s b' := by
  intro hswap
  refine hswap.coherent.not_overflows ?_
  rw [hswap.snapshot]
  exact (Book.limitedTo_overflows_iff hb).mpr h

theorem halted_ne (b : Book) (s : Snapshot) : b.halted s ≠ b := by
  intro heq
  have hupdates : b.updates + 1 = b.updates := congrArg Book.updates heq
  omega

/-- A swap that breaks leaves the new levels in the old book, which is neither of the two. -/
theorem apply_allOrNothing_iff (hb : 0 < b.read.maxLevels) (hs : s.Built) (handle : Handler) :
    AllOrNothing b.read s (b.apply s handle).swap.book ↔
      ¬ Level.ExtremeTops s.asks s.bids := by
  constructor
  · intro hall hextreme
    rw [apply_of_extremeTops hb hextreme] at hall
    rcases hall with hsame | hswap
    · exact halted_ne _ _ hsame
    · exact not_swapped_of_extremeTops hb hextreme hswap
  · intro h
    rw [swap_apply]
    exact .inr (swapped_apply hb hs h)

/-- **What readers find** of a step when the subscribers make no requests: the book that the lock
was given back with, whether they read it while they are called or afterwards. -/
structure Shows (t : Step) : Prop where
  afterwards : t.book.read = t.swap.book
  called : ∀ {cause i found}, .read cause i found ∈ t.log → found = t.swap.book

/-- While the subscribers make no requests, there is one book for all readers. -/
theorem apply_shows (b : SharedBook) (s : Snapshot) {replies : Nat → Conduct}
    (h : ∀ i, (replies i).Watches) : Shows (b.apply s (Conduct.handler replies)) := by
  have hsettles := apply_settles b s (Conduct.handler replies)
  obtain ⟨hstored, hlog⟩ := hsettles.of_watches h
  rw [← hsettles.swap_eq] at hstored hlog
  exact ⟨hstored, fun hmem => (of_read_mem_tellings (hlog ▸ hmem)).2⟩

/-- **The swap is all or nothing except at the extreme prices.** A shared book that has handled any
requests is given two lists of levels, as a snapshot for any number of levels or in an update. When
the lock is given back, the book is as it was or shows the levels just if the first standing levels
do not share an extreme price; that is what is read afterwards and by the subscribers of the event,
until one of them makes a request of its own. If they do share one, the request breaks and the
readers find the new levels, counted, beside everything that was shown with the old ones. -/
theorem allOrNothing_iff_not_extremeTops (h : Book.Reached Snapshot.Built m b.read)
    (hs : Snapshot.ofLevels asks bids n = .ok s) (replies : Nat → Conduct) :
    (AllOrNothing b.read s (b.apply s (Conduct.handler replies)).swap.book ↔
      ¬ Level.ExtremeTops (Level.standing asks) (Level.standing bids)) ∧
    ((∀ i, (replies i).Watches) → Shows (b.apply s (Conduct.handler replies))) ∧
    (Level.ExtremeTops (Level.standing asks) (Level.standing bids) →
      b.apply s (Conduct.handler replies) =
        ⟨⟨b.read.halted s, .broken, []⟩, { b with stored := b.read.halted s }, [], []⟩) ∧
    ∃ s', Snapshot.ofLevels asks bids b.read.maxLevels = .ok s' ∧
      b.update asks bids (Conduct.handler replies) = b.apply s' (Conduct.handler replies) ∧
      (AllOrNothing b.read s' (b.update asks bids (Conduct.handler replies)).swap.book ↔
        ¬ Level.ExtremeTops (Level.standing asks) (Level.standing bids)) := by
  have hb := h.maxLevels_pos
  obtain ⟨-, hasks, hbids, -⟩ := Snapshot.ofLevels_eq_ok_iff.mp hs
  obtain ⟨s', hs'⟩ : ∃ s', Snapshot.ofLevels asks bids b.read.maxLevels = .ok s' :=
    ⟨_, Snapshot.ofLevels_of_allValid hb hasks hbids⟩
  have hupdate : b.update asks bids (Conduct.handler replies) =
      b.apply s' (Conduct.handler replies) := by
    rw [update, hs']
  refine ⟨?_, apply_shows b s, ?_, s', hs', hupdate, ?_⟩
  · rw [← extremeTops_of_ofLevels hs]
    exact apply_allOrNothing_iff hb ⟨_, _, _, hs⟩ _
  · rw [← extremeTops_of_ofLevels hs]
    exact fun hextreme => apply_of_extremeTops hb hextreme _
  · rw [hupdate, ← extremeTops_of_ofLevels hs']
    exact apply_allOrNothing_iff hb ⟨_, _, _, hs'⟩ _

/-- An empty book that is given the least price on both sides. -/
theorem torn_at_least_price :
    ¬ AllOrNothing (.holding ⟨[], [], 1⟩) ⟨[⟨.extreme true, .one⟩], [⟨.extreme true, .one⟩], 1⟩
      (apply { stored := .holding ⟨[], [], 1⟩ }
        ⟨[⟨.extreme true, .one⟩], [⟨.extreme true, .one⟩], 1⟩
        (Conduct.handler fun _ => .done)).swap.book := by
  have hopened := Book.opened_empty Snapshot.Built Nat.one_pos
  have hs : Snapshot.ofLevels [⟨.extreme true, .one⟩] [⟨.extreme true, .one⟩] 1 =
      .ok ⟨[⟨.extreme true, .one⟩], [⟨.extreme true, .one⟩], 1⟩ := rfl
  have hiff := allOrNothing_iff_not_extremeTops (b := { stored := .holding ⟨[], [], 1⟩ })
    (.opened hopened) hs fun _ => .done
  exact fun hall => hiff.1.mp hall ⟨true, rfl, rfl⟩

/-- A book with a mid price that is given the largest price on both sides: the reader finds the new
levels and the old mid price. -/
theorem torn_at_largest_price :
    ∃ b t, Book.ofLevels [⟨.two, .one⟩] [⟨.one, .one⟩] 1 = .done b ∧
      update { stored := b } [⟨.extreme false, .one⟩] [⟨.extreme false, .one⟩]
        (Conduct.handler fun _ => .done) = t ∧
      t.book.read.snapshot = ⟨[⟨.extreme false, .one⟩], [⟨.extreme false, .one⟩], 1⟩ ∧
      t.book.read.mid = b.mid ∧
      ¬ AllOrNothing b ⟨[⟨.extreme false, .one⟩], [⟨.extreme false, .one⟩], 1⟩ t.book.read := by
  let b : Book := (Book.holding ⟨[⟨.two, .one⟩], [⟨.one, .one⟩], 1⟩).derived
  let s : Snapshot := ⟨[⟨.extreme false, .one⟩], [⟨.extreme false, .one⟩], 1⟩
  have hbuilt : s.Built := ⟨[⟨.extreme false, .one⟩], [⟨.extreme false, .one⟩], 1, rfl⟩
  have hroom : 0 < b.maxLevels := Nat.one_pos
  refine ⟨b, _, ?_, rfl, ?_, ?_, ?_⟩
  · decide +kernel
  · decide +kernel
  · decide +kernel
  · intro hall
    have hshows : Shows (apply { stored := b } s (Conduct.handler fun _ => .done)) :=
      apply_shows _ s fun _ => .done
    have hswap : AllOrNothing b s (apply { stored := b } s (Conduct.handler _)).swap.book :=
      hshows.afterwards ▸ hall
    exact (apply_allOrNothing_iff (b := { stored := b }) hroom hbuilt _).mp hswap ⟨false, rfl, rfl⟩

end SharedBook

end MarketDesk
