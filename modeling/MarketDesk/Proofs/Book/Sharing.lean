import MarketDesk.Proofs.Book.Readers
import MarketDesk.Proofs.Book.Refusal

/-!
# Sharing a book

A shared book gives the answers of the book on its own, goes through the same states and publishes
the same events, whatever its subscribers do (`SharedBook.Follows`). A snapshot that a feed has made
for at least as many levels as the book shows leads to what an update with its levels leads to
(`SharedBook.apply_eq_update`). A subscriber that reads the book when it is called finds the
snapshot that its event tells of (`SharedBook.Told`), unless a subscriber called before it has made
a request of its own by then. All of it is put together in `SharedBook.follows_plain`.
-/

namespace MarketDesk

namespace Book

variable {asks bids : List Level} {n : Nat} {b b' : Book} {s : Snapshot} {r : Request}
  {e : PanelError}

theorem halted_limitedTo (b : Book) (s : Snapshot) :
    b.halted (s.limitedTo b.maxLevels) = b.halted s := by
  rw [halted, Snapshot.limitedTo_limitedTo_self, halted]

theorem stage?_limitedTo (b : Book) (s : Snapshot) :
    b.stage? (s.limitedTo b.maxLevels) = b.stage? s := by
  rw [stage?, halted_limitedTo, stage?]

theorem update_of_ofLevels_eq_error (hb : 0 < b.maxLevels) (hn : b.maxLevels ≤ n)
    (h : Snapshot.ofLevels asks bids n = .error e) : b.update asks bids = ⟨b, .refused e, []⟩ :=
  update_of_rejects hb ((Snapshot.ofLevels_eq_error_iff (hb.trans_le hn)).mp h)

theorem mid_of_stage? (h : b.stage? s = some b') : b'.mid = (s.limitedTo b.maxLevels).mid? := by
  obtain ⟨-, rfl⟩ := derive?_eq_some_iff.mp h
  rfl

/-- **What an event tells** of the swap of the snapshot of `b` for `s` that led to `b'`: the count
of rows and the direction of the book that shows `s` and has the mid price of `s`. -/
structure TellsOf (event : Event) (b : Book) (s : Snapshot) (b' : Book) : Prop where
  staged : b.stage? s = some b'
  notice : event.notice = .bookChanged b'.rowCount b'.direction
  mid : b'.mid = (s.limitedTo b.maxLevels).mid?

/-- The request swaps the snapshot, and there is one event, which tells of it. -/
def Swaps (b : Book) (r : Request) (t : Step) : Prop :=
  ∃ s event, r.snapshot? b.maxLevels = some s ∧ t.events = [event] ∧ TellsOf event b s t.book

/-- A step that has an event has just one, and it tells of the snapshot that the step has shown. -/
theorem swaps_of_events_ne_nil (h : (b.perform r).events ≠ []) : Swaps b r (b.perform r) := by
  have hstep := performs b r
  generalize b.perform r = t at h hstep ⊢
  cases hstep with
  | @shown _ s hs hfits =>
    have hstage : b.stage? s = some (b.halted s).derived :=
      derive?_eq_some_iff.mpr ⟨hfits, rfl⟩
    dsimp only at h ⊢
    split at h
    · rename_i hannounces
      exact ⟨_, _, hs, if_pos hannounces, hstage, rfl, mid_of_stage? hstage⟩
    · exact absurd rfl h
  | broken | refused | reset | noRoom => exact absurd rfl h

/-- A book with subscribers has an event for each snapshot that it shows. -/
theorem exists_event {s : Snapshot} (hb : b.announces) (hs : r.snapshot? b.maxLevels = some s)
    (hdone : (b.perform r).outcome = .done ()) : ∃ event, (b.perform r).events = [event] := by
  have hstep := performs b r
  generalize b.perform r = t at hdone hstep ⊢
  cases hstep with
  | shown => exact ⟨_, if_pos hb⟩
  | broken => cases hdone
  | refused => cases hdone
  | reset => cases hs
  | noRoom => cases hs

end Book

namespace SharedBook

variable {b : SharedBook} {log : List Entry} {e : Errand}

theorem apply_limitedTo (b : SharedBook) (s : Snapshot) (handle : Handler) :
    b.apply (s.limitedTo b.read.maxLevels) handle = b.apply s handle := by
  rw [apply, read, Book.stage?_limitedTo, Book.halted_limitedTo, apply]

/-- A feed that prepares its snapshots for at least as many levels does what an update does, whoever
is called about it. -/
theorem apply_eq_update {asks bids : List Level} {n : Nat} {s : Snapshot}
    (hb : 0 < b.read.maxLevels) (hn : b.read.maxLevels ≤ n)
    (h : Snapshot.ofLevels asks bids n = .ok s) (handle : Handler) :
    b.apply s handle = b.update asks bids handle := by
  have hs := Snapshot.ofLevels_limitedTo hb h
  rw [Nat.min_eq_left hn] at hs
  rw [update, hs]
  exact (b.apply_limitedTo s handle).symm

theorem update_of_ofLevels_eq_error {asks bids : List Level} {n : Nat} {e : PanelError}
    (hb : 0 < b.read.maxLevels) (hn : b.read.maxLevels ≤ n)
    (h : Snapshot.ofLevels asks bids n = .error e) (handle : Handler) :
    b.update asks bids handle = ⟨⟨b.read, .refused e, []⟩, b, [], []⟩ := by
  have hrefused := Book.update_of_ofLevels_eq_error hb hn h
  rw [(update_settles b asks bids handle).eq_of_quiet (congrArg Book.Step.events hrefused)]
  rw [read] at hrefused
  rw [hrefused]
  rfl

/-- **A shared book follows a book on its own.** The requests on record, those of the subscribers
among them, lead to the steps, the events and the book that they lead to without sharing. Whoever
reads the book when it is called finds what the requests left that came after the one it is called
about; if there are none, it is the book that the event tells of. -/
structure Follows (b : Book) (log : List Entry) (b' : Book) : Prop where
  turns : turns log = Book.machine.turns b (requests log)
  events : events log = (Book.machine.trace b (requests log)).flatMap Book.Step.events
  stored : b' = Book.machine.after b (requests log)
  reads : ∀ front cause i found back, log = front ++ .read cause i found :: back →
    ∃ before r later, SharedBook.turns front = before ++ (r, cause) :: later ∧
      Book.Swaps (Book.machine.after b (before.map Prod.fst)) r cause ∧
      found = Book.machine.after cause.book (later.map Prod.fst)

/-- What is on record of a shared book is what a book on its own would have done, request by
request. -/
theorem Recorded.follows {b b' : Book} (h : Recorded b log b') : Follows b log b' where
  turns := h.turns_eq.1
  events := h.events_eq
  stored := h.turns_eq.2
  reads front cause i found back hlog := by
    subst hlog
    obtain ⟨hfront, hannounced⟩ := h.of_read
    obtain ⟨hturns, hfound⟩ := hfront.turns_eq
    obtain ⟨r, hr⟩ := hannounced.turn
    have hmem : (r, cause) ∈ SharedBook.turns front := List.mem_filterMap.mpr ⟨_, hr, rfl⟩
    obtain ⟨before, later, hsplit⟩ := List.append_of_mem hmem
    obtain ⟨hcause, hafter⟩ := Book.machine.eq_of_turns_eq_append (hturns.symm.trans hsplit)
    refine ⟨before, r, later, hsplit, ?_, hfound.trans hafter⟩
    have hevent := hannounced.event
    rw [hcause] at hevent ⊢
    exact Book.swaps_of_events_ne_nil hevent

/-- The first subscriber makes a request of its own when it is called, and the second finds the book
that this one has left. -/
example :
    let bus := (({} : Bus).subscribe { id := "1", topic := none }).subscribe
      { id := "2", topic := none }
    let b : SharedBook := ⟨(Book.holding ⟨[], [], 1⟩).announcing, bus⟩
    let log := (b.handle ⟨.update [⟨.two, .one⟩] [], fun
      | 0 => .request (.update [] []) (fun _ => .done) fun _ => .done
      | _ => .read fun _ => .done⟩).log
    log.any fun | .read cause _ found => found ≠ cause.book | _ => false := by
  decide +kernel

/-- **What is told of a request** to subscribers that make none: they are all called about the one
event of a swap, and whoever reads the book finds what the event tells of. -/
structure Told (b : SharedBook) (e : Errand) (t : Step) : Prop where
  read : t.book.read = t.swap.book
  log : t.log = .turn (e.request, t.swap) :: tellings e.replies b.bus t.swap
  found : ∀ {cause i found}, .read cause i found ∈ t.log →
    found = t.swap.book ∧ Book.Swaps b.read e.request t.swap
  called : b.read.announces → ∀ s, e.request.snapshot? b.read.maxLevels = some s →
    t.outcome = .done () → ∃ event, t.swap.events = [event]

/-- Subscribers that make no request find the book of the swap, since nobody changes it while they
are called. -/
theorem told_of_watched (h : e.Watched) (b : SharedBook) : Told b e (b.handle e) := by
  obtain ⟨hstored, hlog⟩ := handle_of_watched h b
  have hswap : (b.handle e).swap = b.stored.perform e.request := swap_perform b e.request _
  refine ⟨hstored, hlog, fun hmem => ?_, fun hannounces s hs hdone => ?_⟩
  · rw [hlog] at hmem
    have hread := (List.mem_cons.mp hmem).resolve_left nofun
    obtain ⟨-, hfound⟩ := of_read_mem_tellings hread
    refine ⟨hfound, ?_⟩
    have hevents : (b.handle e).swap.events ≠ [] := by
      intro hnil
      rw [tellings, hnil] at hread
      cases hread
    rw [hswap] at hevents ⊢
    exact Book.swaps_of_events_ne_nil hevents
  · rw [Step.outcome, hswap] at hdone
    rw [hswap]
    exact Book.exists_event hannounces hs hdone

/-- **A shared book is the book that it stores.** Whatever its subscribers do, all requests are
answered and published as those of the book on its own, which goes through the same states. If they
only read, its steps are those of the book on its own, and if they do not fail either, the bus does
what it does for a book that publishes to it. At any moment a snapshot that was made of two lists of
levels for at least the book's limit leads to the same step as an update with the lists; if there is
no such snapshot, the update is refused for the same cause. And subscribers that only read find the
book as the request leaves it, which shows the snapshot of the request and is what the event tells
of. -/
theorem follows_plain (hb : 0 < b.read.maxLevels) (es : List Errand) :
    Follows b.read (record b es) (machine.after b es).read ∧
    ((∀ e ∈ es, e.Watched) → (machine.trace b es).map Step.plain =
      Book.machine.trace b.read (es.map Errand.request)) ∧
    ((∀ e ∈ es, e.Attended) → (machine.trace b es).map Step.fed =
      Book.wired.trace (b.read, b.bus) (es.map Errand.request)) ∧
    ∀ shared, machine.after b es = shared →
      (∀ asks bids n, b.read.maxLevels ≤ n → ∀ handle,
        (∀ s, Snapshot.ofLevels asks bids n = .ok s →
          shared.apply s handle = shared.update asks bids handle) ∧
        ∀ e, Snapshot.ofLevels asks bids n = .error e →
          shared.update asks bids handle = ⟨⟨shared.read, .refused e, []⟩, shared, [], []⟩) ∧
      ∀ e : Errand, e.Watched → Told shared e (shared.handle e) := by
  have hfollows := (recorded_run b es).follows
  refine ⟨hfollows, fun h => (trace_of_watched b h).1, fun h => (trace_of_attended b h).1, ?_⟩
  rintro shared rfl
  have hlimit : (machine.after b es).read.maxLevels = b.read.maxLevels := by
    rw [read, hfollows.stored, Book.maxLevels_after]
    rfl
  generalize machine.after b es = shared at hlimit
  rw [← hlimit] at hb ⊢
  exact ⟨fun asks bids n hn handle => ⟨fun s hs => apply_eq_update hb hn hs handle,
    fun e he => update_of_ofLevels_eq_error hb hn he handle⟩,
    fun e he => told_of_watched he shared⟩

/-- A book for one level on a bus with three subscribers, of which the second fails at each event
and the others read the book. After an update and a refused one, a feed's snapshot of three levels
does what an update does, and it is read twice. -/
theorem follows_plain_after_refused :
    ∃ b es shared, machine.after b es = shared ∧
      Follows b.read (record b es) shared.read ∧
      (machine.trace b es).map Step.plain = Book.machine.trace b.read (es.map Errand.request) ∧
      ∃ s e, e.request = .apply s ∧ s.maxLevels = 3 ∧
        (∀ handle, shared.apply s handle = shared.update s.asks s.bids handle) ∧
        Told shared e (shared.handle e) ∧ (shared.handle e).log.length = 4 := by
  let bus : Bus := (["1", "2", "3"].map fun id => ({ id, topic := none } : Subscription)).foldl
    Bus.subscribe {}
  let b : SharedBook := ⟨(Book.holding ⟨[], [], 1⟩).announcing, bus⟩
  let replies : Nat → Conduct := fun
    | 1 => .fail
    | _ => .read fun _ => .done
  let es : List Errand := [⟨.update [⟨.two, .one⟩] [⟨.one, .one⟩], replies⟩,
    ⟨.update [⟨.two, .extreme true⟩] [], replies⟩]
  let s : Snapshot := ⟨[⟨.two, .two⟩, ⟨.two, .one⟩], [⟨.one, .one⟩], 3⟩
  have hroom : 0 < b.read.maxLevels := Nat.one_pos
  have hreplies (i : Nat) : (replies i).Watches := by
    match i with
    | 1 => exact .fail
    | 0 | _ + 2 => exact .read fun _ => .done
  obtain ⟨hfollows, hplain, -, hafter⟩ := follows_plain hroom es
  obtain ⟨hlevels, htold⟩ := hafter _ rfl
  refine ⟨b, es, _, rfl, hfollows, hplain ?_, s, ⟨.apply s, replies⟩, rfl, rfl, fun handle => ?_,
    htold _ hreplies, ?_⟩
  · simp only [es, List.forall_mem_cons]
    exact ⟨hreplies, hreplies, nofun⟩
  · exact (hlevels s.asks s.bids 3 (by decide) handle).1 s rfl
  · decide +kernel

end SharedBook

end MarketDesk
