import Mathlib.Algebra.GroupWithZero.Nat
import Mathlib.Data.List.DropRight
import MarketDesk.Notice.Bus
import MarketDesk.Proofs.Machine

/-!
# Delivery and accounting of the bus

A bus is subscribed to, publishes events and has its counters reset (`Bus.service`). Its subscribers
either take note of an event or fail at it, and the bus does not know which it will be: each
publication comes with those that fail. `Bus.publish_eq` says what publishing leads to when no
subscriber calls back, for any bus; from it follow who is called at each point of a run and what the
counters say there (`Bus.delivers_and_accounts`).
-/

namespace MarketDesk.Bus

/-- What is asked of a bus. A subscriber gives its name and the topic it wants, or none for all
events. Whether a subscriber fails is its own affair and may change from one event to the next, so a
publication comes with the positions of those that fail at it. -/
inductive Request where
  | subscribe (id : String) (topic : Option String)
  | publish (event : Event) (fails : Nat → Bool)
  | resetStats

/-- A subscriber as the bus knows it: its name and the topic it asked for. -/
abbrev Registration := String × Option String

namespace Request

def registration? : Request → Option Registration
  | .subscribe id topic => some (id, topic)
  | _ => none

def isReset : Request → Bool
  | .resetStats => true
  | _ => false

def isPublish : Request → Bool
  | .publish .. => true
  | _ => false

end Request

/-- The bus with the subscribers at the given positions about to fail and the others not. -/
def poised (n : Bus) (fails : Nat → Bool) : Bus :=
  { n with subscriptions := n.subscriptions.mapIdx fun i s =>
      { s with reaction := if fails i then some ⟨none, .fail⟩ else none } }

/-- Handles a request. Only a publication calls subscribers. -/
def handle (n : Bus) : Request → Publication
  | .subscribe id topic => ⟨n.subscribe { id, topic }, [], 0⟩
  | .publish e fails => (n.poised fails).publish e
  | .resetStats => ⟨n.resetStats, [], 0⟩

/-- A bus that is asked by any number of holders, one after another. -/
def service : Machine Bus Request Publication := ⟨handle, Publication.bus⟩

/-! ## Calls -/

section Calls

variable {α : Type}

/-- Those of a list that come first for a topic, and then those that asked for just this topic, each
with its position. -/
def called (topic : α → Option String) (t : String) (all : List α) : List (α × Nat) :=
  all.zipIdx.filter (fun p => topic p.1 == none) ++
    all.zipIdx.filter (fun p => topic p.1 == some t)

variable {topic : α → Option String} {t : String} {all : List α}

theorem mem_called_iff {p : α × Nat} : p ∈ called topic t all ↔
    all[p.2]? = some p.1 ∧ (topic p.1 = none ∨ topic p.1 = some t) := by
  simp only [called, List.mem_append, List.mem_filter, List.mem_zipIdx_iff_getElem?, beq_iff_eq,
    and_or_left]

/-- Nobody is called twice. -/
theorem nodup_called : ((called topic t all).map Prod.snd).Nodup := by
  have hpositions : (all.zipIdx.map Prod.snd).Nodup := by
    rw [List.zipIdx_map_snd]
    exact List.nodup_range'
  have hpart (keep : α × Nat → Bool) : ((all.zipIdx.filter keep).map Prod.snd).Nodup :=
    hpositions.sublist (List.filter_sublist.map _)
  rw [called, List.map_append]
  refine List.nodup_append.mpr ⟨hpart _, hpart _, fun i hnone j hsome hij => ?_⟩
  obtain ⟨p, hp, rfl⟩ := List.mem_map.mp hnone
  obtain ⟨q, hq, rfl⟩ := List.mem_map.mp hsome
  simp only [List.mem_filter, List.mem_zipIdx_iff_getElem?, beq_iff_eq] at hp hq
  -- One position holds one element, and that asked for one thing only.
  rw [← hij, hp.1, Option.some.injEq] at hq
  rw [← hq.1, hp.2] at hq
  exact nomatch hq.2

theorem called_map {β : Type} (f : β → α) (all : List β) :
    called topic t (all.map f) = (called (topic ∘ f) t all).map (Prod.map f id) := by
  simp only [called, List.zipIdx_map, List.filter_map, List.map_append]
  rfl

end Calls

variable {n : Bus} {e : Event} {fails : Nat → Bool}

theorem receivers_eq (n : Bus) (e : Event) :
    n.receivers e = (called Subscription.topic e.topic n.subscriptions).map Prod.snd := by
  rw [called, List.map_append]
  rfl

/-- No subscriber calls the bus back about an event: those at the given positions fail, the others
take note and that is all. -/
def Answers (n : Bus) (e : Event) (fails : Nat → Bool) : Prop :=
  ∀ i s, n.subscriptions[i]? = some s → s.deed? e = if fails i then some .fail else none

theorem visit_eq (publish : Bus → Event → Publication) {i : Nat} {s : Subscription}
    (h : n.Answers e fails) (hs : n.subscriptions[i]? = some s) :
    visit publish e n i = ⟨n, [.event s.id e], fails i⟩ := by
  have hdeed := h i s hs
  unfold visit
  rw [hs]
  dsimp only
  cases hfails : fails i with
  | true => rw [hdeed, hfails, if_pos rfl]
  | false => rw [hdeed, hfails, if_neg Bool.false_ne_true]

/-- Subscribers are called one after another; one that fails does not keep the next one from being
called. -/
theorem visitAll_eq (publish : Bus → Event → Publication) (h : n.Answers e fails)
    (ps : List (Subscription × Nat)) (hps : ∀ p ∈ ps, n.subscriptions[p.2]? = some p.1) :
    visitAll publish e n (ps.map Prod.snd) =
      ⟨n, ps.map fun p => .event p.1.id e, ps.countP fun p => !fails p.2,
        ps.countP fun p => fails p.2⟩ := by
  induction ps with
  | nil => rfl
  | cons p ps ih =>
    rw [List.forall_mem_cons] at hps
    rw [List.map_cons, visitAll, visit_eq publish h hps.1, ih hps.2, List.countP_cons,
      List.countP_cons]
    cases fails p.2 <;> rfl

/-- What publishing an event leads to when those at the given positions fail. -/
def settled (n : Bus) (e : Event) (fails : Nat → Bool) : Publication :=
  let ps := called Subscription.topic e.topic n.subscriptions
  let delivered := ps.countP fun p => !fails p.2
  let failed := ps.countP fun p => fails p.2
  ⟨{ n with stats := ⟨n.stats.published + 1, n.stats.deliveries + delivered,
      n.stats.errors + failed⟩ },
    ps.map fun p => .event p.1.id e, delivered⟩

theorem publishOnce_eq (publish : Bus → Event → Publication) (h : n.Answers e fails) :
    publishOnce publish n e = n.settled e fails := by
  have hvisits := visitAll_eq publish
    (n := { n with stats := { n.stats with published := n.stats.published + 1 } }) h
    (called Subscription.topic e.topic n.subscriptions) fun p hp => (mem_called_iff.mp hp).1
  rw [publishOnce, receivers_eq, hvisits]
  rfl

/-- **Publishing** to subscribers that do not call back. How deep they might publish in turn does
not matter. -/
theorem publish_eq (h : n.Answers e fails) : n.publish e = n.settled e fails := by
  unfold publish
  cases n.budget with
  | zero => exact publishOnce_eq _ h
  | succ depth => exact publishOnce_eq _ h

/-- Each call fails or does not. -/
theorem settled_calls (n : Bus) (e : Event) (fails : Nat → Bool) :
    (n.settled e fails).bus.stats.deliveries + (n.settled e fails).bus.stats.errors =
      n.stats.deliveries + n.stats.errors + (n.settled e fails).notes.length := by
  have hcalls := List.length_eq_countP_add_countP (fun p : Subscription × Nat => fails p.2)
    (l := called Subscription.topic e.topic n.subscriptions)
  simp only [Bool.not_eq_true, Bool.decide_eq_false] at hcalls
  simp only [settled, List.length_map]
  omega

theorem poised_answers (n : Bus) (e : Event) (fails : Nat → Bool) :
    (n.poised fails).Answers e fails := by
  intro i s hs
  rw [poised, List.getElem?_mapIdx] at hs
  obtain ⟨s', -, rfl⟩ := Option.map_eq_some_iff.mp hs
  cases hfails : fails i <;> simp [Subscription.deed?]

/-! ## Runs -/

/-- What the bus knows of its subscribers, in the order in which they came. -/
def registered (n : Bus) : List Registration := n.subscriptions.map fun s => (s.id, s.topic)

theorem registered_poised (n : Bus) (fails : Nat → Bool) :
    (n.poised fails).registered = n.registered := by
  refine List.ext_getElem? fun i => ?_
  simp [registered, poised, Function.comp_def]

/-- **Who gets an event**, of the subscribers registered so far: those of all events and then those
of its topic, both in the order in which they subscribed, each of them once and nobody else. Whether
one of them fails is of no account to the others; the answer is the number of those that do not. -/
structure Delivers (regs : List Registration) (e : Event) (fails : Nat → Bool) (p : Publication) :
    Prop where
  notes : p.notes = (called Prod.snd e.topic regs).map fun r => .event r.1.1 e
  delivered : p.delivered = (called Prod.snd e.topic regs).countP fun r => !fails r.2
  exactly : ∀ id topic i, ((id, topic), i) ∈ called Prod.snd e.topic regs ↔
    regs[i]? = some (id, topic) ∧ (topic = none ∨ topic = some e.topic)
  once : ((called Prod.snd e.topic regs).map Prod.snd).Nodup

/-- **What the counters say** of some publications: how many there were, how many calls of
subscribers did not fail, and together with the errors how many calls there were. -/
structure Accounts (ps : List Publication) (k : BusStats) : Prop where
  published : k.published = ps.length
  deliveries : k.deliveries = (ps.map Publication.delivered).sum
  calls : k.deliveries + k.errors = (ps.map fun p => p.notes.length).sum

/-- The subscribers that requests register. -/
def registrations (rs : List Request) : List Registration := rs.filterMap Request.registration?

/-- The publications since the counters were last reset. -/
def recent (turns : List (Request × Publication)) : List Publication :=
  ((turns.rtakeWhile fun t => !t.1.isReset).filter fun t => t.1.isPublish).map Prod.snd

/-- One more turn: a reset forgets the publications so far, and a publication joins them. -/
theorem recent_append_singleton (turns : List (Request × Publication))
    (t : Request × Publication) : recent (turns ++ [t]) =
      if t.1.isReset then [] else recent turns ++ if t.1.isPublish then [t.2] else [] := by
  rw [recent, recent, List.rtakeWhile_concat]
  cases t.1.isReset with
  | true => rfl
  | false =>
    rw [Bool.not_false, if_pos rfl, if_neg Bool.false_ne_true, List.filter_append, List.map_append,
      List.filter_singleton]
    cases t.1.isPublish <;> rfl

theorem handle_publish (n : Bus) (e : Event) (fails : Nat → Bool) :
    n.handle (.publish e fails) = (n.poised fails).settled e fails :=
  publish_eq (poised_answers n e fails)

/-- A publication reaches the subscribers that have registered, whoever of them fails. -/
theorem handle_publish_delivers (n : Bus) (e : Event) (fails : Nat → Bool) :
    Delivers n.registered e fails (n.handle (.publish e fails)) := by
  have hcalled : called Prod.snd e.topic n.registered =
      (called Subscription.topic e.topic (n.poised fails).subscriptions).map
        (Prod.map (fun s => (s.id, s.topic)) id) := by
    rw [← registered_poised n fails, registered, called_map]
    rfl
  refine ⟨?_, ?_, fun id topic i => mem_called_iff, nodup_called⟩
  · rw [handle_publish, hcalled, List.map_map]
    rfl
  · rw [handle_publish, hcalled, List.countP_map]
    rfl

theorem registered_handle (n : Bus) (r : Request) :
    (n.handle r).bus.registered = n.registered ++ r.registration?.toList := by
  cases r with
  | subscribe id topic => simp [handle, subscribe, registered, Request.registration?]
  | publish e fails =>
    rw [handle_publish]
    exact (registered_poised n fails).trans (List.append_nil _).symm
  | resetStats => exact (List.append_nil _).symm

theorem registered_after (rs : List Request) :
    (service.after {} rs).registered = registrations rs := by
  induction rs using List.reverseRecOn with
  | nil => rfl
  | append_singleton rs r ih =>
    rw [Machine.after_append, registrations, List.filterMap_append, ← registrations, ← ih]
    refine (registered_handle _ r).trans ?_
    cases h : r.registration? <;> simp [h]

/-- The counters go on from what they said before. -/
theorem Accounts.handle_publish {ps : List Publication} (h : Accounts ps n.stats) (e : Event)
    (fails : Nat → Bool) : Accounts (ps ++ [n.handle (.publish e fails)])
      (n.handle (.publish e fails)).bus.stats := by
  have hcalls := settled_calls (n.poised fails) e fails
  rw [Bus.handle_publish]
  refine ⟨?_, ?_, ?_⟩
  · rw [List.length_append, ← h.published]
    rfl
  · rw [List.map_append, List.sum_append, ← h.deliveries, List.map_singleton, List.sum_singleton]
    rfl
  · rw [hcalls, List.map_append, List.sum_append, ← h.calls, List.map_singleton,
      List.sum_singleton]
    rfl

/-- The counters have been kept up with every request since they were last reset. -/
theorem accounts_after (rs : List Request) :
    Accounts (recent (service.turns {} rs)) (service.after {} rs).stats := by
  induction rs using List.reverseRecOn with
  | nil => exact ⟨rfl, rfl, rfl⟩
  | append_singleton rs r ih =>
    rw [Machine.after_append, Machine.turns_append_singleton, recent_append_singleton]
    cases r with
    | subscribe id topic =>
      change Accounts (recent (service.turns {} rs) ++ []) (service.after {} rs).stats
      rwa [List.append_nil]
    | publish e fails => exact ih.handle_publish e fails
    | resetStats => exact ⟨rfl, rfl, rfl⟩

/-- **Delivery and accounting.** At every point of a run of a new bus the number of subscribers is
that of the registrations made so far, the counters say what happened since they were last reset,
and the next publication, whoever fails at it, is delivered to the registered subscribers. -/
theorem delivers_and_accounts (rs : List Request) :
    (service.after {} rs).subscriberCount = (registrations rs).length ∧
    Accounts (recent (service.turns {} rs)) (service.after {} rs).stats ∧
    ∀ e fails, Delivers (registrations rs) e fails
      (service.perform (service.after {} rs) (.publish e fails)) := by
  have hregs := registered_after rs
  refine ⟨?_, accounts_after rs, fun e fails => ?_⟩
  · rw [← hregs, registered, List.length_map]
    rfl
  · rw [← hregs]
    exact handle_publish_delivers _ e fails

end MarketDesk.Bus
