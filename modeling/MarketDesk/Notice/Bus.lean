import MarketDesk.Notice.Event
import MarketDesk.Text.Digits

/-!
The bus between panels and subscribers. A subscriber asks for the events of one topic or for all
events. It takes note of each event it gets; a reaction may make it fail, publish or subscribe in
turn, or reset the counters. Publishing answers the calls that were made in their order and the
number of subscribers that did not fail.

A published event goes to the subscribers that were there when publishing began: first those of all
events, then those of its topic, both in the order in which they subscribed.
-/

namespace MarketDesk

/-- What a subscriber does after it has taken note of an event. -/
inductive Deed where
  /-- It fails; the subscribers behind it get the event nevertheless. -/
  | fail
  /-- It publishes an event and notes how many subscribers got it. -/
  | publish (event : Event)
  /-- It adds a subscriber that only takes note, of a topic or of all events. -/
  | subscribe (topic : Option String)
  | resetStats
deriving DecidableEq

/-- A deed and the topic of the events that cause it; all events do if there is none. -/
structure Reaction where
  trigger : Option String
  deed : Deed
deriving DecidableEq

/-- A subscriber. -/
structure Subscription where
  id : String
  /-- The topic asked for; all events if there is none. -/
  topic : Option String
  reaction : Option Reaction := none
  /-- How often the reaction may still publish or subscribe. -/
  left : Nat := 0
deriving DecidableEq

namespace Subscription

/-- What the subscriber does about an event besides taking note of it. -/
def deed? (s : Subscription) (e : Event) : Option Deed :=
  match s.reaction with
  | none => none
  | some r =>
    match r.trigger with
    | none => some r.deed
    | some t => if t = e.topic then some r.deed else none

/-- How many events the subscriber may still publish. -/
def budget (s : Subscription) : Nat :=
  match s.reaction with
  | some ⟨_, .publish _⟩ => s.left
  | _ => 0

end Subscription

/-- What the bus has counted since the last reset. -/
structure BusStats where
  /-- Events that were published. -/
  published : Nat := 0
  /-- Calls of subscribers that did not fail. -/
  deliveries : Nat := 0
  /-- Calls of subscribers that failed. -/
  errors : Nat := 0
deriving DecidableEq

/-- The bus. -/
structure Bus where
  /-- In the order in which they subscribed. -/
  subscriptions : List Subscription := []
  stats : BusStats := {}
deriving DecidableEq

/-- What a subscriber noted. -/
inductive Note where
  | event (id : String) (event : Event)
  /-- The subscriber published an event, and so many others got it. -/
  | delivered (id : String) (count : Nat)
deriving DecidableEq

namespace Bus

/-- Adds a subscriber. -/
def subscribe (n : Bus) (s : Subscription) : Bus :=
  { n with subscriptions := n.subscriptions ++ [s] }

def resetStats (n : Bus) : Bus := { n with stats := {} }

def subscriberCount (n : Bus) : Nat := n.subscriptions.length

/-- The positions of the subscribers that asked for just this. -/
def positions (n : Bus) (topic : Option String) : List Nat :=
  (n.subscriptions.zipIdx.filter fun s => s.1.topic == topic).map Prod.snd

/-- The positions of the subscribers that get an event, in the order in which they get it. -/
def receivers (n : Bus) (e : Event) : List Nat :=
  n.positions none ++ n.positions (some e.topic)

/-- Takes one from what a subscriber has left. -/
def spend (n : Bus) (i : Nat) : Bus :=
  { n with subscriptions := n.subscriptions.modify i fun s => { s with left := s.left - 1 } }

/-- What publishing an event leads to. -/
structure Publication where
  bus : Bus
  notes : List Note
  /-- The number of subscribers that got the event and did not fail. -/
  delivered : Nat
deriving DecidableEq

/-- What calling a subscriber leads to. -/
structure Visit where
  bus : Bus
  notes : List Note
  failed : Bool
deriving DecidableEq

/-- Calls subscriber `i`, which publishes with `publish`. -/
def visit (publish : Bus → Event → Publication) (e : Event) (n : Bus) (i : Nat) :
    Visit :=
  match n.subscriptions[i]? with
  | none => ⟨n, [], false⟩
  | some s =>
    let note := Note.event s.id e
    match s.deed? e with
    | none => ⟨n, [note], false⟩
    | some .fail => ⟨n, [note], true⟩
    | some (.publish e') =>
      if s.left = 0 then ⟨n, [note], false⟩
      else
        let p := publish (n.spend i) e'
        ⟨p.bus, note :: p.notes ++ [.delivered s.id p.delivered], false⟩
    | some (.subscribe topic) =>
      if s.left = 0 then ⟨n, [note], false⟩
      else ⟨(n.spend i).subscribe { id := s.id ++ "+", topic }, [note], false⟩
    | some .resetStats => ⟨n.resetStats, [note], false⟩

/-- Visits of several subscribers, one after another. -/
structure Round where
  bus : Bus
  notes : List Note
  delivered : Nat
  failed : Nat
deriving DecidableEq

def visitAll (publish : Bus → Event → Publication) (e : Event) :
    Bus → List Nat → Round
  | n, [] => ⟨n, [], 0, 0⟩
  | n, i :: is =>
    let v := visit publish e n i
    let r := visitAll publish e v.bus is
    { r with
      notes := v.notes ++ r.notes
      delivered := r.delivered + (if v.failed then 0 else 1)
      failed := r.failed + (if v.failed then 1 else 0) }

/-- Publishes an event to the present subscribers. The event is counted before they are called and
the calls are counted afterwards. -/
def publishOnce (publish : Bus → Event → Publication) (n : Bus) (e : Event) :
    Publication :=
  let counted := { n with stats := { n.stats with published := n.stats.published + 1 } }
  let r := visitAll publish e counted (n.receivers e)
  let stats := { r.bus.stats with
    deliveries := r.bus.stats.deliveries + r.delivered
    errors := r.bus.stats.errors + r.failed }
  ⟨{ r.bus with stats }, r.notes, r.delivered⟩

/-- Publishes an event; subscribers may publish in turn down to the given depth. -/
def publishWithin : Nat → Bus → Event → Publication
  | 0 => publishOnce fun n _ => ⟨n, [], 0⟩
  | depth + 1 => publishOnce (publishWithin depth)

/-- How many events all subscribers together may still publish. -/
def budget (n : Bus) : Nat := n.subscriptions.foldr (fun s b => s.budget + b) 0

/-- Publishes an event. Each event that a subscriber publishes in turn takes one from what is left,
so that there is depth enough. -/
def publish (n : Bus) (e : Event) : Publication := publishWithin n.budget n e

/-- How subscribers publish in turn while the bus publishes. -/
def inner (n : Bus) : Bus → Event → Publication :=
  match n.budget with
  | 0 => fun n _ => ⟨n, [], 0⟩
  | depth + 1 => publishWithin depth

theorem publish_eq_publishOnce (n : Bus) (e : Event) :
    n.publish e = publishOnce n.inner n e := by
  unfold publish inner
  cases n.budget <;> rfl

/-- The bus as log lines show it. -/
def describe (n : Bus) : String :=
  "ChangeNotifier \x7b subscribers: " ++ Text.ofNat n.subscriberCount ++
    ", stats: NotifierStats \x7b total_events_published: " ++ Text.ofNat n.stats.published ++
    ", total_deliveries: " ++ Text.ofNat n.stats.deliveries ++
    ", handler_errors: " ++ Text.ofNat n.stats.errors ++ " \x7d \x7d"

end Bus

end MarketDesk
