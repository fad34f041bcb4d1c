import Mathlib.Data.List.Forall2

/-!
# Machines

A panel is driven by requests. A machine says what a request leads to and which state is found
there; `Machine.trace` lists what several requests lead to, one after another, `Machine.turns` lists
the requests beside it, and `Machine.after` is the state at the end. A broken request ends nothing:
whoever holds the state goes on with what it left.

What every request keeps holds at the end (`Machine.after_keeps`) and all the way
(`Machine.forall_mem_turns`). A part of the state on which each turn acts in the same way is folded
over the turns (`Machine.after_eq_foldl`); one that only some turns set is what the last of them set
(`Machine.after_told`, `Machine.after_chosen`). What the turns emit one by one is what is told of
them in order (`Machine.flatMap_trace`). A machine that follows another one request by request has
the image of its traces (`Machine.trace_map`, `Machine.trace_follows`), and machines that are
related request by request have related traces (`Machine.trace_rel`). A machine that feeds another
one with requests is not touched by it (`Machine.trace_feeding`, `Machine.answers_feeding`).
-/

namespace MarketDesk

/-- Choosing anew where there is a choice comes to the last choice. -/
theorem foldl_getD_eq_getLastD {α β : Type} (choice : β → Option α) (bs : List β) (a : α) :
    bs.foldl (fun a b => (choice b).getD a) a = (bs.filterMap choice).getLastD a := by
  induction bs generalizing a with
  | nil => rfl
  | cons b bs ih =>
    rw [List.foldl_cons, ih, List.filterMap_cons]
    cases choice b with
    | none => rfl
    | some a' => rw [List.getLastD_cons, Option.getD_some]

/-- What a request leads to in a state, and the state that is found there. -/
structure Machine (State Request Step : Type) where
  perform : State → Request → Step
  next : Step → State

namespace Machine

variable {S S' R R' T T' α : Type} (m : Machine S R T)

/-- The state after requests. -/
def after (s : S) : List R → S
  | [] => s
  | r :: rs => after (m.next (m.perform s r)) rs

/-- What requests lead to, one after another. -/
def trace (s : S) : List R → List T
  | [] => []
  | r :: rs => m.perform s r :: trace (m.next (m.perform s r)) rs

/-- Requests, each with what it leads to. -/
def turns (s : S) (rs : List R) : List (R × T) := rs.zip (m.trace s rs)

theorem turns_cons (s : S) (r : R) (rs : List R) : m.turns s (r :: rs) =
    (r, m.perform s r) :: m.turns (m.next (m.perform s r)) rs := rfl

theorem length_trace (s : S) (rs : List R) : (m.trace s rs).length = rs.length := by
  induction rs generalizing s with
  | nil => rfl
  | cons r rs ih => rw [trace, List.length_cons, List.length_cons, ih]

theorem map_fst_turns (s : S) (rs : List R) : (m.turns s rs).map Prod.fst = rs :=
  List.map_fst_zip (Nat.le_of_eq (m.length_trace s rs).symm)

theorem after_append (s : S) (rs rs' : List R) :
    m.after s (rs ++ rs') = m.after (m.after s rs) rs' := by
  induction rs generalizing s with
  | nil => rfl
  | cons r rs ih => exact ih _

theorem trace_append (s : S) (rs rs' : List R) :
    m.trace s (rs ++ rs') = m.trace s rs ++ m.trace (m.after s rs) rs' := by
  induction rs generalizing s with
  | nil => rfl
  | cons r rs ih => rw [List.cons_append, trace, ih, trace, List.cons_append, after]

theorem turns_append (s : S) (rs rs' : List R) :
    m.turns s (rs ++ rs') = m.turns s rs ++ m.turns (m.after s rs) rs' := by
  rw [turns, trace_append, List.zip_append (m.length_trace s rs).symm]
  rfl

theorem turns_append_singleton (s : S) (rs : List R) (r : R) :
    m.turns s (rs ++ [r]) = m.turns s rs ++ [(r, m.perform (m.after s rs) r)] :=
  m.turns_append s rs [r]

/-- A turn among others is what its request leads to in the state that those in front of it leave,
and those behind it go on from there. -/
theorem eq_of_turns_eq_append {s : S} {rs : List R} {r : R} {t : T} {front back : List (R × T)}
    (h : m.turns s rs = front ++ (r, t) :: back) :
    t = m.perform (m.after s (front.map Prod.fst)) r ∧
      m.after s rs = m.after (m.next t) (back.map Prod.fst) := by
  have hrs : rs = front.map Prod.fst ++ r :: back.map Prod.fst := by
    rw [← m.map_fst_turns s rs, h, List.map_append, List.map_cons]
  have hlength : (m.turns s (front.map Prod.fst)).length = front.length := by
    rw [← List.length_map (f := Prod.fst), m.map_fst_turns, List.length_map]
  rw [hrs, turns_append, turns_cons] at h
  obtain ⟨-, hturn⟩ := List.append_inj h hlength
  obtain ⟨hstep, -⟩ := List.cons.inj hturn
  obtain rfl := (Prod.mk.inj hstep).2
  refine ⟨rfl, ?_⟩
  rw [hrs, after_append, after]

variable {m}

section Keeps

variable {I : S → Prop} {P : R × T → Prop} {s : S}
  (hkeep : ∀ {s} (r : R), I s → I (m.next (m.perform s r)))

include hkeep

theorem after_keeps (h : I s) (rs : List R) : I (m.after s rs) := by
  induction rs generalizing s with
  | nil => exact h
  | cons r rs ih => exact ih (hkeep r h)

/-- What is so of each turn of a state that is kept is so of all turns. -/
theorem forall_mem_turns (hturn : ∀ {s} (r : R), I s → P (r, m.perform s r)) (h : I s)
    (rs : List R) : ∀ t ∈ m.turns s rs, P t := by
  induction rs generalizing s with
  | nil => exact fun _ ht => nomatch ht
  | cons r rs ih =>
    rw [turns_cons, List.forall_mem_cons]
    exact ⟨hturn r h, ih (hkeep r h)⟩

/-- The part `f` of the state is changed by each turn in the way `g`. -/
theorem after_eq_foldl {f : S → α} {g : α → R × T → α}
    (hturn : ∀ {s} (r : R), I s → P (r, m.perform s r) →
      f (m.next (m.perform s r)) = g (f s) (r, m.perform s r))
    (h : I s) (rs : List R) (hrs : ∀ t ∈ m.turns s rs, P t) :
    f (m.after s rs) = (m.turns s rs).foldl g (f s) := by
  induction rs generalizing s with
  | nil => rfl
  | cons r rs ih =>
    rw [turns_cons, List.forall_mem_cons] at hrs
    rw [after, ih (hkeep r h) hrs.2, hturn r h hrs.1, turns_cons, List.foldl_cons]

/-- The part `f` of the state is set by turns that tell a value for it and left alone by the
others. -/
theorem after_told {f : S → α} {told : R × T → Option α}
    (hturn : ∀ {s} (r : R), I s → P (r, m.perform s r) →
      f (m.next (m.perform s r)) = (told (r, m.perform s r)).getD (f s))
    (h : I s) (rs : List R) (hrs : ∀ t ∈ m.turns s rs, P t) :
    f (m.after s rs) = ((m.turns s rs).filterMap told).getLastD (f s) := by
  rw [← foldl_getD_eq_getLastD]
  exact after_eq_foldl hkeep hturn h rs hrs

/-- Each turn emits at most the one thing that is told of it. -/
theorem flatMap_trace {emits : T → List α} {told : R × T → Option α}
    (hturn : ∀ {s} (r : R), I s → emits (m.perform s r) = (told (r, m.perform s r)).toList)
    (h : I s) (rs : List R) : (m.trace s rs).flatMap emits = (m.turns s rs).filterMap told := by
  induction rs generalizing s with
  | nil => rfl
  | cons r rs ih =>
    rw [trace, List.flatMap_cons, hturn r h, ih (hkeep r h), turns_cons, List.filterMap_cons]
    cases told (r, m.perform s r) <;> rfl

end Keeps

/-- The part `f` of the state is set by requests that choose a value for it and left alone by the
others. -/
theorem after_chosen {f : S → α} {choice : R → Option α}
    (hstep : ∀ s r, f (m.next (m.perform s r)) = (choice r).getD (f s)) (s : S) (rs : List R) :
    f (m.after s rs) = (rs.filterMap choice).getLastD (f s) := by
  -- The choice is told of a turn by its request alone, so any state is kept and any turn will do.
  have htold : f (m.after s rs) =
      ((m.turns s rs).filterMap (choice ∘ Prod.fst)).getLastD (f s) :=
    after_told (I := fun _ => True) (P := fun _ => True) (fun _ h => h) (fun r _ _ => hstep _ r)
      trivial rs (fun _ _ => trivial)
  rw [htold, ← List.filterMap_map, map_fst_turns]

section Translates

variable {m' : Machine S' R' T'} {f : S → S'} {g : T → T'} {h : R → R'} {P : R → Prop}
  (hperform : ∀ s r, P r → m'.perform (f s) (h r) = g (m.perform s r))
  (hnext : ∀ s r, P r → m'.next (g (m.perform s r)) = f (m.next (m.perform s r)))

include hperform hnext

theorem after_map (s : S) (rs : List R) (hrs : ∀ r ∈ rs, P r) :
    m'.after (f s) (rs.map h) = f (m.after s rs) := by
  induction rs generalizing s with
  | nil => rfl
  | cons r rs ih =>
    obtain ⟨hr, hrs⟩ := List.forall_mem_cons.mp hrs
    rw [List.map_cons, after, hperform s r hr, hnext s r hr, ih _ hrs, after]

theorem trace_map (s : S) (rs : List R) (hrs : ∀ r ∈ rs, P r) :
    m'.trace (f s) (rs.map h) = (m.trace s rs).map g := by
  induction rs generalizing s with
  | nil => rfl
  | cons r rs ih =>
    obtain ⟨hr, hrs⟩ := List.forall_mem_cons.mp hrs
    rw [List.map_cons, trace, hperform s r hr, hnext s r hr, ih _ hrs, trace, List.map_cons]

end Translates

section Follows

variable {m' : Machine S' R T'} {f : S → S'} {g : T → T'}
  (hperform : ∀ s r, m'.perform (f s) r = g (m.perform s r))
  (hnext : ∀ t, m'.next (g t) = f (m.next t))

include hperform hnext

theorem after_follows (s : S) (rs : List R) : m'.after (f s) rs = f (m.after s rs) := by
  have hmap := after_map (h := id) (P := fun _ => True) (fun s r _ => hperform s r)
    (fun s r _ => hnext (m.perform s r)) s rs fun _ _ => trivial
  rwa [List.map_id] at hmap

theorem trace_follows (s : S) (rs : List R) : m'.trace (f s) rs = (m.trace s rs).map g := by
  have hmap := trace_map (h := id) (P := fun _ => True) (fun s r _ => hperform s r)
    (fun s r _ => hnext (m.perform s r)) s rs fun _ _ => trivial
  rwa [List.map_id] at hmap

end Follows

/-- Related requests to related states lead to related steps, all the way. -/
theorem trace_rel {m' : Machine S' R' T'} {Q : S → S' → Prop} {QR : R → R' → Prop}
    {QT : T → T' → Prop}
    (hperform : ∀ {s s' r r'}, Q s s' → QR r r' → QT (m.perform s r) (m'.perform s' r'))
    (hnext : ∀ {t t'}, QT t t' → Q (m.next t) (m'.next t')) {s : S} {s' : S'} (h : Q s s')
    {rs : List R} {rs' : List R'} (hrs : List.Forall₂ QR rs rs') :
    List.Forall₂ QT (m.trace s rs) (m'.trace s' rs') := by
  induction hrs generalizing s s' with
  | nil => exact .nil
  | cons hr _ ih =>
    have hstep := hperform h hr
    exact .cons hstep (ih (hnext hstep))

/-! ## Machines that feed other machines -/

/-- A step with what it leads to elsewhere: the answers to the requests that it makes, and the state
after them. -/
structure Fed (T S' T' : Type) where
  step : T
  answers : List T'
  receiver : S'

/-- The machine with another one that handles the requests its steps make. -/
def feeding (m : Machine S R T) (makes : T → List R') (m' : Machine S' R' T') :
    Machine (S × S') R (Fed T S' T') where
  perform p r :=
    let t := m.perform p.1 r
    ⟨t, m'.trace p.2 (makes t), m'.after p.2 (makes t)⟩
  next t := (m.next t.step, t.receiver)

section Feeding

variable (m) (makes : T → List R') (m' : Machine S' R' T')

theorem after_feeding (p : S × S') (rs : List R) : (m.feeding makes m').after p rs =
    (m.after p.1 rs, m'.after p.2 ((m.trace p.1 rs).flatMap makes)) := by
  induction rs generalizing p with
  | nil => rfl
  | cons r rs ih =>
    rw [after, ih, after, trace, List.flatMap_cons, after_append]
    rfl

/-- The other machine does not touch the one that feeds it. -/
theorem trace_feeding (p : S × S') (rs : List R) :
    ((m.feeding makes m').trace p rs).map Fed.step = m.trace p.1 rs :=
  (trace_follows (f := Prod.fst) (g := Fed.step) (fun _ _ => rfl) (fun _ => rfl) p rs).symm

/-- The other machine handles all requests in the order in which they are made. -/
theorem answers_feeding (p : S × S') (rs : List R) :
    ((m.feeding makes m').trace p rs).flatMap Fed.answers =
      m'.trace p.2 ((m.trace p.1 rs).flatMap makes) := by
  induction rs generalizing p with
  | nil => rfl
  | cons r rs ih =>
    rw [trace, List.flatMap_cons, ih, trace, List.flatMap_cons, trace_append]
    rfl

end Feeding

end Machine

end MarketDesk
