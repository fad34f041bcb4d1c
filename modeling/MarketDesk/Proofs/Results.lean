import Mathlib.Data.List.Forall2

/-!
# Results that may be missing

Steps that may fail, one after another, pairs of results of which both or neither are there, and
lists of results.
-/

namespace MarketDesk

section Granted

variable {ε ε' α β : Type} {x : Except ε α}

theorem ok_bind (a : α) (f : α → Except ε β) : (Except.ok a >>= f) = f a := rfl

theorem bind_of_eq_ok {a : α} {f : α → Except ε β} {y : Except ε β} (hx : x = .ok a)
    (hf : f a = y) : (x >>= f) = y := by
  rw [hx, ok_bind, hf]

theorem bind_eq_ok_iff {f : α → Except ε β} {b : β} :
    x >>= f = .ok b ↔ ∃ a, x = .ok a ∧ f a = .ok b := by
  cases x with
  | error e => exact ⟨nofun, nofun⟩
  | ok a => exact ⟨fun h => ⟨a, rfl, h⟩, fun ⟨_, ha, h⟩ => Except.ok.inj ha ▸ h⟩

theorem mapError_eq_ok_iff {f : ε → ε'} {a : α} : x.mapError f = .ok a ↔ x = .ok a := by
  cases x <;> simp [Except.mapError]

end Granted

section Related

variable {α β γ δ : Type} {R : α → β → Prop} {T : γ → δ → Prop}

theorem rel_bind {o : Option α} {o' : Option β} {f : α → Option γ} {f' : β → Option δ}
    (h : Option.Rel R o o') (hf : ∀ {a b}, R a b → Option.Rel T (f a) (f' b)) :
    Option.Rel T (o.bind f) (o'.bind f') := by
  cases h with
  | some hab => exact hf hab
  | none => exact .none

theorem rel_head? {as : List α} {bs : List β} (h : List.Forall₂ R as bs) :
    Option.Rel R as.head? bs.head? := by
  cases h with
  | nil => exact .none
  | cons hab _ => exact .some hab

theorem rel_isSome {o : Option α} {o' : Option β} (h : Option.Rel R o o') :
    o.isSome ↔ o'.isSome := by
  cases h <;> rfl

theorem rel_eq_none_iff {o : Option α} {o' : Option β} (h : Option.Rel R o o') :
    o = none ↔ o' = none := by
  cases h <;> simp

theorem rel_getElem? {as : List α} {bs : List β} (h : List.Forall₂ R as bs) (i : Nat) :
    Option.Rel R as[i]? bs[i]? := by
  induction h generalizing i with
  | nil => exact .none
  | cons hab _ ih =>
    cases i with
    | zero => exact .some hab
    | succ i => exact ih i

theorem rel_find? {as : List α} {bs : List β} {p : α → Bool} {q : β → Bool}
    (h : List.Forall₂ R as bs) (hpq : ∀ {a b}, R a b → p a = q b) :
    Option.Rel R (as.find? p) (bs.find? q) := by
  induction h with
  | nil => exact .none
  | cons hab _ ih =>
    rw [List.find?_cons, List.find?_cons, hpq hab]
    split
    · exact .some hab
    · exact ih

theorem exists_rel_of_mem {as : List α} {bs : List β} (h : List.Forall₂ R as bs) {b : β}
    (hb : b ∈ bs) : ∃ a ∈ as, R a b := by
  induction h with
  | nil => cases hb
  | cons hab _ ih =>
    rcases List.mem_cons.mp hb with rfl | hb
    · exact ⟨_, List.mem_cons_self, hab⟩
    · obtain ⟨a, ha, hab⟩ := ih hb
      exact ⟨a, List.mem_cons_of_mem _ ha, hab⟩

end Related

section Collected

variable {α β : Type} {f : α → Option β} {g : α → β} {as : List α}

theorem mapM_eq_map (h : ∀ a ∈ as, f a = some (g a)) : as.mapM f = some (as.map g) := by
  induction as with
  | nil => rfl
  | cons a as ih =>
    rw [List.forall_mem_cons] at h
    rw [List.mapM_cons, h.1, ih h.2]
    rfl

/-- There is one result for each element just if none of them is missing. -/
theorem exists_mapM_iff :
    (∃ bs, as.mapM f = some bs ∧ bs.length = as.length) ↔ ∀ a ∈ as, (f a).isSome := by
  induction as with
  | nil => simp
  | cons a as ih =>
    rw [List.forall_mem_cons, ← ih, List.mapM_cons]
    cases f a with
    | none => simp
    | some b => cases as.mapM f <;> simp

end Collected

end MarketDesk
