import MarketDesk.Proofs.Results
import MarketDesk.Wire.Decode

/-!
# Reading records

A record is read field by field, so what every field keeps of a draft holds of what was read
(`Wire.Shape.read_keeps`).
-/

namespace MarketDesk.Wire

variable {α β : Type} {shape : Shape α} {I : α → Prop}

theorem asText_text (s : String) : asText (.text s) = .ok s := rfl

/-- A member is read and put into the draft. -/
theorem readMembers_cons {name : String} {v : Value} {read : Value → Decoded β}
    {set : α → β → α} {draft : α} {b : β} {rest : List (String × Value)}
    (hfield : shape.fields.lookup name = some fun v s => do pure (set s (← read v)))
    (hread : read v = .ok b) :
    shape.readMembers draft ((name, v) :: rest) = shape.readMembers (set draft b) rest := by
  rw [Shape.readMembers, hfield]
  dsimp only
  rw [hread]
  rfl

theorem require_eq_ok_iff {name : String} {o : Option α} {a : α} :
    require name o = .ok a ↔ o = some a := by
  cases o <;> simp [require]

section Keeps

variable (hput : ∀ f ∈ shape.fields, ∀ {v d d'}, f.2 v d = .ok d' → I d → I d')

include hput

/-- What every field keeps is kept by reading members in any order. -/
theorem Shape.readMembers_keeps {members : List (String × Value)} {d d' : α}
    (h : shape.readMembers d members = .ok d') (hd : I d) : I d' := by
  induction members generalizing d with
  | nil => exact Except.ok.inj h ▸ hd
  | cons m members ih =>
    obtain ⟨name, v⟩ := m
    rw [Shape.readMembers] at h
    split at h
    · rename_i put hlookup
      obtain ⟨d₁, hd₁, hrest⟩ := bind_eq_ok_iff.mp h
      obtain ⟨before, behind, hfields, -⟩ := List.lookup_eq_some_iff.mp hlookup
      have hmem : (name, put) ∈ shape.fields := by simp [hfields]
      exact ih hrest (hput _ hmem hd₁ hd)
    · exact ih h hd

/-- The same for a value that lists its fields by position, with some of them left out. -/
theorem readItems_keeps {optional exact : Bool} {elements : String}
    {fields : List (String × (Value → α → Decoded α))} (hfields : ∀ f ∈ fields, f ∈ shape.fields)
    {items : List Value} {n : Nat} {d d' : α}
    (h : readItems optional exact elements n d fields items = .ok d') (hd : I d) : I d' := by
  induction fields generalizing items n d with
  | nil =>
    cases items with
    | nil => exact Except.ok.inj h ▸ hd
    | cons v items =>
      rw [readItems] at h
      split at h
      · cases h
      · exact Except.ok.inj h ▸ hd
      · exact nofun
  | cons f fields ih =>
    obtain ⟨hf, hfields⟩ := List.forall_mem_cons.mp hfields
    cases items with
    | nil =>
      rw [readItems] at h
      split at h
      · exact Except.ok.inj h ▸ hd
      · cases h
    | cons v items =>
      obtain ⟨d₁, hd₁, hrest⟩ := bind_eq_ok_iff.mp h
      exact ih hfields hrest (hput f hf hd₁ hd)

theorem Shape.read_keeps {format : Format} {v : Value} {d d' : α}
    (h : shape.read format d v = .ok d') (hd : I d) : I d' := by
  cases v with
  | fields members => exact readMembers_keeps hput h hd
  | list items => exact readItems_keeps hput (fun _ hf => hf) h hd
  | moment s => exact Except.ok.inj h ▸ hd
  | _ => cases h

end Keeps

end MarketDesk.Wire
