import MarketDesk.Proofs.Decimal.Fixed

/-!
# Numbers that fit the field

Whether there is a text with some number of places depends on the size of the number alone
(`Decimal.fixed?_isSome_iff`), since rounding to places carries no number out of the field. With two
places there is room for every decimal (`Decimal.fixed?_isSome_of_le_two`).
-/

namespace MarketDesk.Decimal

variable {a : Decimal} {places k : Nat}

theorem whole_lt_iff (a : Decimal) (k : Nat) :
    a.magnitude / tenTo a.scale < tenTo k ↔ |a.value| < tenTo k := by
  rw [Nat.div_lt_iff_lt_mul (tenTo_pos _), abs_value, div_lt_iff₀ (tenTo_cast_pos _)]
  exact_mod_cast Iff.rfl

/-- Scale and whole digits together go beyond the digits that a decimal has. -/
theorem abs_value_lt (h : maxScale < k + a.scale) : |a.value| < tenTo k := by
  rw [← whole_lt_iff, Nat.div_lt_iff_lt_mul (tenTo_pos _), ← tenTo_add]
  calc a.magnitude < limit := a.magnitude_lt
    _ ≤ tenTo (maxScale + 1) := by decide
    _ ≤ tenTo (k + a.scale) := tenTo_le h

theorem padFixed?_isSome_iff (a : Decimal) (places : Nat) :
    (a.padFixed? places).isSome ↔ places ≤ maxPlaces ∧
      (0 < places → |a.value| < tenTo (fieldWidth - 1 - min places maxScale)) := by
  rw [← whole_lt_iff, ← hasRoom_iff]
  exact isSome_unless_iff

/-- **A number has a text just if it is small enough** for the field, which has to hold the point
and the places beside its whole digits. Without places there is no bound. -/
theorem fixed?_isSome_iff (a : Decimal) (places : Nat) :
    (a.fixed? places).isSome ↔ places ≤ maxPlaces ∧
      (0 < places → |a.value| < tenTo (fieldWidth - 1 - min places maxScale)) := by
  have hwidth : maxScale + 3 = fieldWidth - 1 := rfl
  rw [fixed?, padFixed?_isSome_iff]
  rcases Nat.lt_or_ge places a.scale with h | h
  · -- The number has a fraction that is cut, so neither it nor what it is rounded to is large.
    have hscale := (round_of_lt h).1
    have hle := a.scale_le
    have hround : |(a.round places).value| < tenTo (fieldWidth - 1 - min places maxScale) :=
      abs_value_lt (by omega)
    have hself : |a.value| < tenTo (fieldWidth - 1 - min places maxScale) :=
      abs_value_lt (by omega)
    simp only [hround, hself]
  · rw [round_of_le h]

theorem fixed?_isSome_of_le_two (a : Decimal) (h : places ≤ 2) : (a.fixed? places).isSome := by
  rw [fixed?_isSome_iff]
  have hwidth : maxScale + 3 = fieldWidth - 1 := rfl
  have hmax : 2 ≤ maxScale := by decide
  refine ⟨h.trans (by decide), ?_⟩
  intro _
  exact abs_value_lt (by omega)

end MarketDesk.Decimal
