import MarketDesk.Decimal.Text
import MarketDesk.Proofs.Text.Digits

/-!
# Decimals are read as they were written

The text of a decimal has all digits of its scale, so reading it gives the same magnitude at the
same scale (`Decimal.ofText?_toText`). Only the sign of a zero is lost (`Decimal.reread`).
-/

namespace MarketDesk.Decimal

open MarketDesk.Text

variable {m v places : Nat} {ds rest : List Char} {point any : Bool}

/-- The decimal as it is when its text was read: a zero has no sign. -/
def reread (a : Decimal) : Decimal := a.withSign a.isNegative

theorem ofParts?_coefficient (a : Decimal) : ofParts? a.coefficient a.scale = some a.reread := by
  have hbounds : a.coefficient.natAbs < limit ∧ a.scale ≤ maxScale :=
    ⟨a.natAbs_coefficient.symm ▸ a.magnitude_lt, a.scale_le⟩
  rw [ofParts?, dif_pos hbounds]
  simp [reread, withSign, isNegative]

theorem coefficient_reread (a : Decimal) : a.reread.coefficient = a.coefficient := by
  rw [reread, isNegative_eq, withSign, coefficient, coefficient]
  dsimp only
  cases a.negative with
  | false => rfl
  | true =>
    by_cases h : a.magnitude = 0
    · simp [h]
    · simp [isZero, h]

/-! ## Digits -/

/-- A digit for which there is room. -/
theorem readDigits_cons {c : Char} {d : Nat} (hd : digitValue? c = some d)
    (hplaces : point = true → places < maxScale) (hlt : m * 10 + d < limit) :
    readDigits m places point any (c :: rest) =
      readDigits (m * 10 + d) (if point then places + 1 else 0) point true rest := by
  have hroom : (point && places == maxScale) = false := by
    cases point with
    | false => rfl
    | true => simpa using Nat.ne_of_lt (hplaces rfl)
  rw [readDigits, hroom, if_neg Bool.false_ne_true, hd]
  dsimp only
  rw [if_pos hlt]

/-- A row of digits before the point. -/
theorem readDigits_whole (hv : numeralFrom? m ds = some v) (hlt : v < limit) :
    readDigits m 0 false any (ds ++ rest) = readDigits v 0 false (any || !ds.isEmpty) rest := by
  induction ds generalizing m any with
  | nil =>
    obtain rfl := Option.some.inj hv
    simp
  | cons c ds ih =>
    obtain ⟨d, hd, hds, hle⟩ := numeralFrom?_cons hv
    have hplaces : false = true → 0 < maxScale := nofun
    rw [List.cons_append, readDigits_cons hd hplaces (Nat.lt_of_le_of_lt hle hlt),
      if_neg Bool.false_ne_true, ih hds]
    simp

/-- A row of digits behind the point. -/
theorem readDigits_fraction (hv : numeralFrom? m ds = some v) (hlt : v < limit)
    (hplaces : places + ds.length ≤ maxScale) :
    readDigits m places true true (ds ++ rest) =
      readDigits v (places + ds.length) true true rest := by
  induction ds generalizing m places with
  | nil =>
    obtain rfl := Option.some.inj hv
    rfl
  | cons c ds ih =>
    obtain ⟨d, hd, hds, hle⟩ := numeralFrom?_cons hv
    rw [List.length_cons] at hplaces ⊢
    rw [List.cons_append, readDigits_cons hd (fun _ => by omega) (by omega), if_pos rfl,
      ih hds (by omega), Nat.add_right_comm, Nat.add_assoc]

/-- Digits with a point among them are read as the coefficient and the scale that they were written
from. -/
theorem readDigits_pointed (hm : m < limit) (hplaces : places ≤ maxScale) :
    readDigits 0 0 false false (pointed m places) = some ⟨m, places⟩ := by
  have hwhole (k : Nat) (hk : k < limit) (rest : List Char) :
      readDigits 0 0 false false (digits k ++ rest) = readDigits k 0 false true rest := by
    rw [readDigits_whole (numeralFrom?_digits k) hk,
      List.isEmpty_eq_false_iff.mpr (digits_ne_nil k)]
    rfl
  unfold pointed
  split
  · rename_i h0
    have hread := hwhole m hm []
    rw [List.append_nil] at hread
    rw [hread, h0]
    rfl
  · have hlt : m / tenTo places < limit := Nat.lt_of_le_of_lt (Nat.div_le_self _ _) hm
    have hpoint : readDigits (m / tenTo places) 0 false true ('.' :: lastDigits m places) =
        readDigits (m / tenTo places) 0 true true (lastDigits m places ++ []) := by
      rw [List.append_nil]
      rfl
    have hlength : 0 + (lastDigits m places).length ≤ maxScale := by
      rwa [length_lastDigits, Nat.zero_add]
    rw [hwhole _ hlt, hpoint, readDigits_fraction (numeralFrom?_lastDigits m places) hm hlength,
      length_lastDigits, Nat.zero_add]
    rfl

/-! ## Signs -/

theorem pointed_eq_cons (m places : Nat) :
    ∃ c cs, pointed m places = c :: cs ∧ isDigit c = true := by
  have hhead (k : Nat) (rest : List Char) :
      ∃ c cs, digits k ++ rest = c :: cs ∧ isDigit c = true := by
    obtain ⟨c, cs, hcs⟩ := List.exists_cons_of_ne_nil (digits_ne_nil k)
    refine ⟨c, cs ++ rest, by rw [hcs, List.cons_append], ?_⟩
    exact isDigit_of_mem_digits k c (hcs ▸ List.mem_cons_self)
  unfold pointed
  split
  · simpa using hhead m []
  · exact hhead _ _

/-- Without a sign in front the digits are read as they stand. -/
theorem ofChars?_pointed (m places : Nat) : ofChars? (pointed m places) =
    (readDigits 0 0 false false (pointed m places)).bind fun r =>
      ofParts? r.magnitude r.places := by
  obtain ⟨c, cs, hcs, hc⟩ := pointed_eq_cons m places
  rw [hcs]
  unfold ofChars?
  split
  · rename_i heq
    obtain ⟨rfl, -⟩ := List.cons.inj heq
    cases hc
  · rename_i heq
    obtain ⟨rfl, -⟩ := List.cons.inj heq
    cases hc
  · rfl

/-- A decimal is read back from its text; only the sign of a zero is lost. -/
theorem ofChars?_toText (a : Decimal) : ofChars? a.toText.toList = some a.reread := by
  have hread := readDigits_pointed a.magnitude_lt a.scale_le
  have hparts := a.ofParts?_coefficient
  rw [coefficient] at hparts
  rw [toText, String.toList_append, String.toList_ofList, signText]
  cases hsign : a.negative with
  | true =>
    rw [hsign, if_pos rfl] at hparts
    change (readDigits 0 0 false false (pointed a.magnitude a.scale)).bind _ = _
    rw [hread]
    exact hparts
  | false =>
    rw [hsign, if_neg Bool.false_ne_true] at hparts
    change ofChars? (pointed a.magnitude a.scale) = _
    rw [ofChars?_pointed, hread]
    exact hparts

/-- **The text of a decimal denotes it**, digit by digit; a zero comes back without a sign. -/
theorem ofText?_toText (a : Decimal) : ofText? a.toText = some a.reread := by
  rw [ofText?, ofChars?_toText]
  rfl

end MarketDesk.Decimal
