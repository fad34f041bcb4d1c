import MarketDesk.Decimal.Text
import MarketDesk.Proofs.Decimal.Nearest
import MarketDesk.Proofs.Text.Digits

/-!
# The text of a fixed number of places

Rounding to places and writing them are one rounding: the text of a decimal that is no minus zero
depends on the nearest number of units of the last place only (`Decimal.fixed?_eq_spelling?`). There
is a text just if this number fits the field (`Decimal.spelling?_isSome_iff`), and it is the one
numeral of the number (`Decimal.fixed?_spells_nearest`).
-/

namespace MarketDesk.Decimal

open MarketDesk.Text

variable {a b : Decimal} {places n : Nat} {k l : Int} {text : String} {whole fraction : List Char}

/-! ## Numerals -/

/-- Digits before and behind the point for `n` units of the last of `places` fraction digits. There
is a digit before the point, and it is no zero if there are several. -/
structure Numeral (places n : Nat) (whole fraction : List Char) : Prop where
  digits : ∀ c ∈ whole ++ fraction, isDigit c = true
  whole_ne_nil : whole ≠ []
  no_leading_zero : whole.head? = some '0' → whole = ['0']
  length_fraction : fraction.length = places
  denotes : numeralFrom? 0 (whole ++ fraction) = some n

/-- Digits before the point, and the point and digits behind it if there are places. -/
def pointedAt (places : Nat) (whole fraction : List Char) : List Char :=
  whole ++ if places = 0 then [] else '.' :: fraction

/-- **The text spells `k` units of the last of `places` fraction digits**, with a minus sign just if
`k` is below zero. -/
def Spells (places : Nat) (k : Int) (text : String) : Prop :=
  ∃ whole fraction, Numeral places k.natAbs whole fraction ∧
    text.toList = (if k < 0 then ['-'] else []) ++ pointedAt places whole fraction

theorem Numeral.pointedAt_ne_minus (h : Numeral places n whole fraction) (cs : List Char) :
    pointedAt places whole fraction ≠ '-' :: cs := by
  obtain ⟨c, rest, rfl⟩ := List.exists_cons_of_ne_nil h.whole_ne_nil
  intro heq
  obtain ⟨rfl, -⟩ := List.cons.inj heq
  cases h.digits '-' List.mem_cons_self

/-- A text is the numeral of one number of units only: its digits behind the point are as many as
the places, so that whole part and fraction cannot be split in two ways. -/
theorem Numeral.unique {m : Nat} {whole' fraction' : List Char}
    (h : Numeral places n whole fraction) (h' : Numeral places m whole' fraction')
    (heq : pointedAt places whole fraction = pointedAt places whole' fraction') : n = m := by
  have hlength : fraction.length = fraction'.length := by
    rw [h.length_fraction, h'.length_fraction]
  have hsame : whole ++ fraction = whole' ++ fraction' := by
    unfold pointedAt at heq
    by_cases hplaces : places = 0
    · rw [if_pos hplaces, if_pos hplaces, List.append_nil, List.append_nil] at heq
      rw [heq, List.eq_nil_of_length_eq_zero (h.length_fraction.trans hplaces),
        List.eq_nil_of_length_eq_zero (h'.length_fraction.trans hplaces)]
    · rw [if_neg hplaces, if_neg hplaces] at heq
      obtain ⟨hwhole, hfraction⟩ := List.append_inj' heq (by simp [hlength])
      rw [hwhole, (List.cons.inj hfraction).2]
  have hdenotes := h.denotes
  rw [hsame, h'.denotes] at hdenotes
  exact (Option.some.inj hdenotes).symm

/-- A text spells one number. -/
theorem Spells.unique (h : Spells places k text) (h' : Spells places l text) : k = l := by
  obtain ⟨whole, fraction, hn, htext⟩ := h
  obtain ⟨whole', fraction', hn', htext'⟩ := h'
  rw [htext] at htext'
  -- Digits do not begin with the sign, so both numbers have it or none has.
  by_cases hk : k < 0
  · by_cases hl : l < 0
    · rw [if_pos hk, if_pos hl] at htext'
      have := hn.unique hn' (List.append_cancel_left htext')
      omega
    · rw [if_pos hk, if_neg hl] at htext'
      exact absurd htext'.symm (hn'.pointedAt_ne_minus _)
  · by_cases hl : l < 0
    · rw [if_neg hk, if_pos hl] at htext'
      exact absurd htext' (hn.pointedAt_ne_minus _)
    · rw [if_neg hk, if_neg hl] at htext'
      have := hn.unique hn' htext'
      omega

/-! ## The text as a function of the number -/

/-- The text of `k` units of the last place, if it fits its field. -/
def spelling? (places : Nat) (k : Int) : Option String :=
  let shown := min places maxScale
  if maxPlaces < places || decide (0 < places) &&
      decide (fieldWidth < (digits (k.natAbs / tenTo places)).length + 1 + shown) then none
  else some ((if k < 0 then "-" else "") ++
    String.ofList (pointed (k.natAbs / tenTo (places - shown)) shown ++
      List.replicate (places - maxScale) '0'))

/-- **What fits the field**: digits before the point that leave room for it and the places. Without
places there is no point, and any number of digits fits. -/
def FitsField (places : Nat) (k : Int) : Prop :=
  places ≤ maxPlaces ∧
    (0 < places → k.natAbs / tenTo places < tenTo (fieldWidth - 1 - min places maxScale))

/-- The guard before a text of digits, by the number of whole units. -/
theorem hasRoom_iff (whole places : Nat) :
    (decide (maxPlaces < places) || decide (0 < places) &&
      decide (fieldWidth < (digits whole).length + 1 + min places maxScale)) = false ↔
      places ≤ maxPlaces ∧ (0 < places → whole < tenTo (fieldWidth - 1 - min places maxScale)) := by
  have hroom : 0 < fieldWidth - 1 - min places maxScale := by
    have : maxScale < fieldWidth - 1 := by decide
    omega
  rw [← length_digits_le_iff whole _ hroom, Bool.or_eq_false_iff, Bool.and_eq_false_imp]
  simp only [decide_eq_false_iff_not, decide_eq_true_eq, not_lt]
  refine and_congr_right fun _ => forall_congr' fun _ => ?_
  omega

theorem isSome_unless_iff {guard : Bool} :
    (if guard then none else some text).isSome ↔ guard = false := by
  cases guard <;> simp

theorem spelling?_isSome_iff : (spelling? places k).isSome ↔ FitsField places k :=
  isSome_unless_iff.trans (hasRoom_iff _ _)

theorem pointed_eq (m places : Nat) :
    pointed m places = pointedAt places (digits (m / tenTo places)) (lastDigits m places) := by
  unfold pointed pointedAt
  split
  · rename_i h
    rw [h, tenTo_zero, Nat.div_one, List.append_nil]
  · rfl

/-- Zeros for the places that no decimal has go behind the point, as there is one then. -/
theorem pointedAt_min_append (places : Nat) (whole fraction : List Char) :
    pointedAt (min places maxScale) whole fraction ++ List.replicate (places - maxScale) '0' =
      pointedAt places whole (fraction ++ List.replicate (places - maxScale) '0') := by
  unfold pointedAt
  by_cases hplaces : places = 0
  · simp [hplaces]
  · have hshown : min places maxScale ≠ 0 := by
      have : 0 < maxScale := by decide
      omega
    rw [if_neg hplaces, if_neg hshown, List.append_assoc, List.cons_append]

/-- The digits of a number are split before its last ones, and zeros fill the other places. -/
theorem numeral_of_digits (m shown zeros : Nat) :
    Numeral (shown + zeros) (m * tenTo zeros) (digits (m / tenTo shown))
      (lastDigits m shown ++ List.replicate zeros '0') := by
  have hdenotes : numeralFrom? 0 (digits (m / tenTo shown) ++
      (lastDigits m shown ++ List.replicate zeros '0')) = some (m * tenTo zeros) := by
    rw [numeralFrom?_append, numeralFrom?_digits, Option.bind_some, numeralFrom?_append,
      numeralFrom?_lastDigits, Option.bind_some, numeralFrom?_replicate_zero]
  refine ⟨isDigit_of_numeralFrom? hdenotes, digits_ne_nil _, ?_, by simp, hdenotes⟩
  intro hhead
  rcases Nat.eq_zero_or_pos (m / tenTo shown) with hzero | hpos
  · rw [hzero]
    exact digits_of_lt (by decide)
  · exact absurd hhead (head?_digits _ hpos)

/-- A spelling has the sign of the number and the numeral of its magnitude. Places beyond the finest
scale are zeros, so the number has to be whole there. -/
theorem spells_of_spelling? (h : spelling? places k = some text)
    (hk : tenTo (places - maxScale) ∣ k.natAbs) : Spells places k text := by
  have hzeros : places - min places maxScale = places - maxScale := by omega
  unfold spelling? at h
  dsimp only at h
  split at h
  · cases h
  obtain rfl := Option.some.inj h
  have hnumeral := numeral_of_digits (k.natAbs / tenTo (places - maxScale)) (min places maxScale)
    (places - maxScale)
  rw [Nat.div_mul_cancel hk, show min places maxScale + (places - maxScale) = places by omega]
    at hnumeral
  refine ⟨_, _, hnumeral, ?_⟩
  rw [String.toList_append, String.toList_ofList, pointed_eq, hzeros, pointedAt_min_append]
  congr 1
  split <;> rfl

/-! ## Zeros with a sign -/

/-- A zero behind a minus sign. -/
def IsMinusZero (a : Decimal) : Prop :=
  a.isZero = true ∧ a.negative = true

instance (a : Decimal) : Decidable a.IsMinusZero :=
  inferInstanceAs (Decidable (_ ∧ _))

theorem not_isMinusZero_round (h : ¬ a.IsMinusZero) (places : Nat) :
    ¬ (a.round places).IsMinusZero := by
  rcases Nat.lt_or_ge places a.scale with hlt | hge
  · rintro ⟨hzero, hminus⟩
    obtain ⟨-, -, hsign⟩ := round_of_lt hlt
    rw [hsign, isZero_iff.mp hzero, bne_self_eq_false, Bool.or_false, Bool.and_eq_true] at hminus
    exact h hminus.symm
  · rwa [round_of_le hge]

/-- Sign and units agree, except for a minus zero. -/
theorem negative_iff_units_neg (h : ¬ a.IsMinusZero) (places : Nat) :
    a.negative = true ↔ a.units places < 0 := by
  have hpos : (0 : Int) < tenTo (places - a.scale) := by exact_mod_cast tenTo_pos _
  have hunits : a.units places < 0 ↔ a.coefficient < 0 := by
    constructor
    · intro hneg
      exact neg_of_mul_neg_left hneg hpos.le
    · intro hneg
      exact mul_neg_of_neg_of_pos hneg hpos
  rw [hunits, ← isNegative_iff, isNegative_eq]
  cases hsign : a.negative with
  | false => simp
  | true =>
    cases hzero : a.isZero with
    | false => simp
    | true => exact absurd ⟨hzero, hsign⟩ h

/-! ## Decimals -/

/-- With places enough for all digits, filling up with zeros is all there is to do. -/
theorem padFixed?_eq_spelling? (h : ¬ a.IsMinusZero) (hscale : a.scale ≤ places) :
    a.padFixed? places = spelling? places (a.units places) := by
  have hshown : a.scale ≤ min places maxScale := Nat.le_min.mpr ⟨hscale, a.scale_le⟩
  have hwhole : (a.units places).natAbs / tenTo places = a.magnitude / tenTo a.scale := by
    rw [natAbs_units, ← Nat.mul_div_mul_right a.magnitude _ (tenTo_pos (places - a.scale)),
      ← tenTo_add, Nat.add_sub_cancel' hscale]
  have hdigits : (a.units places).natAbs / tenTo (places - min places maxScale) =
      a.magnitude * tenTo (min places maxScale) / tenTo a.scale := by
    have hsplit : tenTo (places - a.scale) =
        tenTo (min places maxScale - a.scale) * tenTo (places - min places maxScale) := by
      rw [← tenTo_add]
      congr 1
      omega
    have hmore : tenTo (min places maxScale) =
        tenTo (min places maxScale - a.scale) * tenTo a.scale := by
      rw [← tenTo_add, Nat.sub_add_cancel hshown]
    rw [natAbs_units, hsplit, hmore, ← Nat.mul_assoc, ← Nat.mul_assoc,
      Nat.mul_div_cancel _ (tenTo_pos _), Nat.mul_div_cancel _ (tenTo_pos _)]
  have hsign : a.signText = if a.units places < 0 then "-" else "" := by
    rw [signText]
    exact if_congr (negative_iff_units_neg h places) rfl rfl
  rw [padFixed?, overflowsField, spelling?, hwhole, hdigits, hsign]

theorem fixed?_eq_spelling? (h : ¬ a.IsMinusZero) (places : Nat) :
    a.fixed? places = spelling? places ((a.round places).units places) :=
  padFixed?_eq_spelling? (not_isMinusZero_round h places) (a.scale_round_le places)

theorem tenTo_dvd_natAbs_units (h : a.scale ≤ places) :
    tenTo (places - maxScale) ∣ (a.units places).natAbs := by
  have := a.scale_le
  have hsplit : places - a.scale = places - maxScale + (min places maxScale - a.scale) := by omega
  rw [natAbs_units, hsplit, tenTo_add]
  exact (Nat.dvd_mul_right _ _).mul_left _

theorem spells_of_fixed? (h : ¬ a.IsMinusZero) (htext : a.fixed? places = some text) :
    Spells places ((a.round places).units places) text := by
  rw [fixed?_eq_spelling? h] at htext
  exact spells_of_spelling? htext (tenTo_dvd_natAbs_units (a.scale_round_le places))

/-- **The text is the correctly rounded number.** A decimal that is no minus zero has a nearest
number of units of the last place, halves away from zero, which is the number itself if it has no
more digits. There is a text just if this number fits the field, and the text is its numeral.
Decimals of one value have one text, and the text of a larger one never spells a smaller number. -/
theorem fixed?_spells_nearest (h : ¬ a.IsMinusZero) (places : Nat) :
    ∃ k, IsNearest (a.value * tenTo places) k ∧ (∀ j : Int, a.value * tenTo places = j → k = j) ∧
      ((a.fixed? places).isSome ↔ FitsField places k) ∧
      ∀ text, a.fixed? places = some text → Spells places k text ∧
        (∀ b : Decimal, ¬ b.IsMinusZero → a ≈ b → b.fixed? places = some text) ∧
        ∀ (b : Decimal) text', ¬ b.IsMinusZero → b.fixed? places = some text' → a ≤ b →
          ∀ i l, Spells places i text → Spells places l text' → i ≤ l := by
  have hnearest := a.round_isNearest places
  refine ⟨_, hnearest, ?_, ?_, ?_⟩
  · intro j hj
    rw [hj] at hnearest
    exact hnearest.eq_of_int
  · rw [fixed?_eq_spelling? h]
    exact spelling?_isSome_iff
  intro text htext
  have hspells := spells_of_fixed? h htext
  refine ⟨hspells, ?_, ?_⟩
  · intro b hb hequiv
    have hnearest' := b.round_isNearest places
    rw [← equiv_def.mp hequiv] at hnearest'
    rw [fixed?_eq_spelling? hb, hnearest'.unique hnearest, ← fixed?_eq_spelling? h, htext]
  · intro b text' hb htext' hle i l hi hl
    obtain rfl := hi.unique hspells
    obtain rfl := hl.unique (spells_of_fixed? hb htext')
    refine hnearest.mono (b.round_isNearest places) ?_
    exact mul_le_mul_of_nonneg_right (le_iff_value_le.mp hle) (tenTo_cast_pos places).le

/-- A half that carries into a new digit, at two scales, and a number above it. -/
theorem fixed?_spells_nearest_carry :
    ¬ (ofParts (-9995) 3).IsMinusZero ∧ (ofParts (-9995) 3).fixed? 2 = some "-10.00" ∧
    (∃ k, IsNearest ((ofParts (-9995) 3).value * tenTo 2) k ∧ Spells 2 k "-10.00") ∧
    (ofParts (-99950) 4).fixed? 2 = some "-10.00" ∧
    ∀ k l, Spells 2 k "-10.00" → Spells 2 l "-9.99" → k ≤ l := by
  have hminus : ¬ (ofParts (-9995) 3).IsMinusZero := by decide +kernel
  have htext : (ofParts (-9995) 3).fixed? 2 = some "-10.00" := by decide +kernel
  obtain ⟨k, hnearest, -, -, hspelling⟩ := fixed?_spells_nearest hminus 2
  obtain ⟨hspells, hequiv, hlarger⟩ := hspelling _ htext
  refine ⟨hminus, htext, ⟨k, hnearest, hspells⟩, ?_, ?_⟩
  · refine hequiv _ (by decide +kernel) (equiv_iff_cmp.mpr ?_)
    decide +kernel
  · have habove : ofParts (-9995) 3 ≤ ofParts (-9994) 3 := by decide +kernel
    exact hlarger (ofParts (-9994) 3) "-9.99" (by decide +kernel) (by decide +kernel) habove

end MarketDesk.Decimal
