import MarketDesk.Powers
import MarketDesk.Text.Digits

/-!
# Digits

The digits of a number denote this number (`Text.numeral?_digits`); so do its last digits behind the
number without them (`Text.numeralFrom?_lastDigits`) and its digits behind zeros
(`Text.numeralFrom?_padded`). How many there are bounds the number (`Text.length_digits_le_iff`).
-/

namespace MarketDesk

namespace Text

theorem isDigit_digitChar (d : Nat) : isDigit (digitChar d) = true := by
  have hall : ∀ k < 10, isDigit (digitChar k) = true := by decide
  have hmod : digitChar d = digitChar (d % 10) := by rw [digitChar, digitChar, Nat.mod_mod]
  rw [hmod]
  exact hall _ (Nat.mod_lt _ (by decide))

theorem digitValue?_digitChar {d : Nat} (h : d < 10) : digitValue? (digitChar d) = some d := by
  decide +revert

theorem digitValue?_zero : digitValue? '0' = some 0 := by decide

theorem digits_of_lt {m : Nat} (h : m < 10) : digits m = [digitChar m] := by
  rw [digits, if_pos h]

theorem digits_of_le {m : Nat} (h : 10 ≤ m) :
    digits m = digits (m / 10) ++ [digitChar (m % 10)] := by
  rw [digits, if_neg (Nat.not_lt.mpr h)]

/-- What holds of one digit and is kept by a further digit holds of the digits of every number. -/
theorem digits_induction {P : Nat → List Char → Prop} (hone : ∀ d < 10, P d [digitChar d])
    (hmore : ∀ m d, 0 < m → d < 10 → P m (digits m) → P (m * 10 + d) (digits m ++ [digitChar d]))
    (m : Nat) : P m (digits m) := by
  induction m using Nat.strongRecOn with
  | _ m ih =>
    rcases Nat.lt_or_ge m 10 with h | h
    · rw [digits_of_lt h]
      exact hone m h
    · have hstep := hmore (m / 10) (m % 10) (by omega) (by omega) (ih (m / 10) (by omega))
      rw [digits_of_le h]
      have hm : m / 10 * 10 + m % 10 = m := by omega
      rwa [hm] at hstep

theorem digits_ne_nil (m : Nat) : digits m ≠ [] := by
  induction m using digits_induction with
  | hone d h => exact List.cons_ne_nil _ _
  | hmore m d hm hd ih => simp

/-- A number has at most `k` digits, for some `k` above zero, just if it is below that power of ten.
-/
theorem length_digits_le_iff (m : Nat) :
    ∀ k, 0 < k → ((digits m).length ≤ k ↔ m < tenTo k) := by
  induction m using digits_induction with
  | hone d hd =>
    intro k hk
    have hten : tenTo 1 ≤ tenTo k := tenTo_le hk
    exact iff_of_true hk (Nat.lt_of_lt_of_le hd hten)
  | hmore m d hm hd ih =>
    intro k hk
    obtain ⟨k, rfl⟩ := Nat.exists_eq_add_of_lt hk
    have hlength : (digits m ++ [digitChar d]).length = (digits m).length + 1 := List.length_append
    rw [hlength, Nat.zero_add, Nat.add_le_add_iff_right, tenTo_succ]
    rcases Nat.eq_zero_or_pos k with rfl | hk'
    · have := List.length_pos_iff.mpr (digits_ne_nil m)
      rw [tenTo_zero]
      omega
    · rw [ih k hk']
      omega

theorem isDigit_of_mem_digits (m : Nat) : ∀ c ∈ digits m, isDigit c = true := by
  induction m using digits_induction with
  | hone d h => simpa using isDigit_digitChar d
  | hmore m d hm hd ih =>
    intro c hc
    rcases List.mem_append.mp hc with hc | hc
    · exact ih c hc
    · rw [List.mem_singleton.mp hc]
      exact isDigit_digitChar d

theorem numeralFrom?_append (ds : List Char) (before : Nat) (cs : List Char) :
    numeralFrom? before (ds ++ cs) = (numeralFrom? before ds).bind (numeralFrom? · cs) := by
  induction ds generalizing before with
  | nil => rfl
  | cons c ds ih =>
    rw [List.cons_append, numeralFrom?, numeralFrom?]
    cases digitValue? c with
    | none => rfl
    | some d => exact ih _

theorem numeralFrom?_digits (m : Nat) : numeralFrom? 0 (digits m) = some m := by
  induction m using digits_induction with
  | hone d h =>
    rw [numeralFrom?, digitValue?_digitChar h]
    simp [numeralFrom?]
  | hmore m d hm hd ih =>
    rw [numeralFrom?_append, ih, Option.bind_some, numeralFrom?, digitValue?_digitChar hd]
    rfl

theorem numeral?_digits (m : Nat) : numeral? (digits m) = some m := by
  have h := numeralFrom?_digits m
  unfold numeral?
  split
  · exact absurd ‹_› (digits_ne_nil m)
  · exact h

/-- Only the number zero begins with the digit zero. -/
theorem head?_digits (m : Nat) : 0 < m → (digits m).head? ≠ some '0' := by
  induction m using digits_induction with
  | hone d h =>
    intro hd
    have hall : ∀ k < 10, 0 < k → [digitChar k].head? ≠ some '0' := by decide
    exact hall d h hd
  | hmore m d hm hd ih =>
    intro _
    obtain ⟨c, cs, hcs⟩ := List.exists_cons_of_ne_nil (digits_ne_nil m)
    rw [hcs] at ih ⊢
    exact ih hm

/-! ## Rows of digits -/

variable {n v : Nat} {ds : List Char}

theorem digitValue?_eq_none_iff {c : Char} : digitValue? c = none ↔ isDigit c = false := by
  simp [digitValue?, isDigit]

theorem isDigit_of_digitValue? {c : Char} {d : Nat} (h : digitValue? c = some d) :
    isDigit c = true := by
  rw [← Bool.not_eq_false, ← digitValue?_eq_none_iff, h]
  exact Option.some_ne_none d

theorem le_of_numeralFrom? (h : numeralFrom? n ds = some v) : n ≤ v := by
  induction ds generalizing n with
  | nil => exact Nat.le_of_eq (Option.some.inj h)
  | cons c ds ih =>
    obtain ⟨d, -, hds⟩ := Option.bind_eq_some_iff.mp h
    have := ih hds
    omega

theorem numeralFrom?_cons {c : Char} (h : numeralFrom? n (c :: ds) = some v) :
    ∃ d, digitValue? c = some d ∧ numeralFrom? (n * 10 + d) ds = some v ∧ n * 10 + d ≤ v := by
  obtain ⟨d, hd, hds⟩ := Option.bind_eq_some_iff.mp h
  exact ⟨d, hd, hds, le_of_numeralFrom? hds⟩

/-- The last digits continue the number without them. -/
theorem numeralFrom?_lastDigits (m k : Nat) :
    numeralFrom? (m / tenTo k) (lastDigits m k) = some m := by
  induction k generalizing m with
  | zero => simp [lastDigits, numeralFrom?]
  | succ k ih =>
    have hstart : m / tenTo (k + 1) = m / 10 / tenTo k := by
      rw [tenTo_succ, Nat.mul_comm, Nat.div_div_eq_div_mul]
    have hd : m % 10 < 10 := Nat.mod_lt m (by decide)
    rw [lastDigits, numeralFrom?_append, hstart, ih, Option.bind_some, numeralFrom?,
      digitValue?_digitChar hd]
    simp only [Option.bind_eq_bind, Option.bind_some, numeralFrom?]
    rw [Nat.div_add_mod']

theorem numeralFrom?_zeros (k : Nat) (ds : List Char) :
    numeralFrom? 0 (List.replicate k '0' ++ ds) = numeralFrom? 0 ds := by
  induction k with
  | zero => rfl
  | succ k ih =>
    rw [List.replicate_succ, List.cons_append, numeralFrom?]
    exact ih

/-- Zeros behind a number multiply it. -/
theorem numeralFrom?_replicate_zero (n k : Nat) :
    numeralFrom? n (List.replicate k '0') = some (n * tenTo k) := by
  induction k generalizing n with
  | zero => simp [numeralFrom?]
  | succ k ih =>
    rw [List.replicate_succ, numeralFrom?, digitValue?_zero]
    simp only [Option.bind_eq_bind, Option.bind_some]
    rw [ih, tenTo_succ, Nat.add_zero, Nat.mul_assoc, Nat.mul_comm 10]

/-- Only digits denote a number. -/
theorem isDigit_of_numeralFrom? (h : numeralFrom? n ds = some v) : ∀ c ∈ ds, isDigit c = true := by
  induction ds generalizing n with
  | nil => exact List.forall_mem_nil _
  | cons c ds ih =>
    obtain ⟨d, hd, hds, -⟩ := numeralFrom?_cons h
    exact List.forall_mem_cons.mpr ⟨isDigit_of_digitValue? hd, ih hds⟩

theorem numeralFrom?_padded (width m : Nat) : numeralFrom? 0 (padded '0' width m) = some m := by
  rw [padded, numeralFrom?_zeros, numeralFrom?_digits]

end Text

end MarketDesk
