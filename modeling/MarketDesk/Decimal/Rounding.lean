/-!
Rounding a quotient of natural numbers to the nearest whole number. The two rules differ only on a
quotient that lies halfway between its neighbours.
-/

namespace MarketDesk

/-- Where a quotient halfway between two whole numbers goes. -/
inductive Tie where
  | toEven
  | awayFromZero
deriving DecidableEq

/-- `n / d` rounded to the nearest whole number. -/
def roundQuotient (tie : Tie) (n d : Nat) : Nat :=
  if 2 * (n % d) < d then n / d
  else if d < 2 * (n % d) then n / d + 1
  else match tie with
    | .toEven => n / d + n / d % 2
    | .awayFromZero => n / d + 1

/-- Rounding goes to one of the two neighbours. -/
theorem roundQuotient_eq_or (tie : Tie) (n d : Nat) :
    roundQuotient tie n d = n / d ∨
      roundQuotient tie n d = n / d + 1 ∧ d ≤ 2 * (n % d) := by
  unfold roundQuotient
  split
  · exact .inl rfl
  · split
    · exact .inr ⟨rfl, by omega⟩
    · cases tie with
      | toEven =>
        rcases Nat.mod_two_eq_zero_or_one (n / d) with h | h
        · exact .inl (by simp [h])
        · exact .inr ⟨by simp [h], by omega⟩
      | awayFromZero => exact .inr ⟨rfl, by omega⟩

/-- A whole quotient is not moved. -/
theorem roundQuotient_of_dvd (tie : Tie) {n d : Nat} (hd : 0 < d) (h : d ∣ n) :
    roundQuotient tie n d = n / d := by
  unfold roundQuotient
  rw [Nat.mod_eq_zero_of_dvd h]
  simp [hd]

/-- Rounding after division by a positive number never grows. -/
theorem roundQuotient_le (tie : Tie) (n : Nat) {d : Nat} (hd : 0 < d) :
    roundQuotient tie n d ≤ n := by
  have hdiv := Nat.div_add_mod n d
  have hle : n / d ≤ d * (n / d) := Nat.le_mul_of_pos_left _ hd
  rcases roundQuotient_eq_or tie n d with h | ⟨h, hr⟩ <;> rw [h] <;> omega

/-- `c / d` rounded to the nearest whole number, alike on both sides of zero. -/
def roundSigned (tie : Tie) (c : Int) (d : Nat) : Int :=
  c.sign * roundQuotient tie c.natAbs d

end MarketDesk
