/-!
Powers of ten, which scale decimal numbers, and powers of two, which bound numbers of a fixed width.
-/

namespace MarketDesk

/-- One with `n` zeros behind it. -/
def tenTo (n : Nat) : Nat := Nat.pow 10 n

/-- The number of words of `n` bits. -/
def twoTo (n : Nat) : Nat := Nat.pow 2 n

theorem tenTo_pos (n : Nat) : 0 < tenTo n := Nat.pow_pos (by decide)

theorem twoTo_pos (n : Nat) : 0 < twoTo n := Nat.pow_pos (by decide)

@[simp] theorem tenTo_zero : tenTo 0 = 1 := rfl

theorem tenTo_succ (n : Nat) : tenTo (n + 1) = tenTo n * 10 := rfl

theorem tenTo_add (m n : Nat) : tenTo (m + n) = tenTo m * tenTo n := by
  induction n with
  | zero => simp
  | succ n ih => rw [← Nat.add_assoc, tenTo_succ, tenTo_succ, ih, Nat.mul_assoc]

theorem tenTo_le {m n : Nat} (h : m ≤ n) : tenTo m ≤ tenTo n := by
  obtain ⟨k, rfl⟩ := Nat.le.dest h
  rw [tenTo_add]
  exact Nat.le_mul_of_pos_right _ (tenTo_pos k)

end MarketDesk
