import Mathlib.Data.List.TakeWhile
import MarketDesk.Proofs.Text.Digits
import MarketDesk.Toml.Scalar

/-!
# Numbers are read as they were written

A row of digits without a needless zero at its start is a word of a document that is a whole number
and nothing else: no truth value, no date or time, no number with a fraction
(`Toml.ofWord?_of_digits`). The digits of a number are such a row (`Toml.readWord_digits`).
-/

namespace MarketDesk

namespace Toml

open Text
open Wire (Value)

variable {c q : Char} {cs ds : List Char}

theorem ne_of_holds {p : Char → Bool} (hc : p c = true) (hq : p q = false) : c ≠ q := by
  rintro rfl
  rw [hc] at hq
  cases hq

theorem ungrouped?_of_digits (hne : ds ≠ []) (hds : ∀ c ∈ ds, isDigit c = true) :
    ungrouped? isDigit ds = some ds := by
  induction ds with
  | nil => exact absurd rfl hne
  | cons c ds ih =>
    obtain ⟨hc, hds⟩ := List.forall_mem_cons.mp hds
    cases ds with
    | nil => rw [ungrouped?, if_pos hc]
    | cons d ds =>
      have hd := ne_of_holds (q := '_') (hds d List.mem_cons_self) rfl
      rw [ungrouped?.eq_def]
      split
      · exact absurd ‹_› (List.cons_ne_nil _ _)
      · exact absurd (List.cons.inj ‹_›).2 (List.cons_ne_nil _ _)
      · exact absurd (List.cons.inj (List.cons.inj ‹_›).2).1 hd
      · rename_i hcons
        obtain ⟨rfl, rfl⟩ := List.cons.inj hcons
        rw [if_pos hc, ih (List.cons_ne_nil _ _) hds, Option.map_some]

theorem splitSign_of_digit (hc : isDigit c = true) : splitSign (c :: cs) = (false, c :: cs) := by
  have hminus := ne_of_holds (q := '-') hc rfl
  have hplus := ne_of_holds (q := '+') hc rfl
  rw [splitSign.eq_def]
  split <;> simp_all

theorem truth?_of_digit (hc : isDigit c = true) : truth? (c :: cs) = none := by
  have htrue := ne_of_holds (q := 't') hc rfl
  have hfalse := ne_of_holds (q := 'f') hc rfl
  rw [truth?.eq_def]
  split <;> simp_all

theorem special?_of_digit (hc : isDigit c = true) : special? (c :: cs) = none := by
  have hinf := ne_of_holds (q := 'i') hc rfl
  have hnan := ne_of_holds (q := 'n') hc rfl
  rw [special?, splitSign_of_digit hc]
  dsimp only
  split <;> simp_all

theorem afterDate?_of_digits (hds : ∀ c ∈ ds, isDigit c = true) : afterDate? ds = none := by
  rw [afterDate?.eq_def]
  split
  · exact absurd rfl (ne_of_holds (c := '-') (hds '-' (by simp)) rfl)
  · rfl

theorem afterTime?_of_digits (hds : ∀ c ∈ ds, isDigit c = true) : afterTime? ds = none := by
  rw [afterTime?.eq_def]
  split
  · exact absurd rfl (ne_of_holds (c := ':') (hds ':' (by simp)) rfl)
  · rfl

theorem moment?_of_digits (hds : ∀ c ∈ ds, isDigit c = true) : moment? ds = none := by
  have hmoment : isMoment ds = false := by
    rw [isMoment, afterDate?_of_digits hds, afterTime?_of_digits hds]
    rfl
  rw [moment?, hmoment, if_neg Bool.false_ne_true]

theorem takeWhile_of_digits {p : Char → Bool} (hds : ∀ c ∈ ds, isDigit c = true)
    (hp : ∀ c, isDigit c = true → p c = true) : ds.takeWhile p = ds :=
  List.takeWhile_eq_self_iff.mpr fun c hc => hp c (hds c hc)

theorem dropWhile_of_digits {p : Char → Bool} (hds : ∀ c ∈ ds, isDigit c = true)
    (hp : ∀ c, isDigit c = true → p c = true) : ds.dropWhile p = [] :=
  List.dropWhile_eq_nil_iff.mpr fun c hc => hp c (hds c hc)

/-- Digits alone have neither a fraction nor an exponent. -/
theorem decimal?_of_digits (hc : isDigit c = true) (hds : ∀ d ∈ c :: ds, isDigit d = true) :
    decimal? (c :: ds) = none := by
  have hexponent (d : Char) (hd : isDigit d = true) : (!isExponentMark d) = true := by
    have he := ne_of_holds (q := 'e') hd rfl
    have hE := ne_of_holds (q := 'E') hd rfl
    simp [isExponentMark, he, hE]
  have hpoint (d : Char) (hd : isDigit d = true) : (d != '.') = true := by
    simpa using ne_of_holds (q := '.') hd rfl
  simp [decimal?, splitSign_of_digit hc, takeWhile_of_digits hds hexponent,
    dropWhile_of_digits hds hexponent, dropWhile_of_digits hds hpoint]

/-! ## The digits of a number -/

/-- A numeral has no zero in front, except the one of zero. -/
theorem leadingDigits?_digits (n : Nat) : leadingDigits? (digits n) = some (digits n) := by
  rw [leadingDigits?, ungrouped?_of_digits (digits_ne_nil n) (isDigit_of_mem_digits n)]
  rcases Nat.eq_zero_or_pos n with rfl | hn
  · rw [digits_of_lt (by decide)]
    rfl
  · have hhead := head?_digits n hn
    dsimp only [bind, Option.bind]
    split
    · rename_i hds
      rw [hds] at hhead
      exact absurd rfl hhead
    · rfl

/-- The marks of other bases are no digits. -/
theorem integer?_digits (n : Nat) : integer? (digits n) = integerValue? false n := by
  have hds := isDigit_of_mem_digits n
  obtain ⟨c, cs, hcs⟩ := List.exists_cons_of_ne_nil (digits_ne_nil n)
  have hmark {q : Char} (hq : q ∈ digits n) : isDigit q = false → False :=
    fun h => Bool.false_ne_true (h.symm.trans (hds q hq))
  rw [integer?.eq_def]
  split
  · exact (hmark (q := 'x') (by rw [‹digits n = _›]; simp) rfl).elim
  · exact (hmark (q := 'o') (by rw [‹digits n = _›]; simp) rfl).elim
  · exact (hmark (q := 'b') (by rw [‹digits n = _›]; simp) rfl).elim
  · have hsign : splitSign (digits n) = (false, digits n) := by
      rw [hcs] at hds ⊢
      exact splitSign_of_digit (hds c List.mem_cons_self)
    rw [hsign]
    dsimp only
    rw [leadingDigits?_digits]
    dsimp only [bind, Option.bind]
    rw [numeral?_digits]

theorem integerValue?_of_lt {n : Nat} (h : n < twoTo 63) :
    integerValue? false n = some (.int n) := by
  have hrange (k : Nat) (hk : n < k) : -(k : Int) ≤ (n : Int) ∧ (n : Int) < k := by omega
  rw [integerValue?, if_neg Bool.false_ne_true, if_pos (hrange (twoTo 63) h)]

theorem ofWord?_digits {n : Nat} (h : n < twoTo 63) : ofWord? (digits n) = some (.int n) := by
  have hinteger := (integer?_digits n).trans (integerValue?_of_lt h)
  have hds := isDigit_of_mem_digits n
  obtain ⟨c, cs, hcs⟩ := List.exists_cons_of_ne_nil (digits_ne_nil n)
  rw [hcs] at hds hinteger ⊢
  have hc := hds c List.mem_cons_self
  rw [ofWord?, truth?_of_digit hc, special?_of_digit hc, moment?_of_digits hds,
    decimal?_of_digits hc hds, hinteger]
  rfl

/-- **Numbers are read as they were written**, up to the end of the line. -/
theorem readWord_digits {n : Nat} (h : n < twoTo 63) (rest : List Char) :
    readWord (digits n ++ '\n' :: rest) = some (.int n, '\n' :: rest) := by
  have hinside (c : Char) (hc : isDigit c = true) : (!endsWord c) = true := by
    simp [endsWord, isSpace, ne_of_holds (q := ' ') hc rfl, ne_of_holds (q := '\t') hc rfl,
      ne_of_holds (q := '\n') hc rfl, ne_of_holds (q := '\r') hc rfl,
      ne_of_holds (q := '#') hc rfl, ne_of_holds (q := ',') hc rfl,
      ne_of_holds (q := ']') hc rfl, ne_of_holds (q := '\x7d') hc rfl]
  have hword := fun c hc => hinside c (isDigit_of_mem_digits n c hc)
  have hend : (!endsWord '\n') = false := rfl
  have htake : (digits n ++ '\n' :: rest).takeWhile (!endsWord ·) = digits n := by
    rw [List.takeWhile_append_of_pos hword, List.takeWhile_cons_of_neg (by simp [hend]),
      List.append_nil]
  have hdrop : (digits n ++ '\n' :: rest).dropWhile (!endsWord ·) = '\n' :: rest := by
    rw [List.dropWhile_append_of_pos hword, List.dropWhile_cons_of_neg (by simp [hend])]
  rw [readWord, htake, hdrop, ofWord?_digits h]
  rfl

end Toml

end MarketDesk
