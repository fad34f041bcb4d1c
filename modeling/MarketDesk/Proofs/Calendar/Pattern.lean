import MarketDesk.Calendar.Pattern

/-!
# Well-formed date patterns

What may stand behind a percent sign is a letter, a letter of a number with another padding, an
offset with colons, or a number of fraction digits (`Pattern.Specifies`). A pattern is well-formed
if each percent sign has such characters behind it (`Pattern.WellFormed`), and the well-formed
patterns are those that can be read (`Pattern.ofText?_isSome_iff`).
-/

namespace MarketDesk.Pattern

variable {c : Char} {cs spec : List Char} {pieces : List Piece} {n fuel : Nat}

/-! ## Letters -/

/-- The letters that stand for a number on its own. -/
def numberLetters : List Char :=
  ['C', 'd', 'e', 'f', 'G', 'g', 'H', 'I', 'j', 'k', 'l', 'M', 'm', 'q', 'S', 's', 'U', 'u', 'V',
    'W', 'w', 'Y', 'y']

/-- The letters that stand for a name, for a character or for several pieces. -/
def otherLetters : List Char :=
  ['A', 'a', 'B', 'b', 'h', 'c', 'D', 'x', 'F', 'n', 'P', 'p', 'R', 'r', 'T', 'X', 't', 'v', 'Z',
    'z', '+', '%']

def padMarks : List Char := ['-', '0', '_']

def digitCounts : List Char := ['3', '6', '9']

def offsets : List (List Char) := [[':', 'z'], [':', ':', 'z'], [':', ':', ':', 'z']]

theorem ofLetter?_isSome_iff : (ofLetter? c).isSome ↔ c ∈ numberLetters ++ otherLetters := by
  fun_cases ofLetter? c <;> simp_all [numberLetters, otherLetters]

theorem repad?_isSome_iff (pad : Pad) :
    ((ofLetter? c).bind (repad? pad)).isSome ↔ c ∈ numberLetters := by
  fun_cases ofLetter? c <;>
    simp_all [numberLetters, repad?, zeros, spaces, bare, mark, strokedDate, hourAndMinute,
      timeOfDay]

theorem padOf?_isSome_iff : (padOf? c).isSome ↔ c ∈ padMarks := by
  fun_cases padOf? c <;> simp_all [padMarks]

theorem digitCount?_isSome_iff : (digitCount? c).isSome ↔ c ∈ digitCounts := by
  fun_cases digitCount? c <;> simp_all [digitCounts]

/-- A letter is neither a sign of padding nor a count of digits, and it begins no offset. -/
theorem letter_apart : ∀ c ∈ numberLetters ++ otherLetters,
    c ≠ ':' ∧ c ≠ '.' ∧ padOf? c = none ∧ digitCount? c = none := by
  simp [numberLetters, otherLetters, padOf?, digitCount?]

theorem padMark_apart : ∀ c ∈ padMarks, c ≠ ':' ∧ c ≠ '.' := by
  simp [padMarks]

/-! ## Specifiers -/

/-- **The characters have a meaning** behind a percent sign. -/
inductive Specifies : List Char → Prop
  | letter {c : Char} : c ∈ numberLetters ++ otherLetters → Specifies [c]
  | padded {p c : Char} : p ∈ padMarks → c ∈ numberLetters → Specifies [p, c]
  | offset {spec : List Char} : spec ∈ offsets → Specifies spec
  | fraction : Specifies ['.', 'f']
  | firstDigits {d : Char} : d ∈ digitCounts → Specifies [d, 'f']
  | pointDigits {d : Char} : d ∈ digitCounts → Specifies ['.', d, 'f']

/-- What has a meaning is read to its end, whatever follows. -/
theorem Specifies.read (h : Specifies spec) (rest : List Char) :
    ∃ pieces, ofSpecifier? (spec ++ rest) = some (pieces, spec.length) := by
  cases h with
  | letter hc =>
    obtain ⟨hcolon, hpoint, hpad, hcount⟩ := letter_apart _ hc
    obtain ⟨pieces, hpieces⟩ := Option.isSome_iff_exists.mp (ofLetter?_isSome_iff.mpr hc)
    exact ⟨pieces, by simp [ofSpecifier?, hcolon, hpoint, hpad, hcount, hpieces]⟩
  | @padded p _ hp hc =>
    have hmark := padMark_apart p hp
    obtain ⟨pad, hpad⟩ := Option.isSome_iff_exists.mp (padOf?_isSome_iff.mpr hp)
    obtain ⟨pieces, hpieces⟩ := Option.isSome_iff_exists.mp ((repad?_isSome_iff pad).mpr hc)
    refine ⟨pieces, ?_⟩
    simp [ofSpecifier?, hmark, hpad, ← Option.bind_assoc, hpieces]
  | offset hspec =>
    simp only [offsets, List.mem_cons, List.not_mem_nil, or_false] at hspec
    rcases hspec with rfl | rfl | rfl <;> exact ⟨_, rfl⟩
  | fraction => exact ⟨_, rfl⟩
  | firstDigits hd =>
    simp only [digitCounts, List.mem_cons, List.not_mem_nil, or_false] at hd
    rcases hd with rfl | rfl | rfl <;> exact ⟨_, rfl⟩
  | pointDigits hd =>
    simp only [digitCounts, List.mem_cons, List.not_mem_nil, or_false] at hd
    rcases hd with rfl | rfl | rfl <;> exact ⟨_, rfl⟩

/-- **Whatever the reader takes for a specifier is one.** The reader looks at one letter, at a mark
before it or at a count of digits, and each of its branches is a form of the grammar. -/
theorem specifies_of_read : ofSpecifier? cs = some (pieces, n) → Specifies (cs.take n) := by
  fun_cases ofSpecifier? cs with
  | case1 tail =>
    rintro ⟨⟩
    exact .offset (.tail _ (.tail _ (.head _)))
  | case2 tail =>
    rintro ⟨⟩
    exact .offset (.tail _ (.head _))
  | case3 tail =>
    rintro ⟨⟩
    exact .offset (.head _)
  | case4 tail =>
    rintro ⟨⟩
    exact .fraction
  | case5 d tail =>
    intro h
    obtain ⟨k, hcount, hread⟩ := Option.map_eq_some_iff.mp h
    cases hread
    exact .pointDigits (digitCount?_isSome_iff.mp (Option.isSome_of_eq_some hcount))
  | case6 c pad d tail hpad =>
    intro h
    obtain ⟨letter, hletter, h⟩ := Option.bind_eq_some_iff.mp h
    obtain ⟨padded, hpadded, hread⟩ := Option.bind_eq_some_iff.mp h
    cases hread
    have hnumber : ((ofLetter? d).bind (repad? pad)).isSome := by
      rw [hletter, Option.bind_some, hpadded, Option.isSome_some]
    exact .padded (padOf?_isSome_iff.mp (Option.isSome_of_eq_some hpad))
      ((repad?_isSome_iff pad).mp hnumber)
  | case7 => nofun
  | case8 c hpad k tail hcount =>
    intro h
    simp only [hcount, Option.some.injEq, Prod.mk.injEq] at h
    rw [← h.2]
    exact .firstDigits (digitCount?_isSome_iff.mp (Option.isSome_of_eq_some hcount))
  | case9 c rest _ _ _ _ _ hpad k hcount =>
    intro h
    simp only [hcount, reduceCtorEq] at h
  | case10 c rest _ _ _ _ _ hpad hcount =>
    intro h
    obtain ⟨letter, hletter, hread⟩ := Option.map_eq_some_iff.mp h
    cases hread
    exact .letter (ofLetter?_isSome_iff.mp (Option.isSome_of_eq_some hletter))
  | case11 => nofun

/-! ## Patterns -/

/-- **A well-formed pattern**: behind each percent sign stand characters that have a meaning. -/
inductive WellFormed : List Char → Prop
  | nil : WellFormed []
  | plain {c : Char} {cs : List Char} : c ≠ '%' → WellFormed cs → WellFormed (c :: cs)
  | specifier {spec cs : List Char} : Specifies spec → WellFormed cs →
    WellFormed ('%' :: (spec ++ cs))

theorem wellFormed_cons_iff (hc : c ≠ '%') : WellFormed (c :: cs) ↔ WellFormed cs := by
  refine ⟨fun h => ?_, .plain hc⟩
  cases h with
  | plain _ h => exact h
  | specifier => exact absurd rfl hc

/-- A percent sign belongs to a pattern just if a specifier can be read behind it, and the pattern
goes on where the specifier ends. -/
theorem wellFormed_percent_iff : WellFormed ('%' :: cs) ↔
    ∃ read, ofSpecifier? cs = some read ∧ WellFormed (cs.drop read.2) := by
  refine ⟨fun h => ?_, fun ⟨read, hread, h⟩ => ?_⟩
  · cases h with
    | plain hc => exact absurd rfl hc
    | @specifier spec rest hspec h =>
      obtain ⟨pieces, hread⟩ := hspec.read rest
      exact ⟨_, hread, by rwa [List.drop_left]⟩
  · have hspec := specifies_of_read hread
    have hformed : WellFormed ('%' :: (cs.take read.2 ++ cs.drop read.2)) := .specifier hspec h
    rwa [List.take_append_drop] at hformed

/-- One step of reading takes at least the percent sign, so that the fuel is enough for the rest. -/
theorem ofChars?_isSome_iff (h : cs.length ≤ fuel) :
    (ofChars? fuel cs).isSome ↔ WellFormed cs := by
  fun_induction ofChars? fuel cs with
  | case1 => exact iff_of_true rfl .nil
  | case2 => cases h
  | case3 fuel rest ih =>
    rw [List.length_cons, Nat.add_le_add_iff_right] at h
    have hrest (n : Nat) : (ofChars? fuel (rest.drop n)).isSome ↔ WellFormed (rest.drop n) :=
      ih n (Nat.le_trans (List.drop_sublist n rest).length_le h)
    simp only [wellFormed_percent_iff, ← hrest]
    cases ofSpecifier? rest with
    | none => simp
    | some read =>
      simp only [Option.bind_eq_bind, Option.bind_some, Option.some.injEq, exists_eq_left']
      cases ofChars? fuel (rest.drop read.2) <;> rfl
  | case4 fuel c rest hc ih =>
    rw [wellFormed_cons_iff hc, ← ih (Nat.le_of_succ_le_succ h)]
    cases ofChars? fuel rest <;> rfl

/-- **The patterns that can be read** are the well-formed ones. -/
theorem ofText?_isSome_iff {s : String} : (ofText? s).isSome ↔ WellFormed s.toList := by
  rw [ofText?, Option.isSome_map, ofChars?_isSome_iff (Nat.le_of_eq String.length_toList)]

end MarketDesk.Pattern
