import MarketDesk.Proofs.Toml.Numeral
import MarketDesk.Proofs.Toml.Text
import MarketDesk.Toml.Reader

/-!
# Lines are read as they were written

A header with a plain name is read as such (`Toml.readStatement_header`), and so is a line that
gives a plain name a value (`Toml.readStatement_pair`). Which characters stand for which value is
said by `Toml.Denotes`. Lines that are read one by one make up a document (`Toml.Says`).
-/

namespace MarketDesk.Toml

open Text (isDigit digits isDigit_of_mem_digits digits_ne_nil)
open Wire (Value)

variable {c : Char} {rest : List Char}

theorem skipSpaces_cons (hc : isSpace c = false) : skipSpaces (c :: rest) = c :: rest :=
  List.dropWhile_cons_of_neg (Bool.eq_false_iff.mp hc)

theorem isSpace_of_isBare (hc : isBare c = true) : isSpace c = false := by
  have hspace := ne_of_holds (q := ' ') hc rfl
  have htab := ne_of_holds (q := '\t') hc rfl
  simp [isSpace, hspace, htab]

/-! ## Names -/

/-- The name can be written as a key without quotes. -/
def IsName (name : String) : Prop := name.toList ≠ [] ∧ name.toList.all isBare = true

instance (name : String) : Decidable (IsName name) := inferInstanceAs (Decidable (_ ∧ _))

variable {name : String}

theorem IsName.bare (h : IsName name) : ∀ c ∈ name.toList, isBare c = true :=
  List.all_eq_true.mp h.2

theorem IsName.eq_cons (h : IsName name) : ∃ a as, name.toList = a :: as ∧ isBare a = true := by
  obtain ⟨a, as, has⟩ := List.exists_cons_of_ne_nil h.1
  exact ⟨a, as, has, h.bare a (has ▸ List.mem_cons_self)⟩

theorem skipSpaces_name (h : IsName name) (rest : List Char) :
    skipSpaces (name.toList ++ rest) = name.toList ++ rest := by
  obtain ⟨a, as, has, ha⟩ := h.eq_cons
  rw [has]
  exact skipSpaces_cons (isSpace_of_isBare ha)

/-- A name ends where a character stands that no name has. -/
theorem readName_append (h : IsName name) (hc : isBare c = false) (rest : List Char) :
    readName (name.toList ++ c :: rest) = some (name, c :: rest) := by
  have hquotes : readLineText (name.toList ++ c :: rest) = none := by
    obtain ⟨a, as, has, ha⟩ := h.eq_cons
    have hdouble := ne_of_holds (q := '"') ha rfl
    have hsingle := ne_of_holds (q := '\'') ha rfl
    rw [has, readLineText.eq_def]
    split <;> simp_all
  have htake : (name.toList ++ c :: rest).takeWhile isBare = name.toList := by
    rw [List.takeWhile_append_of_pos h.bare, List.takeWhile_cons_of_neg (by simp [hc]),
      List.append_nil]
  have hdrop : (name.toList ++ c :: rest).dropWhile isBare = c :: rest := by
    rw [List.dropWhile_append_of_pos h.bare, List.dropWhile_cons_of_neg (by simp [hc])]
  simp only [readName, hquotes, htake, hdrop]
  rw [if_neg (by simpa using h.1), String.ofList_toList]

/-- A name that no dot follows is a whole key. -/
theorem readKey_append (h : IsName name) (hc : isBare c = false)
    (hdot : (skipSpaces (c :: rest)).head? ≠ some '.') :
    readKey (name.toList ++ c :: rest) = some ([name], skipSpaces (c :: rest)) := by
  -- The limit on dotted keys is above one name.
  change readNames (78 + 1) _ = _
  rw [readNames, skipSpaces_name h, readName_append h hc]
  dsimp only [bind, Option.bind]
  split
  · rename_i hrest
    rw [hrest] at hdot
    exact absurd rfl hdot
  · rfl

/-! ## Values -/

/-- The characters stand for the value if the line ends behind them. -/
structure Denotes (w : List Char) (v : Value) : Prop where
  start : ∃ c cs, w = c :: cs ∧ isSpace c = false
  read : ∀ fuel depth rest,
    readValue (fuel + 1) depth (w ++ '\n' :: rest) = some (v, '\n' :: rest)

/-- A text begins with a quote of either sort. -/
theorem writeText_eq_cons (s : String) :
    ∃ q w, writeText s = q :: w ∧ (q = '"' ∨ q = '\'') := by
  unfold writeText
  dsimp only
  split
  · exact ⟨_, _, rfl, .inl rfl⟩
  split
  · exact ⟨_, _, rfl, .inr rfl⟩
  split
  · exact ⟨_, _, rfl, .inl rfl⟩
  split
  · exact ⟨_, _, rfl, .inr rfl⟩
  split
  · exact ⟨_, _, rfl, .inl rfl⟩
  · exact ⟨_, _, rfl, .inl rfl⟩

theorem denotes_writeText (s : String) : Denotes (writeText s) (.text s) := by
  obtain ⟨q, w, hw, hq⟩ := writeText_eq_cons s
  refine ⟨⟨q, w, hw, by rcases hq with rfl | rfl <;> rfl⟩, fun fuel depth rest => ?_⟩
  have hrest : Unquoted ('\n' :: rest) := ⟨nofun, nofun⟩
  have hread := readText_writeText s hrest
  rw [hw, List.cons_append] at hread ⊢
  rcases hq with rfl | rfl
  · simp [readValue, hread, String.ofList_toList]
  · simp [readValue, hread, String.ofList_toList]

/-- A numeral is read as an integer and not as a date, a decimal or a word. -/
theorem denotes_digits {n : Nat} (hn : n < twoTo 63) : Denotes (digits n) (.int n) := by
  obtain ⟨c, cs, hcs⟩ := List.exists_cons_of_ne_nil (digits_ne_nil n)
  have hc : isDigit c = true := isDigit_of_mem_digits n c (hcs ▸ List.mem_cons_self)
  have hspace : isSpace c = false := by
    simp [isSpace, ne_of_holds (q := ' ') hc rfl, ne_of_holds (q := '\t') hc rfl]
  refine ⟨⟨c, cs, hcs, hspace⟩, fun fuel depth rest => ?_⟩
  have hread := readWord_digits hn rest
  rw [hcs, List.cons_append] at hread ⊢
  have hlist := ne_of_holds (q := '[') hc rfl
  have htable := ne_of_holds (q := '\x7b') hc rfl
  have hdouble := ne_of_holds (q := '"') hc rfl
  have hsingle := ne_of_holds (q := '\'') hc rfl
  simp_all [readValue]

/-! ## Statements -/

theorem afterLine?_break (rest : List Char) : afterLine? ('\n' :: rest) = some rest := rfl

theorem readStatement_header (h : IsName name) (rest : List Char) :
    readStatement ('[' :: name.toList ++ [']', '\n'] ++ rest) = some (.header [name], rest) := by
  have hkey : readKey (name.toList ++ ']' :: '\n' :: rest) =
      some ([name], ']' :: '\n' :: rest) := readKey_append h rfl nofun
  obtain ⟨a, as, has, ha⟩ := h.eq_cons
  have hopen := ne_of_holds (q := '[') ha rfl
  rw [has] at hkey ⊢
  rw [readStatement.eq_def]
  simp_all [afterLine?_break]

theorem readStatement_pair {w : List Char} {v : Value} (h : IsName name) (hv : Denotes w v)
    (rest : List Char) :
    readStatement (name.toList ++ [' ', '=', ' '] ++ w ++ ['\n'] ++ rest) =
      some (.pair [name] v, rest) := by
  have hkey : readKey (name.toList ++ ' ' :: '=' :: ' ' :: (w ++ '\n' :: rest)) =
      some ([name], '=' :: ' ' :: (w ++ '\n' :: rest)) := readKey_append h rfl nofun
  obtain ⟨a, as, has, ha⟩ := h.eq_cons
  have hopen := ne_of_holds (q := '[') ha rfl
  have hskip : skipSpaces (' ' :: (w ++ '\n' :: rest)) = w ++ '\n' :: rest := by
    obtain ⟨c, cs, rfl, hc⟩ := hv.start
    exact skipSpaces_cons hc
  rw [has] at hkey ⊢
  rw [readStatement.eq_def]
  simp_all [afterLine?_break, hv.read]

/-! ## Documents -/

/-- The characters are read as these statements. -/
def Says (cs : List Char) (ss : List Statement) : Prop :=
  ∀ fuel, cs.length < fuel → readStatements fuel cs = some ss

theorem says_nil : Says [] [] := by
  intro fuel hfuel
  cases fuel with
  | zero => rfl
  | succ fuel => rfl

theorem Says.emptyLine {cs : List Char} {ss : List Statement} (h : Says cs ss) :
    Says ('\n' :: cs) ss := by
  intro fuel hfuel
  cases fuel with
  | zero => nomatch hfuel
  | succ fuel => exact h fuel (Nat.lt_of_succ_lt_succ hfuel)

/-- A line with a statement comes before the others. -/
theorem Says.line {line cs : List Char} {s : Statement} {ss : List Statement}
    (hstart : ∃ a as, line = a :: as ∧ (a = '[' ∨ isBare a = true))
    (hread : readStatement (line ++ cs) = some (s, cs)) (h : Says cs ss) :
    Says (line ++ cs) (s :: ss) := by
  obtain ⟨a, as, rfl, ha⟩ := hstart
  intro fuel hfuel
  cases fuel with
  | zero => nomatch hfuel
  | succ fuel =>
    -- A line has characters, so that what is behind it needs less fuel.
    have hrest := h fuel (by simp at hfuel; omega)
    have hplain : isSpace a = false ∧ a ≠ '\n' ∧ a ≠ '\r' ∧ a ≠ '#' := by
      rcases ha with rfl | ha
      · decide
      · exact ⟨isSpace_of_isBare ha, ne_of_holds ha rfl, ne_of_holds ha rfl, ne_of_holds ha rfl⟩
    obtain ⟨hspace, hbreak, hreturn, hcomment⟩ := hplain
    rw [List.cons_append] at hread ⊢
    rw [readStatements, skipSpaces_cons hspace]
    simp [hbreak, hreturn, hcomment, hread, hrest]

end MarketDesk.Toml
