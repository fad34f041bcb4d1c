import MarketDesk.Toml.Text

/-!
# Texts are read as they were written

`Toml.writeText` chooses among four notations; `Toml.readText` finds out from the quotes which one
it was and answers the text that was written and the characters behind it
(`Toml.readText_writeText`). Escapes are read in the same way on one line and on several
(`Toml.read_escape`). In the multi-line notations quotes of the text may stand before the closing
ones, at most two in a row (`Toml.readBasicLines_writeBasicLines`,
`Toml.readLiteralLines_append`).
-/

namespace MarketDesk.Toml

/-! ## Characters -/

theorem hexValue?_hexDigit {n : Nat} (h : n < 16) : hexValue? (hexDigit n) = some n := by
  decide +revert

theorem toNat_lt_of_isControl {c : Char} (h : isControl c = true) : c.toNat < 128 := by
  simp only [isControl, Bool.and_eq_true, Bool.or_eq_true, decide_eq_true_eq, beq_iff_eq] at h
  rcases h.2 with hlt | rfl
  · have : c.toNat < ' '.toNat := hlt
    exact Nat.lt_trans this (by decide)
  · decide

/-- The digits of a numeric escape give back the character. -/
theorem charOfHex?_numericEscape {c : Char} (h : c.toNat < 256) :
    charOfHex? ['0', '0', hexDigit (c.toNat / 16 % 16), hexDigit (c.toNat % 16)] = some c := by
  have hhigh := hexValue?_hexDigit (Nat.mod_lt (c.toNat / 16) (by decide : 16 > 0))
  have hlow := hexValue?_hexDigit (Nat.mod_lt c.toNat (by decide : 16 > 0))
  have hzero : hexValue? '0' = some 0 := rfl
  have hnumber : c.toNat / 16 % 16 * 16 + c.toNat % 16 = c.toNat := by omega
  have hvalid : c.toNat.isValidChar := c.valid
  simp [charOfHex?, hexFrom?, hhigh, hlow, hzero, hnumber, hvalid]

/-- A character that needs no escape stands for itself. -/
theorem isPlain_of_not_isControl {c : Char} (hc : isControl c = false) (hn : c ≠ '\n') :
    isPlain c = true := by
  by_cases ht : c = '\t'
  · rw [ht]
    rfl
  · have hle : ¬ c < ' ' → ' ' ≤ c := Char.not_lt.mp
    simp_all [isControl, isPlain]

/-! ## Escapes -/

section Escapes

variable {read : List Char → Scanned}
  (hnumeric : ∀ a b c d cs, read ('\\' :: 'u' :: a :: b :: c :: d :: cs) =
    (charOfHex? [a, b, c, d]).bind (read cs).push)
  (hletter : ∀ {c x : Char} cs, escaped? c = some x → read ('\\' :: c :: cs) = (read cs).push x)
  (hplain : ∀ {c : Char} cs, isPlain c = true → c ≠ '"' → c ≠ '\\' →
    read (c :: cs) = (read cs).push c)

include hnumeric hletter hplain

/-- A reader that understands numeric escapes, escapes by a letter and plain characters understands
what is written for any character but a quote or a line feed. -/
theorem read_escape {c : Char} (hquote : c ≠ '"') (hbreak : c ≠ '\n') (cs : List Char) :
    read (escape c ++ cs) = (read cs).push c := by
  unfold escape
  split
  · exact hletter cs rfl
  · exact hletter cs rfl
  · exact hletter cs rfl
  · exact hletter cs rfl
  · exact hletter cs rfl
  · rename_i hbackslash
    cases hc : isControl c with
    | true =>
      have hlt := toNat_lt_of_isControl hc
      rw [if_pos rfl, numericEscape]
      refine (hnumeric ..).trans ?_
      rw [charOfHex?_numericEscape (by omega)]
      rfl
    | false =>
      rw [if_neg Bool.false_ne_true]
      exact hplain cs (isPlain_of_not_isControl hc hbreak) hquote hbackslash

end Escapes

/-! ## Texts on one line -/

/-- What comes behind a text does not begin with a quote. -/
def Unquoted (rest : List Char) : Prop := rest.head? ≠ some '"' ∧ rest.head? ≠ some '\''

theorem readBasic_letter {c x : Char} (cs : List Char) (h : escaped? c = some x) :
    readBasic ('\\' :: c :: cs) = (readBasic cs).push x := by
  unfold escaped? at h
  split at h <;> cases h
  all_goals rfl

theorem readBasic_plain {c : Char} (cs : List Char) (hc : isPlain c = true) (hquote : c ≠ '"')
    (hbackslash : c ≠ '\\') : readBasic (c :: cs) = (readBasic cs).push c := by
  rw [readBasic.eq_def]
  split <;> simp_all

/-- A text in double quotes is read back up to its closing quote. -/
theorem readBasic_writeBasic (cs rest : List Char) :
    readBasic (writeBasic cs ++ rest) = some (cs, rest) := by
  induction cs with
  | nil => rfl
  | cons c cs ih =>
    rw [writeBasic, List.append_assoc]
    by_cases hquote : c = '"'
    · rw [if_pos hquote, hquote]
      have hread := readBasic_letter (c := '"') (writeBasic cs ++ rest) rfl
      rwa [ih] at hread
    rw [if_neg hquote]
    by_cases hbreak : c = '\n'
    · rw [if_pos hbreak, hbreak]
      have hread := readBasic_letter (c := 'n') (writeBasic cs ++ rest) rfl
      rwa [ih] at hread
    rw [if_neg hbreak, read_escape (fun _ _ _ _ _ => rfl) readBasic_letter readBasic_plain hquote
      hbreak, ih]
    rfl

/-- A text in single quotes is read back if it has no single quote itself. -/
theorem readLiteral_append {cs : List Char} (hcs : ∀ c ∈ cs, isPlain c = true ∧ c ≠ '\'')
    (rest : List Char) : readLiteral (writeLiteral cs ++ rest) = some (cs, rest) := by
  induction cs with
  | nil => rfl
  | cons c cs ih =>
    obtain ⟨⟨hc, hquote⟩, hcs⟩ := List.forall_mem_cons.mp hcs
    have hread := ih hcs
    rw [writeLiteral] at hread ⊢
    rw [List.cons_append, List.cons_append, readLiteral, if_neg hquote, if_pos hc, hread]
    rfl

/-! ## Texts on several lines -/

/-- Quotes before three others may as well stand behind them. -/
theorem replicate_append_triple (q : Char) (k : Nat) :
    List.replicate k q ++ [q, q, q] = [q, q, q] ++ List.replicate k q := by
  change List.replicate k q ++ List.replicate 3 q = List.replicate 3 q ++ List.replicate k q
  rw [List.replicate_append_replicate, List.replicate_append_replicate, Nat.add_comm]

/-- Up to two quotes before the closing ones belong to the text. -/
theorem closeTriple_replicate {q : Char} {k : Nat} {rest : List Char} (hk : k ≤ 2)
    (hrest : rest.head? ≠ some q) :
    closeTriple q (List.replicate k q ++ rest) = (List.replicate k q, rest) := by
  obtain rfl | rfl | rfl : k = 0 ∨ k = 1 ∨ k = 2 := by omega
  · match rest with
    | [] => rfl
    | [a] =>
      have ha : a ≠ q := by simpa using hrest
      simp [closeTriple, ha]
    | a :: b :: rest =>
      have ha : a ≠ q := by simpa using hrest
      simp [closeTriple, ha]
  · match rest with
    | [] => simp [closeTriple]
    | a :: rest =>
      have ha : a ≠ q := by simpa using hrest
      simp [closeTriple, ha]
  · simp [closeTriple, List.replicate]

theorem readBasicLines_close (cs : List Char) :
    readBasicLines .inside ('"' :: '"' :: '"' :: cs) = some (closeTriple '"' cs) := rfl

theorem readBasicLines_break (cs : List Char) :
    readBasicLines .inside ('\n' :: cs) = (readBasicLines .inside cs).push '\n' := rfl

theorem readBasicLines_letter {c x : Char} (cs : List Char) (h : escaped? c = some x) :
    readBasicLines .inside ('\\' :: c :: cs) = (readBasicLines .inside cs).push x := by
  unfold escaped? at h
  split at h <;> cases h
  all_goals rfl

theorem readBasicLines_plain {c : Char} (cs : List Char) (hc : isPlain c = true) (hquote : c ≠ '"')
    (hbackslash : c ≠ '\\') :
    readBasicLines .inside (c :: cs) = (readBasicLines .inside cs).push c := by
  have hbreak : c ≠ '\n' := by rintro rfl; cases hc
  have hreturn : c ≠ '\r' := by rintro rfl; cases hc
  rw [readBasicLines.eq_def]
  split <;> simp_all

/-- A quote that does not close the text belongs to it. -/
theorem readBasicLines_quote {cs : List Char} (h : ∀ t, cs ≠ '"' :: '"' :: t) :
    readBasicLines .inside ('"' :: cs) = (readBasicLines .inside cs).push '"' := by
  rw [readBasicLines.eq_def]
  split <;> simp_all
  rename_i hcons
  obtain ⟨rfl, rfl⟩ := hcons
  exact if_pos rfl

/-- What is written for a character begins with a backslash or is the character itself. -/
theorem escape_eq_cons (c : Char) :
    ∃ x w, escape c = x :: w ∧ (x = '\\' ∨ x = c ∧ c ≠ '\r') := by
  unfold escape
  split
  · exact ⟨_, _, rfl, .inl rfl⟩
  · exact ⟨_, _, rfl, .inl rfl⟩
  · exact ⟨_, _, rfl, .inl rfl⟩
  · exact ⟨_, _, rfl, .inl rfl⟩
  · exact ⟨_, _, rfl, .inl rfl⟩
  · rename_i hreturn _
    split
    · exact ⟨_, _, rfl, .inl rfl⟩
    · exact ⟨_, _, rfl, .inr ⟨rfl, hreturn⟩⟩

theorem escape_append_ne {c : Char} (hquote : c ≠ '"') (v w t : List Char) :
    escape c ++ v ++ w ≠ '"' :: t := by
  obtain ⟨x, u, hu, hx⟩ := escape_eq_cons c
  rw [hu]
  intro h
  have hfirst : x = '"' := (List.cons.inj h).1
  rcases hx with rfl | ⟨rfl, -⟩
  · cases hfirst
  · exact hquote hfirst

/-- Behind two quotes the writer puts no third one, except to close the text. -/
theorem eq_nil_of_writeBasicLines_two {cs rest t : List Char}
    (h : writeBasicLines 2 cs ++ rest = '"' :: t) : cs = [] := by
  cases cs with
  | nil => rfl
  | cons c cs =>
    rw [writeBasicLines] at h
    by_cases hquote : c = '"'
    · simp [hquote] at h
    by_cases hbreak : c = '\n'
    · simp [hbreak] at h
    rw [if_neg hquote, if_neg hbreak] at h
    exact absurd h (escape_append_ne hquote _ _ _)

/-- Where the writer puts two quotes behind one, it closes the text. -/
theorem eq_replicate_of_writeBasicLines {run : Nat} {cs rest t : List Char} (hrun : 1 ≤ run)
    (hle : run ≤ 2) (h : writeBasicLines run cs ++ rest = '"' :: '"' :: t) :
    ∃ k, run + k ≤ 2 ∧ cs = List.replicate k '"' := by
  obtain rfl | rfl : run = 1 ∨ run = 2 := by omega
  · cases cs with
    | nil => exact ⟨0, by decide, rfl⟩
    | cons c cs =>
      rw [writeBasicLines] at h
      by_cases hquote : c = '"'
      · rw [if_pos hquote, if_pos (by decide)] at h
        obtain rfl := eq_nil_of_writeBasicLines_two (List.cons.inj h).2
        exact ⟨1, by decide, by rw [hquote]; rfl⟩
      by_cases hbreak : c = '\n'
      · simp [hbreak] at h
      rw [if_neg hquote, if_neg hbreak] at h
      exact absurd h (escape_append_ne hquote _ _ _)
  · exact ⟨0, by decide, eq_nil_of_writeBasicLines_two h⟩

theorem writeBasicLines_replicate {run k : Nat} (h : run + k ≤ 2) :
    writeBasicLines run (List.replicate k '"') = List.replicate k '"' ++ ['"', '"', '"'] := by
  induction k generalizing run with
  | zero => rfl
  | succ k ih =>
    rw [List.replicate_succ, writeBasicLines, if_pos rfl, if_pos (by omega), ih (by omega),
      List.cons_append]

/-- Quotes that end the text are read together with the closing ones. -/
theorem readBasicLines_replicate {k : Nat} {rest : List Char} (hk : k ≤ 2)
    (hrest : rest.head? ≠ some '"') :
    readBasicLines .inside (List.replicate k '"' ++ ['"', '"', '"'] ++ rest) =
      some (List.replicate k '"', rest) := by
  rw [replicate_append_triple, List.append_assoc]
  exact (readBasicLines_close _).trans (congrArg some (closeTriple_replicate hk hrest))

/-- **A text of several lines in double quotes is read back.** Quotes inside are written as they are
as long as fewer than three of them follow one another; `run` counts those that stand before. -/
theorem readBasicLines_writeBasicLines {rest : List Char} (hrest : rest.head? ≠ some '"')
    (run : Nat) (cs : List Char) :
    readBasicLines .inside (writeBasicLines run cs ++ rest) = some (cs, rest) := by
  induction cs generalizing run with
  | nil => exact readBasicLines_replicate (Nat.zero_le 2) hrest
  | cons c cs ih =>
    rw [writeBasicLines]
    by_cases hquote : c = '"'
    · rw [if_pos hquote, hquote]
      by_cases hrun : run < 2
      · rw [if_pos hrun]
        -- A quote is read by itself unless nothing but quotes is left, which are read with the
        -- closing ones.
        by_cases hall : ∃ k, run + 1 + k ≤ 2 ∧ cs = List.replicate k '"'
        · obtain ⟨k, hk, rfl⟩ := hall
          rw [writeBasicLines_replicate hk]
          exact readBasicLines_replicate (by omega : k + 1 ≤ 2) hrest
        · have hopen (t : List Char) : writeBasicLines (run + 1) cs ++ rest ≠ '"' :: '"' :: t :=
            fun h => hall (eq_replicate_of_writeBasicLines (by omega) (by omega) h)
          rw [List.cons_append, readBasicLines_quote hopen, ih]
          rfl
      · rw [if_neg hrun]
        have hread := readBasicLines_letter (c := '"') (writeBasicLines 0 cs ++ rest) rfl
        rwa [ih] at hread
    rw [if_neg hquote]
    by_cases hbreak : c = '\n'
    · rw [if_pos hbreak, hbreak]
      have hread := readBasicLines_break (writeBasicLines 0 cs ++ rest)
      rwa [ih] at hread
    rw [if_neg hbreak, List.append_assoc, read_escape (fun _ _ _ _ _ => rfl) readBasicLines_letter
      readBasicLines_plain hquote hbreak, ih]
    rfl

/-- With fewer quotes seen before, a run is not found where none was. -/
theorem hasRun_mono {q : Char} {n run run' : Nat} {cs : List Char} (h : run ≤ run')
    (hrun : hasRun q n run' cs = false) : hasRun q n run cs = false := by
  induction cs generalizing run run' with
  | nil => rfl
  | cons c cs ih =>
    rw [hasRun] at hrun ⊢
    by_cases hc : c = q
    · rw [if_pos hc] at hrun ⊢
      by_cases hn : n ≤ run' + 1
      · rw [if_pos hn] at hrun
        cases hrun
      · rw [if_neg hn] at hrun
        rw [if_neg (by omega)]
        exact ih (Nat.succ_le_succ h) hrun
    · rwa [if_neg hc] at hrun ⊢

/-- A text without a run has none behind its first character. -/
theorem hasRun_tail {q c : Char} {n run : Nat} {cs : List Char}
    (h : hasRun q n run (c :: cs) = false) : hasRun q n 0 cs = false := by
  rw [hasRun] at h
  by_cases hc : c = q
  · rw [if_pos hc] at h
    by_cases hn : n ≤ run + 1
    · rw [if_pos hn] at h
      cases h
    · rw [if_neg hn] at h
      exact hasRun_mono (Nat.zero_le _) h
  · rwa [if_neg hc] at h

/-- A plain character stands for itself unless three quotes close the text there. -/
theorem readLiteralLines_plain {c : Char} {cs : List Char} (hc : isPlain c = true ∨ c = '\n')
    (h : ∀ t, c :: cs ≠ '\'' :: '\'' :: '\'' :: t) :
    readLiteralLines (c :: cs) = (readLiteralLines cs).push c := by
  have hreturn : c ≠ '\r' := by
    rintro rfl
    rcases hc with hc | hc <;> cases hc
  rw [readLiteralLines.eq_def]
  split
  · exact absurd ‹_› (List.cons_ne_nil c cs)
  · exact absurd ‹_› (h _)
  · exact absurd (List.cons.inj ‹_›).1 hreturn
  · rename_i hcons
    obtain ⟨rfl, rfl⟩ := List.cons.inj hcons
    exact if_pos (by simpa using hc)

/-- Where three quotes stand before the closing ones have begun, the text has no other characters
left. -/
theorem eq_replicate_of_writeLiteralLines {cs rest t : List Char}
    (hrun : hasRun '\'' 3 0 cs = false)
    (h : writeLiteralLines cs ++ rest = '\'' :: '\'' :: '\'' :: t) :
    ∃ k ≤ 2, cs = List.replicate k '\'' := by
  match cs with
  | [] => exact ⟨0, by decide, rfl⟩
  | [a] =>
    obtain rfl : a = '\'' := (List.cons.inj h).1
    exact ⟨1, by decide, rfl⟩
  | [a, b] =>
    obtain ⟨rfl, hb⟩ := List.cons.inj h
    obtain rfl : b = '\'' := (List.cons.inj hb).1
    exact ⟨2, by decide, rfl⟩
  | a :: b :: c :: cs =>
    obtain ⟨rfl, hb⟩ := List.cons.inj h
    obtain ⟨rfl, hc⟩ := List.cons.inj hb
    obtain rfl : c = '\'' := (List.cons.inj hc).1
    cases hrun

/-- A text of several lines in single quotes is read back if no three quotes in it would close it.
-/
theorem readLiteralLines_append {cs rest : List Char} (hcs : ∀ c ∈ cs, isPlain c = true ∨ c = '\n')
    (hrun : hasRun '\'' 3 0 cs = false) (hrest : rest.head? ≠ some '\'') :
    readLiteralLines (writeLiteralLines cs ++ rest) = some (cs, rest) := by
  induction cs with
  | nil => exact congrArg some (closeTriple_replicate (Nat.zero_le 2) hrest)
  | cons c cs ih =>
    -- As with double quotes, those at the end of the text are read with the closing ones.
    by_cases hall : ∃ k ≤ 2, c :: cs = List.replicate k '\''
    · obtain ⟨k, hk, hall⟩ := hall
      rw [hall, writeLiteralLines, replicate_append_triple, List.append_assoc]
      exact congrArg some (closeTriple_replicate hk hrest)
    · obtain ⟨hc, hcs⟩ := List.forall_mem_cons.mp hcs
      have hopen (t : List Char) :
          c :: (writeLiteralLines cs ++ rest) ≠ '\'' :: '\'' :: '\'' :: t :=
        fun h => hall (eq_replicate_of_writeLiteralLines hrun h)
      have hread := readLiteralLines_plain hc hopen
      rwa [ih hcs (hasRun_tail hrun)] at hread

/-! ## All notations -/

theorem readText_basic {w : List Char} (h : ∀ t, w ≠ '"' :: '"' :: t) :
    readText ('"' :: w) = readBasic w := by
  rw [readText.eq_def]
  split <;> simp_all

theorem readText_literal {w : List Char} (h : ∀ t, w ≠ '\'' :: '\'' :: t) :
    readText ('\'' :: w) = readLiteral w := by
  rw [readText.eq_def]
  split <;> simp_all

/-- The first character of a text in a basic notation is no quote unless nothing is written. -/
theorem writeBasic_ne_quotes {cs rest : List Char} (hrest : Unquoted rest) (t : List Char) :
    writeBasic cs ++ rest ≠ '"' :: '"' :: t := by
  intro h
  cases cs with
  | nil => exact hrest.1 (congrArg List.head? (List.cons.inj h).2)
  | cons c cs =>
    rw [writeBasic] at h
    by_cases hquote : c = '"'
    · simp [hquote] at h
    by_cases hbreak : c = '\n'
    · simp [hbreak] at h
    rw [if_neg hquote, if_neg hbreak] at h
    exact escape_append_ne hquote _ _ _ h

theorem readText_writeBasic (cs : List Char) {rest : List Char} (hrest : Unquoted rest) :
    readText ('"' :: writeBasic cs ++ rest) = some (cs, rest) := by
  rw [List.cons_append, readText_basic (writeBasic_ne_quotes hrest), readBasic_writeBasic]

theorem readText_writeLiteral {cs rest : List Char} (hcs : ∀ c ∈ cs, isPlain c = true ∧ c ≠ '\'')
    (hrest : Unquoted rest) : readText ('\'' :: writeLiteral cs ++ rest) = some (cs, rest) := by
  have hopen (t : List Char) : writeLiteral cs ++ rest ≠ '\'' :: '\'' :: t := by
    intro h
    cases cs with
    | nil => exact hrest.2 (congrArg List.head? (List.cons.inj h).2)
    | cons c cs => exact (hcs c List.mem_cons_self).2 (List.cons.inj h).1
  rw [List.cons_append, readText_literal hopen, readLiteral_append hcs]

theorem readText_basicLines (w : List Char) :
    readText (['"', '"', '"'] ++ w) = readBasicLines .inside (skipFirstBreak w) := rfl

theorem readText_literalLines (w : List Char) :
    readText (['\'', '\'', '\''] ++ w) = readLiteralLines (skipFirstBreak w) := rfl

theorem ne_of_contains {cs : List Char} {c q : Char} (h : cs.contains q = false) (hc : c ∈ cs) :
    c ≠ q := by
  rintro rfl
  simp [hc] at h

/-- The line end that is written behind the opening quotes of several lines is passed over, and
without one nothing is. -/
theorem skipFirstBreak_firstBreak {lines : Bool} {w : List Char}
    (hw : lines = false → w.head? ≠ some '\n' ∧ w.head? ≠ some '\r') :
    skipFirstBreak ((if lines then ['\n'] else []) ++ w) = w := by
  cases lines with
  | true => rfl
  | false =>
    obtain ⟨hbreak, hreturn⟩ := hw rfl
    match w with
    | [] => rfl
    | c :: w =>
      rw [skipFirstBreak.eq_def]
      simp_all

/-- A text without line breaks does not begin with one, so that no break after the opening quotes is
skipped by mistake. -/
theorem head?_writeBasicLines {cs rest : List Char} (hcs : cs.contains '\n' = false) :
    (writeBasicLines 0 cs ++ rest).head? ≠ some '\n' ∧
      (writeBasicLines 0 cs ++ rest).head? ≠ some '\r' := by
  cases cs with
  | nil => exact ⟨nofun, nofun⟩
  | cons c cs =>
    have hbreak := ne_of_contains hcs List.mem_cons_self
    rw [writeBasicLines]
    by_cases hquote : c = '"'
    · simp [hquote]
    obtain ⟨x, w, hw, hx⟩ := escape_eq_cons c
    rw [if_neg hquote, if_neg hbreak, hw]
    rcases hx with rfl | ⟨rfl, hreturn⟩
    · exact ⟨nofun, nofun⟩
    · simp [hbreak, hreturn]

theorem readText_writeBasicLines (cs : List Char) {rest : List Char} (hrest : Unquoted rest) :
    readText (['"', '"', '"'] ++ (if cs.contains '\n' then ['\n'] else []) ++
      writeBasicLines 0 cs ++ rest) = some (cs, rest) := by
  rw [List.append_assoc, List.append_assoc, readText_basicLines,
    skipFirstBreak_firstBreak head?_writeBasicLines, readBasicLines_writeBasicLines hrest.1]

/-- A text of several lines in single quotes is read back; a line break that was put behind the
opening quotes is skipped. -/
theorem readText_writeLiteralLines {cs rest : List Char}
    (hcs : ∀ c ∈ cs, isPlain c = true ∨ c = '\n') (hrun : hasRun '\'' 3 0 cs = false)
    (hrest : Unquoted rest) : readText (['\'', '\'', '\''] ++
      (if cs.contains '\n' then ['\n'] else []) ++ writeLiteralLines cs ++ rest) =
        some (cs, rest) := by
  have hhead : cs.contains '\n' = false → (writeLiteralLines cs ++ rest).head? ≠ some '\n' ∧
      (writeLiteralLines cs ++ rest).head? ≠ some '\r' := by
    intro hlines
    cases cs with
    | nil => exact ⟨nofun, nofun⟩
    | cons c cs =>
      have hbreak := ne_of_contains hlines List.mem_cons_self
      have hplain := (hcs c List.mem_cons_self).resolve_right hbreak
      have hreturn : c ≠ '\r' := by
        rintro rfl
        cases hplain
      simp [writeLiteralLines, hbreak, hreturn]
  rw [List.append_assoc, List.append_assoc, readText_literalLines,
    skipFirstBreak_firstBreak hhead, readLiteralLines_append hcs hrun hrest.2]

/-- **Texts are read as they were written**, whatever characters they have and whichever notation
was chosen for them. -/
theorem readText_writeText (s : String) {rest : List Char} (hrest : Unquoted rest) :
    readText (writeText s ++ rest) = some (s.toList, rest) := by
  unfold writeText
  generalize s.toList = cs
  dsimp only
  have hplain (hcontrols : cs.any isControl = false) : ∀ c ∈ cs, isPlain c = true ∨ c = '\n' := by
    intro c hc
    by_cases hbreak : c = '\n'
    · exact .inr hbreak
    · have hcontrol := Bool.not_eq_true _ ▸ List.any_eq_false.mp hcontrols c hc
      exact .inl (isPlain_of_not_isControl hcontrol hbreak)
  simp only [Bool.and_eq_true, Bool.not_eq_true']
  split
  · exact readText_writeBasic cs hrest
  split
  · rename_i hliteral
    obtain ⟨⟨hcontrols, hquotes⟩, hlines⟩ := hliteral
    refine readText_writeLiteral (fun c hc => ⟨?_, ne_of_contains hquotes hc⟩) hrest
    exact (hplain hcontrols c hc).resolve_right (ne_of_contains hlines hc)
  split
  · exact readText_writeBasicLines cs hrest
  split
  · rename_i hliteral
    exact readText_writeLiteralLines (hplain hliteral.1) hliteral.2 hrest
  split
  · rename_i hlines
    have hread := readText_writeBasicLines cs hrest
    rwa [if_pos hlines] at hread
  · exact readText_writeBasic cs hrest

end MarketDesk.Toml
