import MarketDesk.Calendar.Rfc3339
import MarketDesk.Proofs.Results
import MarketDesk.Proofs.Text.Digits

/-!
# Moments are read as they were written

Every moment of the calendar is written as a text that names it, with years of any number of digits
and leap seconds among them (`Timestamp.ofText_toText`). Each part of the text ends where the reader
stops: at a character that is no digit (`Timestamp.Stops`).
-/

namespace MarketDesk.Timestamp

open MarketDesk.Text

variable {n v most low high : Nat} {ds rest : List Char} {y : Int} {c : Char}

/-! ## Numbers -/

/-- The text does not go on with a digit. -/
def Stops (cs : List Char) : Prop := ∀ c ∈ cs.head?, isDigit c = false

theorem stops_cons (cs : List Char) (hc : isDigit c = false) : Stops (c :: cs) := by
  rintro c' hc'
  obtain rfl := Option.some.inj hc'
  exact hc

theorem scanDigits_of_stops (hstop : Stops rest) (n most : Nat) :
    scanDigits n most rest = .ok (n, rest) := by
  cases most with
  | zero => rfl
  | succ most =>
    cases rest with
    | nil => rfl
    | cons c rest => rw [scanDigits, digitValue?_eq_none_iff.mpr (hstop c rfl)]

/-- A row of digits is read to its end and no further, as long as the number stays in its range. -/
theorem scanDigits_row (hv : numeralFrom? n ds = some v) (hlt : v < numberLimit)
    (hlen : ds.length ≤ most) (hstop : Stops rest) :
    scanDigits n most (ds ++ rest) = .ok (v, rest) := by
  induction ds generalizing n most with
  | nil =>
    obtain rfl := Option.some.inj hv
    exact scanDigits_of_stops hstop n most
  | cons c ds ih =>
    obtain ⟨d, hd, hds, hle⟩ := numeralFrom?_cons hv
    cases most with
    | zero => cases hlen
    | succ most =>
      rw [List.cons_append, scanDigits, hd]
      dsimp only
      rw [if_pos (Nat.lt_of_le_of_lt hle hlt)]
      exact ih hds (Nat.le_of_succ_le_succ hlen)

theorem scanNumber_row (hne : ds ≠ []) (hv : numeralFrom? 0 ds = some v) (hlt : v < numberLimit)
    (hlen : ds.length ≤ most) (hstop : Stops rest) :
    scanNumber most (ds ++ rest) = .ok (v, rest) := by
  have hscan := scanDigits_row hv hlt hlen hstop
  cases ds with
  | nil => exact absurd rfl hne
  | cons c ds =>
    obtain ⟨d, hd, -⟩ := numeralFrom?_cons hv
    rw [List.cons_append] at hscan ⊢
    rw [scanNumber, if_pos (isDigit_of_digitValue? hd), hscan]

theorem isBlank_of_isDigit (hc : isDigit c = true) : isBlank c = false := by
  obtain ⟨hlow, hhigh⟩ := of_decide_eq_true hc
  have hlow : 48 ≤ c.toNat := hlow
  have hhigh : c.toNat ≤ 57 := hhigh
  simp only [isBlank, Bool.or_eq_false_iff, decide_eq_false_iff_not, beq_eq_false_iff_ne]
  omega

theorem skipBlanks_row (hne : ds ≠ []) (hv : numeralFrom? 0 ds = some v) :
    skipBlanks (ds ++ rest) = ds ++ rest := by
  cases ds with
  | nil => exact absurd rfl hne
  | cons c ds =>
    obtain ⟨d, hd, -⟩ := numeralFrom?_cons hv
    have hc := isBlank_of_isDigit (isDigit_of_digitValue? hd)
    rw [skipBlanks, List.cons_append, List.dropWhile_cons_of_neg (by simp [hc])]

theorem ne_cons_of_row (hne : ds ≠ []) (hv : numeralFrom? 0 ds = some v) (hc : isDigit c = false)
    {cs : List Char} : ds ++ rest ≠ c :: cs := by
  cases ds with
  | nil => exact absurd rfl hne
  | cons c' ds =>
    obtain ⟨d, hd, -⟩ := numeralFrom?_cons hv
    rintro heq
    obtain ⟨rfl, -⟩ := List.cons.inj heq
    rw [isDigit_of_digitValue? hd] at hc
    cases hc

theorem numeralFrom?_lastDigits_of_lt {k : Nat} (h : v < tenTo k) :
    numeralFrom? 0 (lastDigits v k) = some v := by
  have hrow := numeralFrom?_lastDigits v k
  rwa [Nat.div_eq_of_lt h] at hrow

theorem lastDigits_ne_nil {k : Nat} (hk : 0 < k) : lastDigits v k ≠ [] := by
  rw [← List.length_pos_iff, length_lastDigits]
  exact hk

theorem scanField_lastDigits (hlow : low ≤ v) (hhigh : v ≤ high) (hv : v < 100)
    (hstop : Stops rest) : scanField low high (lastDigits v 2 ++ rest) = .ok (v, rest) := by
  have hrow : numeralFrom? 0 (lastDigits v 2) = some v := numeralFrom?_lastDigits_of_lt hv
  have hne : lastDigits v 2 ≠ [] := lastDigits_ne_nil (by decide)
  have hlimit : v < numberLimit := Nat.lt_trans hv (by decide)
  have hlength := Nat.le_of_eq (length_lastDigits v 2)
  rw [scanField, skipBlanks_row hne hrow, scanNumber_row hne hrow hlimit hlength hstop, ok_bind]
  dsimp only
  rw [if_pos ⟨hlow, hhigh⟩]
  rfl

theorem scanMark_cons (mark : Char) (hmark : isBlank mark = false) (rest : List Char) :
    scanMark mark (mark :: rest) = .ok rest := by
  rw [scanMark, skipBlanks, List.dropWhile_cons_of_neg (by simp [hmark])]
  exact if_pos rfl

/-! ## The parts of a text -/

theorem scanNumber_padded (hv : v < numberLimit) (hstop : Stops rest) :
    scanNumber (padded '0' 4 v ++ rest).length (padded '0' 4 v ++ rest) = .ok (v, rest) := by
  refine scanNumber_row ?_ (numeralFrom?_padded 4 v) hv ?_ hstop
  · simp [padded, digits_ne_nil]
  · simp

/-- **Years are read as they were written**, with the sign that years of more than four digits and
years before the year zero have; four digits are read without a sign. -/
theorem scanYear_yearText (hfirst : firstYear ≤ y) (hlast : y ≤ lastYear) (hstop : Stops rest) :
    scanYear (yearText y ++ rest) = .ok (y, rest) := by
  have hlimit : y.natAbs < numberLimit := by
    have : (262143 : Nat) < numberLimit := by decide
    simp only [firstYear, lastYear] at hfirst hlast
    omega
  have hrange : -(twoTo 31 : Int) ≤ y ∧ y < twoTo 31 := by
    have : (twoTo 31 : Int) = 2147483648 := by decide
    simp only [firstYear, lastYear] at hfirst hlast
    omega
  have hpadded := scanNumber_padded hlimit hstop
  unfold yearText
  split
  · rename_i hneg
    have hvalue : -(y.natAbs : Int) = y := by omega
    refine bind_of_eq_ok (a := (y, rest)) ?_ (if_pos hrange)
    refine bind_of_eq_ok hpadded ?_
    dsimp only
    rw [hvalue]
    rfl
  split
  · rename_i hneg hfour
    have hvalue : (y.natAbs : Int) = y := by omega
    have hlt : y.natAbs < tenTo 4 := by
      change y.natAbs < 10000
      omega
    have hrow := numeralFrom?_lastDigits_of_lt hlt
    have hne : lastDigits y.natAbs 4 ≠ [] := lastDigits_ne_nil (by decide)
    have hscan := scanNumber_row hne hrow hlimit (Nat.le_of_eq (length_lastDigits _ 4)) hstop
    refine bind_of_eq_ok (a := (y, rest)) ?_ (if_pos hrange)
    rw [skipBlanks_row hne hrow]
    -- The text begins with a digit, hence with no sign.
    split
    · exact absurd ‹_› (ne_cons_of_row hne hrow (by decide))
    · exact absurd ‹_› (ne_cons_of_row hne hrow (by decide))
    · refine bind_of_eq_ok hscan ?_
      dsimp only
      rw [hvalue]
      rfl
  · rename_i hneg hfour
    have hvalue : (y.natAbs : Int) = y := by omega
    refine bind_of_eq_ok (a := (y, rest)) ?_ (if_pos hrange)
    refine bind_of_eq_ok hpadded ?_
    dsimp only
    rw [hvalue]
    rfl

/-- Digits behind the point, nine of them at most, are read as billionths. -/
theorem scanFraction_digits {k : Nat} (hk : 0 < k) (hmax : k ≤ 9) (hv : v < tenTo k)
    (hstop : Stops rest) :
    scanFraction ('.' :: lastDigits v k ++ rest) = .ok (v * tenTo (9 - k), rest) := by
  have hlimit : v < numberLimit := by
    have hnine : tenTo 9 < numberLimit := by decide
    have := tenTo_le hmax
    omega
  have hlength := length_lastDigits v k
  have hbehind : rest.dropWhile isDigit = rest := by
    cases rest with
    | nil => rfl
    | cons c rest =>
      have hc := hstop c rfl
      exact List.dropWhile_cons_of_neg (by simp [hc])
  refine bind_of_eq_ok (scanNumber_row (lastDigits_ne_nil hk) (numeralFrom?_lastDigits_of_lt hv)
    hlimit (Nat.le_trans (Nat.le_of_eq hlength) hmax) hstop) ?_
  dsimp only
  rw [List.append_eq, List.length_append, hlength, Nat.add_sub_cancel, hbehind]
  rfl

/-- The fraction is written with three, six or nine digits or not at all, and read back in each
form. -/
theorem scanFraction_fractionText (hn : n < secondNanos) :
    scanFraction (fractionText n ++ ['Z']) = .ok (n, ['Z']) := by
  have hstop : Stops ['Z'] := stops_cons [] (by decide)
  have hdigits (k v : Nat) (hk : 0 < k ∧ k ≤ 9) (hv : v < tenTo k) (hn : v * tenTo (9 - k) = n) :
      scanFraction ('.' :: lastDigits v k ++ ['Z']) = .ok (n, ['Z']) := by
    rw [scanFraction_digits hk.1 hk.2 hv hstop, hn]
  unfold fractionText
  rw [secondNanos] at hn
  split
  · subst n
    rfl
  split
  · refine hdigits 3 (n / 1000000) (by decide) ?_ ?_
    · change n / 1000000 < 1000
      omega
    · change n / 1000000 * 1000000 = n
      omega
  split
  · refine hdigits 6 (n / 1000) (by decide) ?_ ?_
    · change n / 1000 < 1000000
      omega
    · change n / 1000 * 1000 = n
      omega
  · refine hdigits 9 n (by decide) ?_ ?_
    · change n < 1000000000
      omega
    · change n * 1 = n
      omega

/-- The fields of the text of a moment. -/
def fieldsOf (t : Instant) : Fields where
  year := t.date.year
  month := t.date.month
  day := t.date.day
  hour := t.hour
  minute := t.minute
  second := t.secondOfMinute
  nano := t.nanoOfSecond
  offset := 0

theorem toChars_eq (t : Instant) : toChars "Z" t =
    yearText t.date.year ++ '-' :: (lastDigits t.date.month 2 ++ '-' :: (lastDigits t.date.day 2 ++
      'T' :: (lastDigits t.hour 2 ++ ':' :: (lastDigits t.minute 2 ++ ':' ::
      (lastDigits t.secondOfMinute 2 ++ (fractionText t.nanoOfSecond ++ ['Z'])))))) := by
  simp [toChars, dateText, timeText]

theorem stops_fractionText (n : Nat) : Stops (fractionText n ++ ['Z']) := by
  unfold fractionText
  split
  · exact stops_cons _ (by decide)
  split
  · exact stops_cons _ (by decide)
  split
  · exact stops_cons _ (by decide)
  · exact stops_cons _ (by decide)

theorem daysInMonth_le (y : Int) (m : Nat) : daysInMonth y m ≤ 31 := by
  unfold daysInMonth
  split
  · split <;> decide
  all_goals decide

/-- All fields of a written moment are read back, one after another; each one ends where a sign that
is no digit begins. -/
theorem scanFields_toChars (t : Instant) : scanFields (toChars "Z" t) = .ok (fieldsOf t) := by
  obtain ⟨hfirst, hlast, hmonth, hmonth', hday, hday'⟩ := t.date.isDate
  -- Behind each number stands a mark, where the reader of numbers stops.
  have hdash (cs : List Char) : Stops ('-' :: cs) := stops_cons cs (by decide)
  have hcolon (cs : List Char) : Stops (':' :: cs) := stops_cons cs (by decide)
  have hday31 := Nat.le_trans hday' (daysInMonth_le t.date.year t.date.month)
  have hhour : t.hour ≤ 23 := by
    have := t.second_lt
    rw [Instant.hour]
    omega
  have hminute : t.minute ≤ 59 := by
    rw [Instant.minute]
    omega
  have hsecond : t.secondOfMinute ≤ 60 := by
    have hnano := t.nano_lt
    have hleap := t.leap
    rw [secondNanos] at hnano hleap
    rw [Instant.secondOfMinute, secondNanos]
    omega
  have hnano : t.nanoOfSecond < secondNanos := Nat.mod_lt _ (by decide)
  rw [toChars_eq]
  refine bind_of_eq_ok (scanYear_yearText hfirst hlast (hdash _)) ?_
  refine bind_of_eq_ok (scanMark_cons '-' (by decide) _) ?_
  refine bind_of_eq_ok (scanField_lastDigits hmonth hmonth' (by omega) (hdash _)) ?_
  refine bind_of_eq_ok (scanMark_cons '-' (by decide) _) ?_
  refine bind_of_eq_ok (scanField_lastDigits hday hday31 (by omega) (stops_cons _ (by decide))) ?_
  refine bind_of_eq_ok (a := _) rfl ?_
  refine bind_of_eq_ok (scanField_lastDigits (Nat.zero_le _) hhour (by omega) (hcolon _)) ?_
  refine bind_of_eq_ok (scanMark_cons ':' (by decide) _) ?_
  refine bind_of_eq_ok (scanField_lastDigits (Nat.zero_le _) hminute (by omega) (hcolon _)) ?_
  refine bind_of_eq_ok (scanMark_cons ':' (by decide) _) ?_
  refine bind_of_eq_ok (scanField_lastDigits (Nat.zero_le _) hsecond (by omega)
    (stops_fractionText _)) ?_
  refine bind_of_eq_ok (scanFraction_fractionText hnano) ?_
  rfl

/-! ## Moments -/

/-- The fields of a moment make this moment again, also in a leap second. -/
theorem of?_fieldsOf (t : Instant) :
    Instant.of? t.date t.hour t.minute t.secondOfMinute t.nanoOfSecond = some t := by
  have hlt := t.nano_lt
  have hleap := t.leap
  rw [secondNanos] at hlt hleap
  have hsecond : t.hour * 3600 + t.minute * 60 + min t.secondOfMinute 59 = t.second := by
    simp only [Instant.hour, Instant.minute, Instant.secondOfMinute, secondNanos]
    omega
  have hsixty : t.secondOfMinute = 60 ↔ secondNanos ≤ t.nano := by
    simp only [Instant.secondOfMinute, secondNanos]
    omega
  have hnano : (if t.secondOfMinute = 60 then t.nanoOfSecond + secondNanos else t.nanoOfSecond) =
      t.nano := by
    rw [Instant.nanoOfSecond]
    by_cases hleaps : t.secondOfMinute = 60
    · have hle := hsixty.mp hleaps
      rw [if_pos hleaps]
      rw [secondNanos] at hle ⊢
      omega
    · rw [if_neg hleaps, Nat.mod_eq_of_lt (Nat.lt_of_not_le (mt hsixty.mpr hleaps))]
  unfold Instant.of?
  simp only [hsecond, hnano]
  rw [dif_pos ⟨t.second_lt, t.nano_lt, t.leap⟩]

theorem later?_zero (t : Instant) : t.later? (-0) = some t := by
  have hlt := t.second_lt
  have hsame : (t.second : Int) + -0 * 60 = t.second := by omega
  have hsecond : ((t.second : Int) % 86400).toNat = t.second := by omega
  unfold Instant.later?
  simp only [hsame, hsecond]
  rw [if_neg (by omega), if_pos (by omega)]
  rfl

/-- The fields of a moment were written for the offset zero, so that nothing has to be shifted. -/
theorem toInstant_fieldsOf (t : Instant) : (fieldsOf t).toInstant = .ok t := by
  have hdate : Date.of? t.date.year t.date.month t.date.day = some t.date :=
    dif_pos t.date.isDate
  rw [Fields.toInstant, fieldsOf]
  dsimp only
  rw [hdate]
  dsimp only
  rw [of?_fieldsOf]
  dsimp only
  rw [later?_zero]
  rfl

/-- **The text of a moment names it.** -/
theorem ofText_toText (t : Instant) : ofText (toText t) = .ok t := by
  rw [ofText, toText, String.toList_ofList, scanFields_toChars, ok_bind]
  exact toInstant_fieldsOf t

end MarketDesk.Timestamp
