import Mathlib.Data.List.Forall2
import MarketDesk.Proofs.Toml.Lines
import MarketDesk.Proofs.Toml.Tables
import MarketDesk.Proofs.Wire.Shape
import MarketDesk.Settings.Document

/-!
# Documents of settings

The document of the settings is read line by line as the statements of four tables
(`Settings.says_document`), so that its value is the one that the settings have
(`Settings.read?_document`), and from this value the settings are read back. So the document of
settings gives these settings (`Settings.ofDocument_of_toDocument?`).
-/

namespace MarketDesk

open Toml (IsName Denotes Says Statement Table Tables)
open Wire (Value)

namespace Settings

/-! ## Reading lines -/

/-- The entry is what is written for a member of a table. -/
structure EntryOf (e : Entry) (m : String × Value) : Prop where
  key : e.1 = m.1
  denotes : Denotes e.2 m.2

/-- The section is what is written for a table. -/
structure SectionOf (sec : String × List Entry) (t : String × Table) : Prop where
  name : sec.1 = t.1
  entries : List.Forall₂ EntryOf sec.2 t.2

/-- All tables and all their members can be named without quotes. -/
def PlainlyNamed (ts : Tables) : Prop := ∀ t ∈ ts, IsName t.1 ∧ ∀ m ∈ t.2, IsName m.1

variable {cs : List Char} {ss : List Statement}

theorem says_entry {e : Entry} {m : String × Value} (hname : IsName m.1) (h : EntryOf e m)
    (hcs : Says cs ss) : Says (entryChars e ++ cs) (.pair [m.1] m.2 :: ss) := by
  obtain ⟨a, as, has, ha⟩ := hname.eq_cons
  rw [entryChars, h.key]
  refine hcs.line ⟨a, _, by rw [has]; rfl, .inr ha⟩ ?_
  exact Toml.readStatement_pair hname h.denotes cs

theorem says_entries {es : List Entry} {t : Table} (hnames : ∀ m ∈ t, IsName m.1)
    (h : List.Forall₂ EntryOf es t) (hcs : Says cs ss) :
    Says (es.flatMap entryChars ++ cs) (t.pairs ++ ss) := by
  induction h with
  | nil => exact hcs
  | cons he _ ih =>
    obtain ⟨hname, hnames⟩ := List.forall_mem_cons.mp hnames
    rw [List.flatMap_cons, List.append_assoc]
    exact says_entry hname he (ih hnames)

theorem says_section {sec : String × List Entry} {t : String × Table}
    (hname : IsName t.1) (hnames : ∀ m ∈ t.2, IsName m.1) (h : SectionOf sec t)
    (hcs : Says cs ss) :
    Says (sectionChars sec ++ cs) (.header [t.1] :: (t.2.pairs ++ ss)) := by
  rw [sectionChars, h.name, List.append_assoc]
  refine (says_entries hnames h.entries hcs).line ⟨_, _, rfl, .inl rfl⟩ ?_
  exact Toml.readStatement_header hname _

/-- Sections that follow one another, with an empty line between them, say what their tables state
one after another. -/
theorem says_document {secs : List (String × List Entry)} {ts : Tables}
    (hnames : PlainlyNamed ts) (h : List.Forall₂ SectionOf secs ts) :
    Says (List.intercalate ['\n'] (secs.map sectionChars)) ts.statements := by
  induction h with
  | nil => exact Toml.says_nil
  | @cons sec t secs ts hsec hrest ih =>
    obtain ⟨⟨hname, hkeys⟩, hnames⟩ := List.forall_mem_cons.mp hnames
    rw [Tables.statements, List.flatMap_cons]
    cases hrest with
    | nil => simpa using says_section hname hkeys hsec Toml.says_nil
    | cons hnext hrest =>
      rw [List.map_cons, List.map_cons, List.intercalate_cons_cons, List.append_assoc]
      exact says_section hname hkeys hsec (ih hnames).emptyLine

/-- A document does not begin with a byte order mark. -/
theorem document_ne_mark (secs : List (String × List Entry)) (w : List Char) :
    List.intercalate ['\n'] (secs.map sectionChars) ≠ '\ufeff' :: w := by
  match secs with
  | [] => exact nofun
  | [sec] => simp [sectionChars]
  | sec :: next :: secs => simp [sectionChars, List.intercalate_cons_cons]

/-- The value of a document is that of its tables. -/
theorem read?_document {secs : List (String × List Entry)} {ts : Tables}
    (hnames : PlainlyNamed ts) (hts : ts.Distinct) (h : List.Forall₂ SectionOf secs ts) :
    Toml.read? (String.ofList (List.intercalate ['\n'] (secs.map sectionChars))) =
      some ts.toValue := by
  have hstatements := says_document hnames h _ (Nat.lt_succ_self _)
  have hmark := document_ne_mark secs
  obtain ⟨d, hd, hmembers⟩ := Option.map_eq_some_iff.mp (Toml.foldlM_statements hts)
  unfold Toml.read?
  rw [String.toList_ofList]
  split
  · exact absurd ‹_› (hmark _)
  · simp [hstatements, hd, hmembers, Toml.valuesOf_branch, Tables.toValue]

/-! ## The tables of the settings -/

/-- The tables that the settings are written as. -/
def tables (s : Settings) : Tables := [
  ("system", [("name", .text s.system.name), ("version", .text s.system.version)]),
  ("logging", [("level", .text s.logging.level), ("file", .text s.logging.file)]),
  ("order_book", [
    ("max_levels", .int s.book.maxLevels),
    ("price_precision", .int s.book.priceDigits),
    ("amount_precision", .int s.book.amountDigits),
    ("total_precision", .int s.book.totalDigits)]),
  ("trade_history", [
    ("default_filter", .text s.history.defaultFilter.name),
    ("date_format", .text s.history.datePattern),
    ("price_precision", .int s.history.priceDigits),
    ("total_precision", .int s.history.totalDigits)])]

theorem toValue_tables (s : Settings) : s.tables.toValue = s.toValue := rfl

theorem distinct_tables (s : Settings) : s.tables.Distinct where
  tables := by simp [tables]
  members := by simp [tables]

theorem plainlyNamed_tables (s : Settings) : PlainlyNamed s.tables := by
  simp only [PlainlyNamed, tables, List.forall_mem_cons, List.not_mem_nil, false_imp_iff,
    implies_true, and_true]
  decide +kernel

/-- The numbers of fraction digits are words of 32 bits. -/
structure DigitsFit (s : Settings) : Prop where
  bookPrice : s.book.priceDigits < twoTo 32
  bookAmount : s.book.amountDigits < twoTo 32
  bookTotal : s.book.totalDigits < twoTo 32
  historyPrice : s.history.priceDigits < twoTo 32
  historyTotal : s.history.totalDigits < twoTo 32

theorem entryOf_text (key s : String) : EntryOf (textEntry key s) (key, .text s) :=
  ⟨rfl, Toml.denotes_writeText s⟩

theorem entryOf_number (key : String) {n : Nat} (hn : n < twoTo 63) :
    EntryOf (numberEntry key n) (key, .int n) := ⟨rfl, Toml.denotes_digits hn⟩

theorem entryOf_digits (key : String) {n : Nat} (hn : n < twoTo 32) :
    EntryOf (numberEntry key n) (key, .int n) :=
  entryOf_number key (Nat.lt_trans hn (by decide))

/-- Each section of settings whose numbers fit states the table of its values. -/
theorem forall₂_sectionOf {s : Settings} (hdigits : s.DigitsFit)
    (hlevels : s.book.maxLevels < twoTo 63) : List.Forall₂ SectionOf s.entries s.tables := by
  refine .cons ⟨rfl, ?system⟩ <| .cons ⟨rfl, ?logging⟩ <| .cons ⟨rfl, ?book⟩ <|
    .cons ⟨rfl, ?history⟩ .nil
  case system => exact .cons (entryOf_text ..) (.cons (entryOf_text ..) .nil)
  case logging => exact .cons (entryOf_text ..) (.cons (entryOf_text ..) .nil)
  case book =>
    exact .cons (entryOf_number _ hlevels) <| .cons (entryOf_digits _ hdigits.bookPrice) <|
      .cons (entryOf_digits _ hdigits.bookAmount) <|
      .cons (entryOf_digits _ hdigits.bookTotal) .nil
  case history =>
    exact .cons (entryOf_text ..) <| .cons (entryOf_text ..) <|
      .cons (entryOf_digits _ hdigits.historyPrice) <|
      .cons (entryOf_digits _ hdigits.historyTotal) .nil

/-! ## Reading the settings back -/

section Values

variable {format : Wire.Format}

theorem asNat_natCast {bound n : Nat} {expected : String} (h : n < bound) :
    Wire.asNat bound expected (.int n) = .ok n :=
  if_pos ⟨Int.natCast_nonneg n, Int.ofNat_lt.mpr h⟩

theorem asWord_natCast {n : Nat} (h : n < twoTo 32) : Wire.asWord (.int n) = .ok n :=
  asNat_natCast h

theorem asCount_natCast {n : Nat} (h : n < twoTo 64) : Wire.asCount (.int n) = .ok n :=
  asNat_natCast h

theorem asChoice_name (f : Filter) :
    Wire.asChoice format Filter.names Filter.ofName? (.text f.name) = .ok f := by
  cases f <;> rfl

theorem read_system (s : SystemSettings) : SystemSettings.shape.read format {}
    (.fields [("name", .text s.name), ("version", .text s.version)]) = .ok s := rfl

theorem read_logging (s : LogSettings) : LogSettings.shape.read format {}
    (.fields [("level", .text s.level), ("file", .text s.file)]) = .ok s := rfl

variable {s : Settings}

theorem read_book (hdigits : s.DigitsFit) (hlevels : s.book.maxLevels < twoTo 64) :
    BookSettings.shape.read format {} (.fields [
      ("max_levels", .int s.book.maxLevels),
      ("price_precision", .int s.book.priceDigits),
      ("amount_precision", .int s.book.amountDigits),
      ("total_precision", .int s.book.totalDigits)]) = .ok s.book := by
  rw [Wire.Shape.read, Wire.readMembers_cons rfl (asCount_natCast hlevels),
    Wire.readMembers_cons rfl (asWord_natCast hdigits.bookPrice),
    Wire.readMembers_cons rfl (asWord_natCast hdigits.bookAmount),
    Wire.readMembers_cons rfl (asWord_natCast hdigits.bookTotal)]
  rfl

theorem read_history (hdigits : s.DigitsFit) :
    (HistorySettings.shape format).read format {} (.fields [
      ("default_filter", .text s.history.defaultFilter.name),
      ("date_format", .text s.history.datePattern),
      ("price_precision", .int s.history.priceDigits),
      ("total_precision", .int s.history.totalDigits)]) = .ok s.history := by
  rw [Wire.Shape.read, Wire.readMembers_cons rfl (asChoice_name _),
    Wire.readMembers_cons rfl (Wire.asText_text _),
    Wire.readMembers_cons rfl (asWord_natCast hdigits.historyPrice),
    Wire.readMembers_cons rfl (asWord_natCast hdigits.historyTotal)]
  rfl

/-- The value of the settings gives these settings. -/
theorem ofValue_toValue (hdigits : s.DigitsFit) (hlevels : s.book.maxLevels < twoTo 64) :
    ofValue format s.toValue = .ok s := by
  rw [ofValue, toValue, Wire.Shape.read, Wire.readMembers_cons rfl (read_system _),
    Wire.readMembers_cons rfl (read_logging _),
    Wire.readMembers_cons rfl (read_book hdigits hlevels),
    Wire.readMembers_cons rfl (read_history hdigits)]
  rfl

end Values

/-! ## The document of the settings -/

/-- **The document of settings gives these settings**, with every text and every number in them. -/
theorem ofDocument_of_toDocument? {s : Settings} {text : String} (hdigits : s.DigitsFit)
    (h : s.toDocument? = some text) : ofDocument text = .ok s := by
  unfold toDocument? numberLimit at h
  split at h
  · rename_i hlevels
    obtain rfl := Option.some.inj h
    have hread := read?_document (plainlyNamed_tables s) (distinct_tables s)
      (forall₂_sectionOf hdigits hlevels)
    rw [ofDocument, documentChars, hread, toValue_tables]
    dsimp only
    rw [ofValue_toValue hdigits (Nat.lt_trans hlevels (by decide))]
    rfl
  · cases h

end Settings

end MarketDesk
