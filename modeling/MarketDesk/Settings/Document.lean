import MarketDesk.Settings.Sections
import MarketDesk.Toml.Reader

/-!
The settings as a TOML document: a table for each section, entries in the order of their
declaration.
-/

namespace MarketDesk

open Toml (writeText)

namespace Settings

/-- An entry of a document: a key and the characters of its value. -/
abbrev Entry := String × List Char

def textEntry (key s : String) : Entry := (key, writeText s)

def numberEntry (key : String) (n : Nat) : Entry := (key, Text.digits n)

/-- The entries of each section. -/
def entries (s : Settings) : List (String × List Entry) := [
  ("system", [textEntry "name" s.system.name, textEntry "version" s.system.version]),
  ("logging", [textEntry "level" s.logging.level, textEntry "file" s.logging.file]),
  ("order_book", [
    numberEntry "max_levels" s.book.maxLevels,
    numberEntry "price_precision" s.book.priceDigits,
    numberEntry "amount_precision" s.book.amountDigits,
    numberEntry "total_precision" s.book.totalDigits]),
  ("trade_history", [
    textEntry "default_filter" s.history.defaultFilter.name,
    textEntry "date_format" s.history.datePattern,
    numberEntry "price_precision" s.history.priceDigits,
    numberEntry "total_precision" s.history.totalDigits])]

def entryChars (e : Entry) : List Char :=
  e.1.toList ++ [' ', '=', ' '] ++ e.2 ++ ['\n']

def sectionChars (s : String × List Entry) : List Char :=
  '[' :: s.1.toList ++ [']', '\n'] ++ s.2.flatMap entryChars

/-- The sections with an empty line between them. -/
def documentChars (s : Settings) : List Char :=
  List.intercalate ['\n'] (s.entries.map sectionChars)

/-- The first number that a document cannot hold. -/
def numberLimit : Nat := twoTo 63

/-- The document of the settings; none if the number of levels is too large to be written. -/
def toDocument? (s : Settings) : Option String :=
  if s.book.maxLevels < numberLimit then some (String.ofList s.documentChars) else none

/-- Why a document has no settings. -/
inductive DocumentFault where
  /-- The document is not well formed. -/
  | malformed
  /-- An entry has a value that it cannot have. -/
  | misfit (fault : Wire.Fault)

/-- Reads the settings of a document. -/
def ofDocument (s : String) : Except DocumentFault Settings :=
  match Toml.read? s with
  | none => .error .malformed
  | some v => (ofValue .settings v).mapError .misfit

end Settings

end MarketDesk
