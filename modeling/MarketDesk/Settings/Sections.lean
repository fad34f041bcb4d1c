import MarketDesk.History.Filter
import MarketDesk.Wire.Decode

/-!
The settings of the desk, in sections. Every section and every entry of a section has a default, so
that a document may leave out any of them.
-/

namespace MarketDesk

open Wire (Format Shape Decoded Value)

/-- The version of the desk. -/
def version : String := "0.1.0"

/-- What the desk calls itself. -/
structure SystemSettings where
  name : String := "Money Matcher"
  version : String := MarketDesk.version
deriving DecidableEq

/-- How much is logged, and where. -/
structure LogSettings where
  level : String := "info"
  file : String := "money_matcher.log"
deriving DecidableEq

/-- The order book panel: its depth and the fraction digits of its columns. -/
structure BookSettings where
  maxLevels : Nat := 7
  priceDigits : Nat := 2
  amountDigits : Nat := 4
  totalDigits : Nat := 2
deriving DecidableEq

/-- The history panel: its first tab, the pattern of its dates and the fraction digits of its
columns. -/
structure HistorySettings where
  defaultFilter : Filter := .all
  datePattern : String := "%b %d, %Y %-I:%M %p"
  priceDigits : Nat := 2
  totalDigits : Nat := 2
deriving DecidableEq

/-- All settings. -/
structure Settings where
  system : SystemSettings := {}
  logging : LogSettings := {}
  book : BookSettings := {}
  history : HistorySettings := {}
deriving DecidableEq

def SystemSettings.shape : Shape SystemSettings where
  name := "SystemConfig"
  optional := true
  fields := [
    ("name", fun v s => do pure { s with name := ← Wire.asText v }),
    ("version", fun v s => do pure { s with version := ← Wire.asText v })]

def LogSettings.shape : Shape LogSettings where
  name := "LoggingConfig"
  optional := true
  fields := [
    ("level", fun v s => do pure { s with level := ← Wire.asText v }),
    ("file", fun v s => do pure { s with file := ← Wire.asText v })]

def BookSettings.shape : Shape BookSettings where
  name := "OrderBookSettings"
  optional := true
  fields := [
    ("max_levels", fun v s => do pure { s with maxLevels := ← Wire.asCount v }),
    ("price_precision", fun v s => do pure { s with priceDigits := ← Wire.asWord v }),
    ("amount_precision", fun v s => do pure { s with amountDigits := ← Wire.asWord v }),
    ("total_precision", fun v s => do pure { s with totalDigits := ← Wire.asWord v })]

def HistorySettings.shape (format : Format) : Shape HistorySettings where
  name := "TradeHistorySettings"
  optional := true
  fields := [
    ("default_filter", fun v s => do
      pure { s with defaultFilter := ← Wire.asChoice format Filter.names Filter.ofName? v }),
    ("date_format", fun v s => do pure { s with datePattern := ← Wire.asText v }),
    ("price_precision", fun v s => do pure { s with priceDigits := ← Wire.asWord v }),
    ("total_precision", fun v s => do pure { s with totalDigits := ← Wire.asWord v })]

def Settings.shape (format : Format) : Shape Settings where
  name := "GlobalConfig"
  optional := true
  fields := [
    ("system", fun v s => do
      pure { s with system := ← SystemSettings.shape.read format {} v }),
    ("logging", fun v s => do
      pure { s with logging := ← LogSettings.shape.read format {} v }),
    ("order_book", fun v s => do
      pure { s with book := ← BookSettings.shape.read format {} v }),
    ("trade_history", fun v s => do
      pure { s with history := ← (HistorySettings.shape format).read format {} v })]

def BookSettings.ofValue (format : Format) (v : Value) : Decoded BookSettings :=
  BookSettings.shape.read format {} v

def HistorySettings.ofValue (format : Format) (v : Value) : Decoded HistorySettings :=
  (HistorySettings.shape format).read format {} v

/-- Reads settings; what the value leaves out has its default. -/
def Settings.ofValue (format : Format) (v : Value) : Decoded Settings :=
  (Settings.shape format).read format {} v

/-- Writes settings, sections and entries in the order of their declaration. -/
def Settings.toValue (s : Settings) : Value :=
  .fields [
    ("system", .fields [("name", .text s.system.name), ("version", .text s.system.version)]),
    ("logging", .fields [("level", .text s.logging.level), ("file", .text s.logging.file)]),
    ("order_book", .fields [
      ("max_levels", .int s.book.maxLevels),
      ("price_precision", .int s.book.priceDigits),
      ("amount_precision", .int s.book.amountDigits),
      ("total_precision", .int s.book.totalDigits)]),
    ("trade_history", .fields [
      ("default_filter", .text s.history.defaultFilter.name),
      ("date_format", .text s.history.datePattern),
      ("price_precision", .int s.history.priceDigits),
      ("total_precision", .int s.history.totalDigits)])]

end MarketDesk
