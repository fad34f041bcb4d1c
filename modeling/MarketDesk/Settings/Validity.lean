import MarketDesk.Settings.LogLevel
import MarketDesk.Settings.Sections

/-!
Settings that the desk can work with.
-/

namespace MarketDesk

/-- The level of logging, if the settings name one. -/
def LogSettings.level? (s : LogSettings) : Option LogLevel := LogLevel.ofText? s.level

namespace Settings

/-- Why settings cannot be used. -/
inductive Invalid where
  | noLevels
  | unknownLogLevel (name : String)
  | noDatePattern
deriving DecidableEq

def Invalid.message : Invalid → String
  | .noLevels => "order_book.max_levels must be at least 1"
  | .unknownLogLevel name => "Unknown log level '" ++ name ++ "'"
  | .noDatePattern => "trade_history.date_format must not be empty"

/-- Checks the depth of the book, the level of logging and the date pattern, in this order. -/
def validate (s : Settings) : Except Invalid Unit :=
  if s.book.maxLevels = 0 then .error .noLevels
  else if s.logging.level?.isNone then .error (.unknownLogLevel s.logging.level)
  else if Text.isBlankText s.history.datePattern then .error .noDatePattern
  else .ok ()

/-- The settings can be used. -/
def IsValid (s : Settings) : Prop := s.validate = .ok ()

instance (s : Settings) : Decidable s.IsValid := by
  unfold IsValid
  cases s.validate with
  | ok u => exact .isTrue rfl
  | error e => exact .isFalse nofun

end Settings

end MarketDesk
