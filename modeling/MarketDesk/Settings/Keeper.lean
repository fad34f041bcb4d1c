import MarketDesk.Settings.Disk
import MarketDesk.Settings.Document
import MarketDesk.Settings.Validity

/-!
The keeper of the settings. It loads them from a file, hands them out and saves them. Settings that
cannot be read or used never replace the ones that are in force.
-/

namespace MarketDesk

/-- Why settings were not loaded or saved. -/
inductive SettingsError where
  /-- There is no file that can be read. -/
  | notFound (path : String)
  | document (fault : Settings.DocumentFault)
  | invalid (reason : Settings.Invalid)
  /-- A number is too large for a document. -/
  | unwritable
  /-- The file cannot be written. -/
  | storage

namespace SettingsError

/-- The words for an error; none if only its kind is told. -/
def message? : SettingsError → Option String
  | .notFound path => some ("Configuration file not found: " ++ path)
  | .document (.misfit (.wrongType found expected)) =>
    some ((Wire.Fault.wrongType found expected).message .pointed)
  | .document (.misfit (.wrongValue found expected)) =>
    some ((Wire.Fault.wrongValue found expected).message .pointed)
  | .document (.misfit (.unknownVariant name known)) =>
    some ((Wire.Fault.unknownVariant name known).message .pointed)
  | .document _ => none
  | .invalid reason => some ("Invalid configuration: " ++ reason.message)
  | .unwritable => some "TOML serialization error: out-of-range value for u64 type"
  | .storage => none

end SettingsError

/-- The settings in force and the file that they belong to. -/
structure Keeper where
  path : String
  settings : Settings := {}
  /-- Settings have been loaded, or the defaults in place of them. -/
  loaded : Bool := false
deriving DecidableEq

namespace Keeper

/-- The file that is used if no other one is named. -/
def defaultPath : String := "config.toml"

/-- A keeper of a file, with the default settings in force. -/
def ofPath (path : String) : Keeper := { path }

/-- The settings that a file has; none if it cannot be read as a text. -/
def contents (path : String) : Option String → Except SettingsError Settings
  | none => .error (.notFound path)
  | some text => do
    let s ← (Settings.ofDocument text).mapError .document
    s.validate.mapError .invalid
    pure s

/-- Loads the settings from the text of the file. -/
def loadText (m : Keeper) (text : Option String) : Except SettingsError Keeper := do
  let s ← contents m.path text
  pure { m with settings := s, loaded := true }

/-- Loads the settings from the text of the file, or the defaults if that fails. -/
def loadTextOrDefault (m : Keeper) (text : Option String) : Keeper :=
  match m.loadText text with
  | .ok m' => m'
  | .error _ => { m with settings := {}, loaded := true }

/-- Loads the settings. -/
def load (m : Keeper) (d : Disk) : Except SettingsError Keeper :=
  m.loadText (d.readText? m.path)

/-- Loads the settings, or the defaults if that fails. -/
def loadOrDefault (m : Keeper) (d : Disk) : Keeper :=
  m.loadTextOrDefault (d.readText? m.path)

/-- What a request to a keeper leads to. -/
structure Step where
  keeper : Keeper
  result : Except SettingsError Unit

/-- The keeper after a request that may have failed. -/
def Step.of (before : Keeper) : Except SettingsError Keeper → Step
  | .ok m => ⟨m, .ok ()⟩
  | .error e => ⟨before, .error e⟩

/-- Loads the settings once more. If that fails the settings stay and count as not loaded. -/
def reload (m : Keeper) (d : Disk) : Step :=
  let m := { m with loaded := false }
  .of m (m.load d)

/-- What saving leads to. Folders that have been made stay when it fails. -/
structure Saving where
  disk : Disk
  result : Except SettingsError Unit

/-- Saves the settings in force; those that cannot be used are refused. -/
def save (m : Keeper) (d : Disk) : Saving :=
  match m.settings.validate with
  | .error reason => ⟨d, .error (.invalid reason)⟩
  | .ok _ =>
    match m.settings.toDocument? with
    | none => ⟨d, .error .unwritable⟩
    | some text =>
      let attempt := d.writeDeep m.path (.text text)
      ⟨attempt.disk, if attempt.done then .ok () else .error .storage⟩

end Keeper

end MarketDesk
