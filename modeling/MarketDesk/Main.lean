import MarketDesk.Console

/-!
The command: reads the settings file, runs the session, prints it and writes its log.
-/

namespace MarketDesk.Console

/-- The text of a file, if it can be read as a text. -/
def readFile? (path : String) : IO (Option String) := do
  try
    let bytes ← IO.FS.readBinFile path
    pure (String.fromUTF8? bytes)
  catch _ => pure none

/-- Writes lines behind a file, or to the error output if that is not possible. -/
def writeLog (path : String) (lines : List String) : IO Unit := do
  try
    let file ← IO.FS.Handle.mk path .append
    lines.forM fun l => file.putStrLn l
  catch _ => lines.forM fun l => IO.eprintln l

end MarketDesk.Console

open MarketDesk MarketDesk.Console in
def main (arguments : List String) : IO UInt32 := do
  let path := settingsPath arguments
  let text ← readFile? path
  let settings := ((Keeper.ofPath path).loadTextOrDefault text).settings
  let rules ← IO.getEnv "RUST_LOG"
  let s := session settings
  (LogRule.warnings (rules.getD "")).forM fun l => IO.eprintln l
  IO.print s.printed
  writeLog settings.logging.file (shownLog settings.logging rules s)
  if s.broken then
    IO.eprintln "the session broke off"
    pure 101
  else pure 0
