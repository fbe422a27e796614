import RawMemory.CommandLine.Run
import RawMemory.Log.Day
import RawMemory.Log.Line

/-!
# The program

Hands the environment and the command line to `CommandLine.run` and carries out what it says.
-/

open RawMemory

/-- Today, which is when a file just written was changed. -/
def today (directory : String) : IO Day := do
  let mark := directory ++ "/.today"
  IO.FS.writeFile mark ""
  let changed := (← (← IO.FS.realPath mark).metadata).modified
  IO.FS.removeFile mark
  return Day.ofSeconds changed.sec.toNat

/-- Append lines to the log file of today. -/
def keepLines (file : LogFile) (lines : List String) : IO Unit := do
  IO.FS.createDirAll file.directory
  let day ← today file.directory
  let handle ← IO.FS.Handle.mk (file.directory ++ "/" ++ file.nameOn day.text) .append
  lines.forM handle.putStrLn

def main (args : List String) : IO UInt32 := do
  let names :=
    ["RUST_LOG", "NATIVEMEM_LOG_FORMAT", "NATIVEMEM_LOG_FILE", "NATIVEMEM_ACCESSOR",
      "NATIVEMEM_CHECKED"]
  let settings ← names.mapM fun name => return (name, ← IO.getEnv name)
  let environment := CommandLine.Environment.ofLookup fun name => (settings.lookup name).join
  let outcome := CommandLine.run environment args
  if let some log := outcome.log then
    let lines := outcome.events.map (Event.line log.format)
    lines.forM IO.eprintln
    if let some file := log.file then
      try keepLines file lines
      catch e =>
        IO.eprintln ("Failed to initialize logging: " ++ (LoggingError.file (toString e)).message)
        return 1
  IO.print outcome.output
  outcome.errors.forM IO.eprintln
  return outcome.exitCode.toUInt32
