import RawMemory.Log.Destination
import RawMemory.Log.Filter

/-!
# Setting up a log

Settings choose how events are laid out, which of them are kept, and the file that they are kept in
besides being shown. A process sets up its log once.
-/

namespace RawMemory

/-- Why there is no log. -/
inductive LoggingError where
  /-- The setting of the layout means nothing. -/
  | invalidFormat (reason : String)
  /-- A level means nothing. -/
  | invalidLevel (reason : String)
  /-- The log cannot be put in its place. -/
  | initializationFailed (reason : String)
  /-- The file cannot be written. -/
  | file (reason : String)
deriving DecidableEq

/-- The error in words. -/
def LoggingError.message : LoggingError → String
  | invalidFormat reason => "Invalid log format: " ++ reason
  | invalidLevel reason => "Invalid log level: " ++ reason
  | initializationFailed reason => "Failed to initialize logging: " ++ reason
  | file reason => "File logging error: " ++ reason

/-- Why settings give no log. -/
inductive SetupFailure where
  /-- For a reason that is reported. -/
  | refused (e : LoggingError)
  /-- The program ends on the spot. -/
  | aborted
deriving DecidableEq

/-- A log. -/
structure LogSetup where
  /-- How events are laid out. -/
  format : LogFormat
  /-- Which events are kept. -/
  filter : LogFilter
  /-- The file that they are kept in. -/
  file : Option LogFile
deriving DecidableEq

namespace LogSetup

/-- The layout that a setting means, which is the one for reading if there is no setting. -/
def formatOf : Option String → Except LoggingError LogFormat
  | none => .ok .pretty
  | some word =>
    match LogFormat.ofWord? word with
    | some format => .ok format
    | none => .error (.invalidFormat (LogFormat.unknown word))

/-- The log that three settings give. Its directory is made on the way, and its file opened; the program
ends on the spot when that fails, or when the filter cannot be cut into its parts. -/
def ofSettings (format filter file : Option String) : Except SetupFailure LogSetup :=
  match formatOf format, LogFilter.ofSetting filter, LogFile.ofSetting file with
  | .error e, _, _ => .error (.refused e)
  | .ok _, none, _ => .error .aborted
  | .ok format, some filter, none => .ok ⟨format, filter, none⟩
  | .ok format, some filter, some file =>
    match file.makeDirectory with
    | .error failure => .error (.refused (.file failure.message))
    | .ok () => if file.canOpen then .ok ⟨format, filter, some file⟩ else .error .aborted

/-- The log of a level and a layout given outright. -/
def atLevel (level : LogLevel) (format : LogFormat) : LogSetup := ⟨format, .atLevel level, none⟩

/-- Put a log in its place, which may hold one already. -/
def install (place : Option LogSetup) (setup : LogSetup) : Except LoggingError LogSetup :=
  match place with
  | some _ =>
    .error (.initializationFailed "a global default trace dispatcher has already been set")
  | none => .ok setup

end LogSetup

end RawMemory
