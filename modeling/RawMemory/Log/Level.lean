import RawMemory.Text.Keyword

/-!
# Log levels and formats

How important an event is, and how events are laid out, with the words by which settings choose them.
Blanks around such a word are not ignored.
-/

namespace RawMemory

/-- How important an event is. -/
inductive LogLevel where
  /-- A failure. -/
  | error
  /-- A cause for concern. -/
  | warn
  /-- Of general interest. -/
  | info
  /-- Of interest to a developer. -/
  | debug
  /-- Every step. -/
  | trace
deriving DecidableEq

namespace LogLevel

/-- Every level, the most important first. -/
def all : List LogLevel := [error, warn, info, debug, trace]

/-- The name of the level in a log. -/
def name : LogLevel → String
  | error => "ERROR"
  | warn => "WARN"
  | info => "INFO"
  | debug => "DEBUG"
  | trace => "TRACE"

/-- The words that mean a level. -/
def words : LogLevel → List String
  | error => ["error", "err"]
  | warn => ["warn", "warning"]
  | info => ["info"]
  | debug => ["debug", "dbg"]
  | trace => ["trace"]

/-- The place in the order of importance, the most important first. -/
def rank : LogLevel → Nat
  | error => 1
  | warn => 2
  | info => 3
  | debug => 4
  | trace => 5

/-- The level that a word means. -/
def ofWord? (word : String) : Option LogLevel :=
  all.find? fun level => level.words.contains (Keyword.fold word)

/-- What is said of a word that means no level. -/
def unknown (word : String) : String :=
  "Unknown log level: " ++ word ++ ". Use 'error', 'warn', 'info', 'debug', or 'trace'"

end LogLevel

/-- How events are laid out. -/
inductive LogFormat where
  /-- For reading. -/
  | pretty
  /-- One JSON object for each event. -/
  | json
deriving DecidableEq

namespace LogFormat

/-- Every format. -/
def all : List LogFormat := [pretty, json]

/-- The words that mean a format. -/
def words : LogFormat → List String
  | pretty => ["pretty", "dev", "development"]
  | json => ["json", "prod", "production"]

/-- The format that a word means. -/
def ofWord? (word : String) : Option LogFormat :=
  all.find? fun format => format.words.contains (Keyword.fold word)

/-- What is said of a word that means no format. -/
def unknown (word : String) : String :=
  "Unknown log format: " ++ word ++ ". Use 'pretty' or 'json'"

end LogFormat

end RawMemory
