import RawMemory.Hex
import RawMemory.Log.Event

/-!
# Log lines

An event as a line of a log, either for reading or as a JSON object.
-/

namespace RawMemory

namespace Json

/-- The written form of a character in a JSON string. -/
def escape (c : Char) : List Char :=
  match c with
  | '"' => ['\\', '"']
  | '\\' => ['\\', '\\']
  | '\n' => ['\\', 'n']
  | '\r' => ['\\', 'r']
  | '\t' => ['\\', 't']
  | _ => if c.toNat < 0x20 then ['\\', 'u'] ++ Hex.fixed 4 c.toNat else [c]

/-- A JSON string. -/
def quote (text : String) : String := String.ofList ('"' :: text.toList.flatMap escape ++ ['"'])

/-- A JSON object with the given members, whose values are JSON already. -/
def object (members : List (String × String)) : String :=
  "\x7b" ++ String.intercalate "," (members.map fun (name, value) => quote name ++ ":" ++ value) ++
    "\x7d"

end Json

/-- The written form of a character in a line for reading. The control characters that a terminal may
take for commands are spelled out; others, a line break among them, stand as they are. -/
def plainForm (c : Char) : List Char :=
  if [0x07, 0x08, 0x0C, 0x1B, 0x7F].contains c.toNat then ['\\', 'x'] ++ Hex.fixed 2 c.toNat
  else if 0x80 ≤ c.toNat ∧ c.toNat ≤ 0x9F then
    ['\\', 'u', '\x7b'] ++ Hex.shortest c.toNat ++ ['\x7d']
  else [c]

/-- A text in a line for reading. -/
def plainText (text : String) : String := String.ofList (text.toList.flatMap plainForm)

/-- The value of a particular in words. -/
def FieldValue.plain : FieldValue → String
  | number n => toString n
  | text s => s

/-- The value of a particular as JSON. -/
def FieldValue.json : FieldValue → String
  | number n => toString n
  | text s => Json.quote s

namespace Event

/-- The event as a JSON object. -/
def json (e : Event) : String :=
  let fields := e.fields.map fun (name, value) => (name, value.json)
  Json.object
    [("level", Json.quote e.level.name),
      ("fields", Json.object (("message", Json.quote e.message) :: fields)),
      ("target", Json.quote e.target)]

/-- The event for reading. -/
def pretty (e : Event) : String :=
  let field : String × FieldValue → String := fun (name, value) => " " ++ name ++ "=" ++ value.plain
  e.level.name ++ " " ++ e.target ++ ": " ++ plainText e.message ++ String.join (e.fields.map field)

/-- The event as a line of a log. -/
def line (format : LogFormat) (e : Event) : String :=
  match format with
  | .json => e.json
  | .pretty => e.pretty

end Event

example :
    plainText "a\x1bb\u009fc\nd" = "a\\x1bb\\u\x7b9f\x7dc\nd" := by
  decide +kernel

end RawMemory
