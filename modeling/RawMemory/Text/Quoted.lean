import RawMemory.Hex
import RawMemory.Text.Unprintable

/-!
# Quoted text

The written form of a text on one line, between double quotes. A character that would not stand for
itself there is written as an escape: by a letter of its own where it has one, by its code point
otherwise.
-/

namespace RawMemory.Text

/-- An escape that names a character by its code point. -/
def codePointEscape (c : Char) : List Char :=
  ['\\', 'u', '\x7b'] ++ Hex.shortest c.toNat ++ ['\x7d']

/-- The written form of a character between double quotes. -/
def escape (c : Char) : List Char :=
  match c with
  | '\x00' => ['\\', '0']
  | '\t' => ['\\', 't']
  | '\n' => ['\\', 'n']
  | '\r' => ['\\', 'r']
  | '"' => ['\\', '"']
  | '\\' => ['\\', '\\']
  | _ => if isExtending c || isIgnorable c || isUnprintable c then codePointEscape c else [c]

/-- The written form of a text. -/
def quote (text : String) : String :=
  String.ofList ('"' :: text.toList.flatMap escape ++ ['"'])

example : quote "tab\there, it's \"é\"\u200b" = "\"tab\\there, it's \\\"é\\\"\\u\x7b200b\x7d\"" := by
  decide +kernel

end RawMemory.Text
