import RawMemory.Log.Rule
import RawMemory.Text.Alphanumeric
import RawMemory.Text.Numeral
import RawMemory.Text.Pattern
import RawMemory.Text.Pieces
import RawMemory.Text.Slice

/-!
# The text of a log rule

A rule is written `target=level`; a level alone is a rule for every target, and a target alone keeps all
of its events. Behind the target may stand a scope in brackets, which is the name of a span, or of a
particular in braces, or both, as in `target[span{name}]=level`. The name of a particular may be followed
by an equals sign and the value that it is to have, which is a number or a pattern.

Blanks around a rule are passed over to find out where its parts begin and end, but the parts are then
taken from those places of the text as it stands. So blanks at the end belong to the last part, and
blanks at the beginning shift every part to the left, which may even tear a character.
-/

namespace RawMemory

/-- Why a text is no rule. -/
inductive RuleFlaw where
  /-- It does not have the form of a rule. -/
  | malformed
  /-- A part would begin or end inside a character. -/
  | torn
deriving DecidableEq

namespace LogRule

/-- The characters of a word with ASCII letters in lower case. -/
def lower (word : String) : List Char := word.toList.map Char.toLower

/-- The level that a word or a number from 0 to 5 means in a rule, where `off` or 0 means none. -/
def level? (word : String) : Option (Option LogLevel) :=
  match Text.word? word with
  | some 0 => some none
  | some rank => (LogLevel.all.find? fun level => level.rank = rank.toNat).map some
  | none =>
    if lower word = lower "off" then some none
    else (LogLevel.all.find? fun level => lower level.name = lower word).map some

/-- Whether a target may begin with a character. -/
def canBegin (c : Char) : Bool := Text.isAlphanumeric c || ['-', ':', '_'].contains c

/-- Whether a character goes on with a target, instead of ending it. -/
def inTarget (c : Char) : Bool := c ≠ '=' && c ≠ '['

/-- Whether a character goes on with the name of a span, instead of ending it. -/
def inSpan (c : Char) : Bool := c ≠ ']' && c ≠ '\x7b'

/-- Whether a character goes on with the name of a particular, instead of ending it. -/
def inField (c : Char) : Bool := c ≠ '\x7d'

/-- The part of a text between two positions. -/
def part (text : List Char) (start stop : Nat) : Except RuleFlaw String :=
  match Text.slice text start stop with
  | some cs => .ok (String.ofList cs)
  | none => .error .torn

/-- The level that is written from a position on. Nothing there means every level. -/
def levelFrom (text : List Char) (start : Nat) : Except RuleFlaw (Option LogLevel) := do
  let word ← part text start (Text.byteSize text)
  if word = "" then .ok (some .trace)
  else
    match level? word with
    | some level => .ok level
    | none => .error .malformed

/-- The level behind a closed bracket, where `rest` begins at a position. -/
def levelAfter (text : List Char) (position : Nat) (rest : List Char) :
    Except RuleFlaw (Option LogLevel) :=
  match rest with
  | [] => .ok (some .trace)
  | '=' :: _ => levelFrom text (position + 1)
  | _ => .error .malformed

/-- The value that a particular is to have, if one is written behind its name. -/
def valueOf? (field : String) : Option String := (Text.pieces '=' field)[1]?

/-- Whether a text is a value. -/
def isValue (text : String) : Bool := Text.isReal text || Text.isPattern text

/-- The scope that the name of a span and that of a particular mean. A value that the particular is to
have can only be met by a span. -/
def scopeOf (span field : String) : LogScope :=
  if span = "" ∧ valueOf? field = none then .eventsWith field else .spans

/-- The scope and the level behind an open brace, where `rest` begins at a position. -/
def scopeInBraces (text : List Char) (span : String) (position : Nat) (rest : List Char) :
    Except RuleFlaw (LogScope × Option LogLevel) := do
  let stop := position + Text.byteSize (rest.takeWhile inField)
  match rest.dropWhile inField with
  | [] => .error .malformed
  | _ :: rest =>
    let field ← part text position stop
    if field = "" ∨ ¬ (valueOf? field).all isValue then .error .malformed
    else
      match rest with
      | ']' :: rest => return (scopeOf span field, ← levelAfter text (stop + 2) rest)
      | _ => .error .malformed

/-- The scope and the level behind an open bracket, where `rest` begins at a position. -/
def scopeInBrackets (text : List Char) (position : Nat) (rest : List Char) :
    Except RuleFlaw (LogScope × Option LogLevel) := do
  let stop := position + Text.byteSize (rest.takeWhile inSpan)
  match rest.dropWhile inSpan with
  | [] => .error .malformed
  | closing :: rest =>
    let span ← part text position stop
    if closing = ']' then return (.spans, ← levelAfter text (stop + 1) rest)
    else scopeInBraces text span (stop + 1) rest

/-- The rule that is a level or a target alone. -/
def ofWord (text : String) : LogRule :=
  match level? text with
  | some level => ⟨"", .events, level⟩
  | none => ⟨text, .events, some .trace⟩

/-- The rule that a text means. -/
def ofText (text : String) : Except RuleFlaw LogRule := do
  let cs := text.toList
  match (Keyword.trim text).toList with
  | [] => .error .malformed
  | '[' :: rest =>
    let (scope, level) ← scopeInBrackets cs 1 rest
    return ⟨"", scope, level⟩
  | first :: rest =>
    if canBegin first then
      let stop := Text.byteSize ((first :: rest).takeWhile inTarget)
      match (first :: rest).dropWhile inTarget with
      | [] => return ofWord text
      | closing :: rest =>
        let target ← part cs 0 stop
        if closing = '=' then return ⟨target, .events, ← levelFrom cs (stop + 1)⟩
        else
          let (scope, level) ← scopeInBrackets cs (stop + 1) rest
          return ⟨target, scope, level⟩
    else .error .malformed

example :
    (ofText "store=4").toOption = some ⟨"store", .events, some .debug⟩ ∧
      (ofText "store").toOption = some ⟨"store", .events, some .trace⟩ ∧
      (ofText "[\x7bsize\x7d]=off").toOption = some ⟨"", .eventsWith "size", none⟩ ∧
      (ofText "store[read]").toOption = some ⟨"store", .spans, some .trace⟩ := by
  decide +kernel

example :
    (ofText "=info").toOption = none ∧ (ofText " store=info").toOption = none ∧
      (ofText " debug").toOption = some ⟨" debug", .events, some .trace⟩ := by
  decide +kernel

example :
    (ofText "[\x7bsize=+5.0\x7d]").toOption = some ⟨"", .spans, some .trace⟩ ∧
      (ofText "[\x7bsize=+five\x7d]").toOption = none ∧
      (ofText "[\x7bsize=a=+\x7d]").toOption = some ⟨"", .spans, some .trace⟩ := by
  decide +kernel

end LogRule

end RawMemory
