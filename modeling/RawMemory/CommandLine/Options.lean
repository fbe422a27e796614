import RawMemory.Accessor.Kind
import RawMemory.Text.Encoding
import RawMemory.Text.Numeral

/-!
# Command lines

A command line is a command with its options and its text. The words are read from left to right, and
the first one that cannot be accepted, or that asks for help or the version, ends the reading. An option
takes its value from the same word or from the next one, which must not look like an option itself.
After a lone double hyphen there are no more options. The options for the accessor and the checked mode
may stand before the command, behind it or, with the later one being heeded, in both places.
-/

namespace RawMemory.CommandLine

/-- What the program can be told to do. -/
inductive CommandName where
  /-- Report on memory. -/
  | info
  /-- Encode a text and dump the bytes. -/
  | encode
  /-- Encode a text, then find its end in memory and decode it. -/
  | scan
deriving DecidableEq

namespace CommandName

/-- Every command. -/
def all : List CommandName := [info, encode, scan]

/-- The word for a command. -/
def word : CommandName → String
  | info => "info"
  | encode => "encode"
  | scan => "scan"

/-- The command that a word means. -/
def ofWord? (word : String) : Option CommandName := all.find? fun name => name.word = word

/-- Whether the command works on a text. -/
def takesText : CommandName → Bool
  | info => false
  | encode | scan => true

end CommandName

/-- An option. -/
inductive OptionName where
  /-- The accessor to try first. -/
  | accessor
  /-- Whether arguments are checked. -/
  | checked
  /-- The charset to encode in. -/
  | charset
  /-- Leave out the terminator. -/
  | unterminated
  /-- The width of the rows of a dump. -/
  | width
  /-- Encode in native UTF-16. -/
  | wide
  /-- Explain the command line. -/
  | help
  /-- Tell the version. -/
  | version
deriving DecidableEq

namespace OptionName

/-- Every option. -/
def all : List OptionName :=
  [accessor, checked, charset, unterminated, width, wide, help, version]

/-- The word for an option after two hyphens. -/
def long : OptionName → String
  | accessor => "accessor"
  | checked => "checked"
  | charset => "charset"
  | unterminated => "unterminated"
  | width => "width"
  | wide => "wide"
  | help => "help"
  | version => "version"

/-- The letter for an option after one hyphen. -/
def short? : OptionName → Option Char
  | charset => some 'c'
  | width => some 'w'
  | help => some 'h'
  | version => some 'V'
  | accessor | checked | unterminated | wide => none

/-- Whether the option has a value. -/
def takesValue : OptionName → Bool
  | accessor | checked | charset | width => true
  | unterminated | wide | help | version => false

/-- Whether the option may stand behind a command, or before any command. -/
def allowed (option : OptionName) : (command : Option CommandName) → Bool
  | none => [accessor, checked, help, version].contains option
  | some .info => [accessor, checked, help].contains option
  | some .encode => [accessor, checked, help, charset, unterminated, width].contains option
  | some .scan => [accessor, checked, help, wide].contains option

end OptionName

/-- Why no command comes of a command line. -/
inductive Halt where
  /-- It cannot be accepted. -/
  | usage
  /-- It asks for help. -/
  | help
  /-- It asks for the version. -/
  | version
deriving DecidableEq

/-- What has been read of a command line, before the command or behind it. -/
structure Settings where
  /-- The accessor to try first. -/
  accessor : Option AccessorKind := none
  /-- Whether arguments are checked. -/
  checked : Option Bool := none
  /-- The name of the charset. -/
  charset : Option String := none
  /-- Whether the terminator is left out. -/
  unterminated : Bool := false
  /-- The width of the rows of a dump. -/
  width : Option UInt64 := none
  /-- Whether to encode in native UTF-16. -/
  wide : Bool := false
  /-- The text. -/
  text : Option String := none
deriving DecidableEq

/-- Take a value that there may be only one of. -/
def takeOnce {α : Type} (earlier value : Option α) : Except Halt (Option α) :=
  match earlier, value with
  | none, some value => .ok (some value)
  | _, _ => .error .usage

/-- Take a mark that there may be only one of. -/
def markOnce (earlier : Bool) : Except Halt Bool := if earlier then .error .usage else .ok true

/-- The truth value that a word means on a command line. -/
def truth? : String → Option Bool
  | "true" => some true
  | "false" => some false
  | _ => none

namespace Settings

/-- Take an option with its value, if it has one. -/
def take (s : Settings) (option : OptionName) (value : Option String) : Except Halt Settings :=
  match option, value with
  | .accessor, some v => do
    return { s with accessor := ← takeOnce s.accessor (AccessorKind.ofWord? v) }
  | .checked, some v => do return { s with checked := ← takeOnce s.checked (truth? v) }
  | .charset, some v => do return { s with charset := ← takeOnce s.charset (some v) }
  | .width, some v => do return { s with width := ← takeOnce s.width (Text.word? v) }
  | .unterminated, none => do return { s with unterminated := ← markOnce s.unterminated }
  | .wide, none => do return { s with wide := ← markOnce s.wide }
  | .help, none => .error .help
  | .version, none => .error .version
  | _, _ => .error .usage

/-- Take the text. -/
def takeText (s : Settings) (command : CommandName) (text : String) : Except Halt Settings :=
  if command.takesText then do return { s with text := ← takeOnce s.text (some text) }
  else .error .usage

end Settings

/-- A word of a command line by its look. -/
inductive Shape where
  /-- The double hyphen that ends the options. -/
  | endOfOptions
  /-- An option that is allowed there, perhaps with a value in the same word. -/
  | option (name : OptionName) (value : Option String)
  /-- What looks like an option and is none. -/
  | unknownOption
  /-- Any other word. -/
  | plain

namespace Shape

/-- Whether a word looks like an option. A lone hyphen does not. -/
def looksLikeOption (word : String) : Bool := word.startsWith "-" && word != "-"

/-- The value behind the equals sign of an option, if there is one. -/
def attached (rest : List Char) : Option String :=
  match rest with
  | '=' :: value => some (String.ofList value)
  | _ => none

/-- The shape of an option given by its word. -/
def ofLong (command : Option CommandName) (body : List Char) : Shape :=
  let name := String.ofList (body.takeWhile (· ≠ '='))
  match OptionName.all.find? fun o => o.allowed command && o.long = name with
  | some o => option o (attached (body.dropWhile (· ≠ '=')))
  | none => unknownOption

/-- The shape of an option given by its letter, where a value may follow at once. Only an option without
a value could be followed by other letters, and those end the reading. -/
def ofShort (command : Option CommandName) (letter : Char) (rest : List Char) : Shape :=
  match OptionName.all.find? fun o => o.allowed command && o.short? = some letter with
  | some o =>
    match o.takesValue, rest with
    | false, _ | true, [] => option o none
    | true, '=' :: value => option o (some (String.ofList value))
    | true, value => option o (some (String.ofList value))
  | none => unknownOption

/-- The shape of a word behind a command, or before any command. -/
def ofWord (command : Option CommandName) (word : String) : Shape :=
  match word.toList with
  | ['-', '-'] => endOfOptions
  | '-' :: '-' :: body => ofLong command body
  | '-' :: letter :: rest => ofShort command letter rest
  | _ => plain

end Shape

/-- The value of an option that stands in front of the words `rest`, and the words left. The value is in
the same word or in the next one; an option without a value has none. -/
def optionValue? (option : OptionName) (value : Option String) (rest : List String) :
    Option (Option String × List String) :=
  match option.takesValue, value, rest with
  | true, some value, _ => some (some value, rest)
  | true, none, next :: left => if Shape.looksLikeOption next then none else some (some next, left)
  | true, none, [] => none
  | false, none, _ => some (none, rest)
  | false, some _, _ => none

/-- Finding the value of an option leaves no more words than there were. -/
theorem length_le_of_optionValue {option : OptionName} {value found : Option String}
    {rest left : List String} (h : optionValue? option value rest = some (found, left)) :
    left.length ≤ rest.length := by
  unfold optionValue? at h
  split at h
  · -- the value is in the same word
    simp_all
  · -- the value is the next word
    split at h
    · cases h
    · obtain ⟨-, rfl⟩ := Prod.mk.inj (Option.some.inj h)
      simp
  · cases h
  · -- there is no value
    simp_all
  · cases h

/-- Read the words behind the double hyphen of a command. -/
def readTexts (command : CommandName) (s : Settings) (words : List String) :
    Except Halt Settings :=
  words.foldlM (fun s word => s.takeText command word) s

/-- Read the words behind a command. -/
def readCommand (command : CommandName) (s : Settings) (words : List String) :
    Except Halt Settings :=
  match words with
  | [] => .ok s
  | word :: rest =>
    match Shape.ofWord (some command) word with
    | .endOfOptions => readTexts command s rest
    | .unknownOption => .error .usage
    | .plain => do readCommand command (← s.takeText command word) rest
    | .option name value =>
      match _h : optionValue? name value rest with
      | some (value, left) => do readCommand command (← s.take name value) left
      | none => .error .usage
termination_by words.length
decreasing_by
  · simp
  · have := length_le_of_optionValue _h
    simp only [List.length_cons]
    omega

/-- Read the words in front of the command: what has been read of them, the command, and the words
behind it. -/
def readFront (s : Settings) (words : List String) :
    Except Halt (Settings × CommandName × List String) :=
  match words with
  | [] => .error .usage
  | word :: rest =>
    match Shape.ofWord none word with
    | .endOfOptions | .unknownOption => .error .usage
    | .plain =>
      match CommandName.ofWord? word with
      | some command => .ok (s, command, rest)
      | none => .error (askedHelp word rest)
    | .option name value =>
      match _h : optionValue? name value rest with
      | some (value, left) => do readFront (← s.take name value) left
      | none => .error .usage
termination_by words.length
decreasing_by
  have := length_le_of_optionValue _h
  simp only [List.length_cons]
  omega
where
  /-- Why a word that is no command ends the reading: it is `help`, perhaps with a command to explain, or
  it means nothing. -/
  askedHelp (word : String) (rest : List String) : Halt :=
    let known (topic : String) : Bool := topic = "help" || (CommandName.ofWord? topic).isSome
    if word = "help" ∧ rest.all known ∧ rest.length ≤ 1 then .help else .usage

/-- A command with all that it needs. -/
inductive Command where
  /-- Report on memory. -/
  | info
  /-- Encode a text and dump the bytes. -/
  | encode (text charset : String) (termination : Termination) (width : UInt64)
  /-- Encode a text, then find its end in memory and decode it. -/
  | scan (text : String) (wide : Bool)
deriving DecidableEq

/-- What a command line asks for. -/
structure Invocation where
  /-- The accessor to try first. -/
  accessor : Option AccessorKind
  /-- Whether arguments are checked. -/
  checked : Option Bool
  /-- The command. -/
  command : Command
deriving DecidableEq

/-- The command that the settings behind its name make up. A text must not be missing where one is
taken. -/
def Settings.command (s : Settings) : CommandName → Except Halt Command
  | .info => .ok .info
  | .encode =>
    match s.text with
    | some text =>
      .ok (.encode text (s.charset.getD "UTF-8") (.ofBool !s.unterminated) (s.width.getD 16))
    | none => .error .usage
  | .scan =>
    match s.text with
    | some text => .ok (.scan text s.wide)
    | none => .error .usage

/-- What the words of a command line ask for. -/
def read (words : List String) : Except Halt Invocation := do
  let (front, name, rest) ← readFront {} words
  let s ← readCommand name {} rest
  let command ← s.command name
  return ⟨s.accessor <|> front.accessor, s.checked <|> front.checked, command⟩

end RawMemory.CommandLine
