import RawMemory.CommandLine.Options
import RawMemory.Handle
import RawMemory.Heap
import RawMemory.Hexdump
import RawMemory.Log.Setup
import RawMemory.Text.Decoding
import RawMemory.Text.Quoted

/-!
# Running the program

What the program does for a command line and an environment. First the log is set up, then the command
line is read, then a memory handle is made and the command carried out. `run` says how the program
ends, what it prints and which events its log keeps; it makes no output itself.
-/

namespace RawMemory.CommandLine

/-- The settings that the program takes from its environment. -/
structure Environment where
  /-- Which events are logged. -/
  logFilter : Option String := none
  /-- How events are laid out. -/
  logFormat : Option String := none
  /-- The file that events are kept in. -/
  logFile : Option String := none
  /-- The accessor to try first. -/
  accessor : Option String := none
  /-- Whether arguments are checked. -/
  checked : Option String := none

/-- The settings found under their names. -/
def Environment.ofLookup (find? : String → Option String) : Environment where
  logFilter := find? "RUST_LOG"
  logFormat := find? "NATIVEMEM_LOG_FORMAT"
  logFile := find? "NATIVEMEM_LOG_FILE"
  accessor := find? "NATIVEMEM_ACCESSOR"
  checked := find? "NATIVEMEM_CHECKED"

/-- The configuration that an environment and a command line give. The command line is heeded where both
say something. -/
def Environment.config (env : Environment) (i : Invocation) : Traced Config := do
  let config ← Config.ofSettings env.accessor env.checked
  let config := (i.accessor.map config.prefer).getD config
  return (i.checked.map config.withChecked).getD config

/-! ### Commands -/

/-- The report on a handle with nothing pinned. -/
def infoText (h : Handle) : String :=
  let r := h.report 0
  let width : ElementKind × UInt64 → String := fun (kind, bytes) =>
    "    " ++ kind.name ++ ": " ++ toString bytes.toNat ++ " bytes\n"
  "Native Memory Information:\n" ++
    "  Accessor: " ++ r.accessor.name ++ "\n" ++
    "  Page Size: " ++ toString r.pageSize.toNat ++ " bytes\n" ++
    "  Pointer Size: " ++ toString r.pointerSize.toNat ++ " bytes\n" ++
    "  Checked: " ++ toString r.checked ++ "\n" ++
    "  Pinned Objects: " ++ toString r.pinned ++ "\n" ++
    "  Element Widths:\n" ++ String.join (r.widths.map width)

/-- The bytes of a text in a charset, by way of the encoders that never fail where there is one for the
charset. -/
def encodeWith (charset : Charset) (text : String) (termination : Termination) :
    Traced (Except MemoryError (List UInt8)) :=
  if charset = .usAscii then do
    Traced.report .narrowPath
    return .ok (Text.encodeNarrow text termination)
  else if charset = .utf16 then do
    Traced.report .widePath
    return .ok (Text.encodeWide text termination)
  else Text.encode charset text termination

/-- A computation that reports events and may fail. -/
abbrev Job := ExceptT MemoryError Traced

@[simp] theorem Job.value_mk {α : Type} (x : Traced (Except MemoryError α)) :
    (ExceptT.mk x : Job α).run.value = x.value := rfl

/-- The value of two computations one after the other. -/
theorem Job.value_bind {α β : Type} (x : Job α) (f : α → Job β) :
    (x >>= f).run.value = x.run.value >>= fun a => (f a).run.value := by
  change (ExceptT.bindCont f x.run.value).value = _
  cases x.run.value <;> rfl

/-- The bytes of a text in a charset given by name, dumped from where they lie in memory. -/
def encodeText (heap : Heap) (text charset : String) (termination : Termination) (width : UInt64) :
    Job String := do
  let charset ← ExceptT.mk (pure (Charset.ofName charset))
  let bytes ← ExceptT.mk (encodeWith charset text termination)
  let (buffer, heap) ← ExceptT.mk (pure (heap.ofBytes bytes))
  ExceptT.lift (Traced.report (.encoded charset bytes.length))
  return toString buffer.length.toNat ++ " bytes of " ++ charset.name ++ " at " ++
    buffer.address.text ++ "\n" ++ Hexdump.render buffer.address (heap.contents buffer) width

/-- What a scan of memory for the end of a text finds. -/
structure Scan where
  /-- Where the text begins. -/
  address : Address
  /-- The bytes in front of the terminator. -/
  length : UInt64
  /-- The text that they stand for. -/
  text : Option String

/-- The bytes of a terminated text, in UTF-16 or in UTF-8. -/
def terminated (text : String) (wide : Bool) : Traced (Except MemoryError (List UInt8)) :=
  if wide then pure (.ok (Text.encodeWide text .nullTerminated))
  else Text.encode .utf8 text .nullTerminated

/-- The text of bytes in UTF-16 or in UTF-8. -/
def decoded (bytes : List UInt8) (wide : Bool) : Traced (Except MemoryError String) :=
  if wide then pure (.ok (Text.decodeWide bytes)) else Text.decode .utf8 bytes

/-- Put a terminated text into memory, find its end, and decode what lies in front of it. -/
def scan (h : Handle) (heap : Heap) (text : String) (wide : Bool) : Job Scan := do
  let bytes ← ExceptT.mk (terminated text wide)
  let (buffer, heap) ← ExceptT.mk (pure (heap.ofBytes bytes))
  let find := if wide then h.viewToZeroUnit else h.viewToZeroByte
  match ← ExceptT.mk (pure (find heap.store buffer.address)) with
  | none => return ⟨buffer.address, 0, none⟩
  | some view =>
    let found ← ExceptT.mk (decoded (view.remainingBytes heap.store) wide)
    return ⟨buffer.address, view.capacity, some found⟩

/-- The report on a scan. -/
def Scan.report (s : Scan) (wide : Bool) : String :=
  "Scanned " ++ toString s.length.toNat ++ " bytes (" ++ (if wide then "UTF-16" else "UTF-8") ++
    ") at " ++ s.address.text ++ "\nDecoded: " ++ Text.quote (s.text.getD "") ++ "\n"

/-- What a command prints, carried out in some memory. -/
def Command.perform (h : Handle) (heap : Heap) : Command → Job String
  | info => return infoText h
  | encode text charset termination width => encodeText heap text charset termination width
  | scan text wide => return (← CommandLine.scan h heap text wide).report wide

/-- What the program prints for an accepted command line. -/
def Invocation.perform (env : Environment) (heap : Heap) (i : Invocation) : Job String := do
  let config ← ExceptT.lift (env.config i)
  let h ← ExceptT.mk (Handle.ofConfig config)
  -- no handle has been installed in a process that has just begun
  let h ← ExceptT.mk (pure (Handle.install none h))
  i.command.perform h heap

/-! ### The program -/

/-- What the program prints about its version. -/
def versionText : String := "nativemem 0.0.0\n"

/-- What the program prints about its command line. -/
def helpText : String :=
  "Diagnostics for the nativemem memory bridging layer\n\n" ++
    "Usage: nativemem [OPTIONS] <COMMAND>\n\n" ++
    "Commands:\n" ++
    "  info           Show the accessor, sizes, checked mode and element widths\n" ++
    "  encode <TEXT>  Encode text and print a hexdump of it\n" ++
    "  scan <TEXT>    Encode text, then find its end with a scan for the terminator\n\n" ++
    "Options:\n" ++
    "      --accessor <WORD>   Memory accessor to prefer\n" ++
    "      --checked <BOOL>    Checks on arguments on or off\n" ++
    "  -c, --charset <NAME>    encode: the charset [default: UTF-8]\n" ++
    "      --unterminated      encode: no terminator\n" ++
    "  -w, --width <BYTES>     encode: bytes in a row of the hexdump [default: 16]\n" ++
    "      --wide              scan: use UTF-16\n" ++
    "  -h, --help              Print help\n" ++
    "  -V, --version           Print version\n"

/-- How a run of the program ends. -/
structure Outcome where
  /-- The exit code. -/
  exitCode : UInt8
  /-- What it prints. -/
  output : String := ""
  /-- The lines that it prints about a failure. -/
  errors : List String := []
  /-- Its log, unless it fails to set that up. -/
  log : Option LogSetup := none
  /-- The events that the log keeps. -/
  events : List Event := []

/-- The exit code of a program that ends on the spot. -/
def abortCode : UInt8 := 101

/-- How the program ends when it has a log and the command line has been read. -/
def conclude (env : Environment) (heap : Heap) (log : LogSetup) : Except Halt Invocation → Outcome
  | .error .usage => { exitCode := 2, errors := ["error: see nativemem --help"], log := some log }
  | .error .help => { exitCode := 0, output := helpText, log := some log }
  | .error .version => { exitCode := 0, output := versionText, log := some log }
  | .ok i =>
    let done := (i.perform env heap).run
    let events := log.filter.select done.events
    match done.value with
    | .ok output => { exitCode := 0, output, log := some log, events }
    | .error e => { exitCode := 1, errors := ["Error: " ++ e.message], log := some log, events }

/-- How the program ends for an environment and the words of a command line, when it starts with some
memory. -/
def run (env : Environment) (words : List String) (heap : Heap := {}) : Outcome :=
  match LogSetup.ofSettings env.logFormat env.logFilter env.logFile with
  | .error (.refused e) =>
    { exitCode := 1, errors := ["Failed to initialize logging: " ++ e.message] }
  | .error .aborted => { exitCode := abortCode }
  | .ok log => conclude env heap log (read words)

end RawMemory.CommandLine
