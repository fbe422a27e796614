import RawMemory.Error
import RawMemory.Log.Event
import RawMemory.Text.Encoder

/-!
# Encoding text

Text becomes bytes in three ways. `encode` runs the coder of a charset and fails on text that the
charset cannot express. `encodeNarrow` keeps the low byte of each UTF-16 unit and `encodeWide` writes
the units as they are; neither of them can fail.
-/

namespace RawMemory

/-- Whether encoded text ends with a terminator. -/
inductive Termination where
  /-- A zero unit, encoded like the text. -/
  | nullTerminated
  /-- None. -/
  | unterminated
deriving DecidableEq

/-- Terminated or not. -/
def Termination.ofBool : Bool → Termination
  | true => nullTerminated
  | false => unterminated

namespace Text

/-- The UTF-16 units of a text, with a zero unit at the end if it is to be terminated. -/
def units (text : String) : Termination → List UInt16
  | .nullTerminated => Utf16.ofString text ++ [0]
  | .unterminated => Utf16.ofString text

/-- Bytes that hold as many units in a charset as can be expected. -/
def encodeEstimate (charset : Charset) (units : List UInt16) : Nat :=
  Binary32.ceilMul units.length charset.bytesPerUnit

/-- What coding UTF-16 units in a charset does, given the size of the first output. -/
def encodeTranscript (charset : Charset) (size : Nat) (units : List UInt16) : Transcript UInt8 :=
  charset.encoder.drain size units

/-- The outcome of coding a whole input in a charset: on success the output cut to what is written. -/
def outcome {β : Type} (charset : Charset) (transcript : Transcript β) :
    Except MemoryError (List β) :=
  match transcript.result with
  | .underflow | .overflow => .ok transcript.output.content
  | .malformed _ => .error (.codec charset .malformed transcript.consumed)
  | .unmappable _ => .error (.codec charset .unmappable transcript.consumed)

/-- The bytes of UTF-16 units in a charset. -/
def encodeUnits (charset : Charset) (units : List UInt16) :
    Traced (Except MemoryError (List UInt8)) :=
  let transcript := encodeTranscript charset (encodeEstimate charset units) units
  { value := outcome charset transcript
    events := transcript.growths.map fun g => .encodeGrew charset g.size g.written }

/-- The bytes of a text in a charset. -/
def encode (charset : Charset) (text : String) (termination : Termination) :
    Traced (Except MemoryError (List UInt8)) :=
  encodeUnits charset (units text termination)

/-- The low byte of each UTF-16 unit of a text. For ASCII text this is its encoding in US-ASCII. -/
def encodeNarrow (text : String) (termination : Termination) : List UInt8 :=
  (units text termination).map UInt16.toUInt8

/-- The UTF-16 units of a text as they are in memory. -/
def encodeWide (text : String) (termination : Termination) : List UInt8 :=
  (units text termination).flatMap ByteOrder.native.bytes

end Text

end RawMemory
