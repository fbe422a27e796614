import RawMemory.Text.Decoder
import RawMemory.Text.Encoding

/-!
# Decoding text

Bytes become text in three ways. `decode` runs the coder of a charset and fails on bytes that are not
well formed. `decodeNarrow` takes every byte for the character of that number, and `decodeWide` takes
bytes for native UTF-16 and puts `U+FFFD` for what is not; neither of them can fail.
-/

namespace RawMemory.Text

/-- Units that hold the decoded form of as many bytes in a charset as can be expected. -/
def decodeEstimate (charset : Charset) (bytes : List UInt8) : Nat :=
  Binary32.ceilMul bytes.length charset.unitsPerByte

/-- What coding bytes of a charset as UTF-16 units does, given the size of the first output. -/
def decodeTranscript (charset : Charset) (size : Nat) (bytes : List UInt8) : Transcript UInt16 :=
  charset.decoder.drain size bytes

/-- The text of decoded units; units with an unpaired surrogate are malformed at the end of the bytes. -/
def textOfUnits (charset : Charset) (position : Nat) (units : List UInt16) :
    Except MemoryError String :=
  match Utf16.decode? units with
  | some text => .ok (String.ofList text)
  | none => .error (.codec charset .malformed position)

/-- The text that bytes stand for in a charset. -/
def decode (charset : Charset) (bytes : List UInt8) : Traced (Except MemoryError String) :=
  let transcript := decodeTranscript charset (decodeEstimate charset bytes) bytes
  { value := outcome charset transcript >>= textOfUnits charset transcript.consumed
    events := transcript.growths.map fun g => .decodeGrew charset g.size g.written }

/-- The text of the characters whose numbers are the bytes. -/
def decodeNarrow (bytes : List UInt8) : String :=
  String.ofList (bytes.map fun b => Char.ofNat b.toNat)

/-- The units that successive pairs of bytes hold; a last byte without a partner is left out. -/
def unitsOfBytes (order : ByteOrder) : List UInt8 → List UInt16
  | first :: second :: rest => order.unit first second :: unitsOfBytes order rest
  | [_] | [] => []

/-- The text of bytes taken for native UTF-16, with `U+FFFD` for each unpaired surrogate. -/
def decodeWide (bytes : List UInt8) : String :=
  String.ofList (Utf16.decodeLossy (unitsOfBytes .native bytes))

end RawMemory.Text
