import RawMemory.Text.Decoding
import RawMemory.View

/-!
# Coding requests

A way of encoding or decoding chosen from outside, with charsets given by name. A name is looked up
before anything is coded.
-/

namespace RawMemory.Text

/-- What to encode, and how. -/
inductive EncodeRequest where
  /-- The low byte of each unit of a text. -/
  | narrow (text : String) (termination : Termination)
  /-- The native units of a text. -/
  | wide (text : String) (termination : Termination)
  /-- A text in the charset of a name. -/
  | charset (name : String) (text : String) (termination : Termination)
  /-- Units, which need not be well formed, in the charset of a name. -/
  | units (name : String) (units : List UInt16)

/-- Carry out a request to encode. -/
def EncodeRequest.run : EncodeRequest → Traced (Except MemoryError (List UInt8))
  | .narrow text termination => pure (.ok (encodeNarrow text termination))
  | .wide text termination => pure (.ok (encodeWide text termination))
  | .charset name text termination =>
    match Charset.ofName name with
    | .ok found => encode found text termination
    | .error e => pure (.error e)
  | .units name input =>
    match Charset.ofName name with
    | .ok found => encodeUnits found input
    | .error e => pure (.error e)

/-- How to decode. -/
inductive DecodeRequest where
  /-- Every byte is the character of that number. -/
  | narrow
  /-- The bytes are native UTF-16, possibly ill formed. -/
  | wide
  /-- The bytes are in the charset of a name. -/
  | charset (name : String)

/-- Carry out a request to decode bytes, which may be missing and then have no text. -/
def DecodeRequest.run (request : DecodeRequest) (bytes : Option (List UInt8)) :
    Traced (Except MemoryError (Option String)) :=
  match request with
  | .narrow => pure (.ok (bytes.map decodeNarrow))
  | .wide => pure (.ok (bytes.map decodeWide))
  | .charset name =>
    match Charset.ofName name, bytes with
    | .ok _, none => pure (.ok none)
    | .ok found, some bytes => do
      let text ← decode found bytes
      return text.map some
    | .error e, _ => pure (.error e)

/-- Carry out a request to decode the bytes from a position on. -/
def DecodeRequest.runFrom (request : DecodeRequest) (bytes : List UInt8) (position : UInt64) :
    Traced (Except MemoryError (Option String)) :=
  let window : View .byte :=
    { address := .null, capacity := UInt64.ofNat bytes.length, origin := .owned }
  match window.setPosition position with
  | .ok window => request.run (some (bytes.drop window.position.toNat))
  | .error e => pure (.error e)

end RawMemory.Text
