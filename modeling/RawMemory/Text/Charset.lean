import RawMemory.Text.Binary32
import RawMemory.Text.Keyword

/-!
# Charsets

The five character encodings, the names by which they are known, and the figures by which outputs are
sized.
-/

namespace RawMemory

/-- The order of the two bytes of a 16-bit unit. -/
inductive ByteOrder where
  /-- The low byte comes first. -/
  | littleEndian
  /-- The high byte comes first. -/
  | bigEndian
deriving DecidableEq

/-- The name of the order in reports. -/
def ByteOrder.name : ByteOrder → String
  | littleEndian => "LittleEndian"
  | bigEndian => "BigEndian"

/-- The order in which memory is read and written. -/
def ByteOrder.native : ByteOrder := .littleEndian

/-- The bytes of a unit. -/
def ByteOrder.bytes (order : ByteOrder) (unit : UInt16) : List UInt8 :=
  let low := unit.toUInt8
  let high := (unit >>> 8).toUInt8
  match order with
  | littleEndian => [low, high]
  | bigEndian => [high, low]

/-- The unit that two successive bytes hold. -/
def ByteOrder.unit (order : ByteOrder) (first second : UInt8) : UInt16 :=
  match order with
  | littleEndian => UInt16.ofNat (first.toNat + 256 * second.toNat)
  | bigEndian => UInt16.ofNat (second.toNat + 256 * first.toNat)

/-- A character encoding. -/
inductive Charset where
  /-- Seven-bit ASCII. -/
  | usAscii
  /-- Latin-1, a byte for each of the first 256 characters. -/
  | latin1
  /-- UTF-8. -/
  | utf8
  /-- UTF-16, the low byte of each unit first, without a byte order mark. -/
  | utf16le
  /-- UTF-16, the high byte of each unit first, without a byte order mark. -/
  | utf16be
deriving DecidableEq

namespace Charset

/-- Every charset. -/
def all : List Charset := [usAscii, latin1, utf8, utf16le, utf16be]

/-- The canonical name. -/
def name : Charset → String
  | usAscii => "US-ASCII"
  | latin1 => "ISO-8859-1"
  | utf8 => "UTF-8"
  | utf16le => "UTF-16LE"
  | utf16be => "UTF-16BE"

/-- UTF-16 in the order in which memory is read and written. -/
def utf16 : Charset :=
  match ByteOrder.native with
  | .littleEndian => utf16le
  | .bigEndian => utf16be

/-- The names under which a charset is found, in upper case. -/
def aliases : Charset → List String
  | usAscii => ["US-ASCII", "ASCII", "ISO646-US"]
  | latin1 => ["ISO-8859-1", "ISO8859-1", "LATIN1", "LATIN-1"]
  | utf8 => ["UTF-8", "UTF8"]
  | utf16le => ["UTF-16LE", "UTF16LE"] ++ unmarked utf16le
  | utf16be => ["UTF-16BE", "UTF16BE"] ++ unmarked utf16be
where
  /-- UTF-16 without an order is the native one. -/
  unmarked (charset : Charset) : List String := if charset = utf16 then ["UTF-16", "UTF16"] else []

/-- A name in upper case, without blanks around it and with hyphens for underscores. Case is changed in
ASCII letters only. -/
def normalize (name : String) : String :=
  String.ofList ((Keyword.trim name).toList.map fun c => if c = '_' then '-' else c.toUpper)

/-- The charset known under a name. -/
def ofName? (name : String) : Option Charset :=
  all.find? fun charset => (aliases charset).contains (normalize name)

/-- How many zero bytes end a text. -/
def terminatorLength : Charset → Nat
  | utf16le | utf16be => 2
  | usAscii | latin1 | utf8 => 1

/-- The expected number of bytes for each UTF-16 unit encoded. -/
def bytesPerUnit : Charset → Binary32
  | usAscii | latin1 => ⟨0x3F800000⟩
  | utf8 => ⟨0x3F8CCCCD⟩
  | utf16le | utf16be => ⟨0x40000000⟩

/-- The expected number of UTF-16 units for each byte decoded. -/
def unitsPerByte : Charset → Binary32
  | usAscii | latin1 | utf8 => ⟨0x3F800000⟩
  | utf16le | utf16be => ⟨0x3F000000⟩

end Charset

end RawMemory
