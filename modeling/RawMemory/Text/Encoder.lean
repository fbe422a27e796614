import RawMemory.Text.Charset
import RawMemory.Text.Coder
import RawMemory.Text.Utf16

/-!
# Encoders

The coder of each charset from UTF-16 units to bytes. A lone surrogate is malformed in every charset. A
unit above the range of a one-byte charset is unmappable together with the rest of its character.
-/

namespace RawMemory.Encoder

/-- A charset with one byte for each unit up to `last`. -/
def singleByte (last : UInt16) : Coder UInt16 UInt8 where
  step atEnd first rest :=
    if first ≤ last then .emit [first.toUInt8] 0
    else
      match Utf16.head atEnd first rest with
      | .char _ extra => .stop (.unmappable (extra + 1))
      | .incomplete => .stop .incomplete
      | .malformed => .stop (.malformed 1)

/-- UTF-8. -/
def utf8 : Coder UInt16 UInt8 where
  step atEnd first rest :=
    match Utf16.head atEnd first rest with
    | .char c extra => .emit (String.utf8EncodeChar c) extra
    | .incomplete => .stop .incomplete
    | .malformed => .stop (.malformed 1)

/-- UTF-16, the units of each character in the given byte order. -/
def utf16 (order : ByteOrder) : Coder UInt16 UInt8 where
  step atEnd first rest :=
    match Utf16.head atEnd first rest with
    | .char _ extra => .emit ((first :: rest.take extra).flatMap order.bytes) extra
    | .incomplete => .stop .incomplete
    | .malformed => .stop (.malformed 1)

end RawMemory.Encoder

namespace RawMemory

/-- The encoder of a charset. -/
def Charset.encoder : Charset → Coder UInt16 UInt8
  | .usAscii => Encoder.singleByte 0x7F
  | .latin1 => Encoder.singleByte 0xFF
  | .utf8 => Encoder.utf8
  | .utf16le => Encoder.utf16 .littleEndian
  | .utf16be => Encoder.utf16 .bigEndian

end RawMemory
