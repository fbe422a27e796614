import RawMemory.Text.Charset
import RawMemory.Text.Coder
import RawMemory.Text.Utf16
import RawMemory.Text.Utf8

/-!
# Decoders

The coder of each charset from bytes to UTF-16 units. Input that ends inside a character is incomplete
while more may follow, and malformed as a whole otherwise.
-/

namespace RawMemory.Decoder

/-- What to do where the input ends inside a character that takes up all the `length` bytes left. -/
def cutOff (atEnd : Bool) (length : Nat) : CoderStep UInt16 :=
  .stop (if atEnd then .malformed length else .incomplete)

/-- Seven-bit ASCII. -/
def ascii : Coder UInt8 UInt16 where
  step _ first _ := if first ≤ 0x7F then .emit [first.toUInt16] 0 else .stop (.malformed 1)

/-- Latin-1, in which every byte is a character. -/
def latin1 : Coder UInt8 UInt16 where
  step _ first _ := .emit [first.toUInt16] 0

/-- UTF-8. -/
def utf8 : Coder UInt8 UInt16 where
  step atEnd first rest :=
    match Utf8.head (first :: rest) with
    | .char c extra => .emit (Utf16.ofChar c) extra
    | .incomplete => cutOff atEnd (rest.length + 1)
    | .malformed length => .stop (.malformed length)

/-- UTF-16 with units in the given byte order. -/
def utf16 (order : ByteOrder) : Coder UInt8 UInt16 where
  step atEnd first rest :=
    match rest with
    | [] => cutOff atEnd 1
    | second :: rest =>
      let unit := order.unit first second
      if Utf16.isHigh unit then
        match rest with
        | third :: fourth :: _ =>
          let partner := order.unit third fourth
          if Utf16.isLow partner then .emit [unit, partner] 3 else .stop (.malformed 2)
        | _ => cutOff atEnd (rest.length + 2)
      else if Utf16.isLow unit then .stop (.malformed 2)
      else .emit [unit] 1

end RawMemory.Decoder

namespace RawMemory

/-- The decoder of a charset. -/
def Charset.decoder : Charset → Coder UInt8 UInt16
  | .usAscii => Decoder.ascii
  | .latin1 => Decoder.latin1
  | .utf8 => Decoder.utf8
  | .utf16le => Decoder.utf16 .littleEndian
  | .utf16be => Decoder.utf16 .bigEndian

end RawMemory
