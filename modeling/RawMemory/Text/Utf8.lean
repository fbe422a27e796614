/-!
# UTF-8

A character of UTF-8 is a lead byte and up to three continuation bytes. The lead says how many there
are; for four leads it also narrows the first continuation, which rules out overlong forms, encoded
surrogates and numbers above `U+10FFFF`. `head` walks along those ranges, so it stops at the first byte
that no well-formed character continues with.
-/

namespace RawMemory.Utf8

/-- A range of bytes, both ends included. -/
structure ByteRange where
  /-- The lowest byte of the range. -/
  low : UInt8
  /-- The highest byte of the range. -/
  high : UInt8
deriving DecidableEq

/-- Whether a byte lies in the range. -/
def ByteRange.contains (r : ByteRange) (b : UInt8) : Bool := r.low ≤ b && b ≤ r.high

/-- The bytes that continue a character in every position but the first after some leads. -/
def continuation : ByteRange := ⟨0x80, 0xBF⟩

/-- The ranges of the bytes that follow a lead byte, unless no character starts with that byte. -/
def tails (lead : UInt8) : Option (List ByteRange) :=
  if lead ≤ 0x7F then some []
  else if lead < 0xC2 then none
  else if lead ≤ 0xDF then some [continuation]
  else if lead = 0xE0 then some [⟨0xA0, 0xBF⟩, continuation]
  else if lead = 0xED then some [⟨0x80, 0x9F⟩, continuation]
  else if lead ≤ 0xEF then some [continuation, continuation]
  else if lead = 0xF0 then some [⟨0x90, 0xBF⟩, continuation, continuation]
  else if lead ≤ 0xF3 then some [continuation, continuation, continuation]
  else if lead = 0xF4 then some [⟨0x80, 0x8F⟩, continuation, continuation]
  else none

/-- The bits of the character number that a lead byte carries. -/
def leadBits (lead : UInt8) : Nat :=
  if lead ≤ 0x7F then lead.toNat
  else if lead ≤ 0xDF then lead.toNat - 0xC0
  else if lead ≤ 0xEF then lead.toNat - 0xE0
  else lead.toNat - 0xF0

/-- What a byte list starts with. -/
inductive Head where
  /-- A character of one byte and `extra` further ones. -/
  | char (c : Char) (extra : Nat)
  /-- The beginning of a character, all of the list. -/
  | incomplete
  /-- `length` bytes that begin no character together with what follows them. -/
  | malformed (length : Nat)
deriving DecidableEq

/-- Go on with a character of which the lead and `matched` continuation bytes are read and have given
the number `value`, while bytes in the given ranges are still to come. -/
def headFrom (value matched : Nat) : List ByteRange → List UInt8 → Head
  | [], _ => .char (Char.ofNat value) matched
  | _ :: _, [] => .incomplete
  | range :: ranges, b :: rest =>
    if range.contains b then headFrom (value * 64 + (b.toNat - 0x80)) (matched + 1) ranges rest
    else .malformed (matched + 1)

/-- What a list starts with. The empty list may become the beginning of any character. -/
def head : List UInt8 → Head
  | [] => .incomplete
  | lead :: rest =>
    match tails lead with
    | some ranges => headFrom (leadBits lead) 0 ranges rest
    | none => .malformed 1

end RawMemory.Utf8
