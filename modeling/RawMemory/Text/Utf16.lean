/-!
# UTF-16

Text passes through this library as a list of 16-bit code units, in which a character above `U+FFFF` is
a high surrogate followed by a low one. `head` looks at the start of a unit list, which may be cut off:
it tells a character from a high surrogate whose partner is still to come and from a surrogate that can
have no partner. `decode?` accepts exactly the lists in which every surrogate is paired, and
`decodeLossy` puts `U+FFFD` for each surrogate that is not.
-/

namespace RawMemory.Utf16

/-- Whether a unit is the first half of a surrogate pair. -/
def isHigh (unit : UInt16) : Bool := 0xD800 ≤ unit && unit ≤ 0xDBFF

/-- Whether a unit is the second half of a surrogate pair. -/
def isLow (unit : UInt16) : Bool := 0xDC00 ≤ unit && unit ≤ 0xDFFF

/-- The units of a character. -/
def ofChar (c : Char) : List UInt16 :=
  if c.toNat < 0x10000 then [UInt16.ofNat c.toNat]
  else
    let offset := c.toNat - 0x10000
    [UInt16.ofNat (0xD800 + offset / 0x400), UInt16.ofNat (0xDC00 + offset % 0x400)]

/-- The units of a text. -/
def ofString (text : String) : List UInt16 := text.toList.flatMap ofChar

/-- The character of a surrogate pair. -/
def ofPair (high low : UInt16) : Char :=
  Char.ofNat (0x10000 + (high.toNat - 0xD800) * 0x400 + (low.toNat - 0xDC00))

/-- What a unit list starts with. -/
inductive Head where
  /-- A character of one unit and `extra` further ones. -/
  | char (c : Char) (extra : Nat)
  /-- A high surrogate with nothing after it, while more units may follow. -/
  | incomplete
  /-- A surrogate without a partner. -/
  | malformed
deriving DecidableEq

/-- What the list of `first` and `rest` starts with; `atEnd` says that no units follow it. -/
def head (atEnd : Bool) (first : UInt16) (rest : List UInt16) : Head :=
  if isHigh first then
    match rest with
    | low :: _ => if isLow low then .char (ofPair first low) 1 else .malformed
    | [] => if atEnd then .malformed else .incomplete
  else if isLow first then .malformed
  else .char (Char.ofNat first.toNat) 0

/-- The text of a unit list in which every surrogate is paired. -/
def decode? : List UInt16 → Option (List Char)
  | [] => some []
  | first :: rest =>
    match head true first rest with
    | .char c extra => (decode? (rest.drop extra)).map (c :: ·)
    | .incomplete | .malformed => none
termination_by units => units.length
decreasing_by simp only [List.length_drop, List.length_cons]; omega

/-- The text of a unit list, with `U+FFFD` for each surrogate that is not paired. -/
def decodeLossy : List UInt16 → List Char
  | [] => []
  | first :: rest =>
    match head true first rest with
    | .char c extra => c :: decodeLossy (rest.drop extra)
    | .incomplete | .malformed => '\uFFFD' :: decodeLossy rest
termination_by units => units.length
decreasing_by all_goals simp only [List.length_drop, List.length_cons]; omega

end RawMemory.Utf16
