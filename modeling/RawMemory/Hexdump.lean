import RawMemory.View

/-!
# Hexadecimal dumps

A dump shows bytes in rows of equal width. Each row gives the address of its first byte, the bytes in
hexadecimal, and the bytes as text, where a dot stands for whatever is not printable ASCII. A short last
row is padded so that the text starts in the same column everywhere.
-/

namespace RawMemory.Hexdump

/-- The width of rows, which lies between 8 and 32 bytes whatever is asked for. -/
def rowWidth (width : UInt64) : Nat := max 8 (min 32 width.toNat)

/-- A byte as text. -/
def glyph (b : UInt8) : Char := if 0x20 ≤ b && b ≤ 0x7E then Char.ofNat b.toNat else '.'

/-- Three columns for a byte of a row, blank where the row has none. -/
def column (bytes : List UInt8) (i : Nat) : List Char :=
  match bytes[i]? with
  | some b => Hex.ofByte b ++ [' ']
  | none => [' ', ' ', ' ']

/-- One row, with the end of the line. -/
def row (address : Address) (width : Nat) (bytes : List UInt8) : List Char :=
  Hex.fixed 16 address.val.toNat ++ [':', ' '] ++ (List.range width).flatMap (column bytes) ++
    ' ' :: bytes.map glyph ++ ['\n']

/-- The rows of a dump from row number `index` on. A row beyond the last address is labelled with the
last address. -/
def rowsFrom (base : Address) (width index : Nat) : List UInt8 → List (List Char)
  | [] => []
  | first :: rest =>
    row (base.saturatingAdd (UInt64.ofNat (index * width))) width ((first :: rest).take width) ::
      rowsFrom base width (index + 1) (rest.drop (width - 1))
termination_by bytes => bytes.length
decreasing_by simp only [List.length_drop, List.length_cons]; omega

/-- The dump of some bytes that are said to lie at `base`. -/
def render (base : Address) (bytes : List UInt8) (width : UInt64) : String :=
  String.ofList (rowsFrom base (rowWidth width) 0 bytes).flatten

/-- The dump of the bytes at and after the cursor of a view. -/
def ofView (v : View .byte) (m : Store) (width : UInt64) : String :=
  render (v.address + v.position) (v.remainingBytes m) width

end RawMemory.Hexdump
