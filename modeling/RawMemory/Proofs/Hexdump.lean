import Mathlib
import RawMemory.Hexdump
import RawMemory.Text.Pieces

/-!
# Reading a dump back

Nothing is lost in a dump. The lines of a dump are found by the ends of lines, since no line has one inside
(`newline_notMem_line`), and the columns of a byte by their place, so that text that looks like digits does no
harm. What the columns of all lines hold, one line after the other, are the bytes that were dumped
(`readBack_render`).

* `Hex.number?`: the number that digits make up.
* `Hexdump.readBack`: the bytes that the columns of a dump hold.
* `Hexdump.IsLine`: what one line shows, and in which columns.
* `Hexdump.render_faithful`: the lines of a dump, what they show, and the dump of a view.
-/

namespace RawMemory

/-! ## Digits -/

namespace Hex

/-- The number that a digit stands for. -/
def digit? (c : Char) : Option Nat :=
  if '0' ≤ c ∧ c ≤ '9' then some (c.toNat - '0'.toNat)
  else if 'a' ≤ c ∧ c ≤ 'f' then some (c.toNat - 'a'.toNat + 10)
  else none

/-- The number that digits make up, the highest first. -/
def number? (digits : List Char) : Option Nat :=
  digits.foldlM (fun n c => (digit? c).map (16 * n + ·)) 0

/-- Each hexadecimal digit is read back. -/
theorem digit?_digitChar {d : Nat} (hd : d < 16) : digit? (Nat.digitChar d) = some d := by
  interval_cases d <;> rfl

/-- Digits that are written in some places are read back, as far as there are places. -/
theorem number?_fixed (places n : Nat) : number? (fixed places n) = some (n % 16 ^ places) := by
  induction places generalizing n with
  | zero => simp [fixed, number?, Nat.mod_one]
  | succ places ih =>
    have hlast := digit?_digitChar (Nat.mod_lt n (by decide : 0 < 16))
    have hsplit : n % 16 ^ (places + 1) = n % 16 + 16 * (n / 16 % 16 ^ places) := by
      rw [Nat.pow_succ', Nat.mod_mul]
    rw [fixed, number?, List.foldlM_append, ← number?, ih, hsplit, Nat.add_comm]
    simp [hlast]

/-- A number is written in hexadecimal digits only. -/
theorem exists_of_mem_fixed {c : Char} {places n : Nat} (hc : c ∈ fixed places n) :
    ∃ d < 16, c = Nat.digitChar d := by
  induction places generalizing n with
  | zero => cases hc
  | succ places ih =>
    rcases List.mem_append.mp hc with hc | hc
    · exact ih hc
    · exact ⟨n % 16, Nat.mod_lt n (by decide), List.mem_singleton.mp hc⟩

/-- No digit is a blank or the end of a line. -/
theorem notMem_fixed (places n : Nat) : ' ' ∉ fixed places n ∧ '\n' ∉ fixed places n := by
  constructor
  all_goals
    intro hmem
    obtain ⟨d, hd, hc⟩ := exists_of_mem_fixed hmem
    have hdigit := digit?_digitChar hd
    rw [← hc] at hdigit
    cases hdigit

end Hex

namespace Hexdump

/-! ## Reading -/

/-- The byte in the three columns of a byte: two digits and a blank, or blanks where there is none. -/
def readColumn : List Char → Option (List UInt8)
  | [high, low, ' '] =>
    if high = ' ' ∧ low = ' ' then some []
    else (Hex.number? [high, low]).map fun n => [UInt8.ofNat n]
  | _ => none

/-- The bytes in the columns of some bytes, three for each. -/
def readColumns : (count : Nat) → List Char → Option (List UInt8)
  | 0, _ => some []
  | count + 1, columns => do
    let bytes ← readColumn (columns.take 3)
    let rest ← readColumns count (columns.drop 3)
    return bytes ++ rest

/-- The lines of a dump, each of which has an end. -/
def linesOf (dump : List Char) : List (List Char) := (Text.piecesOf '\n' dump).dropLast

/-- The bytes that a dump in rows of some width shows. They stand behind the label of each line. -/
def readBack (width : Nat) (dump : List Char) : Option (List UInt8) :=
  ((linesOf dump).mapM fun line => readColumns width (line.drop 18)).map List.flatten

/-! ## Columns -/

/-- A column is as wide where there is no byte. -/
theorem length_column (bytes : List UInt8) (i : Nat) : (column bytes i).length = 3 := by
  rw [column]
  split <;> simp

/-- The columns of the first byte come first. -/
theorem flatMap_column_succ (bytes : List UInt8) (count : Nat) :
    (List.range (count + 1)).flatMap (column bytes) =
      column bytes 0 ++ (List.range count).flatMap (column bytes.tail) := by
  rw [List.range_succ_eq_map, List.flatMap_cons, List.flatMap_map]
  congr 1
  apply List.flatMap_congr
  intro i _
  rw [column, column, List.getElem?_tail]

/-- All rows are of the same width. -/
theorem length_flatMap_column (bytes : List UInt8) (count : Nat) :
    ((List.range count).flatMap (column bytes)).length = 3 * count := by
  induction count generalizing bytes with
  | zero => rfl
  | succ count ih =>
    rw [flatMap_column_succ, List.length_append, length_column, ih]
    omega

/-- A byte is read back from its column, and none from an empty one. -/
theorem readColumn_column (bytes : List UInt8) : readColumn (column bytes 0) = some (bytes.take 1) := by
  cases bytes with
  | nil => rfl
  | cons b bytes =>
    -- two digits are enough for a byte
    have hdigits := Hex.number?_fixed 2 b.toNat
    rw [show 16 ^ 2 = 2 ^ 8 from rfl, Nat.mod_eq_of_lt b.toNat_lt] at hdigits
    obtain ⟨hblank, -⟩ := Hex.notMem_fixed 2 b.toNat
    -- the first of them is no blank, so the columns are not taken for empty ones
    obtain ⟨high, low, hpair⟩ : ∃ high low, Hex.fixed 2 b.toNat = [high, low] := ⟨_, _, rfl⟩
    rw [hpair] at hdigits hblank
    have hhigh : ¬ (high = ' ' ∧ low = ' ') := by
      rintro ⟨rfl, -⟩
      exact hblank List.mem_cons_self
    change readColumn (Hex.fixed 2 b.toNat ++ [' ']) = some [b]
    rw [hpair]
    change (if high = ' ' ∧ low = ' ' then _ else _) = _
    rw [if_neg hhigh, hdigits, Option.map_some, UInt8.ofNat_toNat]

/-- The bytes are read back from their columns, whatever comes behind. -/
theorem readColumns_flatMap_column (bytes : List UInt8) (count : Nat) (rest : List Char) :
    readColumns count ((List.range count).flatMap (column bytes) ++ rest) =
      some (bytes.take count) := by
  induction count generalizing bytes with
  | zero => simp [readColumns]
  | succ count ih =>
    have hlength := length_column bytes 0
    rw [readColumns, flatMap_column_succ, List.append_assoc, List.take_left' hlength,
      List.drop_left' hlength, readColumn_column, ih]
    cases bytes <;> simp

/-! ## Lines -/

/-- One row without the end of its line. -/
def line (address : Address) (width : Nat) (bytes : List UInt8) : List Char :=
  Hex.fixed 16 address.val.toNat ++ [':', ' '] ++ (List.range width).flatMap (column bytes) ++
    ' ' :: bytes.map glyph

/-- A row ends its line. -/
theorem row_eq (address : Address) (width : Nat) (bytes : List UInt8) :
    row address width bytes = line address width bytes ++ ['\n'] := rfl

/-- The bytes of one row. -/
def chunk (width : Nat) (bytes : List UInt8) (r : Nat) : List UInt8 :=
  (bytes.drop (r * width)).take width

/-- How many rows there are. -/
def rowCount (width : Nat) (bytes : List UInt8) : Nat := (bytes.length + width - 1) / width

/-- The lines of a dump. -/
def lines (base : Address) (width : Nat) (bytes : List UInt8) : List (List Char) :=
  (List.range (rowCount width bytes)).map fun r =>
    line (base.saturatingAdd (UInt64.ofNat (r * width))) width (chunk width bytes r)

/-- What is shown in the text of a line is printable. -/
theorem glyph_eq (b : UInt8) :
    glyph b = if 0x20 ≤ b.toNat ∧ b.toNat ≤ 0x7E then Char.ofNat b.toNat else '.' := by
  rw [glyph]
  simp [UInt8.le_iff_toNat_le]

/-- No byte is shown by a line break. -/
theorem glyph_ne_newline (b : UInt8) : glyph b ≠ '\n' := by
  rw [glyph_eq]
  split
  · next hprintable =>
    intro heq
    have hnumber := congrArg Char.toNat heq
    rw [Char.toNat_ofNat, if_pos (by rw [Nat.isValidChar]; omega)] at hnumber
    have : b.toNat = 10 := hnumber
    omega
  · decide

/-- There is no line break among the digits. -/
theorem newline_notMem_column (bytes : List UInt8) (i : Nat) : '\n' ∉ column bytes i := by
  rw [column]
  split
  · intro hmem
    rcases List.mem_append.mp hmem with hdigit | hblank
    · exact (Hex.notMem_fixed _ _).2 hdigit
    · exact absurd (List.mem_singleton.mp hblank) (by decide)
  · decide

/-- A line ends only where the row does. -/
theorem newline_notMem_line (address : Address) (width : Nat) (bytes : List UInt8) :
    '\n' ∉ line address width bytes := by
  simp only [line, List.mem_append, List.mem_cons, List.mem_flatMap, List.mem_map, not_or]
  refine ⟨⟨⟨(Hex.notMem_fixed _ _).2, by decide⟩, ?_⟩, by decide, ?_⟩
  · rintro ⟨i, -, hmem⟩
    exact newline_notMem_column bytes i hmem
  · rintro ⟨b, -, hglyph⟩
    exact glyph_ne_newline b hglyph

theorem rowCount_nil {width : Nat} (hwidth : 0 < width) : rowCount width [] = 0 :=
  Nat.div_eq_of_lt (by simp only [List.length_nil]; omega)

/-- Every row has a byte. -/
theorem mul_lt_length {width r : Nat} {bytes : List UInt8} (hr : r < rowCount width bytes) :
    r * width < bytes.length := by
  -- up to the end of this row there are at most `width - 1` more places than bytes
  have hle := Nat.mul_le_of_le_div width (r + 1) _ hr
  rw [Nat.succ_mul] at hle
  have hpos : 0 < width := by
    rcases Nat.eq_zero_or_pos width with rfl | hpos
    · rw [rowCount, Nat.div_zero] at hr
      exact absurd hr (Nat.not_lt_zero r)
    · exact hpos
  omega

/-- One row is that of the first bytes, and the others are those of the bytes behind them. -/
theorem rowCount_cons {width : Nat} (hwidth : 0 < width) (first : UInt8) (rest : List UInt8) :
    rowCount width (first :: rest) = rowCount width (rest.drop (width - 1)) + 1 := by
  rw [rowCount, rowCount, List.length_cons, List.length_drop,
    show rest.length + 1 + width - 1 = rest.length + width by omega, Nat.add_div_right _ hwidth]
  congr 1
  rcases Nat.le_total (width - 1) rest.length with hle | hle
  · rw [show rest.length - (width - 1) + width - 1 = rest.length by omega]
  · -- there is no second row
    rw [Nat.div_eq_of_lt (by omega), Nat.div_eq_of_lt (by omega)]

theorem chunk_zero (width : Nat) (bytes : List UInt8) : chunk width bytes 0 = bytes.take width := by
  rw [chunk, Nat.zero_mul, List.drop_zero]

/-- The bytes of a later row are found behind those of the first. -/
theorem chunk_succ {width : Nat} (hwidth : 0 < width) (first : UInt8) (rest : List UInt8) (r : Nat) :
    chunk width (first :: rest) (r + 1) = chunk width (rest.drop (width - 1)) r := by
  rw [chunk, chunk, List.drop_drop, Nat.succ_mul,
    show r * width + width = width - 1 + r * width + 1 by omega, List.drop_succ_cons]

/-- The rows of a dump are its lines, each with an end. -/
theorem rowsFrom_eq (base : Address) {width : Nat} (hwidth : 0 < width) (index : Nat)
    (bytes : List UInt8) :
    rowsFrom base width index bytes =
      (List.range (rowCount width bytes)).map fun r =>
        line (base.saturatingAdd (UInt64.ofNat ((index + r) * width))) width (chunk width bytes r) ++
          ['\n'] := by
  fun_induction rowsFrom base width index bytes with
  | case1 index =>
    rw [rowCount_nil hwidth, List.range_zero, List.map_nil]
  | case2 index first rest ih =>
    rw [ih, row_eq, rowCount_cons hwidth, List.range_succ_eq_map, List.map_cons, List.map_map,
      Nat.add_zero index, chunk_zero, List.cons_inj_right]
    apply List.map_congr_left
    intro r _
    rw [Function.comp_apply, chunk_succ hwidth, Nat.succ_eq_add_one,
      show index + 1 + r = index + (r + 1) by omega]

/-- Each row has a byte at least. -/
theorem rowWidth_pos (width : UInt64) : 0 < rowWidth width := by
  rw [rowWidth]
  omega

/-- A dump is its lines, each with a line break behind it. -/
theorem render_eq (base : Address) (bytes : List UInt8) (width : UInt64) :
    (render base bytes width).toList =
      (lines base (rowWidth width) bytes).flatMap (· ++ ['\n']) := by
  rw [render, String.toList_ofList, rowsFrom_eq base (rowWidth_pos width), lines, List.flatMap_map]
  simp only [Nat.zero_add, List.flatMap_def]

/-- Lines without line breaks are read back. -/
theorem linesOf_flatMap {lines : List (List Char)} (h : ∀ line ∈ lines, '\n' ∉ line) :
    linesOf (lines.flatMap (· ++ ['\n'])) = lines := by
  induction lines with
  | nil => rfl
  | cons line lines ih =>
    obtain ⟨hline, hlines⟩ := List.forall_mem_cons.mp h
    rw [List.flatMap_cons, List.append_assoc, List.singleton_append, linesOf,
      Text.piecesOf_append_cons hline, List.dropLast_cons_of_ne_nil (Text.piecesOf_ne_nil _ _),
      ← linesOf, ih hlines]

/-- The rows take all bytes, one row after the other. -/
theorem flatten_chunk {width : Nat} (hwidth : 0 < width) (bytes : List UInt8) :
    ((List.range (rowCount width bytes)).map (chunk width bytes)).flatten = bytes := by
  -- so many rows take so many bytes
  have htaken : ∀ n, ((List.range n).map (chunk width bytes)).flatten = bytes.take (n * width) := by
    intro n
    induction n with
    | zero => simp
    | succ n ih =>
      rw [List.range_succ, List.map_append, List.flatten_append, ih, Nat.succ_mul, List.take_add]
      simp [chunk]
  rw [htaken, List.take_of_length_le]
  have hdiv := Nat.div_add_mod (bytes.length + width - 1) width
  have hmod := Nat.mod_lt (bytes.length + width - 1) hwidth
  rw [rowCount, Nat.mul_comm]
  omega

/-! ## What a dump shows -/

/-- A line of a dump in rows of `width` bytes shows a number and the bytes of its row. -/
structure IsLine (width : Nat) (row : List Char) (label : Nat) (bytes : List UInt8) : Prop where
  /-- The number stands in sixteen digits at the front. -/
  label : Hex.number? (row.take 16) = some label
  /-- A colon and a blank follow it. -/
  colon : (row.drop 16).take 2 = [':', ' ']
  /-- The bytes stand behind it, in three columns each. -/
  columns : readColumns width (row.drop 18) = some bytes
  /-- A blank follows the columns of a whole row, even where the row is short. -/
  blank : row[18 + 3 * width]? = some ' '
  /-- The text stands behind the blank, and a dot in it for each byte that is not printable. -/
  text : row.drop (19 + 3 * width) =
    bytes.map fun b => if 0x20 ≤ b.toNat ∧ b.toNat ≤ 0x7E then Char.ofNat b.toNat else '.'

/-- What is written for a row is a line as it should be. -/
theorem isLine_line (address : Address) {width : Nat} {bytes : List UInt8}
    (hbytes : bytes.length ≤ width) :
    IsLine width (line address width bytes) address.val.toNat bytes := by
  -- the parts of the line, with their lengths
  set digits := Hex.fixed 16 address.val.toNat with hdigits
  set columns := (List.range width).flatMap (column bytes) with hcolumns
  have hlength : digits.length = 16 := Hex.length_fixed 16 _
  have hlength' : columns.length = 3 * width := length_flatMap_column bytes width
  have hline : line address width bytes =
      digits ++ ([':', ' '] ++ (columns ++ ' ' :: bytes.map glyph)) := by
    rw [line, ← hdigits, ← hcolumns, List.append_assoc, List.append_assoc]
  have hbehind : (line address width bytes).drop 18 = columns ++ ' ' :: bytes.map glyph := by
    rw [hline, show 18 = 16 + 2 from rfl, ← List.drop_drop, List.drop_left' hlength]
    rfl
  constructor
  · rw [hline, List.take_left' hlength, hdigits, Hex.number?_fixed,
      show 16 ^ 16 = 2 ^ 64 from rfl, Nat.mod_eq_of_lt address.val.toNat_lt]
  · rw [hline, List.drop_left' hlength]
    rfl
  · rw [hbehind, hcolumns, readColumns_flatMap_column, List.take_of_length_le hbytes]
  · rw [← List.getElem?_drop, hbehind, ← hlength', List.getElem?_append_right le_rfl, Nat.sub_self]
    rfl
  · rw [show 19 + 3 * width = 18 + (3 * width + 1) by omega, ← List.drop_drop, hbehind,
      ← List.drop_drop, List.drop_left' hlength']
    exact List.map_congr_left fun b _ => glyph_eq b

/-- There is no line break in a line of a dump. -/
theorem newline_notMem_of_mem_lines {base : Address} {width : Nat} {bytes : List UInt8} {l : List Char}
    (hl : l ∈ lines base width bytes) : '\n' ∉ l := by
  obtain ⟨r, -, rfl⟩ := List.mem_map.mp hl
  exact newline_notMem_line _ _ _

/-- The lines of a dump are read back from it. -/
theorem linesOf_render (base : Address) (bytes : List UInt8) (width : UInt64) :
    linesOf (render base bytes width).toList = lines base (rowWidth width) bytes := by
  rw [render_eq, linesOf_flatMap fun _ => newline_notMem_of_mem_lines]

/-- The bytes are read back from a dump of them. -/
theorem readBack_render (base : Address) (bytes : List UInt8) (width : UInt64) :
    readBack (rowWidth width) (render base bytes width).toList = some bytes := by
  -- each line gives the bytes of its row
  have hrows : (lines base (rowWidth width) bytes).mapM
      (fun line => readColumns (rowWidth width) (line.drop 18)) =
        some ((List.range (rowCount (rowWidth width) bytes)).map (chunk (rowWidth width) bytes)) := by
    rw [lines, List.mapM_map, ← Option.pure_def, ← List.mapM_pure]
    congr 1
    ext1 r
    exact (isLine_line _ (List.length_take_le _ _)).columns
  rw [readBack, linesOf_render, hrows, Option.map_some, flatten_chunk (rowWidth_pos width)]

/-- A row whose first byte would lie beyond the last address is labelled with the last address. -/
theorem toNat_label (base : Address) {n : Nat} (hn : n < 2 ^ 64) :
    (base.saturatingAdd (UInt64.ofNat n)).val.toNat = min (base.val.toNat + n) (2 ^ 64 - 1) := by
  rw [Address.saturatingAdd, Word.toNat_addSat, UInt64.toNat_ofNat', Nat.mod_eq_of_lt hn]
  rfl

/-- The bytes from the cursor of a view on are those of memory there. -/
theorem remainingBytes_eq_read (v : View .byte) (m : Store) :
    v.remainingBytes m =
      m.read (v.address + v.position) (v.capacity.toNat - v.position.toNat) := by
  apply List.ext_getElem
  · simp [View.remainingBytes, View.bytes]
  · intro i hi hi'
    simp only [View.remainingBytes, View.bytes, List.getElem_drop, Store.getElem_read]
    congr 1
    apply Address.ext
    rw [Address.val_add, Address.val_add, Address.val_add, UInt64.ofNat_add, UInt64.ofNat_toNat,
      UInt64.add_assoc]

/-- A dump of some bytes, of which there are no more than addresses. It has a line for each row and nothing
else, and each line shows the address of the first byte of its row, or the last address where there is none,
and the bytes of the row. Read back they are all the bytes, so that dumps of different bytes differ. The dump
of a view is that of the bytes in memory from its cursor on. -/
theorem render_faithful (base : Address) {bytes : List UInt8} (hbytes : bytes.length ≤ 2 ^ 64)
    (width : UInt64) :
    let w := max 8 (min 32 width.toNat)
    let dump := (render base bytes width).toList
    dump = (linesOf dump).flatMap (· ++ ['\n']) ∧
    (∀ line ∈ linesOf dump, '\n' ∉ line) ∧
    (linesOf dump).length = (bytes.length + w - 1) / w ∧
    (∀ r line, (linesOf dump)[r]? = some line →
      IsLine w line (min (base.val.toNat + r * w) (2 ^ 64 - 1)) ((bytes.drop (r * w)).take w)) ∧
    readBack w dump = some bytes ∧
    (∀ base' bytes', render base' bytes' width = render base bytes width → bytes' = bytes) ∧
    ∀ (v : View .byte) (m : Store), ofView v m width =
      render (v.address + v.position)
        (m.read (v.address + v.position) (v.capacity.toNat - v.position.toNat)) width := by
  intro w dump
  have hlines : linesOf dump = lines base w bytes := linesOf_render base bytes width
  refine ⟨?_, ?_, ?_, ?_, readBack_render base bytes width, ?_, ?_⟩
  · rw [hlines]
    exact render_eq base bytes width
  · rw [hlines]
    exact fun _ => newline_notMem_of_mem_lines
  · rw [hlines, lines, List.length_map, List.length_range]
    rfl
  · intro r line hline
    rw [hlines, lines, List.getElem?_map, Option.map_eq_some_iff] at hline
    obtain ⟨row, hrow, rfl⟩ := hline
    obtain ⟨hr, hget⟩ := List.getElem?_eq_some_iff.mp hrow
    rw [List.length_range] at hr
    rw [List.getElem_range] at hget
    subst hget
    -- the row begins with one of the bytes
    have hlt : r * w < 2 ^ 64 := (mul_lt_length hr).trans_le hbytes
    rw [← toNat_label base hlt]
    exact isLine_line _ (List.length_take_le _ _)
  · intro base' bytes' hsame
    have hback := readBack_render base' bytes' width
    rw [hsame, readBack_render] at hback
    exact (Option.some.inj hback).symm
  · intro v m
    rw [ofView, remainingBytes_eq_read]

/-- Two rows at the top of memory. The second one would begin beyond the last address, and is short. -/
theorem render_faithful_top :
    let bytes : List UInt8 := [0x30, 0x31, 0x20, 0x3A, 0x0A, 0x41, 0x7F, 0xFF, 0x20, 0x7E, 0x1F, 0x80]
    let dump := (render ⟨0xFFFFFFFFFFFFFFFC⟩ bytes 1).toList
    bytes.length ≤ 2 ^ 64 ∧ (linesOf dump).length = 2 ∧ readBack 8 dump = some bytes ∧
      ∀ line, (linesOf dump)[1]? = some line →
        IsLine 8 line (2 ^ 64 - 1) [0x20, 0x7E, 0x1F, 0x80] := by
  intro bytes dump
  have hlength : bytes.length = 12 := rfl
  have hwidth : max 8 (min 32 (1 : UInt64).toNat) = 8 := by decide
  have hbytes : bytes.length ≤ 2 ^ 64 := by omega
  have hdump := render_faithful ⟨0xFFFFFFFFFFFFFFFC⟩ hbytes 1
  rw [hwidth, hlength] at hdump
  obtain ⟨-, -, hcount, hrow, hback, -⟩ := hdump
  exact ⟨hbytes, hcount, hback, hrow 1⟩

end Hexdump

end RawMemory
