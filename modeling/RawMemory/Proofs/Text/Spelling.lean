import RawMemory.Proofs.Text.ByteOrder
import RawMemory.Proofs.Text.Utf16
import RawMemory.Text.Charset

/-!
# Spellings

A spelling says by which items each character is written, and that it cannot be written where there are
none. The spelling of a text is that of its characters one after the other. `Charset.spelling` is the
reference for the five charsets: coders are compared with it, and nothing in it depends on a coder.
-/

namespace RawMemory

/-- The items by which each character is written, if it can be. -/
abbrev Spelling (α : Type) := Char → Option (List α)

namespace Spelling

variable {α β : Type}

/-- The items of a text, if all of its characters can be written. -/
def ofText? (s : Spelling α) : List Char → Option (List α)
  | [] => some []
  | c :: text => do
    let items ← s c
    let rest ← s.ofText? text
    return items ++ rest

@[simp] theorem ofText?_nil (s : Spelling α) : s.ofText? [] = some [] := rfl

/-- A text is spelled by spelling its first character and the rest. -/
theorem ofText?_cons_eq_some_iff {s : Spelling α} {c : Char} {text : List Char} {items : List α} :
    s.ofText? (c :: text) = some items ↔
      ∃ first rest, s c = some first ∧ s.ofText? text = some rest ∧ items = first ++ rest := by
  simp only [ofText?, bind, Option.bind_eq_some_iff, pure, Option.some.injEq]
  constructor
  · rintro ⟨first, hc, rest, htext, rfl⟩
    exact ⟨first, rest, hc, htext, rfl⟩
  · rintro ⟨first, rest, hc, htext, rfl⟩
    exact ⟨first, hc, rest, htext, rfl⟩

/-- Two texts are spelled one after the other. -/
theorem ofText?_append_eq_some_iff {s : Spelling α} {text other : List Char} {items : List α} :
    s.ofText? (text ++ other) = some items ↔
      ∃ first rest, s.ofText? text = some first ∧ s.ofText? other = some rest ∧
        items = first ++ rest := by
  induction text generalizing items with
  | nil => simp
  | cons c text ih =>
    rw [List.cons_append, ofText?_cons_eq_some_iff]
    constructor
    · rintro ⟨first, rest, hc, hrest, rfl⟩
      obtain ⟨middle, last, htext, hother, rfl⟩ := ih.mp hrest
      exact ⟨first ++ middle, last,
        ofText?_cons_eq_some_iff.mpr ⟨first, middle, hc, htext, rfl⟩, hother,
        (List.append_assoc _ _ _).symm⟩
    · rintro ⟨front, last, hfront, hother, rfl⟩
      obtain ⟨first, middle, hc, htext, rfl⟩ := ofText?_cons_eq_some_iff.mp hfront
      exact ⟨first, middle ++ last, hc, ih.mpr ⟨middle, last, htext, hother, rfl⟩,
        List.append_assoc _ _ _⟩

/-- A spelling under which every character can be written writes every text. -/
theorem ofText?_total (spell : Char → List α) (text : List Char) :
    ofText? (fun c => some (spell c)) text = some (text.flatMap spell) := by
  induction text with
  | nil => rfl
  | cons c text ih =>
    rw [ofText?_cons_eq_some_iff]
    exact ⟨spell c, text.flatMap spell, rfl, ih, List.flatMap_cons⟩

/-- Two lists of items are spellings of one text. -/
def SameText (source : Spelling α) (target : Spelling β) (items : List α) (out : List β) : Prop :=
  ∃ text, source.ofText? text = some items ∧ target.ofText? text = some out

theorem SameText.nil (source : Spelling α) (target : Spelling β) : SameText source target [] [] :=
  ⟨[], rfl, rfl⟩

/-- Two texts are the same one after the other if each of them is. -/
theorem SameText.append {source : Spelling α} {target : Spelling β} {items items' : List α}
    {out out' : List β} (h : SameText source target items out)
    (h' : SameText source target items' out') :
    SameText source target (items ++ items') (out ++ out') := by
  obtain ⟨text, hs, ht⟩ := h
  obtain ⟨text', hs', ht'⟩ := h'
  exact ⟨text ++ text', ofText?_append_eq_some_iff.mpr ⟨items, items', hs, hs', rfl⟩,
    ofText?_append_eq_some_iff.mpr ⟨out, out', ht, ht', rfl⟩⟩

/-- A character that both spell is a text that both spell. -/
theorem SameText.of_char {source : Spelling α} {target : Spelling β} {c : Char} {items : List α}
    {out : List β} (hs : source c = some items) (ht : target c = some out) :
    SameText source target items out := by
  refine ⟨[c], ?_, ?_⟩
  · exact ofText?_cons_eq_some_iff.mpr ⟨items, [], hs, rfl, (List.append_nil items).symm⟩
  · exact ofText?_cons_eq_some_iff.mpr ⟨out, [], ht, rfl, (List.append_nil out).symm⟩

end Spelling

/-- The spelling in UTF-16 units. -/
def Utf16.spelling : Spelling UInt16 := fun c => some (Utf16.ofChar c)

/-- All texts can be spelled in UTF-16. -/
@[simp] theorem Utf16.ofText?_spelling (text : List Char) :
    Utf16.spelling.ofText? text = some (text.flatMap Utf16.ofChar) :=
  Spelling.ofText?_total Utf16.ofChar text

namespace Charset

/-- The spelling with one byte, its number, for each character up to `last`. -/
def oneByte (last : Nat) : Spelling UInt8 := fun c =>
  if c.toNat ≤ last then some [UInt8.ofNat c.toNat] else none

/-- With one byte for each character, a character and its byte have the same number. -/
theorem oneByte_eq_some_iff {last : Nat} (hlast : last ≤ 0xFF) {c : Char} {bytes : List UInt8} :
    oneByte last c = some bytes ↔
      ∃ b : UInt8, b.toNat ≤ last ∧ c = Char.ofNat b.toNat ∧ bytes = [b] := by
  rw [oneByte]
  constructor
  · intro h
    -- numbers up to `last` are those of bytes
    split at h
    · next hc =>
      have hb : (UInt8.ofNat c.toNat).toNat = c.toNat := by
        rw [UInt8.toNat_ofNat', Nat.mod_eq_of_lt (by omega)]
      exact ⟨UInt8.ofNat c.toNat, by rwa [hb], by rw [hb, Char.ofNat_toNat],
        (Option.some.inj h).symm⟩
    · cases h
  · rintro ⟨b, hb, rfl, rfl⟩
    have hc : (Char.ofNat b.toNat).toNat = b.toNat := by
      rw [Char.toNat_ofNat, if_pos (by rw [Nat.isValidChar]; omega)]
    rw [hc, if_pos hb, UInt8.ofNat_toNat]

/-- Characters that are small enough are spelled by their numbers. -/
theorem ofText?_oneByte {last : Nat} {text : List Char} (h : ∀ c ∈ text, c.toNat ≤ last) :
    (oneByte last).ofText? text = some (text.map fun c => UInt8.ofNat c.toNat) := by
  induction text with
  | nil => rfl
  | cons c text ih =>
    obtain ⟨hc, htext⟩ := List.forall_mem_cons.mp h
    exact Spelling.ofText?_cons_eq_some_iff.mpr ⟨_, _, if_pos hc, ih htext, rfl⟩

/-- The bytes of the texts that can be written with one byte for each character. -/
theorem exists_ofText?_oneByte_iff {last : Nat} (hlast : last ≤ 0xFF) {bytes : List UInt8} :
    (∃ text, (oneByte last).ofText? text = some bytes) ↔ ∀ b ∈ bytes, b.toNat ≤ last := by
  constructor
  · rintro ⟨text, h⟩
    induction text generalizing bytes with
    | nil =>
      obtain rfl : [] = bytes := by simpa using h
      simp
    | cons c text ih =>
      obtain ⟨first, rest, hc, hrest, rfl⟩ := Spelling.ofText?_cons_eq_some_iff.mp h
      obtain ⟨b, hb, -, rfl⟩ := (oneByte_eq_some_iff hlast).mp hc
      exact List.forall_mem_cons.mpr ⟨hb, ih hrest⟩
  · intro h
    induction bytes with
    | nil => exact ⟨[], rfl⟩
    | cons b bytes ih =>
      -- each byte is the number of a character
      obtain ⟨hb, hbytes⟩ := List.forall_mem_cons.mp h
      obtain ⟨text, htext⟩ := ih hbytes
      exact ⟨Char.ofNat b.toNat :: text, Spelling.ofText?_cons_eq_some_iff.mpr
        ⟨[b], bytes, (oneByte_eq_some_iff hlast).mpr ⟨b, hb, rfl, rfl⟩, htext, rfl⟩⟩

/-- The bytes by which a charset writes each character. -/
def spelling : Charset → Spelling UInt8
  | usAscii => oneByte 0x7F
  | latin1 => oneByte 0xFF
  | utf8 => fun c => some (String.utf8EncodeChar c)
  | utf16le => fun c => some ((Utf16.ofChar c).flatMap ByteOrder.littleEndian.bytes)
  | utf16be => fun c => some ((Utf16.ofChar c).flatMap ByteOrder.bigEndian.bytes)

/-- The three forms that a spelling has: the byte of the number, the bytes of UTF-8, or those of the units. -/
theorem spelling_cases {charset : Charset} {c : Char} {bytes : List UInt8}
    (h : charset.spelling c = some bytes) :
    (∃ b : UInt8, c = Char.ofNat b.toNat ∧ bytes = [b]) ∨ bytes = String.utf8EncodeChar c ∨
      ∃ order : ByteOrder, bytes = (Utf16.ofChar c).flatMap order.bytes := by
  have honeByte : ∀ last, last ≤ 0xFF → oneByte last c = some bytes →
      ∃ b : UInt8, c = Char.ofNat b.toNat ∧ bytes = [b] := by
    intro last hlast hbytes
    obtain ⟨b, -, hc, hb⟩ := (oneByte_eq_some_iff hlast).mp hbytes
    exact ⟨b, hc, hb⟩
  cases charset with
  | usAscii => exact Or.inl (honeByte _ (by decide) h)
  | latin1 => exact Or.inl (honeByte _ (by decide) h)
  | utf8 => exact Or.inr (Or.inl (Option.some.inj h).symm)
  | utf16le => exact Or.inr (Or.inr ⟨.littleEndian, (Option.some.inj h).symm⟩)
  | utf16be => exact Or.inr (Or.inr ⟨.bigEndian, (Option.some.inj h).symm⟩)

/-- A character has no more units than bytes. -/
theorem length_ofChar_le {charset : Charset} {c : Char} {bytes : List UInt8}
    (h : charset.spelling c = some bytes) : (Utf16.ofChar c).length ≤ bytes.length := by
  rcases spelling_cases h with ⟨b, rfl, rfl⟩ | rfl | ⟨order, rfl⟩
  · rw [Utf16.ofChar_ofNat_byte]
    exact le_rfl
  · -- a character of two units has four bytes
    rw [String.length_utf8EncodeChar, Utf16.ofChar]
    split
    · exact c.utf8Size_pos
    · next hlarge =>
      have hsize : c.utf8Size = 4 := by
        simp only [Char.utf8Size, UInt32.le_iff_toNat_le, Char.toNat_val, UInt32.toNat_ofNatLT]
        split_ifs <;> omega
      rw [hsize]
      simp
  · rw [order.length_flatMap_bytes]
    omega

/-- No character is written by nothing. -/
theorem spelling_ne_nil (charset : Charset) (c : Char) : charset.spelling c ≠ some [] := by
  intro h
  have hlength := length_ofChar_le h
  have hpos := Utf16.length_ofChar_pos c
  rw [List.length_nil] at hlength
  omega

/-- No charset takes more than four bytes for a character. -/
theorem length_spelling_le {charset : Charset} {c : Char} {bytes : List UInt8}
    (h : charset.spelling c = some bytes) : bytes.length ≤ 4 := by
  rcases spelling_cases h with ⟨b, -, rfl⟩ | rfl | ⟨order, rfl⟩
  · simp
  · rw [String.length_utf8EncodeChar]
    exact c.utf8Size_le_four
  · have hunits := Utf16.length_ofChar_le c
    rw [order.length_flatMap_bytes]
    omega

end Charset

end RawMemory
