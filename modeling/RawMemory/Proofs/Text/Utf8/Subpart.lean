import Mathlib
import RawMemory.Proofs.Text.Utf8

/-!
# Ill-formed parts of UTF-8

Where no character begins, the longest bytes that still begin one are a maximal subpart, or the first byte
is if it begins none (`MaximalSubpart`). The standard way of decoding bytes that are not well formed puts
one `U+FFFD` for each maximal subpart. `Lossy` says this without a decoder, and relates a byte list to one
text at most (`Lossy.unique`).

The length that `head` gives to malformed bytes is that of the maximal subpart in front
(`maximalSubpart_of_head_eq_malformed`). A character that is cut off at the end is one as a whole
(`maximalSubpart_of_head_eq_incomplete`).
-/

namespace RawMemory.Utf8

/-- The bytes of `part`, followed by `rest`, are what one replacement character stands for. -/
structure MaximalSubpart (part rest : List UInt8) : Prop where
  /-- No character begins here. -/
  unconvertible (c : Char) : ¬ String.utf8EncodeChar c <+: part ++ rest
  ne_nil : part ≠ []
  /-- The part is a single byte or begins some character. -/
  begins : part.length = 1 ∨ ∃ c, part <+: String.utf8EncodeChar c
  /-- Nothing longer does. -/
  longest {longer : List UInt8} {c : Char} (h : longer <+: part ++ rest)
    (hc : longer <+: String.utf8EncodeChar c) : longer.length ≤ part.length

/-- The text that the standard makes of bytes, well formed or not. -/
inductive Lossy : List UInt8 → List Char → Prop
  | nil : Lossy [] []
  /-- A character is kept. -/
  | char (c : Char) {rest : List UInt8} {text : List Char} (h : Lossy rest text) :
      Lossy (String.utf8EncodeChar c ++ rest) (c :: text)
  /-- Where there is none, a maximal subpart is replaced. -/
  | subpart {part rest : List UInt8} {text : List Char} (hpart : MaximalSubpart part rest)
      (h : Lossy rest text) : Lossy (part ++ rest) ('\uFFFD' :: text)

/-! ## One text at most -/

/-- With the bytes of a character in front, that character is found. -/
theorem head_of_prefix {c : Char} {bytes : List UInt8} (h : String.utf8EncodeChar c <+: bytes) :
    ∃ extra, head bytes = .char c extra := by
  obtain ⟨tail, rfl⟩ := h
  cases hc : String.utf8EncodeChar c with
  | nil => exact absurd hc String.utf8EncodeChar_ne_nil
  | cons first extra => exact ⟨_, head_eq_char_iff.mpr ⟨extra, tail, hc, rfl, rfl⟩⟩

/-- A list starts with one character at most. -/
theorem eq_of_prefix {c d : Char} {bytes : List UInt8} (h : String.utf8EncodeChar c <+: bytes)
    (h' : String.utf8EncodeChar d <+: bytes) : d = c := by
  obtain ⟨extra, hhead⟩ := head_of_prefix h
  obtain ⟨extra', hhead'⟩ := head_of_prefix h'
  rw [hhead'] at hhead
  exact (Head.char.inj hhead).1

/-- Of two maximal subparts of the same bytes neither is longer. -/
theorem MaximalSubpart.length_le {part rest part' rest' : List UInt8}
    (h : MaximalSubpart part rest) (h' : MaximalSubpart part' rest')
    (heq : part ++ rest = part' ++ rest') : part'.length ≤ part.length := by
  rcases h'.begins with hone | ⟨c, hc⟩
  · rw [hone]
    exact List.length_pos_iff.mpr h.ne_nil
  · refine h.longest ?_ hc
    rw [heq]
    exact List.prefix_append part' rest'

theorem MaximalSubpart.unique {part rest part' rest' : List UInt8}
    (h : MaximalSubpart part rest) (h' : MaximalSubpart part' rest')
    (heq : part ++ rest = part' ++ rest') : part = part' ∧ rest = rest' :=
  List.append_inj heq (le_antisymm (h'.length_le h heq.symm) (h.length_le h' heq))

/-- What is put for bytes is determined by them. -/
theorem Lossy.unique {bytes : List UInt8} {text other : List Char} (h : Lossy bytes text)
    (h' : Lossy bytes other) : other = text := by
  -- what is put in front is determined, and the bytes behind it are fewer
  induction h generalizing other with
  | nil =>
    generalize hbytes : ([] : List UInt8) = bytes at h'
    cases h' with
    | nil => rfl
    | char d _ => exact absurd (List.append_eq_nil_iff.mp hbytes.symm).1 String.utf8EncodeChar_ne_nil
    | subpart hpart _ => exact absurd (List.append_eq_nil_iff.mp hbytes.symm).1 hpart.ne_nil
  | @char c rest text h ih =>
    generalize hbytes : String.utf8EncodeChar c ++ rest = bytes at h'
    cases h' with
    | nil => exact absurd (List.append_eq_nil_iff.mp hbytes).1 String.utf8EncodeChar_ne_nil
    | @char d rest' text' h' =>
      obtain rfl : d = c := by
        refine eq_of_prefix (List.prefix_append (String.utf8EncodeChar c) rest) ?_
        rw [hbytes]
        exact List.prefix_append _ _
      obtain rfl := List.append_cancel_left hbytes
      rw [ih h']
    | subpart hpart h' =>
      -- a character begins here
      refine absurd ?_ (hpart.unconvertible c)
      rw [← hbytes]
      exact List.prefix_append _ _
  | @subpart part rest text hpart h ih =>
    generalize hbytes : part ++ rest = bytes at h'
    cases h' with
    | nil => exact absurd (List.append_eq_nil_iff.mp hbytes).1 hpart.ne_nil
    | char d h' =>
      -- no character begins at a subpart
      refine absurd ?_ (hpart.unconvertible d)
      rw [hbytes]
      exact List.prefix_append _ _
    | subpart hpart' h' =>
      obtain ⟨rfl, rfl⟩ := hpart.unique hpart' hbytes
      rw [ih h']

/-! ## The lengths that the decoder gives -/

/-- The bytes that are malformed begin a character, and one more byte is what shows that they do not go on
with it. -/
theorem headFrom_eq_malformed {value matched n : Nat} {ranges : List ByteRange}
    {input : List UInt8} (h : headFrom value matched ranges input = .malformed n) :
    ∃ taken wrong rest, input = taken ++ wrong :: rest ∧ n = matched + taken.length + 1 ∧
      headFrom value matched ranges taken = .incomplete ∧
      ∀ other, headFrom value matched ranges (taken ++ wrong :: other) = .malformed n := by
  induction ranges generalizing value matched input with
  | nil =>
    rw [headFrom] at h
    cases h
  | cons range ranges ih =>
    rcases input with _ | ⟨b, rest⟩
    · cases h
    · -- the first byte outside its range is the wrong one
      rw [headFrom] at h
      by_cases hb : range.contains b = true
      · rw [if_pos hb] at h
        obtain ⟨taken, wrong, rest, rfl, rfl, hopen, hwrong⟩ := ih h
        refine ⟨b :: taken, wrong, rest, rfl, by rw [List.length_cons]; omega, ?_, fun other => ?_⟩
        · rw [headFrom, if_pos hb, hopen]
        · rw [List.cons_append, headFrom, if_pos hb, hwrong]
      · rw [if_neg hb] at h
        obtain rfl := Head.malformed.inj h
        refine ⟨[], b, rest, rfl, rfl, rfl, fun other => ?_⟩
        rw [List.nil_append, headFrom, if_neg hb]

/-- Bytes in front that are malformed are one byte or left open by themselves, and with more of what
follows they are malformed however the list goes on. -/
theorem head_eq_malformed {first : UInt8} {rest : List UInt8} {n : Nat}
    (h : head (first :: rest) = .malformed n) :
    ∃ taken tail, rest = taken ++ tail ∧ n = taken.length + 1 ∧
      (taken = [] ∨ head (first :: taken) = .incomplete) ∧
      ∀ longer, longer <+: rest → taken.length < longer.length →
        ∀ other, head (first :: (longer ++ other)) = .malformed n := by
  rw [head] at h
  cases hranges : tails first with
  | none =>
    -- no character begins with the first byte
    rw [hranges] at h
    obtain rfl := Head.malformed.inj h
    refine ⟨[], rest, rfl, rfl, Or.inl rfl, fun longer _ _ other => ?_⟩
    rw [head, hranges]
  | some ranges =>
    rw [hranges] at h
    obtain ⟨taken, wrong, tail, rfl, rfl, hopen, hwrong⟩ := headFrom_eq_malformed h
    refine ⟨taken, wrong :: tail, rfl, by omega, Or.inr ?_, ?_⟩
    · rw [head, hranges]
      exact hopen
    · -- what is longer has the wrong byte
      rintro longer ⟨missing, hlonger⟩ hlength other
      obtain ⟨more, rfl, hmore⟩ : ∃ more, longer = taken ++ more ∧ wrong :: tail = more ++ missing := by
        rcases List.append_eq_append_iff.mp hlonger with ⟨more, rfl, -⟩ | ⟨more, rfl, hmore⟩
        · simp at hlength
        · exact ⟨more, rfl, hmore⟩
      rcases more with _ | ⟨b, more⟩
      · simp at hlength
      · obtain ⟨rfl, -⟩ := List.cons.inj hmore
        rw [head, hranges, List.append_assoc]
        exact hwrong (more ++ other)

/-- The bytes that are malformed are the maximal subpart in front. -/
theorem maximalSubpart_of_head_eq_malformed {first : UInt8} {rest : List UInt8} {n : Nat}
    (h : head (first :: rest) = .malformed n) :
    ∃ part tail, first :: rest = part ++ tail ∧ n = part.length ∧ MaximalSubpart part tail := by
  obtain ⟨taken, tail, rfl, rfl, hopen, hlonger⟩ := head_eq_malformed h
  refine ⟨first :: taken, tail, rfl, rfl, ?_, List.cons_ne_nil _ _, ?_, ?_⟩
  · intro c hc
    obtain ⟨extra, hhead⟩ := head_of_prefix hc
    rw [List.cons_append, h] at hhead
    cases hhead
  · rcases hopen with rfl | hopen
    · exact Or.inl rfl
    · obtain ⟨c, missing, -, hc⟩ := exists_char_of_head_eq_incomplete hopen
      exact Or.inr ⟨c, missing, hc.symm⟩
  · rintro longer c hprefix ⟨missing, hmissing⟩
    by_contra hlength
    rcases longer with _ | ⟨b, longer⟩
    · simp at hlength
    · -- the character would be malformed as well
      obtain ⟨rfl, hbehind⟩ := List.cons_prefix_cons.mp hprefix
      have hmalformed := hlonger longer hbehind (by simpa using hlength) missing
      obtain ⟨extra, hhead⟩ := head_of_prefix (List.prefix_refl (String.utf8EncodeChar c))
      rw [← hmissing, List.cons_append, hmalformed] at hhead
      cases hhead

/-- A character of which bytes are missing at the end is a maximal subpart. -/
theorem maximalSubpart_of_head_eq_incomplete {first : UInt8} {rest : List UInt8}
    (h : head (first :: rest) = .incomplete) : MaximalSubpart (first :: rest) [] where
  unconvertible c hc := by
    rw [List.append_nil] at hc
    obtain ⟨extra, hhead⟩ := head_of_prefix hc
    rw [h] at hhead
    cases hhead
  ne_nil := List.cons_ne_nil _ _
  begins := by
    obtain ⟨c, missing, -, hc⟩ := exists_char_of_head_eq_incomplete h
    exact Or.inr ⟨c, missing, hc.symm⟩
  longest hprefix _ := by
    rw [List.append_nil] at hprefix
    exact hprefix.length_le

end RawMemory.Utf8
