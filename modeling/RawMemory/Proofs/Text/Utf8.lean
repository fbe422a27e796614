import Mathlib
import RawMemory.Text.Utf8

/-!
# Characters of UTF-8

Which bytes represent which number is said twice. `Represents` asks for a lead byte and continuation
bytes, and for a number that needs so many bytes, is no surrogate and is not above `U+10FFFF`. The decoder
knows the ranges of the bytes behind each lead instead (`tails`). The two agree
(`Represents.exists_tails`, `represents_of_tails`), and what `Represents` allows is what encoding a
character gives (`represents_iff`).

So a byte list starts with at most one character, and `head` finds it (`head_eq_char_iff`). A list that
`head` leaves open begins a character (`exists_char_of_head_eq_incomplete`), and all else that it says of
a list holds of the longer ones (`head_append`).
-/

namespace RawMemory.Utf8

/-- A range of bytes has both of its ends. -/
theorem ByteRange.contains_iff {r : ByteRange} {b : UInt8} :
    r.contains b = true ↔ r.low.toNat ≤ b.toNat ∧ b.toNat ≤ r.high.toNat := by
  simp [ByteRange.contains, UInt8.le_iff_toNat_le]

/-- The bytes that go on with a character: two fixed bits and six of the number. -/
def IsContinuation (b : UInt8) : Prop := 0x80 ≤ b.toNat ∧ b.toNat < 0xC0

/-- The number that comes of a number when six bits of each of the given bytes are put behind it. -/
def number (value : Nat) (bytes : List UInt8) : Nat :=
  bytes.foldl (fun n b => n * 64 + (b.toNat - 0x80)) value

@[simp] theorem number_nil (value : Nat) : number value [] = value := rfl

/-- Each byte that follows adds six bits. -/
@[simp] theorem number_cons (value : Nat) (b : UInt8) (bytes : List UInt8) :
    number value (b :: bytes) = number (value * 64 + (b.toNat - 0x80)) bytes := by
  rw [number, List.foldl_cons, number]

/-- The bytes of a character number. There is one form for each length, and a form is only for the numbers
that no shorter one can hold. -/
inductive Represents (n : Nat) : List UInt8 → Prop
  /-- Seven bits. -/
  | one {a : UInt8} (ha : a.toNat < 0x80) (hn : n = a.toNat) : Represents n [a]
  /-- Eleven bits. -/
  | two {a b : UInt8} (ha : 0xC0 ≤ a.toNat ∧ a.toNat < 0xE0) (hb : IsContinuation b)
      (hn : n = number (a.toNat - 0xC0) [b]) (hlong : 0x80 ≤ n) : Represents n [a, b]
  /-- Sixteen bits, without the surrogates. -/
  | three {a b c : UInt8} (ha : 0xE0 ≤ a.toNat ∧ a.toNat < 0xF0) (hb : IsContinuation b)
      (hc : IsContinuation c) (hn : n = number (a.toNat - 0xE0) [b, c]) (hlong : 0x800 ≤ n)
      (hsurrogate : ¬ (0xD800 ≤ n ∧ n ≤ 0xDFFF)) : Represents n [a, b, c]
  /-- Twenty-one bits, up to the last character. -/
  | four {a b c d : UInt8} (ha : 0xF0 ≤ a.toNat ∧ a.toNat < 0xF8) (hb : IsContinuation b)
      (hc : IsContinuation c) (hd : IsContinuation d)
      (hn : n = number (a.toNat - 0xF0) [b, c, d]) (hlong : 0x10000 ≤ n) (hlast : n ≤ 0x10FFFF) :
      Represents n [a, b, c, d]

/-! ## The encoding of a character -/

theorem toNat_ofNat_of_lt {k : Nat} (hk : k < 256) : (UInt8.ofNat k).toNat = k := by
  rw [UInt8.toNat_ofNat', Nat.mod_eq_of_lt hk]

/-- Six bits behind the two fixed ones make a continuation byte. -/
theorem isContinuation_ofNat (n : Nat) : IsContinuation (UInt8.ofNat (n % 64 + 128)) := by
  rw [IsContinuation, toNat_ofNat_of_lt (by omega)]
  omega

/-- Encoding a character gives bytes of its number. -/
theorem represents_utf8EncodeChar (c : Char) : Represents c.toNat (String.utf8EncodeChar c) := by
  have hvalid : c.toNat < 0xD800 ∨ 0xDFFF < c.toNat ∧ c.toNat < 0x110000 := c.valid
  rw [String.utf8EncodeChar]
  simp only [Char.toNat_val]
  generalize c.toNat = n at hvalid ⊢
  -- the lengths are told apart by the same bounds that the forms have
  split_ifs with h₁ h₂ h₃
  · have ha : (UInt8.ofNat n).toNat = n := toNat_ofNat_of_lt (by omega)
    exact .one (by omega) ha.symm
  · have ha := toNat_ofNat_of_lt (show n / 64 % 32 + 192 < 256 by omega)
    have hb := toNat_ofNat_of_lt (show n % 64 + 128 < 256 by omega)
    refine .two (by omega) (isContinuation_ofNat n) ?_ (by omega)
    rw [number_cons, number_nil, ha, hb]
    omega
  · have ha := toNat_ofNat_of_lt (show n / 4096 % 16 + 224 < 256 by omega)
    have hb := toNat_ofNat_of_lt (show n / 64 % 64 + 128 < 256 by omega)
    have hc := toNat_ofNat_of_lt (show n % 64 + 128 < 256 by omega)
    refine .three (by omega) (isContinuation_ofNat _) (isContinuation_ofNat n) ?_ (by omega)
      (by omega)
    rw [number_cons, number_cons, number_nil, ha, hb, hc]
    omega
  · have ha := toNat_ofNat_of_lt (show n / 262144 % 8 + 240 < 256 by omega)
    have hb := toNat_ofNat_of_lt (show n / 4096 % 64 + 128 < 256 by omega)
    have hc := toNat_ofNat_of_lt (show n / 64 % 64 + 128 < 256 by omega)
    have hd := toNat_ofNat_of_lt (show n % 64 + 128 < 256 by omega)
    refine .four (by omega) (isContinuation_ofNat _) (isContinuation_ofNat _)
      (isContinuation_ofNat n) ?_ (by omega) (by omega)
    rw [number_cons, number_cons, number_cons, number_nil, ha, hb, hc, hd]
    omega

/-- A number that bytes represent is the number of a character, and encoding it gives the bytes. -/
theorem Represents.eq_utf8EncodeChar {n : Nat} {bytes : List UInt8} (h : Represents n bytes) :
    n.isValidChar ∧ bytes = String.utf8EncodeChar (Char.ofNat n) := by
  -- the forms of one and two bytes end below the surrogates
  have hvalid : n.isValidChar := by
    rw [Nat.isValidChar]
    cases h with
    | one ha hn => omega
    | two ha hb hn hlong =>
      simp only [IsContinuation, number_cons, number_nil] at hb hn
      omega
    | three ha hb hc hn hlong hsurrogate =>
      simp only [IsContinuation, number_cons, number_nil] at hb hc hn
      omega
    | four ha hb hc hd hn hlong hlast => omega
  refine ⟨hvalid, ?_⟩
  -- the bounds of the form say which branch of the encoding is taken, and the digits agree
  rw [String.utf8EncodeChar]
  simp only [Char.toNat_val, Char.toNat_ofNat, if_pos hvalid]
  cases h with
  | one ha hn =>
    rw [if_pos (by omega), hn, UInt8.ofNat_toNat]
  | two ha hb hn hlong =>
    simp only [IsContinuation, number_cons, number_nil] at hb hn
    rw [if_neg (by omega), if_pos (by omega)]
    simp only [List.cons.injEq, ← UInt8.toNat_inj, UInt8.toNat_ofNat', and_true]
    omega
  | three ha hb hc hn hlong hsurrogate =>
    simp only [IsContinuation, number_cons, number_nil] at hb hc hn
    rw [if_neg (by omega), if_neg (by omega), if_pos (by omega)]
    simp only [List.cons.injEq, ← UInt8.toNat_inj, UInt8.toNat_ofNat', and_true]
    omega
  | four ha hb hc hd hn hlong hlast =>
    simp only [IsContinuation, number_cons, number_nil] at hb hc hd hn
    rw [if_neg (by omega), if_neg (by omega), if_neg (by omega)]
    simp only [List.cons.injEq, ← UInt8.toNat_inj, UInt8.toNat_ofNat', and_true]
    omega

/-- The bytes of a number are those of the character with this number. -/
theorem represents_iff {n : Nat} {bytes : List UInt8} :
    Represents n bytes ↔ ∃ c : Char, c.toNat = n ∧ bytes = String.utf8EncodeChar c := by
  constructor
  · intro h
    obtain ⟨hvalid, hbytes⟩ := h.eq_utf8EncodeChar
    exact ⟨Char.ofNat n, by rw [Char.toNat_ofNat, if_pos hvalid], hbytes⟩
  · rintro ⟨c, rfl, rfl⟩
    exact represents_utf8EncodeChar c

/-- Only a character of one byte has a byte of seven bits. -/
theorem Represents.le_of_mem {n : Nat} {bytes : List UInt8} (h : Represents n bytes) :
    (∃ a : UInt8, bytes = [a] ∧ n = a.toNat) ∨ ∀ b ∈ bytes, 0x80 ≤ b.toNat := by
  cases h with
  | one ha hn => exact Or.inl ⟨_, rfl, hn⟩
  | two ha hb =>
    refine Or.inr ?_
    simp only [List.forall_mem_cons, List.not_mem_nil, false_imp_iff, implies_true, and_true]
    exact ⟨by omega, hb.1⟩
  | three ha hb hc =>
    refine Or.inr ?_
    simp only [List.forall_mem_cons, List.not_mem_nil, false_imp_iff, implies_true, and_true]
    exact ⟨by omega, hb.1, hc.1⟩
  | four ha hb hc hd =>
    refine Or.inr ?_
    simp only [List.forall_mem_cons, List.not_mem_nil, false_imp_iff, implies_true, and_true]
    exact ⟨by omega, hb.1, hc.1, hd.1⟩

/-! ## The ranges behind a lead byte -/

/-- The range of the second byte of three. -/
def secondOfThree (lead : UInt8) : ByteRange :=
  ⟨if lead.toNat = 0xE0 then 0xA0 else 0x80, if lead.toNat = 0xED then 0x9F else 0xBF⟩

/-- The range of the second byte of four. -/
def secondOfFour (lead : UInt8) : ByteRange :=
  ⟨if lead.toNat = 0xF0 then 0x90 else 0x80, if lead.toNat = 0xF4 then 0x8F else 0xBF⟩

/-- The ranges, said by the length of the character. -/
theorem tails_eq (lead : UInt8) :
    tails lead =
      if lead.toNat < 0x80 then some []
      else if lead.toNat < 0xC2 then none
      else if lead.toNat < 0xE0 then some [continuation]
      else if lead.toNat < 0xF0 then some [secondOfThree lead, continuation]
      else if lead.toNat < 0xF5 then some [secondOfFour lead, continuation, continuation]
      else none := by
  -- the leads with a narrower range stand in tests of their own on one side only
  simp only [tails, UInt8.le_iff_toNat_le, UInt8.lt_iff_toNat_lt, ← UInt8.toNat_inj,
    UInt8.reduceToNat, continuation, secondOfThree, secondOfFour]
  split_ifs <;> first | rfl | omega

/-- The lead byte tells how many of its bits count. -/
theorem leadBits_eq (lead : UInt8) :
    leadBits lead =
      if lead.toNat < 0x80 then lead.toNat
      else if lead.toNat < 0xE0 then lead.toNat - 0xC0
      else if lead.toNat < 0xF0 then lead.toNat - 0xE0
      else lead.toNat - 0xF0 := by
  simp only [leadBits, UInt8.le_iff_toNat_le, UInt8.reduceToNat]
  split_ifs <;> omega

/-- The bytes that can follow are those between 0x80 and 0xBF. -/
theorem contains_continuation_iff {b : UInt8} :
    continuation.contains b = true ↔ IsContinuation b := by
  rw [ByteRange.contains_iff, IsContinuation]
  simp only [continuation, UInt8.reduceToNat]
  omega

/-- The second byte of three is narrowed so that the number is neither too small nor a surrogate. -/
theorem contains_secondOfThree_iff {lead b c : UInt8}
    (hlead : 0xE0 ≤ lead.toNat ∧ lead.toNat < 0xF0) (hc : IsContinuation c) :
    (secondOfThree lead).contains b = true ↔
      IsContinuation b ∧ 0x800 ≤ number (lead.toNat - 0xE0) [b, c] ∧
        ¬ (0xD800 ≤ number (lead.toNat - 0xE0) [b, c] ∧
          number (lead.toNat - 0xE0) [b, c] ≤ 0xDFFF) := by
  simp only [ByteRange.contains_iff, secondOfThree, IsContinuation, number_cons, number_nil] at hc ⊢
  split_ifs <;> simp only [UInt8.reduceToNat] <;> omega

/-- The second byte of four is narrowed so that the number is neither too small nor too large. -/
theorem contains_secondOfFour_iff {lead b c d : UInt8}
    (hlead : 0xF0 ≤ lead.toNat ∧ lead.toNat < 0xF5) (hc : IsContinuation c) (hd : IsContinuation d) :
    (secondOfFour lead).contains b = true ↔
      IsContinuation b ∧ 0x10000 ≤ number (lead.toNat - 0xF0) [b, c, d] ∧
        number (lead.toNat - 0xF0) [b, c, d] ≤ 0x10FFFF := by
  simp only [ByteRange.contains_iff, secondOfFour, IsContinuation, number_cons, number_nil] at hc hd ⊢
  split_ifs <;> simp only [UInt8.reduceToNat] <;> omega

/-- Bytes that lie in ranges, one in each. -/
def Match (ranges : List ByteRange) (bytes : List UInt8) : Prop :=
  List.Forall₂ (fun range b => range.contains b = true) ranges bytes

/-- The bytes of a number lie in the ranges behind their lead, and it is the number that they carry. -/
theorem Represents.exists_tails {n : Nat} {lead : UInt8} {rest : List UInt8}
    (h : Represents n (lead :: rest)) :
    ∃ ranges, tails lead = some ranges ∧ Match ranges rest ∧ n = number (leadBits lead) rest := by
  rw [tails_eq, leadBits_eq]
  cases h with
  | one ha hn =>
    rw [if_pos ha, if_pos ha]
    exact ⟨[], rfl, .nil, hn⟩
  | two ha hb hn hlong =>
    -- `0xC0` and `0xC1` carry numbers that one byte can hold
    have hlead : 0xC2 ≤ lead.toNat := by
      simp only [IsContinuation, number_cons, number_nil] at hb hn
      omega
    have h1 : ¬ lead.toNat < 0x80 := by omega
    have h2 : ¬ lead.toNat < 0xC2 := by omega
    simp only [h1, h2, ha.2, if_true, if_false]
    exact ⟨_, rfl, .cons (contains_continuation_iff.mpr hb) .nil, hn⟩
  | three ha hb hc hn hlong hsurrogate =>
    have h1 : ¬ lead.toNat < 0x80 := by omega
    have h2 : ¬ lead.toNat < 0xC2 := by omega
    have h3 : ¬ lead.toNat < 0xE0 := by omega
    simp only [h1, h2, h3, ha.2, if_true, if_false]
    rw [hn] at hlong hsurrogate
    exact ⟨_, rfl, .cons ((contains_secondOfThree_iff ha hc).mpr ⟨hb, hlong, hsurrogate⟩)
      (.cons (contains_continuation_iff.mpr hc) .nil), hn⟩
  | four ha hb hc hd hn hlong hlast =>
    have h1 : ¬ lead.toNat < 0x80 := by omega
    have h2 : ¬ lead.toNat < 0xC2 := by omega
    have h3 : ¬ lead.toNat < 0xE0 := by omega
    have h4 : ¬ lead.toNat < 0xF0 := by omega
    -- the leads above carry numbers beyond the last character
    have hlead : lead.toNat < 0xF5 := by
      simp only [IsContinuation, number_cons, number_nil] at hb hn
      omega
    simp only [h1, h2, h3, h4, hlead, if_true, if_false]
    rw [hn] at hlong hlast
    exact ⟨_, rfl, .cons ((contains_secondOfFour_iff ⟨ha.1, hlead⟩ hc hd).mpr ⟨hb, hlong, hlast⟩)
      (.cons (contains_continuation_iff.mpr hc) (.cons (contains_continuation_iff.mpr hd) .nil)), hn⟩

/-- Bytes in the ranges behind a lead represent the number that they carry. -/
theorem represents_of_tails {lead : UInt8} {rest : List UInt8} {ranges : List ByteRange}
    (hranges : tails lead = some ranges) (h : Match ranges rest) :
    Represents (number (leadBits lead) rest) (lead :: rest) := by
  rw [tails_eq] at hranges
  rw [leadBits_eq]
  -- one case for each length; leads without ranges are excluded by `hranges`
  split_ifs at hranges with h1 h2 h3 h4 h5
  · obtain rfl := Option.some.inj hranges
    cases h
    rw [if_pos h1]
    exact .one h1 rfl
  · obtain rfl := Option.some.inj hranges
    obtain _ | ⟨hb, ⟨⟩⟩ := h
    rw [if_neg h1, if_pos h3]
    rw [contains_continuation_iff] at hb
    refine .two (by omega) hb rfl ?_
    rw [IsContinuation] at hb
    simp only [number_cons, number_nil]
    omega
  · obtain rfl := Option.some.inj hranges
    obtain _ | ⟨hb, _ | ⟨hc, ⟨⟩⟩⟩ := h
    rw [if_neg h1, if_neg h3, if_pos h4]
    rw [contains_continuation_iff] at hc
    obtain ⟨hb, hlong, hsurrogate⟩ := (contains_secondOfThree_iff (by omega) hc).mp hb
    exact .three (by omega) hb hc rfl hlong hsurrogate
  · obtain rfl := Option.some.inj hranges
    obtain _ | ⟨hb, _ | ⟨hc, _ | ⟨hd, ⟨⟩⟩⟩⟩ := h
    rw [if_neg h1, if_neg h3, if_neg h4]
    rw [contains_continuation_iff] at hc hd
    obtain ⟨hb, hlong, hlast⟩ := (contains_secondOfFour_iff (by omega) hc hd).mp hb
    exact .four (by omega) hb hc hd rfl hlong hlast

/-! ## The character at the front -/

/-- A character is read just if its bytes match the ranges one by one. -/
theorem headFrom_eq_char_iff {value matched : Nat} {ranges : List ByteRange} {input : List UInt8}
    {c : Char} {n : Nat} :
    headFrom value matched ranges input = .char c n ↔
      ∃ taken tail, input = taken ++ tail ∧ Match ranges taken ∧
        c = Char.ofNat (number value taken) ∧ n = matched + taken.length := by
  induction ranges generalizing value matched input with
  | nil =>
    rw [headFrom, Head.char.injEq]
    constructor
    · rintro ⟨rfl, rfl⟩
      exact ⟨[], input, rfl, .nil, rfl, rfl⟩
    · rintro ⟨taken, tail, -, hmatch, rfl, rfl⟩
      cases hmatch
      exact ⟨rfl, rfl⟩
  | cons range ranges ih =>
    cases input with
    | nil =>
      -- the first range has no byte
      refine iff_of_false (by simp [headFrom]) ?_
      rintro ⟨taken, tail, hinput, hmatch, -, -⟩
      cases hmatch
      cases hinput
    | cons b rest =>
      by_cases hb : range.contains b = true
      · -- the byte goes into the number, and the ranges behind the first one are left
        rw [headFrom, if_pos hb, ih]
        constructor
        · rintro ⟨taken, tail, rfl, hmatch, rfl, rfl⟩
          refine ⟨b :: taken, tail, rfl, .cons hb hmatch, by rw [number_cons], ?_⟩
          rw [List.length_cons, Nat.add_assoc, Nat.add_comm 1]
        · rintro ⟨taken, tail, hinput, hmatch, rfl, rfl⟩
          obtain _ | ⟨_, hmatch⟩ := hmatch
          obtain ⟨rfl, rfl⟩ := List.cons.inj hinput
          refine ⟨_, tail, rfl, hmatch, by rw [number_cons], ?_⟩
          rw [List.length_cons, Nat.add_assoc, Nat.add_comm 1]
      · -- a byte outside its range is malformed, and matches nothing
        refine iff_of_false (by simp [headFrom, hb]) ?_
        rintro ⟨taken, tail, hinput, hmatch, -, -⟩
        obtain _ | ⟨hb', _⟩ := hmatch
        obtain ⟨rfl, -⟩ := List.cons.inj hinput
        exact hb hb'

/-- A list starts with a character exactly if the bytes of that character stand in front. -/
theorem head_eq_char_iff {first : UInt8} {rest : List UInt8} {c : Char} {n : Nat} :
    head (first :: rest) = .char c n ↔
      ∃ extra tail, String.utf8EncodeChar c = first :: extra ∧ rest = extra ++ tail ∧
        n = extra.length := by
  constructor
  · intro h
    rw [head] at h
    split at h
    · next ranges hranges =>
      obtain ⟨taken, tail, rfl, hmatch, rfl, rfl⟩ := headFrom_eq_char_iff.mp h
      have hbytes := (represents_of_tails hranges hmatch).eq_utf8EncodeChar.2
      exact ⟨taken, tail, hbytes.symm, rfl, Nat.zero_add _⟩
    · cases h
  · rintro ⟨extra, tail, hc, rfl, rfl⟩
    have hrepresents := represents_utf8EncodeChar c
    rw [hc] at hrepresents
    obtain ⟨ranges, hranges, hmatch, hnumber⟩ := hrepresents.exists_tails
    rw [head, hranges]
    refine headFrom_eq_char_iff.mpr ⟨extra, tail, rfl, hmatch, ?_, (Nat.zero_add _).symm⟩
    rw [← hnumber, Char.ofNat_toNat]

/-! ## Lists that end inside a character -/

/-- What is not left open stays as it is, whatever follows. -/
theorem headFrom_append {value matched : Nat} {ranges : List ByteRange} {input : List UInt8}
    (h : headFrom value matched ranges input ≠ .incomplete) (more : List UInt8) :
    headFrom value matched ranges (input ++ more) = headFrom value matched ranges input := by
  induction ranges generalizing value matched input with
  | nil => rw [headFrom, headFrom]
  | cons range ranges ih =>
    rcases input with _ | ⟨b, rest⟩
    · exact absurd rfl h
    · rw [headFrom] at h
      rw [List.cons_append, headFrom, headFrom]
      by_cases hb : range.contains b = true
      · simp only [hb, if_true] at h ⊢
        exact ih h
      · simp only [hb, Bool.false_eq_true, if_false]

/-- What comes behind a character, or a flaw, does not matter to it. -/
theorem head_append {first : UInt8} {rest : List UInt8} (h : head (first :: rest) ≠ .incomplete)
    (more : List UInt8) : head (first :: (rest ++ more)) = head (first :: rest) := by
  rw [head] at h ⊢
  rw [head]
  cases hranges : tails first with
  | none => rfl
  | some ranges =>
    rw [hranges] at h
    exact headFrom_append h more

/-- A list that is left open lies in the ranges as far as it goes, and there are more of them. -/
theorem exists_of_headFrom_eq_incomplete {value matched : Nat} {ranges : List ByteRange}
    {input : List UInt8} (h : headFrom value matched ranges input = .incomplete) :
    ∃ before range after, ranges = before ++ range :: after ∧ Match before input := by
  induction ranges generalizing value matched input with
  | nil =>
    rw [headFrom] at h
    cases h
  | cons range ranges ih =>
    rcases input with _ | ⟨b, rest⟩
    · exact ⟨[], range, ranges, rfl, .nil⟩
    · rw [headFrom] at h
      split at h
      · next hb =>
        obtain ⟨before, next, after, rfl, hmatch⟩ := ih h
        exact ⟨range :: before, next, after, rfl, .cons hb hmatch⟩
      · cases h

/-- No range behind a lead is empty. -/
theorem contains_low_of_tails {lead : UInt8} {ranges : List ByteRange}
    (h : tails lead = some ranges) : ∀ range ∈ ranges, range.contains range.low = true := by
  unfold tails at h
  split_ifs at h
  all_goals
    obtain rfl := Option.some.inj h
    decide

/-- The lowest bytes of ranges lie in them. -/
theorem match_lows {ranges : List ByteRange}
    (h : ∀ range ∈ ranges, range.contains range.low = true) :
    Match ranges (ranges.map ByteRange.low) := by
  induction ranges with
  | nil => exact .nil
  | cons range ranges ih =>
    obtain ⟨hrange, hranges⟩ := List.forall_mem_cons.mp h
    exact .cons hrange (ih hranges)

/-- A list that is left open begins a character of which bytes are missing. -/
theorem exists_char_of_head_eq_incomplete {first : UInt8} {rest : List UInt8}
    (h : head (first :: rest) = .incomplete) :
    ∃ c missing, missing ≠ [] ∧ String.utf8EncodeChar c = first :: rest ++ missing := by
  rw [head] at h
  cases hranges : tails first with
  | none =>
    rw [hranges] at h
    cases h
  | some ranges =>
    rw [hranges] at h
    -- the lowest bytes of the ranges that are left make up a character
    obtain ⟨before, range, after, rfl, hmatch⟩ := exists_of_headFrom_eq_incomplete h
    have hlows : Match (range :: after) ((range :: after).map ByteRange.low) :=
      match_lows fun r hr => contains_low_of_tails hranges r (List.mem_append_right before hr)
    have hrepresents := represents_of_tails hranges (List.rel_append hmatch hlows)
    exact ⟨_, _, by simp, hrepresents.eq_utf8EncodeChar.2.symm⟩

/-! ## Well-formed byte lists -/

/-- A list of bytes is well formed if it consists of the bytes of numbers. -/
inductive WellFormed : List UInt8 → Prop
  | nil : WellFormed []
  | append {n : Nat} {first rest : List UInt8} (h : Represents n first) (hrest : WellFormed rest) :
      WellFormed (first ++ rest)

/-- The well-formed lists are those of texts. -/
theorem wellFormed_iff {bytes : List UInt8} :
    WellFormed bytes ↔ ∃ text : List Char, bytes = text.flatMap String.utf8EncodeChar := by
  constructor
  · intro h
    induction h with
    | nil => exact ⟨[], rfl⟩
    | append h hrest ih =>
      obtain ⟨c, -, rfl⟩ := represents_iff.mp h
      obtain ⟨text, rfl⟩ := ih
      exact ⟨c :: text, List.flatMap_cons.symm⟩
  · rintro ⟨text, rfl⟩
    induction text with
    | nil => exact .nil
    | cons c text ih =>
      rw [List.flatMap_cons]
      exact .append (represents_utf8EncodeChar c) ih

end RawMemory.Utf8
