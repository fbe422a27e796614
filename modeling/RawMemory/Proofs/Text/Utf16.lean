import Mathlib
import RawMemory.Text.Utf16

/-!
# Reading characters off UTF-16 units

The units of a character are either one unit that is no surrogate or a high surrogate and a low one
(`Spells`). So a unit list starts with at most one character, and `head` finds it (`head_eq_char_iff`).

Which surrogates have no partner is said by looking at the two neighbours of a unit (`IsUnpaired`).
The unit lists of texts are those without such a unit (`exists_text_iff`), and both `decode?` and
`decodeLossy` give a text back from its units (`decode?_flatMap_ofChar`, `decodeLossy_flatMap_ofChar`).
Of other units `decodeLossy` gives the text that has `U+FFFD` where they have such a unit
(`flatMap_decodeLossy`).
-/

namespace RawMemory.Utf16

/-- The units that begin a pair are a range. -/
theorem isHigh_iff (u : UInt16) : isHigh u = true ↔ 0xD800 ≤ u.toNat ∧ u.toNat ≤ 0xDBFF := by
  simp [isHigh, UInt16.le_iff_toNat_le]

/-- The units that end a pair are a range. -/
theorem isLow_iff (u : UInt16) : isLow u = true ↔ 0xDC00 ≤ u.toNat ∧ u.toNat ≤ 0xDFFF := by
  simp [isLow, UInt16.le_iff_toNat_le]

/-- No unit is both halves of a pair. -/
theorem isLow_eq_false_of_isHigh {u : UInt16} (h : isHigh u = true) : isLow u = false := by
  rw [isHigh_iff] at h
  rw [← Bool.not_eq_true, isLow_iff]
  omega

/-- No unit both begins and ends a pair. -/
theorem isHigh_eq_false_of_isLow {u : UInt16} (h : isLow u = true) : isHigh u = false := by
  rw [isLow_iff] at h
  rw [← Bool.not_eq_true, isHigh_iff]
  omega

/-! ## The units of one character -/

/-- The two forms that the units of a character have. -/
inductive Spells : Char → List UInt16 → Prop
  /-- One unit, which is no surrogate. -/
  | unit {u : UInt16} (hhigh : isHigh u = false) (hlow : isLow u = false) :
      Spells (Char.ofNat u.toNat) [u]
  /-- A high surrogate and a low one. -/
  | pair {high low : UInt16} (hhigh : isHigh high = true) (hlow : isLow low = true) :
      Spells (ofPair high low) [high, low]

/-- The units of every character have one of the two forms. -/
theorem spells_ofChar (c : Char) : Spells c (ofChar c) := by
  have hvalid : c.toNat < 0xD800 ∨ 0xDFFF < c.toNat ∧ c.toNat < 0x110000 := c.valid
  unfold ofChar
  split
  · next h =>
    have hunit : (UInt16.ofNat c.toNat).toNat = c.toNat := by
      rw [UInt16.toNat_ofNat', Nat.mod_eq_of_lt (by omega)]
    have hspells : Spells (Char.ofNat (UInt16.ofNat c.toNat).toNat) [UInt16.ofNat c.toNat] := by
      refine .unit ?_ ?_
      · rw [← Bool.not_eq_true, isHigh_iff, hunit]
        omega
      · rw [← Bool.not_eq_true, isLow_iff, hunit]
        omega
    rwa [hunit, Char.ofNat_toNat] at hspells
  · next h =>
    set offset := c.toNat - 0x10000 with hoffset
    set high := UInt16.ofNat (0xD800 + offset / 0x400) with hhigh
    set low := UInt16.ofNat (0xDC00 + offset % 0x400) with hlow
    have hhighNat : high.toNat = 0xD800 + offset / 0x400 := by
      rw [hhigh, UInt16.toNat_ofNat', Nat.mod_eq_of_lt (by omega)]
    have hlowNat : low.toNat = 0xDC00 + offset % 0x400 := by
      rw [hlow, UInt16.toNat_ofNat', Nat.mod_eq_of_lt (by omega)]
    -- the number of the pair is that of the character
    have hpair : ofPair high low = c := by
      rw [ofPair, hhighNat, hlowNat, show 0x10000 + (0xD800 + offset / 0x400 - 0xD800) * 0x400 +
        (0xDC00 + offset % 0x400 - 0xDC00) = c.toNat by omega, Char.ofNat_toNat]
    have hspells : Spells (ofPair high low) [high, low] := by
      refine .pair ?_ ?_
      · rw [isHigh_iff, hhighNat]
        omega
      · rw [isLow_iff, hlowNat]
        omega
    rwa [hpair] at hspells

/-- The form determines the units. -/
theorem Spells.eq_ofChar {c : Char} {units : List UInt16} (h : Spells c units) :
    units = ofChar c := by
  cases h with
  | @unit u hhigh hlow =>
    rw [← Bool.not_eq_true, isHigh_iff] at hhigh
    rw [← Bool.not_eq_true, isLow_iff] at hlow
    have hu := u.toNat_lt
    have hnumber : (Char.ofNat u.toNat).toNat = u.toNat := by
      rw [Char.toNat_ofNat, if_pos (by rw [Nat.isValidChar]; omega)]
    rw [ofChar, if_pos (by rw [hnumber]; omega), hnumber, UInt16.ofNat_toNat]
  | @pair high low hhigh hlow =>
    rw [isHigh_iff] at hhigh
    rw [isLow_iff] at hlow
    have hnumber : (ofPair high low).toNat =
        0x10000 + (high.toNat - 0xD800) * 0x400 + (low.toNat - 0xDC00) := by
      rw [ofPair, Char.toNat_ofNat, if_pos (by rw [Nat.isValidChar]; omega)]
    rw [ofChar, if_neg (by rw [hnumber]; omega), hnumber]
    simp only [List.cons.injEq, and_true]
    -- the quotient gives the high surrogate back, the remainder the low one
    constructor
    · rw [show 0xD800 + (0x10000 + (high.toNat - 0xD800) * 0x400 + (low.toNat - 0xDC00) -
        0x10000) / 0x400 = high.toNat by omega, UInt16.ofNat_toNat]
    · rw [show 0xDC00 + (0x10000 + (high.toNat - 0xD800) * 0x400 + (low.toNat - 0xDC00) -
        0x10000) % 0x400 = low.toNat by omega, UInt16.ofNat_toNat]

/-- A character with the number of a byte is one unit. -/
theorem ofChar_ofNat_byte (b : UInt8) : ofChar (Char.ofNat b.toNat) = [b.toUInt16] := by
  have hb := b.toNat_lt
  rw [ofChar, Char.toNat_ofNat, if_pos (show b.toNat.isValidChar by rw [Nat.isValidChar]; omega),
    if_pos (by omega), ← UInt8.toNat_toUInt16, UInt16.ofNat_toNat]

/-- Characters with the numbers of bytes are one unit each. -/
theorem flatMap_ofChar_eq_map {text : List Char} (h : ∀ c ∈ text, c.toNat ≤ 0xFF) :
    text.flatMap ofChar = text.map fun c => UInt16.ofNat c.toNat := by
  rw [List.map_eq_flatMap]
  refine List.flatMap_congr fun c hc => ?_
  have := h c hc
  rw [ofChar, if_pos (by omega)]

theorem ofChar_ne_nil (c : Char) : ofChar c ≠ [] := by
  cases h : ofChar c with
  | nil =>
    have hspells := spells_ofChar c
    rw [h] at hspells
    cases hspells
  | cons _ _ => simp

theorem length_ofChar_pos (c : Char) : 0 < (ofChar c).length :=
  List.length_pos_of_ne_nil (ofChar_ne_nil c)

/-- A character takes two units at most. -/
theorem length_ofChar_le (c : Char) : (ofChar c).length ≤ 2 := by
  have hspells := spells_ofChar c
  generalize ofChar c = units at hspells
  cases hspells <;> simp

/-- A list starts with the character of a step exactly where its units stand in front. -/
theorem head_eq_char_iff {atEnd : Bool} {first : UInt16} {rest : List UInt16} {c : Char} {n : Nat} :
    head atEnd first rest = .char c n ↔
      ∃ extra tail, ofChar c = first :: extra ∧ rest = extra ++ tail ∧ n = extra.length := by
  constructor
  · intro h
    unfold head at h
    split at h
    · next hhigh =>
      -- a high surrogate makes a character with a low one behind it only
      cases rest with
      | nil => cases atEnd <;> simp at h
      | cons low tail =>
        by_cases hlow : isLow low = true
        · simp only [hlow, if_true, Head.char.injEq] at h
          obtain ⟨rfl, rfl⟩ := h
          exact ⟨[low], tail, (Spells.pair hhigh hlow).eq_ofChar.symm, rfl, rfl⟩
        · simp [hlow] at h
    · next hhigh =>
      by_cases hlow : isLow first = true
      · simp [hlow] at h
      · simp only [hlow, Bool.false_eq_true, if_false, Head.char.injEq] at h
        obtain ⟨rfl, rfl⟩ := h
        exact ⟨[], rest, (Spells.unit (by simpa using hhigh) (by simpa using hlow)).eq_ofChar.symm,
          rfl, rfl⟩
  · rintro ⟨extra, tail, hc, rfl, rfl⟩
    have hspells := spells_ofChar c
    rw [hc] at hspells
    cases hspells with
    | unit hhigh hlow => simp [head, hhigh, hlow]
    | pair hhigh hlow => simp [head, hhigh, hlow]

/-- With the units of a character in front, that character is found. -/
theorem head_of_ofChar {c : Char} {first : UInt16} {extra : List UInt16}
    (hc : ofChar c = first :: extra) (atEnd : Bool) (rest : List UInt16) :
    head atEnd first (extra ++ rest) = .char c extra.length :=
  head_eq_char_iff.mpr ⟨extra, rest, hc, rfl, rfl⟩

/-- Only a high surrogate at the end of the units is left open. -/
theorem head_eq_incomplete_iff {atEnd : Bool} {first : UInt16} {rest : List UInt16} :
    head atEnd first rest = .incomplete ↔ isHigh first = true ∧ rest = [] ∧ atEnd = false := by
  unfold head
  by_cases hhigh : isHigh first = true
  · simp only [hhigh, if_true, true_and]
    rcases rest with _ | ⟨low, tail⟩
    · cases atEnd <;> simp
    · by_cases hlow : isLow low = true <;> simp [hlow]
  · cases isLow first <;> simp [hhigh]

/-- At the end of the input nothing is left open. -/
theorem head_true_ne_incomplete (first : UInt16) (rest : List UInt16) :
    head true first rest ≠ .incomplete := by
  intro h
  cases (head_eq_incomplete_iff.mp h).2.2

/-- What is not left open stays as it is, whatever follows. -/
theorem head_append {first : UInt16} {rest : List UInt16}
    (h : head false first rest ≠ .incomplete) (atEnd : Bool) (more : List UInt16) :
    head atEnd first (rest ++ more) = head false first rest := by
  unfold head at h ⊢
  by_cases hhigh : isHigh first = true
  · rcases rest with _ | ⟨low, tail⟩
    · simp [hhigh] at h
    · simp only [hhigh, if_true, List.cons_append]
  · simp only [hhigh, Bool.false_eq_true, if_false]

/-- No character begins with a low surrogate. -/
theorem isLow_of_ofChar_eq_cons {c : Char} {u : UInt16} {extra : List UInt16}
    (h : ofChar c = u :: extra) : isLow u = false := by
  have hspells := spells_ofChar c
  rw [h] at hspells
  cases hspells with
  | unit _ hlow => exact hlow
  | pair hhigh _ => exact isLow_eq_false_of_isHigh hhigh

/-- Where the units of a character stand in front, no other character does. -/
theorem eq_of_ofChar_prefix {c d : Char} {rest : List UInt16} (h : ofChar d <+: ofChar c ++ rest) :
    d = c := by
  obtain ⟨tail, htail⟩ := h
  cases hc : ofChar c with
  | nil => exact absurd hc (ofChar_ne_nil c)
  | cons first extra =>
    cases hd : ofChar d with
    | nil => exact absurd hd (ofChar_ne_nil d)
    | cons first' extra' =>
      rw [hc, hd, List.cons_append, List.cons_append, List.cons.injEq] at htail
      obtain ⟨rfl, htail⟩ := htail
      -- `head` finds both characters in the same units
      have hhead := head_of_ofChar hc true rest
      rw [← htail, head_of_ofChar hd true tail] at hhead
      exact (Head.char.inj hhead).1

/-- No character begins inside another one. -/
theorem eq_of_ofChar_prefix_drop {c d : Char} {rest : List UInt16} {i : Nat}
    (hi : i < (ofChar c).length) (h : ofChar d <+: (ofChar c ++ rest).drop i) : d = c := by
  rcases Nat.eq_zero_or_pos i with rfl | hpos
  · exact eq_of_ofChar_prefix h
  · -- only a pair has a second unit, and that is a low surrogate
    have hspells := spells_ofChar c
    generalize ofChar c = units at hspells hi h
    cases hspells with
    | unit _ _ => simp at hi; omega
    | @pair high low hhigh hlow =>
      obtain rfl : i = 1 := by simp at hi; omega
      obtain ⟨tail, htail⟩ := h
      cases hd : ofChar d with
      | nil => exact absurd hd (ofChar_ne_nil d)
      | cons u extra =>
        rw [hd, List.cons_append] at htail
        obtain ⟨rfl, -⟩ := List.cons.inj htail
        rw [isLow_of_ofChar_eq_cons hd] at hlow
        cases hlow

/-! ## Unpaired surrogates -/

/-- The unit of an index is a high surrogate with no low one behind it, or a low surrogate with no high
one in front of it. -/
def IsUnpaired (units : List UInt16) (i : Nat) : Prop :=
  ∃ u, units[i]? = some u ∧
    ((isHigh u = true ∧ ∀ v, units[i + 1]? = some v → isLow v = false) ∨
      (isLow u = true ∧ ∀ v, 0 < i → units[i - 1]? = some v → isHigh v = false))

instance (units : List UInt16) (i : Nat) : Decidable (IsUnpaired units i) :=
  decidable_of_iff
    (units[i]?.any fun u => isHigh u && units[i + 1]?.all (!isLow ·) ||
      isLow u && (i == 0 || units[i - 1]?.all (!isHigh ·)))
    (by grind [IsUnpaired, Option.any_eq_true, Option.all_eq_true])

/-- A surrogate without a partner at the start of a list is unpaired. -/
theorem isUnpaired_zero {first : UInt16} {rest : List UInt16}
    (h : head true first rest = .malformed) : IsUnpaired (first :: rest) 0 := by
  refine ⟨first, rfl, ?_⟩
  unfold head at h
  split at h
  · next hhigh =>
    refine Or.inl ⟨hhigh, fun v hv => ?_⟩
    cases rest with
    | nil => cases hv
    | cons low tail =>
      cases hv
      simpa using h
  · split at h
    · next hlow => exact Or.inr ⟨hlow, fun v hpos => absurd hpos (Nat.lt_irrefl 0)⟩
    · cases h

/-- The surrogates of a character have each other. -/
theorem not_isUnpaired_of_lt {c : Char} {rest : List UInt16} {i : Nat}
    (hi : i < (ofChar c).length) : ¬ IsUnpaired (ofChar c ++ rest) i := by
  have hspells := spells_ofChar c
  generalize ofChar c = units at hspells hi ⊢
  rintro ⟨v, hv, hsides⟩
  cases hspells with
  | unit hhigh hlow =>
    obtain rfl : i = 0 := by simpa using hi
    obtain rfl : _ = v := by simpa using hv
    simp [hhigh, hlow] at hsides
  | @pair high low hhigh hlow =>
    obtain rfl | rfl : i = 0 ∨ i = 1 := by simp at hi; omega
    · obtain rfl : high = v := by simpa using hv
      simp [isLow_eq_false_of_isHigh hhigh, hlow] at hsides
    · obtain rfl : low = v := by simpa using hv
      simp [isHigh_eq_false_of_isLow hlow, hhigh] at hsides

/-- A unit that begins a character has a partner if it needs one. -/
theorem not_isUnpaired_of_prefix {c : Char} {units : List UInt16} {i : Nat}
    (h : ofChar c <+: units.drop i) : ¬ IsUnpaired units i := by
  obtain ⟨tail, htail⟩ := h
  have hat : ∀ j, units[i + j]? = (ofChar c ++ tail)[j]? := by
    intro j
    rw [htail, List.getElem?_drop]
  -- only the unit itself and the one behind it are looked at
  have hfirst := hat 0
  have hsecond := hat 1
  rintro ⟨u, hu, hsides⟩
  rw [Nat.add_zero, hu] at hfirst
  have hspells := spells_ofChar c
  generalize ofChar c = word at hspells hfirst hsecond
  cases hspells with
  | unit hhigh hlow =>
    obtain rfl : u = _ := by simpa using hfirst
    simp [hhigh, hlow] at hsides
  | pair hhigh hlow =>
    obtain rfl : u = _ := by simpa using hfirst
    rcases hsides with ⟨-, hnone⟩ | ⟨hlow', -⟩
    · rw [hnone _ (by simpa using hsecond)] at hlow
      cases hlow
    · rw [isLow_eq_false_of_isHigh hhigh] at hlow'
      cases hlow'

/-- The last unit of a character is no high surrogate. -/
theorem isHigh_getLast_ofChar {c : Char} {u : UInt16}
    (h : (ofChar c)[(ofChar c).length - 1]? = some u) : isHigh u = false := by
  have hspells := spells_ofChar c
  generalize ofChar c = units at hspells h
  cases hspells with
  | unit hhigh hlow =>
    obtain rfl : _ = u := by simpa using h
    exact hhigh
  | pair hhigh hlow =>
    obtain rfl : _ = u := by simpa using h
    exact isHigh_eq_false_of_isLow hlow

/-- A character in front gives no partner to the surrogates behind it. -/
theorem isUnpaired_length_add_iff {c : Char} {rest : List UInt16} {k : Nat} :
    IsUnpaired (ofChar c ++ rest) ((ofChar c).length + k) ↔ IsUnpaired rest k := by
  have hpos := length_ofChar_pos c
  have hbehind : ∀ j, (ofChar c ++ rest)[(ofChar c).length + j]? = rest[j]? := by
    intro j
    rw [List.getElem?_append_right (Nat.le_add_right _ _), Nat.add_sub_cancel_left]
  -- the neighbours behind are shifted alike, and the one in front is as good as none
  have hbefore : ∀ u, (0 < (ofChar c).length + k →
      (ofChar c ++ rest)[(ofChar c).length + k - 1]? = some u → isHigh u = false) ↔
      (0 < k → rest[k - 1]? = some u → isHigh u = false) := by
    intro u
    cases k with
    | zero =>
      -- the unit in front of the rest is the last one of the character
      refine iff_of_true (fun _ h => ?_) (fun h => absurd h (Nat.lt_irrefl 0))
      rw [Nat.add_zero, List.getElem?_append_left (by omega)] at h
      exact isHigh_getLast_ofChar h
    | succ j =>
      rw [← Nat.add_assoc, Nat.add_sub_cancel, hbehind, Nat.add_sub_cancel]
      simp
  simp only [IsUnpaired, Nat.add_assoc, hbehind, hbefore]

/-- A unit list holds the units of a text exactly if all of its surrogates have partners. -/
theorem exists_text_iff {units : List UInt16} :
    (∃ text : List Char, units = text.flatMap ofChar) ↔ ∀ i, ¬ IsUnpaired units i := by
  constructor
  · rintro ⟨text, rfl⟩
    induction text with
    | nil => simp [IsUnpaired]
    | cons c text ih =>
      -- a unit belongs to the first character or to the rest of the text
      intro i
      rw [List.flatMap_cons]
      rcases Nat.lt_or_ge i (ofChar c).length with hi | hi
      · exact not_isUnpaired_of_lt hi
      · obtain ⟨k, rfl⟩ := Nat.exists_eq_add_of_le hi
        rw [isUnpaired_length_add_iff]
        exact ih k
  · intro h
    -- along the recursion of `decode?`, which takes one character after the other
    induction units using decode?.induct with
    | case1 => exact ⟨[], rfl⟩
    | case2 first rest c n hhead ih =>
      obtain ⟨extra, tail, hc, rfl, rfl⟩ := head_eq_char_iff.mp hhead
      rw [← List.cons_append, ← hc] at h ⊢
      rw [List.drop_left] at ih
      obtain ⟨text, rfl⟩ := ih fun k hk => h _ (isUnpaired_length_add_iff.mpr hk)
      exact ⟨c :: text, List.flatMap_cons.symm⟩
    | case3 first rest hhead => exact absurd hhead (head_true_ne_incomplete first rest)
    | case4 first rest hhead => exact absurd (isUnpaired_zero hhead) (h 0)

/-! ## Texts from units -/

/-- A character that was spelled is decoded first. -/
theorem decode?_ofChar_append (c : Char) (rest : List UInt16) :
    decode? (ofChar c ++ rest) = (decode? rest).map (c :: ·) := by
  cases hc : ofChar c with
  | nil => exact absurd hc (ofChar_ne_nil c)
  | cons first extra =>
    rw [List.cons_append, decode?, head_of_ofChar hc]
    simp

theorem decodeLossy_ofChar_append (c : Char) (rest : List UInt16) :
    decodeLossy (ofChar c ++ rest) = c :: decodeLossy rest := by
  cases hc : ofChar c with
  | nil => exact absurd hc (ofChar_ne_nil c)
  | cons first extra =>
    rw [List.cons_append, decodeLossy, head_of_ofChar hc]
    simp

/-- A text that was spelled is decoded. -/
theorem decode?_flatMap_ofChar (text : List Char) :
    decode? (text.flatMap ofChar) = some text := by
  induction text with
  | nil => simp [decode?]
  | cons c text ih => rw [List.flatMap_cons, decode?_ofChar_append, ih, Option.map_some]

/-- There is nothing to make up for in a text that was spelled. -/
theorem decodeLossy_flatMap_ofChar (text : List Char) :
    decodeLossy (text.flatMap ofChar) = text := by
  induction text with
  | nil => simp [decodeLossy]
  | cons c text ih => rw [List.flatMap_cons, decodeLossy_ofChar_append, ih]

/-- Different texts have different units. -/
theorem flatMap_ofChar_injective :
    Function.Injective (fun text : List Char => text.flatMap ofChar) := by
  intro text other h
  have := congrArg decode? h
  simpa only [decode?_flatMap_ofChar, Option.some.injEq] using this

/-! ## Units with replacements -/

/-- The units with `U+FFFD` in place of every surrogate without a partner. -/
def replaceUnpaired (units : List UInt16) : List UInt16 :=
  units.mapIdx fun i u => if IsUnpaired units i then 0xFFFD else u

/-- A character in front is kept, and leaves what is behind it alone. -/
theorem replaceUnpaired_ofChar_append (c : Char) (rest : List UInt16) :
    replaceUnpaired (ofChar c ++ rest) = ofChar c ++ replaceUnpaired rest := by
  rw [replaceUnpaired, List.mapIdx_append]
  congr 1
  · -- the units of the character have partners
    refine List.ext_getElem (by simp) fun i hi hi' => ?_
    rw [List.getElem_mapIdx, if_neg (not_isUnpaired_of_lt hi')]
  · simp only [Nat.add_comm _ (ofChar c).length, isUnpaired_length_add_iff]
    rfl

/-- A low surrogate behind a surrogate without a partner has none in front of it. -/
theorem isHigh_eq_false_of_malformed {first low : UInt16} {rest : List UInt16}
    (h : head true first (low :: rest) = .malformed) (hlow : isLow low = true) :
    isHigh first = false := by
  by_contra hhigh
  rw [Bool.not_eq_false] at hhigh
  simp [head, hhigh, hlow] at h

/-- A surrogate in front without a partner is no partner for what is behind it. -/
theorem isUnpaired_succ_iff {first : UInt16} {rest : List UInt16}
    (h : head true first rest = .malformed) {i : Nat} :
    IsUnpaired (first :: rest) (i + 1) ↔ IsUnpaired rest i := by
  cases i with
  | succ j => simp [IsUnpaired]
  | zero =>
    -- the unit behind it has nothing in front in `rest`, and no high surrogate in the whole list
    have hfront : ∀ u, rest[0]? = some u → isLow u = true → isHigh first = false := by
      intro u hu hlow
      rcases rest with _ | ⟨low, tail⟩
      · cases hu
      · obtain rfl : low = u := by simpa using hu
        exact isHigh_eq_false_of_malformed h hlow
    simp only [IsUnpaired, List.getElem?_cons_succ]
    constructor
    · rintro ⟨u, hu, hhigh | ⟨hlow, -⟩⟩
      · exact ⟨u, hu, Or.inl hhigh⟩
      · exact ⟨u, hu, Or.inr ⟨hlow, fun v hpos => absurd hpos (Nat.lt_irrefl 0)⟩⟩
    · rintro ⟨u, hu, hhigh | ⟨hlow, -⟩⟩
      · exact ⟨u, hu, Or.inl hhigh⟩
      · refine ⟨u, hu, Or.inr ⟨hlow, fun v _ hv => ?_⟩⟩
        obtain rfl : first = v := by simpa using hv
        exact hfront u hu hlow

/-- A unit without its other half is replaced. -/
theorem replaceUnpaired_cons {first : UInt16} {rest : List UInt16}
    (h : head true first rest = .malformed) :
    replaceUnpaired (first :: rest) = 0xFFFD :: replaceUnpaired rest := by
  rw [replaceUnpaired, List.mapIdx_cons, if_pos (isUnpaired_zero h)]
  simp only [isUnpaired_succ_iff h]
  rfl

/-- Decoding with replacement gives the text whose units have `U+FFFD` in those places. -/
theorem flatMap_decodeLossy (units : List UInt16) :
    (decodeLossy units).flatMap ofChar = replaceUnpaired units := by
  induction units using decodeLossy.induct with
  | case1 => rw [decodeLossy]; rfl
  | case2 first rest c n hhead ih =>
    obtain ⟨extra, tail, hc, rfl, rfl⟩ := head_eq_char_iff.mp hhead
    rw [List.drop_left] at ih
    rw [← List.cons_append, ← hc, decodeLossy_ofChar_append, List.flatMap_cons, ih,
      replaceUnpaired_ofChar_append]
  | case3 first rest hhead ih => exact absurd hhead (head_true_ne_incomplete first rest)
  | case4 first rest hhead ih =>
    rw [decodeLossy, hhead, List.flatMap_cons, ih, replaceUnpaired_cons hhead]
    rfl

example : replaceUnpaired [0x41, 0xDC00, 0xD83D, 0xD83D, 0xDE00, 0xD800] =
    [0x41, 0xFFFD, 0xFFFD, 0xD83D, 0xDE00, 0xFFFD] := by decide

end RawMemory.Utf16
