import RawMemory.Proofs.Text.Coder
import RawMemory.Text.Encoding

/-!
# Encoding against the reference

Every encoder looks for the character at the front of the units and writes it as the charset spells it
(`Charset.encoder_step`), so it rewrites UTF-16 as the charset (`Charset.encoder_rewrites`).

What can go wrong is said without an encoder: a unit offends if it is a surrogate without a partner or if
it begins a character that the charset lacks (`Charset.Offends`). Encoding gives the spelling of the text
where no unit offends, and otherwise names the first one that does, whatever the size of the first
output (`outcome_encodeTranscript`).
-/

namespace RawMemory

/-! ## One step of an encoder -/

/-- The units up to `last` are the characters that a charset with one byte for each has. -/
theorem Encoder.singleByte_step (last : UInt16) (hlast : last.toNat ≤ 0xFF) (atEnd : Bool)
    (first : UInt16) (rest : List UInt16) :
    (Encoder.singleByte last).step atEnd first rest =
      match Utf16.head atEnd first rest with
      | .char c extra =>
        match Charset.oneByte last.toNat c with
        | some bytes => .emit bytes extra
        | none => .stop (.unmappable (extra + 1))
      | .incomplete => .stop .incomplete
      | .malformed => .stop (.malformed 1) := by
  have hle := UInt16.le_iff_toNat_le (a := first) (b := last)
  by_cases h : first ≤ last
  · -- a unit this small is no surrogate, and the number of its character
    have hsmall := hle.mp h
    have hhigh : Utf16.isHigh first = false := by
      rw [← Bool.not_eq_true, Utf16.isHigh_iff]
      omega
    have hlow : Utf16.isLow first = false := by
      rw [← Bool.not_eq_true, Utf16.isLow_iff]
      omega
    have hnumber : (Char.ofNat first.toNat).toNat = first.toNat := by
      rw [Char.toNat_ofNat, if_pos (by rw [Nat.isValidChar]; omega)]
    have hhead := Utf16.head_of_ofChar (Utf16.Spells.unit hhigh hlow).eq_ofChar.symm atEnd rest
    rw [List.nil_append] at hhead
    simp only [singleByte, h, if_true, hhead, Charset.oneByte, hnumber, hsmall]
    rfl
  · cases hhead : Utf16.head atEnd first rest with
    | char c extra =>
      -- a character that the charset has is one unit, which is not above `last`
      have hlarge : ¬ c.toNat ≤ last.toNat := by
        intro hc
        obtain ⟨_, _, hunits, -, -⟩ := Utf16.head_eq_char_iff.mp hhead
        rw [Utf16.ofChar, if_pos (by omega)] at hunits
        obtain ⟨rfl, -⟩ := List.cons.inj hunits
        rw [hle, UInt16.toNat_ofNat', Nat.mod_eq_of_lt (by omega)] at h
        exact h hc
      simp only [singleByte, h, if_false, hhead, Charset.oneByte, hlarge]
    | incomplete => simp only [singleByte, h, if_false, hhead]
    | malformed => simp only [singleByte, h, if_false, hhead]

/-- An encoder of UTF-16 writes the units of the character that it finds. -/
theorem Encoder.utf16_step (order : ByteOrder) (atEnd : Bool) (first : UInt16)
    (rest : List UInt16) :
    (Encoder.utf16 order).step atEnd first rest =
      match Utf16.head atEnd first rest with
      | .char c extra => .emit ((Utf16.ofChar c).flatMap order.bytes) extra
      | .incomplete => .stop .incomplete
      | .malformed => .stop (.malformed 1) := by
  cases hhead : Utf16.head atEnd first rest with
  | char c extra =>
    obtain ⟨units, tail, hc, rfl, rfl⟩ := Utf16.head_eq_char_iff.mp hhead
    simp only [utf16, hhead, List.take_left, hc]
  | incomplete => simp only [utf16, hhead]
  | malformed => simp only [utf16, hhead]

/-- What an encoder does, said by the spelling of its charset: a character that is spelled is written, one
that is not is unmappable as a whole, and a surrogate without a partner is malformed. -/
theorem Charset.encoder_step (charset : Charset) (atEnd : Bool) (first : UInt16)
    (rest : List UInt16) :
    charset.encoder.step atEnd first rest =
      match Utf16.head atEnd first rest with
      | .char c extra =>
        match charset.spelling c with
        | some bytes => .emit bytes extra
        | none => .stop (.unmappable (extra + 1))
      | .incomplete => .stop .incomplete
      | .malformed => .stop (.malformed 1) := by
  cases charset with
  | usAscii => exact Encoder.singleByte_step 0x7F (by decide) atEnd first rest
  | latin1 => exact Encoder.singleByte_step 0xFF (by decide) atEnd first rest
  | utf8 => rfl
  | utf16le => exact Encoder.utf16_step .littleEndian atEnd first rest
  | utf16be => exact Encoder.utf16_step .bigEndian atEnd first rest

theorem Charset.encoder_rewrites (charset : Charset) :
    charset.encoder.Rewrites Utf16.spelling charset.spelling where
  emit_iff {atEnd first rest items n} := by
    rw [charset.encoder_step]
    constructor
    · intro h
      -- a step that emits has found a character, and one that the charset has
      cases hhead : Utf16.head atEnd first rest with
      | char c extra =>
        obtain ⟨units, tail, hc, rfl, rfl⟩ := Utf16.head_eq_char_iff.mp hhead
        cases hspell : charset.spelling c with
        | some bytes =>
          simp only [hhead, hspell, CoderStep.emit.injEq] at h
          obtain ⟨rfl, rfl⟩ := h
          exact ⟨c, units, tail, congrArg some hc, hspell, rfl, rfl⟩
        | none => simp [hhead, hspell] at h
      | incomplete => simp [hhead] at h
      | malformed => simp [hhead] at h
    · rintro ⟨c, units, tail, hc, hspell, rfl, rfl⟩
      rw [Utf16.head_of_ofChar (Option.some.inj hc)]
      simp only [hspell]
  source_ne_nil {c} h := Utf16.ofChar_ne_nil c (Option.some.inj h)

/-! ## Offending units -/

namespace Charset

/-- Why the unit of an index is in the way of encoding. -/
inductive Offends (charset : Charset) (units : List UInt16) (i : Nat) : CodecFailure → Prop
  /-- It is a surrogate without a partner. -/
  | malformed (h : Utf16.IsUnpaired units i) : Offends charset units i .malformed
  /-- It begins a character that the charset lacks. -/
  | unmappable {c : Char} (h : Utf16.ofChar c <+: units.drop i) (hc : charset.spelling c = none) :
      Offends charset units i .unmappable

/-- The unit of an index offends, and none in front of it does. -/
def FirstOffence (charset : Charset) (units : List UInt16) (i : Nat) (failure : CodecFailure) : Prop :=
  charset.Offends units i failure ∧ ∀ j < i, ∀ other, ¬ charset.Offends units j other

/-- Only one thing can be wrong with a unit. -/
theorem Offends.unique {charset : Charset} {units : List UInt16} {i : Nat}
    {failure other : CodecFailure} (h : charset.Offends units i failure)
    (h' : charset.Offends units i other) : failure = other := by
  cases h with
  | malformed hu =>
    cases h' with
    | malformed _ => rfl
    | unmappable hc _ => exact absurd hu (Utf16.not_isUnpaired_of_prefix hc)
  | unmappable hc _ =>
    cases h' with
    | malformed hu => exact absurd hu (Utf16.not_isUnpaired_of_prefix hc)
    | unmappable _ _ => rfl

/-- A character that the charset has offends nowhere, and what offends behind it does so without it. -/
theorem offends_ofChar_append_iff {charset : Charset} {c : Char} {bytes : List UInt8}
    (hc : charset.spelling c = some bytes) {rest : List UInt16} {i : Nat} {failure : CodecFailure} :
    charset.Offends (Utf16.ofChar c ++ rest) i failure ↔
      ∃ k, i = (Utf16.ofChar c).length + k ∧ charset.Offends rest k failure := by
  constructor
  · intro h
    rcases Nat.lt_or_ge i (Utf16.ofChar c).length with hi | hi
    · -- inside the character: its surrogates have each other, and no other character begins there
      cases h with
      | malformed hu => exact absurd hu (Utf16.not_isUnpaired_of_lt hi)
      | unmappable hd hnone =>
        rw [Utf16.eq_of_ofChar_prefix_drop hi hd, hc] at hnone
        cases hnone
    · obtain ⟨k, rfl⟩ := Nat.exists_eq_add_of_le hi
      refine ⟨k, rfl, ?_⟩
      cases h with
      | malformed hu => exact .malformed (Utf16.isUnpaired_length_add_iff.mp hu)
      | unmappable hd hnone =>
        rw [List.drop_length_add_append] at hd
        exact .unmappable hd hnone
  · rintro ⟨k, rfl, h⟩
    cases h with
    | malformed hu => exact .malformed (Utf16.isUnpaired_length_add_iff.mpr hu)
    | unmappable hd hnone =>
      refine .unmappable ?_ hnone
      rw [List.drop_length_add_append]
      exact hd

/-- A text that the charset has offends nowhere, and what offends behind it does so without it. -/
theorem offends_text_append_iff {charset : Charset} {text : List Char} {bytes : List UInt8}
    (htext : charset.spelling.ofText? text = some bytes) {rest : List UInt16} {i : Nat}
    {failure : CodecFailure} :
    charset.Offends (text.flatMap Utf16.ofChar ++ rest) i failure ↔
      ∃ k, i = (text.flatMap Utf16.ofChar).length + k ∧ charset.Offends rest k failure := by
  induction text generalizing bytes i with
  | nil => simp
  | cons c text ih =>
    obtain ⟨first, later, hc, hlater, rfl⟩ := Spelling.ofText?_cons_eq_some_iff.mp htext
    rw [List.flatMap_cons, List.append_assoc, offends_ofChar_append_iff hc, List.length_append]
    constructor
    · rintro ⟨k, rfl, h⟩
      obtain ⟨l, rfl, hrest⟩ := (ih hlater).mp h
      exact ⟨l, (Nat.add_assoc _ _ _).symm, hrest⟩
    · rintro ⟨l, rfl, h⟩
      exact ⟨_, Nat.add_assoc _ _ _, (ih hlater).mpr ⟨l, rfl, h⟩⟩

/-- Where an encoder stops at the end of its input, the first unit offends. -/
theorem offends_of_stop {charset : Charset} {first : UInt16} {rest : List UInt16}
    {obstacle : Obstacle} (h : charset.encoder.step true first rest = .stop obstacle) :
    (∃ n, obstacle = .malformed n ∧ charset.Offends (first :: rest) 0 .malformed) ∨
      ∃ n, obstacle = .unmappable n ∧ charset.Offends (first :: rest) 0 .unmappable := by
  rw [charset.encoder_step] at h
  -- the encoder looks at what the units start with, and that decides which offence it is
  cases hhead : Utf16.head true first rest with
  | char c extra =>
    obtain ⟨units, tail, hc, rfl, rfl⟩ := Utf16.head_eq_char_iff.mp hhead
    cases hspell : charset.spelling c with
    | some bytes => simp [hhead, hspell] at h
    | none =>
      simp only [hhead, hspell, CoderStep.stop.injEq] at h
      refine Or.inr ⟨_, h.symm, .unmappable ?_ hspell⟩
      rw [hc]
      exact ⟨tail, rfl⟩
  | incomplete => exact absurd hhead (Utf16.head_true_ne_incomplete first rest)
  | malformed =>
    simp only [hhead, CoderStep.stop.injEq] at h
    exact Or.inl ⟨1, h.symm, .malformed (Utf16.isUnpaired_zero hhead)⟩

/-- The first offence is one alone. -/
theorem FirstOffence.unique {charset : Charset} {units : List UInt16} {i j : Nat}
    {failure other : CodecFailure} (h : charset.FirstOffence units i failure)
    (h' : charset.FirstOffence units j other) : i = j ∧ failure = other := by
  -- of two different places, the later one would have the earlier one in front of it
  have hij : i = j := by
    rcases Nat.lt_trichotomy i j with hlt | heq | hlt
    · exact absurd h.1 (h'.2 i hlt failure)
    · exact heq
    · exact absurd h'.1 (h.2 j hlt other)
  subst hij
  exact ⟨rfl, h.1.unique h'.1⟩

end Charset

/-! ## What encoding gives -/

namespace Text

/-- The outcome of one call that was given a whole input. -/
def callOutcome {β : Type} (charset : Charset) (p : Progress β) : Except MemoryError (List β) :=
  match p.result with
  | .underflow | .overflow => .ok p.output
  | .malformed _ => .error (.codec charset .malformed p.consumed)
  | .unmappable _ => .error (.codec charset .unmappable p.consumed)

theorem outcome_eq_callOutcome {β : Type} (charset : Charset) (t : Transcript β) :
    outcome charset t = callOutcome charset t.progress := rfl

/-- Encoding gives what one call with room for everything gives. -/
theorem outcome_encodeTranscript_eq (charset : Charset) (size : Nat) (units : List UInt16) :
    outcome charset (encodeTranscript charset size units) =
      callOutcome charset (charset.encoder.code true units) := by
  rw [outcome_eq_callOutcome, encodeTranscript, Coder.progress_drain]

/-- Units fall into those of a text that the charset has and a rest. Either nothing is left, and the text
is encoded, or the first unit left is the first that offends. -/
theorem encode_cases (charset : Charset) (units : List UInt16) :
    (∃ text bytes, units = text.flatMap Utf16.ofChar ∧
      charset.spelling.ofText? text = some bytes ∧
      callOutcome charset (charset.encoder.code true units) = .ok bytes) ∨
    ∃ i failure, charset.FirstOffence units i failure ∧
      callOutcome charset (charset.encoder.code true units) =
        .error (.codec charset failure i) := by
  obtain ⟨text, items, bytes, rest, result, hsource, htarget, rfl, hhalts, hcode⟩ :=
    charset.encoder_rewrites.exists_text true units
  obtain rfl : text.flatMap Utf16.ofChar = items := by simpa using hsource
  rw [hcode]
  cases hhalts with
  | nil => exact Or.inl ⟨text, bytes, List.append_nil _, htarget, rfl⟩
  | @stop first rest obstacle hstep =>
    -- what offends at the start of the rest is first, as the text in front of it has no offence
    have hfirst : ∀ failure, charset.Offends (first :: rest) 0 failure →
        charset.FirstOffence (text.flatMap Utf16.ofChar ++ first :: rest)
          (text.flatMap Utf16.ofChar).length failure := by
      intro failure h
      refine ⟨(Charset.offends_text_append_iff htarget).mpr ⟨0, rfl, h⟩, fun j hj other h' => ?_⟩
      obtain ⟨k, rfl, -⟩ := (Charset.offends_text_append_iff htarget).mp h'
      omega
    refine Or.inr ?_
    rcases Charset.offends_of_stop hstep with ⟨n, rfl, h⟩ | ⟨n, rfl, h⟩
    · exact ⟨_, .malformed, hfirst _ h, rfl⟩
    · exact ⟨_, .unmappable, hfirst _ h, rfl⟩

/-- No unit of a text that the charset has offends. -/
theorem not_firstOffence_of_text {charset : Charset} {text : List Char} {bytes : List UInt8}
    (htext : charset.spelling.ofText? text = some bytes) (i : Nat) (failure : CodecFailure) :
    ¬ charset.FirstOffence (text.flatMap Utf16.ofChar) i failure := by
  rintro ⟨h, -⟩
  -- an offence would lie behind the text, where there are no units
  rw [← List.append_nil (text.flatMap Utf16.ofChar), Charset.offends_text_append_iff htext] at h
  obtain ⟨k, -, h⟩ := h
  cases h with
  | malformed hu => simp [Utf16.IsUnpaired] at hu
  | unmappable hc _ =>
    rw [List.drop_nil, List.prefix_nil] at hc
    exact Utf16.ofChar_ne_nil _ hc

/-- Encoding succeeds just on the units of a text that the charset has, with its spelling. -/
theorem callOutcome_encoder_eq_ok_iff {charset : Charset} {units : List UInt16}
    {bytes : List UInt8} :
    callOutcome charset (charset.encoder.code true units) = .ok bytes ↔
      ∃ text, units = text.flatMap Utf16.ofChar ∧
        charset.spelling.ofText? text = some bytes := by
  constructor
  · intro h
    rcases encode_cases charset units with ⟨text, bytes', hunits, htext, hok⟩ | ⟨i, f, -, herr⟩
    · rw [hok] at h
      cases h
      exact ⟨text, hunits, htext⟩
    · rw [herr] at h
      cases h
  · rintro ⟨text, rfl, htext⟩
    rw [← List.append_nil (text.flatMap Utf16.ofChar),
      charset.encoder_rewrites.code_append (Utf16.ofText?_spelling text) htext]
    simp [callOutcome, Progress.followedBy]

/-- Encoding fails just where a unit offends, and names the first one. -/
theorem callOutcome_encoder_eq_error_iff {charset : Charset} {units : List UInt16}
    {e : MemoryError} :
    callOutcome charset (charset.encoder.code true units) = .error e ↔
      ∃ i failure, e = .codec charset failure i ∧ charset.FirstOffence units i failure := by
  constructor
  · intro h
    rcases encode_cases charset units with ⟨text, bytes, -, -, hok⟩ | ⟨i, failure, hfirst, herr⟩
    · rw [hok] at h
      cases h
    · rw [herr] at h
      cases h
      exact ⟨i, failure, rfl, hfirst⟩
  · rintro ⟨i, failure, rfl, hfirst⟩
    rcases encode_cases charset units with ⟨text, bytes, rfl, htext, -⟩ | ⟨j, other, hother, herr⟩
    · exact absurd hfirst (not_firstOffence_of_text htext i failure)
    · -- the offence that encoding names is first as well
      obtain ⟨rfl, rfl⟩ := hfirst.unique hother
      exact herr

/-- Encoding units in a charset, whatever the size of the first output. It succeeds just on the units of
a text all of whose characters the charset has, with their spellings one after the other; the result has
as many bytes as were written. Otherwise it names the first unit that offends. What is computed for the
size that is really taken is no different. -/
theorem outcome_encodeTranscript (charset : Charset) (size : Nat) (units : List UInt16) :
    (∀ bytes, outcome charset (encodeTranscript charset size units) = .ok bytes ↔
      ∃ text, units = text.flatMap Utf16.ofChar ∧
        charset.spelling.ofText? text = some bytes) ∧
    (∀ bytes, outcome charset (encodeTranscript charset size units) = .ok bytes →
      bytes.length = (encodeTranscript charset size units).output.written) ∧
    (∀ e, outcome charset (encodeTranscript charset size units) = .error e ↔
      ∃ i failure, e = .codec charset failure i ∧ charset.FirstOffence units i failure) ∧
    (encodeUnits charset units).value = outcome charset (encodeTranscript charset size units) := by
  refine ⟨fun bytes => ?_, fun bytes h => ?_, fun e => ?_, ?_⟩
  · rw [outcome_encodeTranscript_eq, callOutcome_encoder_eq_ok_iff]
  · -- what is returned is the output cut to the items written
    have hcontent : bytes = (encodeTranscript charset size units).output.content := by
      rw [outcome] at h
      split at h
      · exact (Except.ok.inj h).symm
      · exact (Except.ok.inj h).symm
      · cases h
      · cases h
    rw [hcontent, Output.length_content]
  · rw [outcome_encodeTranscript_eq, callOutcome_encoder_eq_error_iff]
  · rw [encodeUnits]
    simp only [outcome_encodeTranscript_eq]

/-- A surrogate pair that does not fit behind one byte in an output of two is written into a larger
output. -/
theorem outcome_encodeTranscript_pair :
    outcome .utf8 (encodeTranscript .utf8 2 [0x41, 0xD83D, 0xDE00]) =
        .ok [0x41, 0xF0, 0x9F, 0x98, 0x80] ∧
      (encodeTranscript .utf8 2 [0x41, 0xD83D, 0xDE00]).output.written = 5 := by
  obtain ⟨hok, hwritten, -, -⟩ := outcome_encodeTranscript .utf8 2 [0x41, 0xD83D, 0xDE00]
  have h := (hok [0x41, 0xF0, 0x9F, 0x98, 0x80]).mpr ⟨['A', '😀'], by decide, by decide⟩
  exact ⟨h, (hwritten _ h).symm⟩

end Text

end RawMemory
