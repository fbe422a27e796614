import Mathlib
import RawMemory.Proofs.Text.ByteOrder
import RawMemory.Proofs.Text.Encoding
import RawMemory.Proofs.Text.Utf8

/-!
# Decoding against the reference

Every decoder rewrites the spelling of its charset as UTF-16 (`Charset.decoder_rewrites`), and at the end
of the input stops for nothing but malformed bytes (`Charset.exists_malformed_of_stop`).

Which bytes are well formed in a charset is said without a decoder (`Charset.WellFormed`), and comes to
being the spelling of a text (`Charset.wellFormed_iff`). Decoding gives that text, or names the end of the
longest prefix that is well formed, whatever the size of the first output
(`outcome_decodeTranscript`).
-/

namespace RawMemory

/-! ## One step of a decoder -/

/-- A byte up to the last one is the character of its number. -/
theorem Decoder.oneByte_emit_iff {last : Nat} (hlast : last ≤ 0xFF) {first : UInt8}
    {rest : List UInt8} {items : List UInt16} {n : Nat} :
    (first.toNat ≤ last ∧ items = [first.toUInt16] ∧ n = 0) ↔
      ∃ c extra tail, Charset.oneByte last c = some (first :: extra) ∧
        Utf16.spelling c = some items ∧ rest = extra ++ tail ∧ n = extra.length := by
  constructor
  · rintro ⟨hfirst, rfl, rfl⟩
    exact ⟨Char.ofNat first.toNat, [], rest,
      (Charset.oneByte_eq_some_iff hlast).mpr ⟨first, hfirst, rfl, rfl⟩,
      congrArg some (Utf16.ofChar_ofNat_byte first), rfl, rfl⟩
  · rintro ⟨c, extra, tail, hc, hitems, rfl, rfl⟩
    obtain ⟨b, hb, rfl, hbytes⟩ := (Charset.oneByte_eq_some_iff hlast).mp hc
    obtain ⟨rfl, rfl⟩ := List.cons.inj hbytes
    refine ⟨hb, ?_, rfl⟩
    rw [← Utf16.ofChar_ofNat_byte]
    exact (Option.some.inj hitems).symm

/-- A byte below 0x80 is a unit. -/
theorem Decoder.ascii_emit_iff {atEnd : Bool} {first : UInt8} {rest : List UInt8}
    {items : List UInt16} {n : Nat} :
    Decoder.ascii.step atEnd first rest = .emit items n ↔
      first.toNat ≤ 0x7F ∧ items = [first.toUInt16] ∧ n = 0 := by
  have hle : first ≤ 0x7F ↔ first.toNat ≤ 0x7F := UInt8.le_iff_toNat_le
  simp only [ascii, hle]
  constructor
  · intro h
    split at h
    · next hfirst =>
      obtain ⟨rfl, rfl⟩ := CoderStep.emit.inj h
      exact ⟨hfirst, rfl, rfl⟩
    · cases h
  · rintro ⟨hfirst, rfl, rfl⟩
    rw [if_pos hfirst]

/-- Any byte is a unit. -/
theorem Decoder.latin1_emit_iff {atEnd : Bool} {first : UInt8} {rest : List UInt8}
    {items : List UInt16} {n : Nat} :
    Decoder.latin1.step atEnd first rest = .emit items n ↔
      first.toNat ≤ 0xFF ∧ items = [first.toUInt16] ∧ n = 0 := by
  have hfirst := first.toNat_lt
  rw [latin1, CoderStep.emit.injEq]
  constructor
  · rintro ⟨rfl, rfl⟩
    exact ⟨by omega, rfl, rfl⟩
  · rintro ⟨-, rfl, rfl⟩
    exact ⟨rfl, rfl⟩

/-- A character is taken just if all its bytes are there. -/
theorem Decoder.utf8_emit_iff {atEnd : Bool} {first : UInt8} {rest : List UInt8}
    {items : List UInt16} {n : Nat} :
    Decoder.utf8.step atEnd first rest = .emit items n ↔
      ∃ c extra tail, Charset.utf8.spelling c = some (first :: extra) ∧
        Utf16.spelling c = some items ∧ rest = extra ++ tail ∧ n = extra.length := by
  rw [utf8]
  constructor
  · intro h
    cases hhead : Utf8.head (first :: rest) with
    | char c extra =>
      simp only [hhead, CoderStep.emit.injEq] at h
      obtain ⟨rfl, rfl⟩ := h
      obtain ⟨extra, tail, hc, rfl, rfl⟩ := Utf8.head_eq_char_iff.mp hhead
      exact ⟨c, extra, tail, congrArg some hc, rfl, rfl, rfl⟩
    | incomplete => simp [hhead, cutOff] at h
    | malformed length => simp [hhead] at h
  · rintro ⟨c, extra, tail, hc, hitems, rfl, rfl⟩
    have hhead := Utf8.head_eq_char_iff.mpr ⟨extra, tail, Option.some.inj hc, rfl, rfl⟩
    simp only [hhead]
    rw [← Option.some.inj hitems]

/-- The bytes of the units of a character are found where they stand in front. -/
theorem Decoder.utf16_emit_iff (order : ByteOrder) {atEnd : Bool} {first : UInt8}
    {rest : List UInt8} {items : List UInt16} {n : Nat} :
    (Decoder.utf16 order).step atEnd first rest = .emit items n ↔
      ∃ c extra tail, (Utf16.ofChar c).flatMap order.bytes = first :: extra ∧
        Utf16.spelling c = some items ∧ rest = extra ++ tail ∧ n = extra.length := by
  constructor
  · intro h
    simp only [utf16] at h
    split at h
    · cases h
    · next second rest' =>
      split at h
      · next hhigh =>
        split at h
        · next third fourth tail =>
          split at h
          · next hlow =>
            -- two units that are a surrogate pair
            obtain ⟨rfl, rfl⟩ := CoderStep.emit.inj h
            have hunits := (Utf16.Spells.pair hhigh hlow).eq_ofChar
            refine ⟨_, [second, third, fourth], tail, ?_, congrArg some hunits.symm, rfl, rfl⟩
            rw [← hunits]
            simp only [List.flatMap_cons, ByteOrder.bytes_unit]
            rfl
          · cases h
        · cases h
      · next hhigh =>
        split at h
        · cases h
        · next hlow =>
          -- one unit that is no surrogate
          obtain ⟨rfl, rfl⟩ := CoderStep.emit.inj h
          rw [Bool.not_eq_true] at hhigh hlow
          have hunits := (Utf16.Spells.unit hhigh hlow).eq_ofChar
          refine ⟨_, [second], rest', ?_, congrArg some hunits.symm, rfl, rfl⟩
          rw [← hunits]
          simp only [List.flatMap_cons, ByteOrder.bytes_unit]
          rfl
  · rintro ⟨c, extra, tail, hc, hitems, rfl, rfl⟩
    obtain rfl : Utf16.ofChar c = items := Option.some.inj hitems
    -- the units of a character have one of two forms, and the decoder has a branch for each
    have hspells := Utf16.spells_ofChar c
    generalize Utf16.ofChar c = units at hspells hc ⊢
    cases hspells with
    | @unit u hhigh hlow =>
      obtain ⟨a, b, hbytes, hunit⟩ := order.exists_bytes_eq u
      obtain ⟨rfl, rfl⟩ : a = first ∧ [b] = extra := by simpa [hbytes] using hc
      simp [utf16, hunit, hhigh, hlow]
    | @pair high low hhigh hlow =>
      obtain ⟨a, b, hbytes, hunit⟩ := order.exists_bytes_eq high
      obtain ⟨a', b', hbytes', hunit'⟩ := order.exists_bytes_eq low
      obtain ⟨rfl, rfl⟩ : a = first ∧ [b, a', b'] = extra := by simpa [hbytes, hbytes'] using hc
      simp [utf16, hunit, hunit', hhigh, hlow]

/-- Each decoder takes what the charset spells and gives what UTF-16 spells. -/
theorem Charset.decoder_rewrites (charset : Charset) :
    charset.decoder.Rewrites charset.spelling Utf16.spelling where
  emit_iff {atEnd first rest items n} := by
    cases charset with
    | usAscii => exact Decoder.ascii_emit_iff.trans (Decoder.oneByte_emit_iff (by decide))
    | latin1 => exact Decoder.latin1_emit_iff.trans (Decoder.oneByte_emit_iff (by decide))
    | utf8 => exact Decoder.utf8_emit_iff
    | utf16le =>
      rw [decoder, Decoder.utf16_emit_iff]
      simp only [spelling, Option.some.injEq]
    | utf16be =>
      rw [decoder, Decoder.utf16_emit_iff]
      simp only [spelling, Option.some.injEq]
  source_ne_nil {c} := charset.spelling_ne_nil c

/-! ## What a decoder stops for -/

/-- The decoder of UTF-8 stops for a character that is cut off, or for bytes that are malformed whatever
follows them. -/
theorem Decoder.utf8_stop_cases {atEnd : Bool} {first : UInt8} {rest : List UInt8}
    {obstacle : Obstacle} (h : Decoder.utf8.step atEnd first rest = .stop obstacle) :
    (Utf8.head (first :: rest) = .incomplete ∧
      cutOff atEnd (rest.length + 1) = .stop obstacle) ∨
    ∃ n, Utf8.head (first :: rest) = .malformed n ∧ obstacle = .malformed n ∧
      ∀ atEnd more, Decoder.utf8.step atEnd first (rest ++ more) = .stop (.malformed n) := by
  simp only [utf8] at h ⊢
  cases hhead : Utf8.head (first :: rest) with
  | char c extra =>
    rw [hhead] at h
    cases h
  | incomplete =>
    rw [hhead] at h
    exact Or.inl ⟨rfl, h⟩
  | malformed n =>
    rw [hhead] at h
    refine Or.inr ⟨n, rfl, (CoderStep.stop.inj h).symm, fun atEnd more => ?_⟩
    rw [Utf8.head_append (by rw [hhead]; exact Utf8.Head.noConfusion), hhead]

/-- A decoder of UTF-16 stops for a unit that is cut off, for a high surrogate with no whole unit behind it,
or for a surrogate that has no partner whatever follows. -/
theorem Decoder.utf16_stop_cases {order : ByteOrder} {atEnd : Bool} {first : UInt8}
    {rest : List UInt8} {obstacle : Obstacle}
    (h : (Decoder.utf16 order).step atEnd first rest = .stop obstacle) :
    ((rest = [] ∨ ∃ second, Utf16.isHigh (order.unit first second) = true ∧
        (rest = [second] ∨ ∃ third, rest = [second, third])) ∧
      cutOff atEnd (rest.length + 1) = .stop obstacle) ∨
    (obstacle = .malformed 2 ∧ rest ≠ [] ∧
      ∀ atEnd more, (Decoder.utf16 order).step atEnd first (rest ++ more) =
        .stop (.malformed 2)) := by
  simp only [utf16] at h ⊢
  rcases rest with _ | ⟨second, tail⟩
  · exact Or.inl ⟨Or.inl rfl, h⟩
  · by_cases hhigh : Utf16.isHigh (order.unit first second) = true
    · -- a high surrogate is judged with the unit behind it
      simp only [hhigh, if_true] at h
      rcases tail with _ | ⟨third, _ | ⟨fourth, tail⟩⟩
      · exact Or.inl ⟨Or.inr ⟨second, hhigh, Or.inl rfl⟩, h⟩
      · exact Or.inl ⟨Or.inr ⟨second, hhigh, Or.inr ⟨third, rfl⟩⟩, h⟩
      · dsimp only at h
        split at h
        · cases h
        · next hlow =>
          refine Or.inr ⟨(CoderStep.stop.inj h).symm, List.cons_ne_nil _ _, fun atEnd more => ?_⟩
          simp [hhigh, hlow]
    · simp only [hhigh, Bool.false_eq_true, if_false] at h
      split at h
      · next hlow =>
        refine Or.inr ⟨(CoderStep.stop.inj h).symm, List.cons_ne_nil _ _, fun atEnd more => ?_⟩
        simp [hhigh, hlow]
      · cases h

/-- At the end of the input a decoder stops for nothing but malformed bytes. -/
theorem Charset.exists_malformed_of_stop {charset : Charset} {first : UInt8} {rest : List UInt8}
    {obstacle : Obstacle} (h : charset.decoder.step true first rest = .stop obstacle) :
    ∃ n, obstacle = .malformed n := by
  -- input that is cut off is malformed once nothing follows it
  have hcut : ∀ n, Decoder.cutOff true n = .stop obstacle → ∃ n, obstacle = .malformed n := by
    intro n hn
    exact ⟨n, (CoderStep.stop.inj hn).symm⟩
  have hutf16 : ∀ order, (Decoder.utf16 order).step true first rest = .stop obstacle →
      ∃ n, obstacle = .malformed n := by
    intro order hstep
    rcases Decoder.utf16_stop_cases hstep with ⟨-, hend⟩ | ⟨rfl, -⟩
    · exact hcut _ hend
    · exact ⟨2, rfl⟩
  cases charset with
  | usAscii =>
    simp only [decoder, Decoder.ascii] at h
    split at h
    · cases h
    · exact ⟨1, (CoderStep.stop.inj h).symm⟩
  | latin1 => cases h
  | utf8 =>
    rcases Decoder.utf8_stop_cases h with ⟨-, hend⟩ | ⟨n, -, rfl, -⟩
    · exact hcut _ hend
    · exact ⟨n, rfl⟩
  | utf16le => exact hutf16 _ h
  | utf16be => exact hutf16 _ h

/-! ## Well-formed bytes -/

/-- The bytes that are well formed in UTF-16: a whole number of units, and no surrogate among them
without a partner. -/
def Utf16.WellFormed (order : ByteOrder) (bytes : List UInt8) : Prop :=
  Even bytes.length ∧ ∀ i, ¬ Utf16.IsUnpaired (Text.unitsOfBytes order bytes) i

/-- The bytes that are well formed in a charset. -/
def Charset.WellFormed : Charset → List UInt8 → Prop
  | usAscii, bytes => ∀ b ∈ bytes, b.toNat ≤ 0x7F
  | latin1, _ => True
  | utf8, bytes => Utf8.WellFormed bytes
  | utf16le, bytes => Utf16.WellFormed .littleEndian bytes
  | utf16be, bytes => Utf16.WellFormed .bigEndian bytes

/-- Bytes are well formed in UTF-16 exactly if they are those of the units of a text. -/
theorem Utf16.wellFormed_iff {order : ByteOrder} {bytes : List UInt8} :
    Utf16.WellFormed order bytes ↔
      ∃ text : List Char, bytes = text.flatMap fun c => (Utf16.ofChar c).flatMap order.bytes := by
  -- both conditions speak of units: that the bytes are those of some, and that these are a text's
  rw [WellFormed, ← Utf16.exists_text_iff, Text.even_length_iff order]
  constructor
  · rintro ⟨⟨units, rfl⟩, text, htext⟩
    rw [Text.unitsOfBytes_flatMap] at htext
    exact ⟨text, by rw [htext, List.flatMap_assoc]⟩
  · rintro ⟨text, rfl⟩
    rw [← List.flatMap_assoc, Text.unitsOfBytes_flatMap]
    exact ⟨⟨_, rfl⟩, text, rfl⟩

/-- Bytes are well formed in a charset exactly if they are the spelling of a text. -/
theorem Charset.wellFormed_iff {charset : Charset} {bytes : List UInt8} :
    charset.WellFormed bytes ↔ ∃ text, charset.spelling.ofText? text = some bytes := by
  cases charset with
  | usAscii => exact (exists_ofText?_oneByte_iff (by decide)).symm
  | latin1 =>
    refine iff_of_true trivial ((exists_ofText?_oneByte_iff (by decide)).mpr fun b _ => ?_)
    have hb := b.toNat_lt
    omega
  | utf8 =>
    rw [WellFormed, Utf8.wellFormed_iff]
    simp only [spelling, Spelling.ofText?_total, Option.some.injEq, eq_comm]
  | utf16le =>
    rw [WellFormed, Utf16.wellFormed_iff]
    simp only [spelling, Spelling.ofText?_total, Option.some.injEq, eq_comm]
  | utf16be =>
    rw [WellFormed, Utf16.wellFormed_iff]
    simp only [spelling, Spelling.ofText?_total, Option.some.injEq, eq_comm]

/-! ## What decoding gives -/

namespace Text

/-- The outcome of one call of a decoder that was given a whole input. -/
def callText (charset : Charset) (p : Progress UInt16) : Except MemoryError String :=
  callOutcome charset p >>= textOfUnits charset p.consumed

/-- Decoding gives what one call with room for everything gives. -/
theorem outcome_decodeTranscript_eq (charset : Charset) (size : Nat) (bytes : List UInt8) :
    (outcome charset (decodeTranscript charset size bytes) >>=
      textOfUnits charset (decodeTranscript charset size bytes).consumed) =
      callText charset (charset.decoder.code true bytes) := by
  rw [outcome_eq_callOutcome, ← charset.decoder.progress_drain size bytes]
  rfl

/-- Units that spell a text are that text. -/
theorem textOfUnits_flatMap_ofChar (charset : Charset) (position : Nat) (text : List Char) :
    textOfUnits charset position (text.flatMap Utf16.ofChar) = .ok (String.ofList text) := by
  rw [textOfUnits, Utf16.decode?_flatMap_ofChar]

/-- Bytes fall into the spelling of a text and a rest. Either nothing is left, and the text is decoded, or
the bytes are malformed where the rest begins. -/
theorem decode_cases (charset : Charset) (bytes : List UInt8) :
    (∃ text, charset.spelling.ofText? text = some bytes ∧
      charset.decoder.code true bytes = ⟨.underflow, text.flatMap Utf16.ofChar, bytes.length⟩) ∨
    ∃ text taken rest n, charset.spelling.ofText? text = some taken ∧ bytes = taken ++ rest ∧
      charset.decoder.code true bytes =
        ⟨.malformed n, text.flatMap Utf16.ofChar, taken.length⟩ := by
  obtain ⟨text, taken, units, rest, result, hsource, htarget, rfl, hhalts, hcode⟩ :=
    charset.decoder_rewrites.exists_text true bytes
  obtain rfl : text.flatMap Utf16.ofChar = units := by simpa using htarget
  cases hhalts with
  | nil =>
    rw [List.append_nil] at hcode ⊢
    exact Or.inl ⟨text, hsource, hcode⟩
  | stop hstep =>
    obtain ⟨n, rfl⟩ := Charset.exists_malformed_of_stop hstep
    exact Or.inr ⟨text, taken, _, n, hsource, rfl, hcode⟩

/-- No prefix that is well formed is longer than the bytes that decoding takes. -/
theorem le_consumed_of_wellFormed {charset : Charset} {bytes : List UInt8} {n : Nat}
    (hn : n ≤ bytes.length) (h : charset.WellFormed (bytes.take n)) :
    n ≤ (charset.decoder.code true bytes).consumed := by
  obtain ⟨text, htext⟩ := Charset.wellFormed_iff.mp h
  have hle := charset.decoder_rewrites.length_le_consumed htext (Utf16.ofText?_spelling text) true
    (bytes.drop n)
  rwa [List.take_append_drop, List.length_take, Nat.min_eq_left hn] at hle

/-- The text that the spelling is decoded to is the text that was spelled. -/
theorem callText_of_ofText? {charset : Charset} {text : List Char} {bytes : List UInt8}
    (h : charset.spelling.ofText? text = some bytes) :
    callText charset (charset.decoder.code true bytes) = .ok (String.ofList text) := by
  rw [← List.append_nil bytes,
    charset.decoder_rewrites.code_append h (Utf16.ofText?_spelling text), Coder.code_nil]
  simp only [callText, callOutcome, Progress.followedBy, List.append_nil]
  exact textOfUnits_flatMap_ofChar charset _ text

/-- Decoding succeeds just on spellings, with the text spelled. -/
theorem callText_eq_ok_iff {charset : Charset} {bytes : List UInt8} {text : String} :
    callText charset (charset.decoder.code true bytes) = .ok text ↔
      charset.spelling.ofText? text.toList = some bytes := by
  constructor
  · intro h
    -- only the case of a spelling ends in a text, and the spelling has no other
    rcases decode_cases charset bytes with ⟨chars, hchars, -⟩ | ⟨_, _, _, _, -, -, hcode⟩
    · rw [callText_of_ofText? hchars] at h
      obtain rfl := Except.ok.inj h
      rwa [String.toList_ofList]
    · rw [hcode] at h
      cases h
  · intro h
    rw [callText_of_ofText? h, String.ofList_toList]

/-- Decoding fails just on bytes that are not well formed, and names the end of the longest prefix that
is. -/
theorem callText_eq_error_iff {charset : Charset} {bytes : List UInt8} {e : MemoryError} :
    callText charset (charset.decoder.code true bytes) = .error e ↔
      ¬ charset.WellFormed bytes ∧
        ∃ n, IsGreatest {n | n ≤ bytes.length ∧ charset.WellFormed (bytes.take n)} n ∧
          e = .codec charset .malformed n := by
  rcases decode_cases charset bytes with
    ⟨text, htext, -⟩ | ⟨text, taken, rest, k, htext, hbytes, hcode⟩
  · -- spellings are well formed, and decoded
    rw [callText_of_ofText? htext]
    refine iff_of_false (by simp) fun h => h.1 (Charset.wellFormed_iff.mpr ⟨text, htext⟩)
  · -- a spelling would have been decoded
    have hill : ¬ charset.WellFormed bytes := by
      intro h
      obtain ⟨other, hother⟩ := Charset.wellFormed_iff.mp h
      have hok := callText_of_ofText? hother
      rw [hcode] at hok
      cases hok
    -- what was taken is well formed, and a longer prefix that is would have been taken
    have hgreatest : IsGreatest {n | n ≤ bytes.length ∧ charset.WellFormed (bytes.take n)}
        taken.length := by
      constructor
      · rw [hbytes]
        refine ⟨by simp, ?_⟩
        rw [List.take_left]
        exact Charset.wellFormed_iff.mpr ⟨text, htext⟩
      · rintro n ⟨hn, h⟩
        have hle := le_consumed_of_wellFormed hn h
        rwa [hcode] at hle
    have herror : callText charset (charset.decoder.code true bytes) =
        .error (.codec charset .malformed taken.length) := by
      rw [hcode]
      rfl
    rw [herror]
    constructor
    · intro h
      exact ⟨hill, taken.length, hgreatest, (Except.error.inj h).symm⟩
    · rintro ⟨-, n, hn, rfl⟩
      rw [hn.unique hgreatest]

/-- Decoding bytes in a charset, whatever the size of the first output. It gives the text whose spelling
the bytes are; there is one just if they are well formed. Otherwise it names the end of the longest
prefix that is well formed. The units decoded are always those of a text, so making a text of them never
fails. What is computed for the size that is really taken is no different. -/
theorem outcome_decodeTranscript (charset : Charset) (size : Nat) (bytes : List UInt8) :
    let transcript := decodeTranscript charset size bytes
    let result := outcome charset transcript >>= textOfUnits charset transcript.consumed
    (∀ text, result = .ok text ↔ charset.spelling.ofText? text.toList = some bytes) ∧
    ((∃ text, result = .ok text) ↔ charset.WellFormed bytes) ∧
    (∀ e, result = .error e ↔ ¬ charset.WellFormed bytes ∧
      ∃ n, IsGreatest {n | n ≤ bytes.length ∧ charset.WellFormed (bytes.take n)} n ∧
        e = .codec charset .malformed n) ∧
    (∃ text, Utf16.decode? transcript.output.content = some text) ∧
    (decode charset bytes).value = result := by
  intro transcript result
  have hresult : result = callText charset (charset.decoder.code true bytes) :=
    outcome_decodeTranscript_eq charset size bytes
  refine ⟨fun text => ?_, ?_, fun e => ?_, ?_, ?_⟩
  · rw [hresult, callText_eq_ok_iff]
  · rw [hresult, Charset.wellFormed_iff]
    constructor
    · rintro ⟨text, h⟩
      exact ⟨text.toList, callText_eq_ok_iff.mp h⟩
    · rintro ⟨text, h⟩
      exact ⟨String.ofList text, callText_of_ofText? h⟩
  · rw [hresult, callText_eq_error_iff]
  · -- in both cases the units are those of the text taken
    have hcontent : transcript.output.content = (charset.decoder.code true bytes).output := by
      rw [← charset.decoder.progress_drain size bytes]
      rfl
    rcases decode_cases charset bytes with ⟨text, -, hcode⟩ | ⟨text, _, _, _, -, -, hcode⟩
    all_goals
      refine ⟨text, ?_⟩
      rw [hcontent, hcode, Utf16.decode?_flatMap_ofChar]
  · rw [hresult]
    exact outcome_decodeTranscript_eq charset (decodeEstimate charset bytes) bytes

end Text

end RawMemory
