import Mathlib
import RawMemory.Proofs.Text.Decoding

/-!
# Encoding and decoding undo each other

Encoding gives the spelling of a text (`encode_eq_ok_iff`), and decoding gives the text of a spelling
(`decode_eq_ok_iff`). So each undoes the other wherever it succeeds (`encode_eq_ok_iff_decode_eq_ok`).

The two encoders that cannot fail give spellings as well, the wide one always and the narrow one for
text with one byte for each character, and the two decoders that cannot fail read these back.
-/

namespace RawMemory.Text

/-- The characters that are put behind a text. -/
def terminator : Termination → List Char
  | .nullTerminated => ['\x00']
  | .unterminated => []

theorem units_eq (text : String) (termination : Termination) :
    units text termination = (text.toList ++ terminator termination).flatMap Utf16.ofChar := by
  cases termination with
  | nullTerminated => rw [units, Utf16.ofString, terminator, List.flatMap_append]; rfl
  | unterminated => rw [units, Utf16.ofString, terminator, List.append_nil]

/-! ## The coders of the charsets -/

/-- Encoding gives the spelling of the text and its terminator. -/
theorem encode_eq_ok_iff {charset : Charset} {text : String} {termination : Termination}
    {bytes : List UInt8} :
    (encode charset text termination).value = .ok bytes ↔
      charset.spelling.ofText? (text.toList ++ terminator termination) = some bytes := by
  rw [encode, encodeUnits]
  simp only [outcome_encodeTranscript_eq]
  rw [callOutcome_encoder_eq_ok_iff, units_eq]
  constructor
  · -- the units are those of one text only
    rintro ⟨other, hunits, hother⟩
    rwa [Utf16.flatMap_ofChar_injective hunits]
  · intro h
    exact ⟨_, rfl, h⟩

/-- Decoding gives the text of a spelling. -/
theorem decode_eq_ok_iff {charset : Charset} {bytes : List UInt8} {text : String} :
    (decode charset bytes).value = .ok text ↔
      charset.spelling.ofText? text.toList = some bytes := by
  rw [decode]
  simp only [outcome_decodeTranscript_eq]
  exact callText_eq_ok_iff

/-- In every charset, encoding without a terminator and decoding are inverse to each other as partial
functions. So no two byte lists are decoded to the same text. -/
theorem encode_eq_ok_iff_decode_eq_ok (charset : Charset) :
    (∀ text bytes, (encode charset text .unterminated).value = .ok bytes ↔
      (decode charset bytes).value = .ok text) ∧
    ∀ text, Set.Subsingleton {bytes | (decode charset bytes).value = .ok text} := by
  constructor
  · intro text bytes
    rw [encode_eq_ok_iff, decode_eq_ok_iff, terminator, List.append_nil]
  · intro text bytes hbytes other hother
    rw [Set.mem_ofPred_eq, decode_eq_ok_iff] at hbytes hother
    exact Option.some.inj (hbytes.symm.trans hother)

/-! ## The coders that cannot fail -/

/-- The wide encoder gives the spelling in native UTF-16. -/
theorem ofText?_utf16_eq_encodeWide (text : String) (termination : Termination) :
    Charset.utf16.spelling.ofText? (text.toList ++ terminator termination) =
      some (encodeWide text termination) := by
  rw [encodeWide, units_eq, List.flatMap_assoc]
  exact Spelling.ofText?_total (fun c => (Utf16.ofChar c).flatMap ByteOrder.native.bytes) _

/-- The wide decoder reads native UTF-16. -/
theorem decodeWide_of_ofText? {text : List Char} {bytes : List UInt8}
    (h : Charset.utf16.spelling.ofText? text = some bytes) :
    decodeWide bytes = String.ofList text := by
  have htotal : Charset.utf16.spelling.ofText? text =
      some (text.flatMap fun c => (Utf16.ofChar c).flatMap ByteOrder.native.bytes) :=
    Spelling.ofText?_total (fun c => (Utf16.ofChar c).flatMap ByteOrder.native.bytes) _
  rw [htotal, Option.some.injEq, ← List.flatMap_assoc] at h
  rw [decodeWide, ← h, unitsOfBytes_flatMap, Utf16.decodeLossy_flatMap_ofChar]

/-- The narrow encoder gives the spelling with one byte for each character of a text that has one. -/
theorem ofText?_oneByte_eq_encodeNarrow {last : Nat} (hlast : last ≤ 0xFF) {text : String}
    (h : ∀ c ∈ text.toList, c.toNat ≤ last) (termination : Termination) :
    (Charset.oneByte last).ofText? (text.toList ++ terminator termination) =
      some (encodeNarrow text termination) := by
  have hall : ∀ c ∈ text.toList ++ terminator termination, c.toNat ≤ last := by
    intro c hc
    rcases List.mem_append.mp hc with hc | hc
    · exact h c hc
    · cases termination <;> simp [terminator] at hc
      rw [hc]
      exact Nat.zero_le last
  -- such a character is one unit, and the low byte of it is its number
  rw [Charset.ofText?_oneByte hall, encodeNarrow, units_eq,
    Utf16.flatMap_ofChar_eq_map fun c hc => (hall c hc).trans hlast, List.map_map]
  congr 1
  refine List.map_congr_left fun c _ => ?_
  rw [Function.comp_apply, UInt16.toUInt8_ofNat']

/-- The narrow decoder reads one byte for each character. -/
theorem decodeNarrow_of_ofText? {last : Nat} (hlast : last ≤ 0xFF) {text : List Char}
    {bytes : List UInt8} (h : (Charset.oneByte last).ofText? text = some bytes) :
    decodeNarrow bytes = String.ofList text := by
  rw [decodeNarrow]
  congr 1
  induction text generalizing bytes with
  | nil =>
    obtain rfl : [] = bytes := by simpa using h
    rfl
  | cons c text ih =>
    obtain ⟨first, rest, hc, hrest, rfl⟩ := Spelling.ofText?_cons_eq_some_iff.mp h
    obtain ⟨b, -, rfl, rfl⟩ := (Charset.oneByte_eq_some_iff hlast).mp hc
    rw [List.map_append, ih hrest]
    rfl

end RawMemory.Text
