import Mathlib
import RawMemory.CommandLine.Run
import RawMemory.Proofs.Text.RoundTrip
import RawMemory.View

/-!
# Coding without a check

Two ways to encode and two ways to decode never fail. They are compared here with the coders of the
charsets, which do.

* `Text.encode_of_unmappable`: encoding stops at the first character that the charset lacks.
* `CommandLine.encodeWith_agrees`: the command that encodes takes a way that never fails where there is one
  for the charset. It gives what the coder of the charset gives, but for text outside ASCII in US-ASCII.
* `Text.decodings_agree`: the ways to decode that never fail give the text of the charset wherever there is
  one. Of ill-formed units the wide one gives the text with `U+FFFD` in place of each unpaired surrogate.
-/

namespace RawMemory

/-! ## Encoding -/

namespace Text

/-- Encoding fails at the first character that the charset lacks. -/
theorem encode_of_unmappable {charset : Charset} {text : String} {before after : List Char} {c : Char}
    {bytes : List UInt8} (htext : text.toList = before ++ c :: after)
    (hbefore : charset.spelling.ofText? before = some bytes) (hc : charset.spelling c = none)
    (termination : Termination) :
    (encode charset text termination).value =
      .error (.codec charset .unmappable (before.flatMap Utf16.ofChar).length) := by
  have hunits : units text termination =
      before.flatMap Utf16.ofChar ++ (c :: after ++ terminator termination).flatMap Utf16.ofChar := by
    rw [units_eq, htext, List.append_assoc, List.flatMap_append]
  rw [encode, encodeUnits]
  simp only [outcome_encodeTranscript_eq]
  rw [callOutcome_encoder_eq_error_iff, hunits]
  refine ⟨_, _, rfl, ?_, ?_⟩
  · -- the character offends where it begins, which is behind the text in front of it
    rw [Charset.offends_text_append_iff hbefore]
    refine ⟨0, rfl, .unmappable ?_ hc⟩
    rw [List.cons_append, List.flatMap_cons]
    exact List.prefix_append _ _
  · -- whatever offends lies behind that text
    intro j hj other hoffends
    obtain ⟨k, rfl, -⟩ := (Charset.offends_text_append_iff hbefore).mp hoffends
    omega

/-- Outside ASCII, encoding in US-ASCII fails behind the ASCII characters in front. -/
theorem encode_usAscii_of_exists {text : String} (h : ∃ c ∈ text.toList, 0x7F < c.toNat)
    (termination : Termination) :
    (encode .usAscii text termination).value =
      .error (.codec .usAscii .unmappable
        (text.toList.takeWhile fun c => c.toNat ≤ 0x7F).length) := by
  set isAscii : Char → Bool := fun c => c.toNat ≤ 0x7F with hisAscii
  set before := text.toList.takeWhile isAscii with hbefore
  have hascii : ∀ c ∈ before, c.toNat ≤ 0x7F := by
    intro c hc
    simpa [hisAscii] using List.mem_takeWhile_imp hc
  -- behind the ASCII characters there is one that is none
  obtain ⟨c, after, hafter⟩ : ∃ c after, text.toList.dropWhile isAscii = c :: after := by
    apply List.exists_cons_of_ne_nil
    rw [ne_eq, List.dropWhile_eq_nil_iff]
    intro hall
    obtain ⟨c, hc, hlarge⟩ := h
    have hsmall : c.toNat ≤ 0x7F := by simpa [hisAscii] using hall c hc
    omega
  have hc : ¬ c.toNat ≤ 0x7F := by
    have hnot := List.head?_dropWhile_not isAscii text.toList
    rw [hafter] at hnot
    simpa [hisAscii] using hnot
  have htext : text.toList = before ++ c :: after := by
    rw [← hafter, hbefore, List.takeWhile_append_dropWhile]
  have hspelled : Charset.usAscii.spelling.ofText? before = _ := Charset.ofText?_oneByte hascii
  rw [encode_of_unmappable htext hspelled (if_neg hc),
    Utf16.flatMap_ofChar_eq_map fun c hmem => (hascii c hmem).trans (by decide), List.length_map]

/-- There is a byte for each unit of the text, and for the zero unit of a terminator. -/
theorem length_encodeNarrow (text : String) (termination : Termination) :
    (encodeNarrow text termination).length =
      (Utf16.ofString text).length + (terminator termination).length := by
  cases termination <;> simp [encodeNarrow, units, terminator]

/-- Keeping the low byte of each unit is encoding in a charset that has those characters. -/
theorem encode_eq_encodeNarrow {charset : Charset} {last : Nat} (hlast : last ≤ 0xFF)
    (hcharset : charset.spelling = Charset.oneByte last) {text : String}
    (h : ∀ c ∈ text.toList, c.toNat ≤ last) (termination : Termination) :
    (encode charset text termination).value = .ok (encodeNarrow text termination) := by
  rw [encode_eq_ok_iff, hcharset]
  exact ofText?_oneByte_eq_encodeNarrow hlast h termination

/-- Writing the units as they are is encoding in native UTF-16. -/
theorem encode_eq_encodeWide (text : String) (termination : Termination) :
    (encode .utf16 text termination).value = .ok (encodeWide text termination) :=
  encode_eq_ok_iff.mpr (ofText?_utf16_eq_encodeWide text termination)

end Text

namespace CommandLine

open Text

/-- The value of an encoding that takes a way that never fails where there is one. -/
theorem value_encodeWith (charset : Charset) (text : String) (termination : Termination) :
    (encodeWith charset text termination).value =
      if charset = .usAscii then .ok (encodeNarrow text termination)
      else (encode charset text termination).value := by
  rw [encodeWith]
  split_ifs with hascii hwide
  · rfl
  · rw [hwide, encode_eq_encodeWide]
    rfl
  · rfl

/-- The command encodes as the coder of the charset does, but for text outside ASCII in US-ASCII. There
the coder fails at the first character that is not ASCII, and the command writes a byte for each unit. The
ways that never fail are the coders of native UTF-16, and of US-ASCII and Latin-1 on text that these can
express. -/
theorem encodeWith_agrees (charset : Charset) (text : String) (termination : Termination) :
    ((encodeWith charset text termination).value = (encode charset text termination).value ↔
      ¬ (charset = .usAscii ∧ ∃ c ∈ text.toList, 0x7F < c.toNat)) ∧
    ((∃ c ∈ text.toList, 0x7F < c.toNat) →
      (encode .usAscii text termination).value =
        .error (.codec .usAscii .unmappable
          (text.toList.takeWhile fun c => c.toNat ≤ 0x7F).length)) ∧
    ((encodeWith .usAscii text termination).value = .ok (encodeNarrow text termination) ∧
      (encodeNarrow text termination).length =
        (Utf16.ofString text).length + (terminator termination).length) ∧
    (encode .utf16 text termination).value = .ok (encodeWide text termination) ∧
    ((∀ c ∈ text.toList, c.toNat ≤ 0x7F) →
      (encode .usAscii text termination).value = .ok (encodeNarrow text termination)) ∧
    ((∀ c ∈ text.toList, c.toNat ≤ 0xFF) →
      (encode .latin1 text termination).value = .ok (encodeNarrow text termination)) := by
  have hascii : (∀ c ∈ text.toList, c.toNat ≤ 0x7F) →
      (encode .usAscii text termination).value = .ok (encodeNarrow text termination) :=
    fun h => encode_eq_encodeNarrow (by decide) rfl h termination
  refine ⟨?_, fun h => encode_usAscii_of_exists h termination,
    ⟨value_encodeWith .usAscii text termination, length_encodeNarrow text termination⟩,
    encode_eq_encodeWide text termination, hascii,
    fun h => encode_eq_encodeNarrow (by decide) rfl h termination⟩
  rw [value_encodeWith]
  -- the paths part for ASCII only, and there for a character that is too large
  by_cases hcharset : charset = .usAscii
  · subst hcharset
    rw [if_pos rfl]
    by_cases h : ∃ c ∈ text.toList, 0x7F < c.toNat
    · -- one succeeds and the other fails
      rw [encode_usAscii_of_exists h]
      simp [h]
    · have hall : ∀ c ∈ text.toList, c.toNat ≤ 0x7F := by
        intro c hc
        by_contra hlarge
        exact h ⟨c, hc, by omega⟩
      rw [hascii hall]
      simp [h]
  · rw [if_neg hcharset]
    simp [hcharset]

/-- A text with a character in the range of Latin-1 but not of ASCII, and a surrogate pair behind it. -/
theorem encodeWith_agrees_outside :
    (encode .usAscii "aé😀" .nullTerminated).value = .error (.codec .usAscii .unmappable 1) ∧
      (encodeWith .usAscii "aé😀" .nullTerminated).value ≠
        (encode .usAscii "aé😀" .nullTerminated).value ∧
      (encode .latin1 "aé" .nullTerminated).value = .ok [0x61, 0xE9, 0] ∧
      (encode .usAscii "a" .unterminated).value = .ok [0x61] := by
  have hoften : ∃ c ∈ "aé😀".toList, 0x7F < c.toNat := ⟨'é', by decide, by decide⟩
  obtain ⟨hiff, herror, -⟩ := encodeWith_agrees .usAscii "aé😀" .nullTerminated
  obtain ⟨-, -, -, -, -, hlatin1⟩ := encodeWith_agrees .latin1 "aé" .nullTerminated
  obtain ⟨-, -, -, -, hascii, -⟩ := encodeWith_agrees .usAscii "a" .unterminated
  exact ⟨herror hoften, fun heq => hiff.mp heq ⟨rfl, hoften⟩, hlatin1 (by simp), hascii (by simp)⟩

end CommandLine

/-! ## Decoding -/

namespace Text

/-- Taking every byte for the character of its number is decoding in Latin-1. -/
theorem decode_latin1 (bytes : List UInt8) :
    (decode .latin1 bytes).value = .ok (decodeNarrow bytes) := by
  obtain ⟨text, htext⟩ : ∃ text, (Charset.oneByte 0xFF).ofText? text = some bytes := by
    rw [Charset.exists_ofText?_oneByte_iff (by decide)]
    intro b _
    have := b.toNat_lt
    omega
  rw [decodeNarrow_of_ofText? (by decide) htext, decode_eq_ok_iff, String.toList_ofList]
  exact htext

theorem decodeNarrow_of_decode_usAscii {bytes : List UInt8} {text : String}
    (h : (decode .usAscii bytes).value = .ok text) : decodeNarrow bytes = text := by
  have hspelled : (Charset.oneByte 0x7F).ofText? text.toList = some bytes := decode_eq_ok_iff.mp h
  rw [decodeNarrow_of_ofText? (by decide) hspelled, String.ofList_toList]

theorem decodeWide_of_decode_utf16 {bytes : List UInt8} {text : String}
    (h : (decode .utf16 bytes).value = .ok text) : decodeWide bytes = text := by
  rw [decode_eq_ok_iff] at h
  rw [decodeWide_of_ofText? h, String.ofList_toList]

/-- Decoding fails just on bytes that are not well formed. -/
theorem exists_decode_eq_error_iff {charset : Charset} {bytes : List UInt8} :
    (∃ e, (decode charset bytes).value = .error e) ↔ ¬ charset.WellFormed bytes := by
  rw [Charset.wellFormed_iff]
  constructor
  · rintro ⟨e, herror⟩ ⟨text, htext⟩
    rw [← String.toList_ofList (l := text), ← decode_eq_ok_iff, herror] at htext
    cases htext
  · intro hill
    cases hvalue : (decode charset bytes).value with
    | error e => exact ⟨e, rfl⟩
    | ok text => exact absurd ⟨_, decode_eq_ok_iff.mp hvalue⟩ hill

/-- The ways to decode that never fail, on the bytes from the cursor of a view on. Taking every byte for a
character is decoding in Latin-1, which never fails either, and gives what decoding in US-ASCII gives if
that succeeds. Taking the bytes for units gives what decoding in native UTF-16 gives if that succeeds. It
fails for bytes of which one is left over and for units with an unpaired surrogate; then the last byte is
dropped, and the text has `U+FFFD` in place of each such surrogate. -/
theorem decodings_agree (v : View .byte) (m : Store) :
    let bytes := v.remainingBytes m
    (decode .latin1 bytes).value = .ok (decodeNarrow bytes) ∧
    (∀ text, (decode .usAscii bytes).value = .ok text → decodeNarrow bytes = text) ∧
    (∀ text, (decode .utf16 bytes).value = .ok text → decodeWide bytes = text) ∧
    ∃ units last, bytes = units.flatMap ByteOrder.native.bytes ++ last ∧ last.length ≤ 1 ∧
      ((∃ e, (decode .utf16 bytes).value = .error e) ↔
        Odd bytes.length ∨ ∃ i, Utf16.IsUnpaired units i) ∧
      Utf16.ofString (decodeWide bytes) = Utf16.replaceUnpaired units := by
  intro bytes
  refine ⟨decode_latin1 bytes, fun text => decodeNarrow_of_decode_usAscii,
    fun text => decodeWide_of_decode_utf16, ?_⟩
  obtain ⟨last, hlast, hbytes⟩ := exists_eq_flatMap_unitsOfBytes_append .native bytes
  refine ⟨unitsOfBytes .native bytes, last, hbytes, ?_, ?_, ?_⟩
  · omega
  · -- an error means that the bytes are not well formed, in one of two ways
    rw [exists_decode_eq_error_iff]
    change ¬ Utf16.WellFormed .native bytes ↔ _
    rw [Utf16.WellFormed, not_and_or, Nat.not_even_iff_odd]
    simp only [not_forall, not_not]
  · rw [Utf16.ofString, decodeWide, String.toList_ofList, Utf16.flatMap_decodeLossy]

/-- Two bytes behind a cursor are ASCII, and they are a unit as well. -/
theorem decodings_agree_behind_cursor :
    ∃ (v : View .byte) (m : Store), v.position = 1 ∧ v.remainingBytes m = [0x41, 0] ∧
      (decode .latin1 (v.remainingBytes m)).value = .ok "A\x00" ∧
      decodeWide (v.remainingBytes m) = "A" := by
  let v : View .byte := ⟨⟨0x1000⟩, 3, .native, 1⟩
  let m : Store := Store.zero.write ⟨0x1000⟩ #[0x7F, 0x41, 0]
  have hbytes : v.remainingBytes m = [0x41, 0] := by decide
  obtain ⟨hlatin1, hascii, hwide, -⟩ := decodings_agree v m
  refine ⟨v, m, rfl, hbytes, ?_, hwide "A" ?_⟩
  · rw [hlatin1, hascii "A\x00"]
    rw [hbytes, decode_eq_ok_iff]
    decide
  · rw [hbytes, decode_eq_ok_iff]
    decide

end Text

end RawMemory
