import Mathlib
import RawMemory.Proofs.Text.Decoding
import RawMemory.Proofs.Text.Drive

/-!
# Decoding piece by piece

What a decoder says of bytes does not change when more of them follow, except where a piece ends inside a
character or a unit (`Charset.decoder_steady`). So a drive of a decoder gives the same units wherever the
bytes are cut and whatever room there is, and ends alike (`Charset.decoder_drive`).

The bytes that a call leaves for the next one begin a character (`Charset.IsCutOff`). In UTF-16 with the
high byte first this is said of whole units only: there the first half of a unit may show already that no
character goes on so, and the decoder waits for the other half all the same
(`Charset.not_isCutOff_of_drive`).
-/

namespace RawMemory

/-! ## What a decoder waits for -/

/-- A decoder waits for nothing that is not cut off. -/
theorem Decoder.eq_incomplete_of_cutOff {length : Nat} {obstacle : Obstacle}
    (h : Decoder.cutOff false length = .stop obstacle) : obstacle = .incomplete :=
  (CoderStep.stop.inj h).symm

/-- More input changes nothing of what a decoder has taken. -/
theorem Charset.decoder_steady (charset : Charset) : charset.decoder.Steady where
  stop_append {first rest obstacle} h hne atEnd more := by
    have hutf16 : ∀ order, (Decoder.utf16 order).step false first rest = .stop obstacle →
        (Decoder.utf16 order).step atEnd first (rest ++ more) = .stop obstacle := by
      intro order hstep
      rcases Decoder.utf16_stop_cases hstep with ⟨-, hend⟩ | ⟨rfl, -, hmore⟩
      · exact absurd (Decoder.eq_incomplete_of_cutOff hend) hne
      · exact hmore atEnd more
    cases charset with
    | usAscii => exact h
    | latin1 => cases h
    | utf8 =>
      rcases Decoder.utf8_stop_cases h with ⟨-, hend⟩ | ⟨n, -, rfl, hmore⟩
      · exact absurd (Decoder.eq_incomplete_of_cutOff hend) hne
      · exact hmore atEnd more
    | utf16le => exact hutf16 _ h
    | utf16be => exact hutf16 _ h

/-- A decoder of UTF-16 waits for the other half of a unit, or for the unit behind a high surrogate. -/
theorem Decoder.utf16_step_eq_incomplete {order : ByteOrder} {first : UInt8} {rest : List UInt8}
    (h : (Decoder.utf16 order).step false first rest = .stop .incomplete) :
    rest = [] ∨ ∃ second, Utf16.isHigh (order.unit first second) = true ∧
      (rest = [second] ∨ ∃ third, rest = [second, third]) := by
  rcases Decoder.utf16_stop_cases h with ⟨hinside, -⟩ | ⟨hstop, -⟩
  · exact hinside
  · cases hstop

/-! ## Beginnings of characters -/

namespace Charset

/-- Bytes that some character begins with, but not all bytes of it. -/
def IsCutOff (charset : Charset) (bytes : List UInt8) : Prop :=
  ∃ c spelled, charset.spelling c = some spelled ∧ bytes <+: spelled ∧ bytes ≠ spelled

/-- A character without its last bytes is cut off. -/
theorem IsCutOff.of_append {charset : Charset} {bytes : List UInt8} (c : Char) (missing : List UInt8)
    (h : charset.spelling c = some (bytes ++ missing)) (hne : missing ≠ []) :
    charset.IsCutOff bytes := by
  refine ⟨c, bytes ++ missing, h, List.prefix_append bytes missing, fun heq => hne ?_⟩
  exact List.append_right_eq_self.mp heq.symm

theorem isCutOff_nil (charset : Charset) : charset.IsCutOff [] := by
  refine IsCutOff.of_append 'a' ((charset.spelling 'a').getD []) ?_ ?_
  · cases charset <;> rfl
  · cases charset <;> decide

/-- Three bytes are cut off at most. -/
theorem IsCutOff.length_le {charset : Charset} {bytes : List UInt8} (h : charset.IsCutOff bytes) :
    bytes.length ≤ 3 := by
  obtain ⟨c, spelled, hspelled, hbegin, hne⟩ := h
  have hlength := length_spelling_le hspelled
  have hlt : bytes.length < spelled.length := by
    refine lt_of_le_of_ne hbegin.length_le fun heq => hne ?_
    exact hbegin.eq_of_length heq
  omega

/-- The bytes of a high surrogate begin a character, together with those that a low one begins with. -/
theorem isCutOff_of_isHigh {charset : Charset} {order : ByteOrder}
    (hspelling : ∀ c, charset.spelling c = some ((Utf16.ofChar c).flatMap order.bytes))
    {first second : UInt8} (hhigh : Utf16.isHigh (order.unit first second) = true) (low : UInt16)
    (hlow : Utf16.isLow low = true) {front missing : List UInt8}
    (hbytes : order.bytes low = front ++ missing) (hne : missing ≠ []) :
    charset.IsCutOff (first :: second :: front) := by
  refine IsCutOff.of_append (Utf16.ofPair (order.unit first second) low) missing ?_ hne
  rw [hspelling, ← (Utf16.Spells.pair hhigh hlow).eq_ofChar]
  simp only [List.flatMap_cons, List.flatMap_nil, order.bytes_unit, hbytes, List.append_nil]
  rfl

/-- Without more bytes behind it, a high surrogate begins a character in either byte order. -/
theorem isCutOff_high {charset : Charset} {order : ByteOrder}
    (hspelling : ∀ c, charset.spelling c = some ((Utf16.ofChar c).flatMap order.bytes))
    {first second : UInt8} (hhigh : Utf16.isHigh (order.unit first second) = true) :
    charset.IsCutOff [first, second] := by
  refine isCutOff_of_isHigh hspelling hhigh 0xDC00 (by decide) (List.nil_append _).symm ?_
  cases order <;> decide

/-- With the low byte first, any byte is the first half of a character of one unit. -/
theorem isCutOff_utf16le_singleton (b : UInt8) : utf16le.IsCutOff [b] := by
  refine IsCutOff.of_append (Char.ofNat b.toNat) [0] ?_ (by simp)
  have hb := b.toNat_lt
  -- the unit has the number of the byte, and the high byte of it is zero
  have hbytes : ByteOrder.littleEndian.bytes b.toUInt16 = [b] ++ [0] := by
    have hunit : ByteOrder.littleEndian.unit b 0 = b.toUInt16 := by
      rw [ByteOrder.unit, UInt8.toNat_zero, Nat.mul_zero, Nat.add_zero, ← UInt8.toNat_toUInt16,
        UInt16.ofNat_toNat]
    rw [← hunit, ByteOrder.bytes_unit]
    rfl
  change some ((Utf16.ofChar (Char.ofNat b.toNat)).flatMap ByteOrder.littleEndian.bytes) = _
  rw [Utf16.ofChar_ofNat_byte, List.flatMap_singleton, hbytes]

/-- With the low byte first, any byte is the first half of some low surrogate. -/
theorem isLow_unit_littleEndian (b : UInt8) :
    Utf16.isLow (ByteOrder.littleEndian.unit b 0xDC) = true := by
  have hb := b.toNat_lt
  have hhalf : (0xDC : UInt8).toNat = 0xDC := rfl
  rw [Utf16.isLow_iff, ByteOrder.unit, ByteOrder.toNat_ofNat_low_high, hhalf]
  omega

/-- What a decoder waits behind begins a character, or does so without the first half of a unit. -/
theorem isCutOff_of_step_eq_incomplete {charset : Charset} {first : UInt8} {rest : List UInt8}
    (h : charset.decoder.step false first rest = .stop .incomplete) :
    charset.IsCutOff (first :: rest) ∨
      charset = utf16be ∧ Odd (first :: rest).length ∧
        charset.IsCutOff (first :: rest).dropLast := by
  cases charset with
  | usAscii =>
    simp only [decoder, Decoder.ascii] at h
    split at h <;> cases h
  | latin1 => cases h
  | utf8 =>
    have hopen : Utf8.head (first :: rest) = .incomplete := by
      rcases Decoder.utf8_stop_cases h with ⟨hopen, -⟩ | ⟨n, -, hstop, -⟩
      · exact hopen
      · cases hstop
    obtain ⟨c, missing, hne, hc⟩ := Utf8.exists_char_of_head_eq_incomplete hopen
    exact Or.inl (IsCutOff.of_append c missing (congrArg some hc) hne)
  | utf16le =>
    refine Or.inl ?_
    -- a low byte can always be completed, to a unit that is no surrogate
    rcases Decoder.utf16_step_eq_incomplete h with rfl | ⟨second, hhigh, rfl | ⟨third, rfl⟩⟩
    · exact isCutOff_utf16le_singleton first
    · exact isCutOff_high (fun _ => rfl) hhigh
    · exact isCutOff_of_isHigh (fun _ => rfl) hhigh _ (isLow_unit_littleEndian third)
        (ByteOrder.bytes_unit _ third 0xDC) (by simp)
  | utf16be =>
    rcases Decoder.utf16_step_eq_incomplete h with rfl | ⟨second, hhigh, rfl | ⟨third, rfl⟩⟩
    · exact Or.inr ⟨rfl, ⟨0, rfl⟩, isCutOff_nil utf16be⟩
    · exact Or.inl (isCutOff_high (fun _ => rfl) hhigh)
    · exact Or.inr ⟨rfl, ⟨1, rfl⟩, isCutOff_high (fun _ => rfl) hhigh⟩

/-! ## Drives -/

/-- Bytes that are decoded piece by piece, cut anywhere, with any room in each call. A call writes the
units of what it takes and nothing else, and the drive ends as one call on all bytes does. A call that
runs out of room although there were two units has taken a byte. One that wants more bytes has left at
most three, and these begin a character; of UTF-16 with the high byte first this holds without the last
byte where their number is odd. -/
theorem decoder_drive {charset : Charset} {bytes : List UInt8} {d : Drive UInt8 UInt16}
    {call : DriveCall UInt8 UInt16} (hd : Drive.Reachable charset.decoder bytes d)
    (hcall : d.Admits bytes call) :
    d.Faithful charset.decoder charset.spelling Utf16.spelling bytes call ∧
    ((d.progress charset.decoder call).result = .overflow → 2 ≤ call.output.room →
      0 < (d.progress charset.decoder call).consumed) ∧
    ((d.progress charset.decoder call).result = .underflow → call.atEnd = false →
      ∀ rest, rest = (d.input call).drop (d.progress charset.decoder call).consumed →
        rest.length ≤ 3 ∧
        (charset.IsCutOff rest ∨
          charset = utf16be ∧ Odd rest.length ∧ charset.IsCutOff rest.dropLast)) := by
  refine ⟨hd.faithful charset.decoder_rewrites charset.decoder_steady hcall, ?_, ?_⟩
  · -- two units are room enough for any character
    intro hover hroom
    rw [Drive.progress_eq] at hover ⊢
    refine charset.decoder_rewrites.consumed_pos_of_overflow (fun c out h => ?_) hover hroom
    obtain rfl := Option.some.inj h
    exact Utf16.length_ofChar_le c
  · -- all is taken, or a step has stopped where a character is cut off
    rintro hunder hend rest rfl
    have hleft : charset.IsCutOff ((d.input call).drop (d.progress charset.decoder call).consumed) ∨
        charset = utf16be ∧
          Odd ((d.input call).drop (d.progress charset.decoder call).consumed).length ∧
          charset.IsCutOff
            ((d.input call).drop (d.progress charset.decoder call).consumed).dropLast := by
      rcases Drive.left_of_underflow charset.decoder_rewrites hunder hend with
        hnil | ⟨first, tail, hrest, hstep⟩
      · rw [hnil]
        exact Or.inl (isCutOff_nil charset)
      · rw [hrest]
        exact isCutOff_of_step_eq_incomplete hstep
    refine ⟨?_, hleft⟩
    rcases hleft with hcut | ⟨-, hodd, hcut⟩
    · exact hcut.length_le
    · -- four bytes would not be an odd number
      have hlength := hcut.length_le
      rw [List.length_dropLast] at hlength
      obtain ⟨k, hk⟩ := hodd
      omega

/-- A character is cut twice, and the last one ends too early: both are met as one call meets them. -/
theorem decoder_drive_truncated :
    ∃ (d : Drive UInt8 UInt16) (call : DriveCall UInt8 UInt16),
      Drive.Reachable utf8.decoder [0x61, 0xF0, 0x9F, 0x98, 0x80, 0xE2, 0x82] d ∧
      d.Admits [0x61, 0xF0, 0x9F, 0x98, 0x80, 0xE2, 0x82] call ∧
      d.given.length = 4 ∧ d.consumed = 1 ∧
      utf8.decoder.run true 3 [0x61, 0xF0, 0x9F, 0x98, 0x80, 0xE2, 0x82] =
        ⟨.malformed 2, (d.next utf8.decoder call).output, (d.next utf8.decoder call).consumed⟩ := by
  have hfirst : ({} : Drive UInt8 UInt16).next utf8.decoder ⟨[0x61, 0xF0, 0x9F], false, .zeroed 1⟩ =
      ⟨[0x61, 0xF0, 0x9F], 1, [0x61]⟩ := by cbv
  have hsecond : (⟨[0x61, 0xF0, 0x9F], 1, [0x61]⟩ : Drive UInt8 UInt16).next utf8.decoder
      ⟨[0x98], false, .zeroed 4⟩ = ⟨[0x61, 0xF0, 0x9F, 0x98], 1, [0x61]⟩ := by cbv
  have hstart : Drive.Reachable utf8.decoder [0x61, 0xF0, 0x9F, 0x98, 0x80, 0xE2, 0x82]
      ⟨[0x61, 0xF0, 0x9F], 1, [0x61]⟩ := by
    rw [← hfirst]
    exact .next .start ⟨⟨[0x98, 0x80, 0xE2, 0x82], rfl⟩, fun h => absurd h Bool.false_ne_true⟩
  have hd : Drive.Reachable utf8.decoder [0x61, 0xF0, 0x9F, 0x98, 0x80, 0xE2, 0x82]
      ⟨[0x61, 0xF0, 0x9F, 0x98], 1, [0x61]⟩ := by
    rw [← hsecond]
    exact .next hstart ⟨⟨[0x80, 0xE2, 0x82], rfl⟩, fun h => absurd h Bool.false_ne_true⟩
  let call : DriveCall UInt8 UInt16 := ⟨[0x80, 0xE2, 0x82], true, .zeroed 2⟩
  have hcall : Drive.Admits ⟨[0x61, 0xF0, 0x9F, 0x98], 1, [0x61]⟩
      [0x61, 0xF0, 0x9F, 0x98, 0x80, 0xE2, 0x82] call := ⟨⟨[], rfl⟩, fun _ => rfl⟩
  obtain ⟨hfaithful, -, -⟩ := decoder_drive hd hcall
  have hresult : (Drive.progress utf8.decoder ⟨[0x61, 0xF0, 0x9F, 0x98], 1, [0x61]⟩ call).result =
      .malformed 2 := by cbv
  refine ⟨_, call, hd, hcall, rfl, rfl, ?_⟩
  rw [← hresult]
  refine hfaithful.final ?_ 3 ?_
  · rw [hresult]
    exact trivial
  · cbv

/-- With the high byte first, the byte `0xDC` is left for the next call, though no character begins with
it: with any other half it is a low surrogate. -/
theorem not_isCutOff_of_drive :
    Drive.Reachable utf16be.decoder [0xDC] {} ∧
    Drive.Admits {} [0xDC] (⟨[0xDC], false, .zeroed 2⟩ : DriveCall UInt8 UInt16) ∧
    Drive.progress utf16be.decoder {} ⟨[0xDC], false, .zeroed 2⟩ = ⟨.underflow, [], 0⟩ ∧
    ¬ utf16be.IsCutOff [0xDC] := by
  refine ⟨.start, ⟨⟨[], rfl⟩, fun h => absurd h Bool.false_ne_true⟩, by cbv, ?_⟩
  rintro ⟨c, spelled, hspelled, hbegin, -⟩
  obtain rfl := Option.some.inj hspelled
  cases hc : Utf16.ofChar c with
  | nil => exact Utf16.ofChar_ne_nil c hc
  | cons u extra =>
    -- the first unit would be a low surrogate, and no character begins with one
    have hlow := Utf16.isLow_of_ofChar_eq_cons hc
    obtain ⟨first, second, hbytes, hunit⟩ := ByteOrder.bigEndian.exists_bytes_eq u
    rw [hc, List.flatMap_cons, hbytes] at hbegin
    obtain ⟨tail, htail⟩ := hbegin
    obtain ⟨rfl, -⟩ := List.cons.inj htail
    have hsecond := second.toNat_lt
    have hhalf : (0xDC : UInt8).toNat = 0xDC := rfl
    rw [← hunit, ← Bool.not_eq_true, Utf16.isLow_iff, ByteOrder.unit,
      ByteOrder.toNat_ofNat_low_high, hhalf] at hlow
    omega

end Charset

end RawMemory
