import Mathlib
import RawMemory.CommandLine.Run
import RawMemory.Proofs.Terminator
import RawMemory.Proofs.Text.RoundTrip

/-!
# Texts that end with a terminator

The terminator of a charset is how it spells `U+0000`, and no other character has a cell of zeros of that
width in its spelling (`Charset.noZeroCell_of_spelling`). So the first such cell of a terminated text
stands where its first `U+0000` does, and a search in memory finds what precedes it
(`Text.scansTo_of_ofText?`). That holds for every way to encode, and so the command that scans never
fails on a text that fits into memory (`Text.terminated_scansTo`).
-/

namespace RawMemory

/-! ## Cells of zeros in spellings -/

/-- Units without a zero have no cell of two bytes that is zero. -/
theorem noZeroCell_two (order : ByteOrder) {units : List UInt16} (h : 0 ∉ units) :
    NoZeroCell 2 (units.flatMap order.bytes) := by
  induction units with
  | nil => exact ⟨0, rfl, fun k hk => absurd hk (Nat.not_lt_zero k)⟩
  | cons u units ih =>
    rw [List.mem_cons, not_or] at h
    -- both bytes of the first unit zero would make the unit zero
    obtain ⟨first, second, hbytes, hunit⟩ := order.exists_bytes_eq u
    rw [List.flatMap_cons, hbytes]
    refine NoZeroCell.append ⟨1, rfl, fun k hk hzero => ?_⟩ (ih h.2)
    obtain rfl : k = 0 := by omega
    obtain rfl : first = 0 := by simpa using hzero 0 Nat.two_pos
    obtain rfl : second = 0 := by simpa using hzero 1 Nat.one_lt_two
    refine h.1 ?_
    rw [← hunit]
    cases order <;> rfl

/-- A character of number zero is `U+0000`. -/
theorem eq_nul_of_toNat_eq_zero {c : Char} (h : c.toNat = 0) : c = '\x00' := by
  rw [← Char.ofNat_toNat c, h]

/-- Only `U+0000` has a zero byte in UTF-8. -/
theorem Utf8.zero_notMem_utf8EncodeChar {c : Char} (hc : c ≠ '\x00') :
    0 ∉ String.utf8EncodeChar c := by
  intro hzero
  rcases (Utf8.represents_utf8EncodeChar c).le_of_mem with ⟨a, hbytes, hn⟩ | hlarge
  · rw [hbytes] at hzero
    obtain rfl := List.mem_singleton.mp hzero
    exact hc (eq_nul_of_toNat_eq_zero hn)
  · exact absurd (hlarge 0 hzero) (by decide)

/-- Only `U+0000` has a zero unit in UTF-16. -/
theorem Utf16.zero_notMem_ofChar {c : Char} (hc : c ≠ '\x00') : 0 ∉ Utf16.ofChar c := by
  have hspells := Utf16.spells_ofChar c
  intro hzero
  generalize Utf16.ofChar c = units at hspells hzero
  cases hspells with
  | unit hhigh hlow =>
    obtain rfl := List.mem_singleton.mp hzero
    exact hc rfl
  | pair hhigh hlow =>
    rcases List.mem_pair.mp hzero with rfl | rfl
    · exact absurd hhigh (by decide)
    · exact absurd hlow (by decide)

namespace Charset

/-- `U+0000` is spelled by the terminator. -/
theorem spelling_nul (charset : Charset) :
    charset.spelling '\x00' = some (List.replicate charset.terminatorLength 0) := by
  cases charset <;> rfl

/-- The other characters have no cell of zeros. -/
theorem noZeroCell_of_spelling {charset : Charset} {c : Char} {bytes : List UInt8}
    (hc : c ≠ '\x00') (h : charset.spelling c = some bytes) :
    NoZeroCell charset.terminatorLength bytes := by
  have honeByte : ∀ last, last ≤ 0xFF → oneByte last c = some bytes → NoZeroCell 1 bytes := by
    intro last hlast h
    obtain ⟨b, -, rfl, rfl⟩ := (oneByte_eq_some_iff hlast).mp h
    refine noZeroCell_one fun hzero => hc ?_
    rw [← List.mem_singleton.mp hzero]
    rfl
  -- cells are as wide as the units of the charset
  cases charset with
  | usAscii => exact honeByte _ (by decide) h
  | latin1 => exact honeByte _ (by decide) h
  | utf8 =>
    obtain rfl := Option.some.inj h
    exact noZeroCell_one (Utf8.zero_notMem_utf8EncodeChar hc)
  | utf16le =>
    obtain rfl := Option.some.inj h
    exact noZeroCell_two _ (Utf16.zero_notMem_ofChar hc)
  | utf16be =>
    obtain rfl := Option.some.inj h
    exact noZeroCell_two _ (Utf16.zero_notMem_ofChar hc)

theorem noZeroCell_of_ofText? {charset : Charset} {text : List Char} {bytes : List UInt8}
    (hnul : '\x00' ∉ text) (h : charset.spelling.ofText? text = some bytes) :
    NoZeroCell charset.terminatorLength bytes := by
  induction text generalizing bytes with
  | nil =>
    obtain rfl : [] = bytes := by simpa using h
    exact ⟨0, rfl, fun k hk => absurd hk (Nat.not_lt_zero k)⟩
  | cons c text ih =>
    rw [List.mem_cons, not_or] at hnul
    obtain ⟨first, rest, hc, hrest, rfl⟩ := Spelling.ofText?_cons_eq_some_iff.mp h
    exact (noZeroCell_of_spelling (Ne.symm hnul.1) hc).append (ih hnul.2 hrest)

end Charset

/-! ## The text in front of the first zero character -/

namespace Text

/-- The part of a text before its first `U+0000`, or all of the text if there is none. -/
def beforeNul (text : String) : String :=
  String.ofList (text.toList.takeWhile (· ≠ '\x00'))

/-- A terminated text is the part before its first `U+0000`, that character, and a rest. -/
theorem exists_append_nul_eq (text : List Char) :
    ∃ tail, text ++ ['\x00'] = text.takeWhile (· ≠ '\x00') ++ '\x00' :: tail := by
  induction text with
  | nil => exact ⟨[], rfl⟩
  | cons c text ih =>
    by_cases hc : c = '\x00'
    · subst hc
      exact ⟨text ++ ['\x00'], rfl⟩
    · obtain ⟨tail, htail⟩ := ih
      refine ⟨tail, ?_⟩
      rw [List.takeWhile_cons_of_pos (by simpa using hc), List.cons_append, List.cons_append, htail]

/-- Wherever memory holds the bytes `full`, the search for a terminator gives a view of the bytes `part`,
in every mode and with every accessor that makes views as it promises. Together with the terminator these are
no more than `full`. -/
def ScansTo (width : Nat) (full part : List UInt8) : Prop :=
  part.length + width ≤ full.length ∧
    ∀ (h : Handle) (m : Store) (a : Address), h.accessor.Documented → m.Holds a full →
      ∃ v, h.viewToZero width m a = .ok (some v) ∧ v.address = a ∧
        v.capacity.toNat = part.length ∧ v.remainingBytes m = part

/-- In the spelling of a terminated text the search finds that of the part before the first `U+0000`. -/
theorem scansTo_of_ofText? {charset : Charset} {text : List Char} {full : List UInt8}
    (h : charset.spelling.ofText? (text ++ ['\x00']) = some full) :
    ∃ part, charset.spelling.ofText? (text.takeWhile (· ≠ '\x00')) = some part ∧
      ScansTo charset.terminatorLength full part := by
  obtain ⟨tail, htail⟩ := exists_append_nul_eq text
  rw [htail] at h
  -- the spelling falls into that of the part, of `U+0000`, and of what is left
  obtain ⟨part, rest, hpart, hrest, rfl⟩ := Spelling.ofText?_append_eq_some_iff.mp h
  obtain ⟨zeros, last, hzeros, -, rfl⟩ := Spelling.ofText?_cons_eq_some_iff.mp hrest
  rw [charset.spelling_nul] at hzeros
  obtain rfl := Option.some.inj hzeros
  have hnul : '\x00' ∉ text.takeWhile (· ≠ '\x00') := by
    intro hmem
    simpa using List.mem_takeWhile_imp hmem
  obtain ⟨n, hn, hfirst⟩ := (Charset.noZeroCell_of_ofText? hnul hpart).isFirstZeroCell last
  refine ⟨part, hpart, ?_, fun handle m a hacc hm => ?_⟩
  · simp only [List.length_append, List.length_replicate]
    omega
  · have hwidth : charset.terminatorLength = 1 ∨ charset.terminatorLength = 2 := by
      cases charset <;> simp [Charset.terminatorLength]
    have hle := hm.length_lt
    refine ⟨_, Handle.viewToZero_eq hacc hwidth hm hfirst, rfl, ?_, ?_⟩
    · rw [← hn, UInt64.toNat_ofNat', Nat.mod_eq_of_lt]
      simp only [List.length_append] at hle
      omega
    · rw [← hn, hm.remainingBytes_eq (by simp), List.take_left]

/-- A terminated encoding is the plain one with zeros behind it. -/
theorem encode_nullTerminated {charset : Charset} {text : String} {bytes : List UInt8}
    (h : (encode charset text .unterminated).value = .ok bytes) :
    (encode charset text .nullTerminated).value =
      .ok (bytes ++ List.replicate charset.terminatorLength 0) := by
  rw [encode_eq_ok_iff, terminator, List.append_nil] at h
  rw [encode_eq_ok_iff, terminator, Spelling.ofText?_append_eq_some_iff]
  refine ⟨bytes, List.replicate charset.terminatorLength 0, h, ?_, rfl⟩
  rw [Spelling.ofText?_cons_eq_some_iff]
  exact ⟨_, [], charset.spelling_nul, rfl, (List.append_nil _).symm⟩

@[simp] theorem toList_beforeNul (text : String) :
    (beforeNul text).toList = text.toList.takeWhile (· ≠ '\x00') := String.toList_ofList

/-- In the spelling of a terminated text the search finds the spelling of the part before its first
`U+0000`. -/
theorem scansTo_of_spellings {charset : Charset} {text : String} {full part : List UInt8}
    (hfull : charset.spelling.ofText? (text.toList ++ terminator .nullTerminated) = some full)
    (hpart : charset.spelling.ofText? ((beforeNul text).toList ++ terminator .unterminated) =
      some part) : ScansTo charset.terminatorLength full part := by
  obtain ⟨found, hfound, hscan⟩ := scansTo_of_ofText? hfull
  rw [terminator, List.append_nil, toList_beforeNul, hfound] at hpart
  rwa [← Option.some.inj hpart]

/-- The search finds the encoding of the part before the first `U+0000`, which is encoded if all of the
text is. -/
theorem encode_scansTo {charset : Charset} {text : String} {full : List UInt8}
    (h : (encode charset text .nullTerminated).value = .ok full) :
    ∃ part, (encode charset (beforeNul text) .unterminated).value = .ok part ∧
      (decode charset part).value = .ok (beforeNul text) ∧
      ScansTo charset.terminatorLength full part := by
  rw [encode_eq_ok_iff] at h
  obtain ⟨part, hpart, hscan⟩ := scansTo_of_ofText? h
  rw [← toList_beforeNul] at hpart
  refine ⟨part, ?_, decode_eq_ok_iff.mpr hpart, hscan⟩
  rw [encode_eq_ok_iff, terminator, List.append_nil, hpart]

/-- The wide encoder and decoder do the same for native UTF-16. -/
theorem encodeWide_scansTo (text : String) :
    decodeWide (encodeWide (beforeNul text) .unterminated) = beforeNul text ∧
      ScansTo 2 (encodeWide text .nullTerminated) (encodeWide (beforeNul text) .unterminated) := by
  have hpart := ofText?_utf16_eq_encodeWide (beforeNul text) .unterminated
  refine ⟨?_, scansTo_of_spellings (ofText?_utf16_eq_encodeWide text .nullTerminated) hpart⟩
  rw [terminator, List.append_nil] at hpart
  rw [decodeWide_of_ofText? hpart, String.ofList_toList]

/-- The narrow encoder and decoder do the same for ASCII text. -/
theorem encodeNarrow_scansTo {text : String} (h : ∀ c ∈ text.toList, c.toNat ≤ 0x7F) :
    decodeNarrow (encodeNarrow (beforeNul text) .unterminated) = beforeNul text ∧
      ScansTo 1 (encodeNarrow text .nullTerminated)
        (encodeNarrow (beforeNul text) .unterminated) := by
  have hbefore : ∀ c ∈ (beforeNul text).toList, c.toNat ≤ 0x7F := by
    intro c hc
    rw [toList_beforeNul] at hc
    exact h c ((List.takeWhile_prefix _).subset hc)
  have hfull : Charset.usAscii.spelling.ofText? (text.toList ++ terminator .nullTerminated) =
      some (encodeNarrow text .nullTerminated) :=
    ofText?_oneByte_eq_encodeNarrow (by decide) h .nullTerminated
  have hpart := ofText?_oneByte_eq_encodeNarrow (by decide) hbefore .unterminated
  refine ⟨?_, scansTo_of_spellings hfull hpart⟩
  rw [terminator, List.append_nil] at hpart
  rw [decodeNarrow_of_ofText? (by decide) hpart, String.ofList_toList]

end Text

/-! ## The command that scans -/

namespace CommandLine

/-- The scan ends well whenever its bytes fit into memory. -/
theorem value_scan {h : Handle} {heap : Heap} (hacc : h.accessor.Documented)
    (halloc : heap.allocator.Documented) {text found : String} {wide : Bool} {full part : List UInt8}
    (hfull : (terminated text wide).value = .ok full)
    (hscan : Text.ScansTo (if wide then 2 else 1) full part)
    (hfound : (decoded part wide).value = .ok found) :
    (scan h heap text wide).run.value = (heap.ofBytes full).map fun made =>
      ⟨made.1.address, UInt64.ofNat part.length, some found⟩ := by
  simp only [scan, Job.value_bind, Job.value_mk, hfull, Traced.value_pure]
  -- all that can fail is to find room for the bytes
  change (heap.ofBytes full >>= _) = _
  cases hmade : heap.ofBytes full with
  | error e => rfl
  | ok made =>
    -- the buffer holds the bytes, so the search finds the part in front of the terminator
    obtain ⟨v, hv, -, hcapacity, hbytes⟩ :=
      hscan.2 h made.2.store made.1.address hacc (Heap.holds_of_ofBytes halloc hmade)
    have hfind : (if wide = true then h.viewToZeroUnit else h.viewToZeroByte) made.2.store
        made.1.address = .ok (some v) := by
      rw [← hv]
      cases wide <;> rfl
    have hlength : v.capacity = UInt64.ofNat part.length := by
      rw [← hcapacity, UInt64.ofNat_toNat]
    change ((if wide = true then h.viewToZeroUnit else h.viewToZeroByte) made.2.store
        made.1.address >>= _) = _
    rw [hfind]
    change ((ExceptT.mk _ >>= _ : Job Scan).run.value) = _
    rw [Job.value_bind, Job.value_mk, hbytes, hfound, ← hlength]
    rfl

/-- Every text can be scanned: there are bytes to put into memory, and what is found in front of their
terminator is decoded. -/
theorem exists_terminated (text : String) (wide : Bool) :
    ∃ full part, (terminated text wide).value = .ok full ∧
      Text.ScansTo (if wide then 2 else 1) full part ∧
      (decoded part wide).value = .ok (Text.beforeNul text) := by
  cases wide with
  | true =>
    obtain ⟨hdecode, hscan⟩ := Text.encodeWide_scansTo text
    exact ⟨_, _, rfl, hscan, congrArg Except.ok hdecode⟩
  | false =>
    have hfull : (Text.encode .utf8 text .nullTerminated).value = .ok _ :=
      Text.encode_eq_ok_iff.mpr (Spelling.ofText?_total String.utf8EncodeChar _)
    obtain ⟨part, -, hdecode, hscan⟩ := Text.encode_scansTo hfull
    exact ⟨_, part, hfull, hscan, hdecode⟩

end CommandLine

/-! ## Every way to encode -/

/-- A text, terminated in whatever way, is scanned up to its first `U+0000`. This holds for every charset
that can encode the text, for the wide encoder, for the narrow one on ASCII text, and for the command
that scans, which fails for want of memory alone. -/
theorem Text.terminated_scansTo (text : String) :
    (∀ charset bytes, (encode charset text .unterminated).value = .ok bytes →
      ∃ full part, full = bytes ++ List.replicate charset.terminatorLength 0 ∧
        (encode charset text .nullTerminated).value = .ok full ∧
        (encode charset (beforeNul text) .unterminated).value = .ok part ∧
        (decode charset part).value = .ok (beforeNul text) ∧
        ScansTo charset.terminatorLength full part) ∧
    (encodeWide text .nullTerminated = encodeWide text .unterminated ++ [0, 0] ∧
      decodeWide (encodeWide (beforeNul text) .unterminated) = beforeNul text ∧
      ScansTo 2 (encodeWide text .nullTerminated) (encodeWide (beforeNul text) .unterminated)) ∧
    ((∀ c ∈ text.toList, c.toNat ≤ 0x7F) →
      encodeNarrow text .nullTerminated = encodeNarrow text .unterminated ++ [0] ∧
      decodeNarrow (encodeNarrow (beforeNul text) .unterminated) = beforeNul text ∧
      ScansTo 1 (encodeNarrow text .nullTerminated)
        (encodeNarrow (beforeNul text) .unterminated)) ∧
    ∀ (h : Handle) (heap : Heap) (wide : Bool), h.accessor.Documented → heap.allocator.Documented →
      ∃ full part,
      (CommandLine.terminated text wide).value = .ok full ∧
      (CommandLine.decoded part wide).value = .ok (beforeNul text) ∧
      ((CommandLine.Command.scan text wide).perform h heap).run.value =
        (heap.ofBytes full).map fun made =>
          CommandLine.Scan.report
            ⟨made.1.address, UInt64.ofNat part.length, some (beforeNul text)⟩ wide := by
  refine ⟨fun charset bytes h => ?_, ⟨?_, encodeWide_scansTo text⟩,
    fun h => ⟨?_, encodeNarrow_scansTo h⟩, fun h heap wide hacc halloc => ?_⟩
  · -- the terminator is spelled behind the text, and the search ends at the first cell of zeros
    have hfull := encode_nullTerminated h
    obtain ⟨part, hpart, hdecode, hscan⟩ := encode_scansTo hfull
    exact ⟨_, part, rfl, hfull, hpart, hdecode, hscan⟩
  · rw [encodeWide, units, List.flatMap_append]
    rfl
  · rw [encodeNarrow, units, List.map_append]
    rfl
  · -- the program makes a buffer of the bytes, and searches there
    obtain ⟨full, part, hfull, hscan, hdecode⟩ := CommandLine.exists_terminated text wide
    refine ⟨full, part, hfull, hdecode, ?_⟩
    rw [CommandLine.Command.perform, CommandLine.Job.value_bind,
      CommandLine.value_scan hacc halloc hfull hscan hdecode]
    cases heap.ofBytes full <;> rfl

/-- Of a text with a `U+0000` inside, a checked search finds what is in front of it. -/
theorem Text.terminated_scansTo_interior :
    ∃ (m : Store) (v : View .byte),
      m.Holds ⟨0x1000⟩ [0, 0x61, 0, 0, 0, 0x62, 0, 0] ∧
        Handle.viewToZero ⟨.portable, true⟩ 2 m ⟨0x1000⟩ = .ok (some v) ∧ v.capacity.toNat = 2 ∧
        (decode .utf16be (v.remainingBytes m)).value = .ok "a" := by
  have hbytes : (encode .utf16be "a\x00b" .unterminated).value =
      .ok [0, 0x61, 0, 0, 0, 0x62] := encode_eq_ok_iff.mpr (by decide)
  have hbefore : beforeNul "a\x00b" = "a" := by decide
  obtain ⟨full, part, rfl, -, hpart, hdecode, -, hscan⟩ :=
    (terminated_scansTo "a\x00b").1 .utf16be _ hbytes
  have hholds : (Store.zero.write ⟨0x1000⟩ #[0, 0x61, 0, 0, 0, 0x62, 0, 0]).Holds ⟨0x1000⟩
      [0, 0x61, 0, 0, 0, 0x62, 0, 0] := ⟨by decide, by decide, Store.read_write _ _ (by decide)⟩
  obtain ⟨v, hv, -, hcapacity, hfound⟩ :=
    hscan ⟨.portable, true⟩ _ _ (Accessor.documented_ofKind .portable) hholds
  rw [hbefore] at hpart hdecode
  obtain rfl : [0, 0x61] = part :=
    Except.ok.inj ((encode_eq_ok_iff.mpr (by decide)).symm.trans hpart)
  exact ⟨_, v, hholds, hv, hcapacity, by rw [hfound, hdecode]⟩

end RawMemory
