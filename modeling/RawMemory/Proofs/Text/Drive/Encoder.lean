import Mathlib
import RawMemory.Proofs.Text.Drive
import RawMemory.Proofs.Text.Encoding

/-!
# Encoding piece by piece

What an encoder says of a character does not change when more units follow, except that a high surrogate
at the end of a piece waits for its partner (`Charset.encoder_steady`). So a drive of an encoder gives the
same bytes wherever the units are cut and whatever room there is, and ends alike
(`Charset.encoder_drive`).
-/

namespace RawMemory.Charset

theorem encoder_steady (charset : Charset) : charset.encoder.Steady where
  stop_append {first rest obstacle} h hne atEnd more := by
    rw [charset.encoder_step] at h ⊢
    -- only units that are left open are looked at again
    have hopen : Utf16.head false first rest ≠ .incomplete := by
      intro hhead
      rw [hhead] at h
      exact hne (CoderStep.stop.inj h).symm
    rw [Utf16.head_append hopen atEnd more]
    exact h

/-- Within the input an encoder waits for nothing but the partner of a high surrogate. -/
theorem encoder_step_eq_incomplete {charset : Charset} {first : UInt16} {rest : List UInt16}
    (h : charset.encoder.step false first rest = .stop .incomplete) :
    Utf16.isHigh first = true ∧ rest = [] := by
  rw [charset.encoder_step] at h
  cases hhead : Utf16.head false first rest with
  | char c extra =>
    rw [hhead] at h
    dsimp only at h
    split at h <;> cases h
  | incomplete =>
    obtain ⟨hhigh, hrest, -⟩ := Utf16.head_eq_incomplete_iff.mp hhead
    exact ⟨hhigh, hrest⟩
  | malformed =>
    rw [hhead] at h
    cases h

/-- Units that are encoded piece by piece, cut anywhere, with any room in each call. A call writes the
spelling of what it takes and nothing else, and the drive ends as one call on all units does. A call that
runs out of room although there were four bytes has taken a unit, and one that wants more units has left
at most a high surrogate. -/
theorem encoder_drive {charset : Charset} {units : List UInt16} {d : Drive UInt16 UInt8}
    {call : DriveCall UInt16 UInt8} (hd : Drive.Reachable charset.encoder units d)
    (hcall : d.Admits units call) :
    d.Faithful charset.encoder Utf16.spelling charset.spelling units call ∧
    ((d.progress charset.encoder call).result = .overflow → 4 ≤ call.output.room →
      0 < (d.progress charset.encoder call).consumed) ∧
    ((d.progress charset.encoder call).result = .underflow → call.atEnd = false →
      (d.input call).drop (d.progress charset.encoder call).consumed = [] ∨
        ∃ u, Utf16.isHigh u = true ∧
          (d.input call).drop (d.progress charset.encoder call).consumed = [u]) := by
  refine ⟨hd.faithful charset.encoder_rewrites charset.encoder_steady hcall, ?_, ?_⟩
  · -- four bytes are room enough for any character
    intro hover hroom
    rw [Drive.progress_eq] at hover ⊢
    exact charset.encoder_rewrites.consumed_pos_of_overflow (fun c out h => length_spelling_le h)
      hover hroom
  · intro hunder hend
    rcases Drive.left_of_underflow charset.encoder_rewrites hunder hend with
      hnil | ⟨first, tail, hrest, hstep⟩
    · exact Or.inl hnil
    · obtain ⟨hhigh, rfl⟩ := encoder_step_eq_incomplete hstep
      exact Or.inr ⟨first, hhigh, hrest⟩

/-- A surrogate pair is cut in the middle, and when both halves are there a call has no room for them. The
next call writes the pair behind a byte that its output has already. -/
theorem encoder_drive_pair :
    ∃ (d : Drive UInt16 UInt8) (call : DriveCall UInt16 UInt8),
      Drive.Reachable utf8.encoder [0x41, 0xD83D, 0xDE00] d ∧
      d.Admits [0x41, 0xD83D, 0xDE00] call ∧ d.consumed = 1 ∧ call.output.content = [0x2A] ∧
      (d.filled utf8.encoder call).output.content = [0x2A, 0xF0, 0x9F, 0x98, 0x80] ∧
      utf8.encoder.run true 5 [0x41, 0xD83D, 0xDE00] =
        ⟨.underflow, (d.next utf8.encoder call).output, (d.next utf8.encoder call).consumed⟩ := by
  -- the high surrogate waits for its partner, and then both of them for room
  have hfirst : ({} : Drive UInt16 UInt8).next utf8.encoder ⟨[0x41, 0xD83D], false, .zeroed 1⟩ =
      ⟨[0x41, 0xD83D], 1, [0x41]⟩ := by cbv
  have hsecond : (⟨[0x41, 0xD83D], 1, [0x41]⟩ : Drive UInt16 UInt8).next utf8.encoder
      ⟨[0xDE00], true, .zeroed 3⟩ = ⟨[0x41, 0xD83D, 0xDE00], 1, [0x41]⟩ := by cbv
  have hstart : Drive.Reachable utf8.encoder [0x41, 0xD83D, 0xDE00]
      ⟨[0x41, 0xD83D], 1, [0x41]⟩ := by
    rw [← hfirst]
    exact .next .start ⟨⟨[0xDE00], rfl⟩, fun h => absurd h Bool.false_ne_true⟩
  have hd : Drive.Reachable utf8.encoder [0x41, 0xD83D, 0xDE00]
      ⟨[0x41, 0xD83D, 0xDE00], 1, [0x41]⟩ := by
    rw [← hsecond]
    exact .next hstart ⟨⟨[], rfl⟩, fun _ => rfl⟩
  let call : DriveCall UInt16 UInt8 := ⟨[], true, (Output.zeroed 6).write [0x2A]⟩
  have hcall : Drive.Admits ⟨[0x41, 0xD83D, 0xDE00], 1, [0x41]⟩ [0x41, 0xD83D, 0xDE00] call :=
    ⟨⟨[], rfl⟩, fun _ => rfl⟩
  obtain ⟨hfaithful, -, -⟩ := encoder_drive hd hcall
  refine ⟨_, call, hd, hcall, rfl, by decide, ?_, ?_⟩
  · rw [hfaithful.content_eq]
    cbv
  · have hresult : (Drive.progress utf8.encoder ⟨[0x41, 0xD83D, 0xDE00], 1, [0x41]⟩ call).result =
        .underflow := by cbv
    rw [← hresult]
    refine hfaithful.final ?_ 5 ?_
    · rw [hresult]
      rfl
    · cbv

end RawMemory.Charset
