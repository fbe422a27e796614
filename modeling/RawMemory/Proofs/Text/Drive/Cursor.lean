import RawMemory.Proofs.Text.Recovery

/-!
# The cursor of a coder driven by hand

A caller codes, flushes, resets and moves the cursor in any order. Whatever the order, the cursor goes on
in the same input, never back and never beyond the end (`Coder.Leads`, `Coder.KeepsCursor`).

A coder moves the cursor itself, by one character at a time. The lengths come from the input, but each lies
within what is left, so that no such move is cut short at the end and none aims at a position that is no
word (`Coder.Walks`, `Coder.Measured.walks_run`). A caller may name any word for a length. The position that
is aimed at is the sum, also where it lies beyond the end; if the sum is no word there is no answer
(`Cursor.advanceWord?_eq_none_iff`, `Charset.not_answered_beyond_words`).
-/

namespace RawMemory

namespace Cursor

variable {α : Type} {c : Cursor α} {m n : Nat} {count : UInt64}

theorem advance_zero (hle : c.position ≤ c.items.length) : c.advance 0 = c := by
  rw [advance, Nat.add_zero, Nat.min_eq_left hle]

/-- To advance twice is to advance by both. -/
theorem advance_advance (c : Cursor α) (m n : Nat) : (c.advance m).advance n = c.advance (m + n) := by
  simp only [advance, Cursor.mk.injEq, true_and]
  omega

/-- Where the sum is a word, the cursor advances. -/
theorem advanceWord?_eq_some (h : c.position + count.toNat < 2 ^ 64) :
    c.advanceWord? count = some (c.advance count.toNat) := if_pos h

/-- Only a position beyond all words cannot be aimed at. -/
theorem advanceWord?_eq_none_iff :
    c.advanceWord? count = none ↔ 2 ^ 64 ≤ c.position + count.toNat := by
  rw [advanceWord?, ite_eq_right_iff, ← Nat.not_lt]
  exact forall_congr' fun _ => iff_of_false nofun id

end Cursor

namespace Coder

variable {α β : Type} {coder : Coder α β} {c after : Cursor α} {items : List α}

/-! ## The moves of a coder -/

/-- A cursor goes to another by the steps of a coder, one character at a time. The position behind each
character is a word, and it lies within the input. -/
inductive Walks (coder : Coder α β) (atEnd : Bool) : Cursor α → Cursor α → Prop
  | refl (c : Cursor α) : Walks coder atEnd c c
  | step {c next last : Cursor α} {first : α} {rest : List α} {out : List β} {extra : Nat}
    (hrest : c.rest = first :: rest) (hstep : coder.step atEnd first rest = .emit out extra)
    (hnext : c.advanceWord? (UInt64.ofNat (extra + 1)) = some next)
    (hposition : next.position = c.position + (extra + 1)) (hlast : Walks coder atEnd next last) :
    Walks coder atEnd c last

/-- A call moves the cursor by steps none of which goes beyond the end. -/
theorem Measured.walks_run {k : Nat} (hm : coder.Measured k) (atEnd : Bool) (room : Nat)
    (hle : c.position ≤ c.items.length) (hlength : c.items.length < 2 ^ 64) :
    coder.Walks atEnd c (c.advance (coder.run atEnd room c.rest).consumed) := by
  generalize hinput : c.rest = input
  -- along the steps that a call with room for all of them takes, until there is no room
  fun_induction coder.code atEnd input generalizing room c with
  | case1 =>
    rw [run_nil, Cursor.advance_zero hle]
    exact .refl c
  | case2 first rest obstacle hstep =>
    rw [run_of_stop hstep, Cursor.advance_zero hle]
    exact .refl c
  | case3 first rest out extra hstep ih =>
    by_cases hroom : out.length ≤ room
    · have hextra := (hm.emit hstep).1
      have hleft : rest.length + 1 = c.items.length - c.position := by
        rw [← List.length_cons, ← hinput, Cursor.length_rest, Cursor.remaining]
      have hposition : (c.advance (extra + 1)).position = c.position + (extra + 1) := by
        rw [Cursor.position_advance, Nat.min_eq_left (by omega)]
      have hword : (UInt64.ofNat (extra + 1)).toNat = extra + 1 := by
        rw [UInt64.toNat_ofNat', Nat.mod_eq_of_lt (by omega)]
      have hnext : c.advanceWord? (UInt64.ofNat (extra + 1)) = some (c.advance (extra + 1)) := by
        rw [Cursor.advanceWord?_eq_some (by omega), hword]
      have hrest : (c.advance (extra + 1)).rest = rest.drop extra := by
        rw [Cursor.rest_advance, hinput, List.drop_succ_cons]
      have hend : (c.advance (extra + 1)).position ≤ (c.advance (extra + 1)).items.length :=
        Nat.min_le_right _ _
      have hwalks := ih (room - out.length) hend hlength hrest
      rw [run_of_emit_of_le hstep hroom, Progress.followedBy, emitted, ← Cursor.advance_advance]
      exact .step hinput hstep hnext hposition hwalks
    · rw [run_of_emit hstep, if_neg hroom, Cursor.advance_zero hle]
      exact .refl c

/-! ## Calls in any order -/

/-- Calls lead from a cursor to another, each with an answer. -/
inductive Leads (coder : Coder α β) : Cursor α → Cursor α → Prop
  | refl (c : Cursor α) : Leads coder c c
  | call {start c after : Cursor α} {call : CoderCall} {answer : CoderAnswer β}
    (h : Leads coder start c) (hcall : coder.answer c call = some (answer, after)) :
    Leads coder start after

/-- The cursor stands in an input, at its end at most. -/
structure Within (items : List α) (c : Cursor α) : Prop where
  items_eq : c.items = items
  position_le : c.position ≤ items.length

theorem within_ofList (items : List α) : Within items (.ofList items) := ⟨rfl, Nat.zero_le _⟩

/-- A call leaves the cursor in the input, and does not move it back. -/
theorem Within.answer (hc : Within items c) {call : CoderCall} {answer : CoderAnswer β}
    (h : coder.answer c call = some (answer, after)) :
    Within items after ∧ c.position ≤ after.position := by
  have hadvance : ∀ n, Within items (c.advance n) ∧ c.position ≤ (c.advance n).position := by
    intro n
    have hle := hc.position_le
    have hposition := c.position_advance n
    rw [hc.items_eq] at hposition
    exact ⟨⟨hc.items_eq, by omega⟩, by omega⟩
  cases call with
  | code room atEnd =>
    obtain ⟨-, rfl⟩ := Prod.mk.inj (Option.some.inj h)
    exact hadvance _
  | flush _ | reset =>
    obtain ⟨-, rfl⟩ := Prod.mk.inj (Option.some.inj h)
    exact ⟨hc, le_rfl⟩
  | advance count =>
    -- where the sum is a word, a cursor moved by hand is moved as a coder moves it
    obtain ⟨next, hnext, hanswer⟩ := Option.map_eq_some_iff.mp h
    obtain ⟨-, rfl⟩ := Prod.mk.inj hanswer
    rw [Cursor.advanceWord?, Option.ite_none_right_eq_some] at hnext
    rw [← Option.some.inj hnext.2]
    exact hadvance _

/-- So do any calls. -/
theorem Leads.within (h : coder.Leads c after) (hc : Within items c) :
    Within items after ∧ c.position ≤ after.position := by
  induction h with
  | refl => exact ⟨hc, le_rfl⟩
  | call _ hcall ih =>
    obtain ⟨hwithin, hle⟩ := ih
    obtain ⟨hafter, hmore⟩ := hwithin.answer hcall
    exact ⟨hafter, hle.trans hmore⟩

/-- A cursor is in the input as it should be, and so are those that further calls lead to. -/
structure KeepsCursor (coder : Coder α β) (items : List α) (c : Cursor α) : Prop where
  items_eq : c.items = items
  position_le : c.position ≤ items.length
  /-- The items before the cursor and those left are as many as there are. -/
  position_add_remaining : c.position + c.remaining = items.length
  /-- What is left is the input without the items before the cursor. -/
  take_append_rest : items.take c.position ++ c.rest = items
  /-- The cursor does not move back, whatever is called. -/
  monotone : ∀ later, coder.Leads c later → c.position ≤ later.position
  /-- Coding is answered. It writes into the room that there is, and no move of the cursor on the way is
  cut short or aims beyond the words. -/
  code : ∀ room atEnd, ∃ answer after, coder.answer c (.code room atEnd) = some (answer, after) ∧
    answer.output.length ≤ room ∧ coder.Walks atEnd c after
  /-- Flushing does nothing. -/
  flush : ∀ room, coder.answer c (.flush room) = some (idle, c)
  /-- Nor does resetting. -/
  reset : coder.answer c .reset = some (idle, c)
  /-- A move over any number of items stops at the end, as long as it aims at a word. -/
  advance : ∀ count, c.position + count.toNat < 2 ^ 64 →
    coder.answer c (.advance count) = some (idle, ⟨items, min (c.position + count.toNat) items.length⟩)
  /-- There is no answer to other moves, and to no other call. -/
  not_answered : ∀ call, coder.answer c call = none ↔
    ∃ count, call = .advance count ∧ 2 ^ 64 ≤ c.position + count.toNat

/-- Only an advance can remain without an answer, and only if the sum is no word. -/
theorem answer_eq_none_iff (coder : Coder α β) (c : Cursor α) (call : CoderCall) :
    coder.answer c call = none ↔
      ∃ count, call = .advance count ∧ 2 ^ 64 ≤ c.position + count.toNat := by
  cases call with
  | code room atEnd => exact iff_of_false nofun nofun
  | flush room => exact iff_of_false nofun nofun
  | reset => exact iff_of_false nofun nofun
  | advance count =>
    rw [answer, Option.map_eq_none_iff, Cursor.advanceWord?_eq_none_iff]
    simp

/-- A cursor that a coder leads has passed over what was consumed. -/
theorem Measured.keepsCursor {k : Nat} (hm : coder.Measured k) (hlength : items.length < 2 ^ 64)
    (h : coder.Leads (.ofList items) c) : coder.KeepsCursor items c := by
  have hc : Within items c := (h.within (within_ofList items)).1
  obtain ⟨rfl, hle⟩ := hc
  exact {
    items_eq := rfl
    position_le := hle
    position_add_remaining := Nat.add_sub_cancel' hle
    take_append_rest := List.take_append_drop _ _
    monotone := fun later hlater => (hlater.within ⟨rfl, hle⟩).2
    code := fun room atEnd => ⟨_, _, rfl, coder.length_output_le atEnd room c.rest,
      hm.walks_run atEnd room hle hlength⟩
    flush := fun _ => rfl
    reset := rfl
    advance := fun count haims => by
      rw [answer, Cursor.advanceWord?_eq_some haims]
      rfl
    not_answered := coder.answer_eq_none_iff c }

end Coder

namespace Charset

/-- The cursors of all encoders and decoders, after any calls. A call is answered unless it is a move of the
caller's that aims at no word. -/
theorem coders_keep_cursor (charset : Charset) :
    (∀ (units : List UInt16) (c : Cursor UInt16), units.length < 2 ^ 64 →
      charset.encoder.Leads (.ofList units) c → charset.encoder.KeepsCursor units c) ∧
    ∀ (bytes : List UInt8) (c : Cursor UInt8), bytes.length < 2 ^ 64 →
      charset.decoder.Leads (.ofList bytes) c → charset.decoder.KeepsCursor bytes c :=
  ⟨fun _ _ hlength h => charset.encoder_measured.keepsCursor hlength h,
    fun _ _ hlength h => charset.decoder_measured.keepsCursor hlength h⟩

/-- A decoder stops inside a character at the end of a piece, and the caller then moves to the end by the
largest number that can be named. -/
theorem coders_keep_cursor_largest :
    ∃ c : Cursor UInt8, utf8.decoder.Leads (.ofList [0x61, 0xF0, 0x9F]) c ∧ c.position = 1 ∧
      c.remaining = 2 ∧ utf8.decoder.KeepsCursor [0x61, 0xF0, 0x9F] c ∧
      utf8.decoder.answer c (.advance 0xFFFFFFFFFFFFFFFE) =
        some (Coder.idle, ⟨[0x61, 0xF0, 0x9F], 3⟩) := by
  have hcode : utf8.decoder.answer (.ofList [0x61, 0xF0, 0x9F]) (.code 4 false) =
      some (⟨.underflow, [0x61]⟩, ⟨[0x61, 0xF0, 0x9F], 1⟩) := by cbv
  have hleads : utf8.decoder.Leads (.ofList [0x61, 0xF0, 0x9F]) ⟨[0x61, 0xF0, 0x9F], 1⟩ :=
    .call (.refl _) hcode
  have hkeeps := (coders_keep_cursor utf8).2 _ _ (by decide) hleads
  exact ⟨_, hleads, rfl, rfl, hkeeps, hkeeps.advance 0xFFFFFFFFFFFFFFFE (by decide)⟩

/-- One number more aims beyond the words, and is not answered though the end is near. -/
theorem not_answered_beyond_words :
    ∃ c : Cursor UInt16, usAscii.encoder.Leads (.ofList [0x61, 0x62]) c ∧ c.position = 1 ∧
      usAscii.encoder.answer c (.advance 0xFFFFFFFFFFFFFFFF) = none := by
  have hadvance : usAscii.encoder.answer (.ofList [0x61, 0x62]) (.advance 1) =
      some (Coder.idle, ⟨[0x61, 0x62], 1⟩) := rfl
  refine ⟨⟨[0x61, 0x62], 1⟩, .call (.refl _) hadvance, rfl, ?_⟩
  exact (usAscii.encoder.answer_eq_none_iff _ _).mpr ⟨_, rfl, by decide⟩

end Charset

end RawMemory
