import RawMemory.Proofs.Text.Spelling
import RawMemory.Text.Coder

/-!
# Coders as rewriters of text

`Coder.code` is a call of a coder with all the room it can use. A call with less room does the beginning
of that (`code_eq_followedBy`), so a whole input coded into growing outputs gives what one such call
gives, whatever the first size and however often the output grew (`progress_drain`).

A coder that `Rewrites` one spelling as another emits something exactly in front of a spelled character.
Then the call takes the longest spelled text in front of the input, whole (`Rewrites.exists_text`).
-/

namespace RawMemory

/-- What two calls did, the second one going on where the first one stopped. -/
def Progress.followedBy {β : Type} (p later : Progress β) : Progress β :=
  ⟨later.result, p.output ++ later.output, p.consumed + later.consumed⟩

theorem Progress.followedBy_assoc {β : Type} (p q r : Progress β) :
    (p.followedBy q).followedBy r = p.followedBy (q.followedBy r) := by
  simp only [followedBy, List.append_assoc, Nat.add_assoc]

/-- What coding a whole input did, seen as one call. -/
def Transcript.progress {β : Type} (t : Transcript β) : Progress β :=
  ⟨t.result, t.output.content, t.consumed⟩

namespace Coder

variable {α β : Type}

/-! ## Calls without a limit -/

/-- What a coder does in a step that emits `items` and takes `extra` items after the first one. -/
def emitted (items : List β) (extra : Nat) : Progress β := ⟨.underflow, items, extra + 1⟩

/-- A call with room for everything. -/
def code (coder : Coder α β) (atEnd : Bool) : List α → Progress β
  | [] => ⟨.underflow, [], 0⟩
  | first :: rest =>
    match coder.step atEnd first rest with
    | .stop obstacle => ⟨obstacle.result, [], 0⟩
    | .emit items extra => (emitted items extra).followedBy (coder.code atEnd (rest.drop extra))
termination_by input => input.length
decreasing_by simp only [List.length_drop, List.length_cons]; omega

/-- Where there is no input, none is missing. -/
@[simp] theorem code_nil (coder : Coder α β) (atEnd : Bool) :
    coder.code atEnd [] = ⟨.underflow, [], 0⟩ := by
  rw [code]

/-- At an obstacle coding ends. -/
theorem code_of_stop {coder : Coder α β} {atEnd : Bool} {first : α} {rest : List α}
    {obstacle : Obstacle} (h : coder.step atEnd first rest = .stop obstacle) :
    coder.code atEnd (first :: rest) = ⟨obstacle.result, [], 0⟩ := by
  rw [code, h]

/-- After a step coding goes on behind what was consumed. -/
theorem code_of_emit {coder : Coder α β} {atEnd : Bool} {first : α} {rest : List α}
    {items : List β} {extra : Nat} (h : coder.step atEnd first rest = .emit items extra) :
    coder.code atEnd (first :: rest) =
      (emitted items extra).followedBy (coder.code atEnd (rest.drop extra)) := by
  rw [code, h]

/-- The first step of a call that has room for it. -/
theorem run_of_emit_of_le {coder : Coder α β} {atEnd : Bool} {first : α} {rest : List α}
    {items : List β} {extra room : Nat} (h : coder.step atEnd first rest = .emit items extra)
    (hroom : items.length ≤ room) :
    coder.run atEnd room (first :: rest) =
      (emitted items extra).followedBy
        (coder.run atEnd (room - items.length) (rest.drop extra)) := by
  rw [run_of_emit h, if_pos hroom]
  rfl

/-- A call that does not run out of room does all that can be done. -/
theorem run_eq_code (coder : Coder α β) (atEnd : Bool) (room : Nat) (input : List α)
    (h : (coder.run atEnd room input).result ≠ .overflow) :
    coder.run atEnd room input = coder.code atEnd input := by
  fun_induction coder.code atEnd input generalizing room with
  | case1 => rw [run_nil]
  | case2 first rest obstacle hstep => rw [run_of_stop hstep]
  | case3 first rest items extra hstep ih =>
    -- both take the step, unless there is no room for it
    by_cases hroom : items.length ≤ room
    · rw [run_of_emit_of_le hstep hroom] at h ⊢
      rw [ih _ h]
    · rw [run_of_emit hstep, if_neg hroom] at h
      exact absurd rfl h

/-- A call with room for all that can be done does it. -/
theorem run_eq_code_of_le (coder : Coder α β) (atEnd : Bool) {room : Nat} (input : List α)
    (h : (coder.code atEnd input).output.length ≤ room) :
    coder.run atEnd room input = coder.code atEnd input := by
  fun_induction coder.code atEnd input generalizing room with
  | case1 => rw [run_nil]
  | case2 first rest obstacle hstep => rw [run_of_stop hstep]
  | case3 first rest items extra hstep ih =>
    simp only [Progress.followedBy, emitted, List.length_append] at h
    rw [run_of_emit_of_le hstep (by omega), ih (by omega)]

/-- With enough room there is no lack of it. -/
theorem code_result_ne_overflow (coder : Coder α β) (atEnd : Bool) (input : List α) :
    (coder.code atEnd input).result ≠ .overflow := by
  fun_induction coder.code atEnd input with
  | case1 => simp
  | case2 first rest obstacle hstep => exact obstacle_result_ne_overflow obstacle
  | case3 first rest items extra hstep ih => exact ih

/-- A call that runs out of room does the beginning of what can be done, and the rest can be done from
where it stopped. -/
theorem code_eq_followedBy (coder : Coder α β) (atEnd : Bool) (room : Nat) (input : List α)
    (h : (coder.run atEnd room input).result = .overflow) :
    coder.code atEnd input =
      (coder.run atEnd room input).followedBy
        (coder.code atEnd (input.drop (coder.run atEnd room input).consumed)) := by
  fun_induction coder.code atEnd input generalizing room with
  | case1 =>
    rw [run_nil] at h
    cases h
  | case2 first rest obstacle hstep =>
    rw [run_of_stop hstep] at h
    exact absurd h (obstacle_result_ne_overflow obstacle)
  | case3 first rest items extra hstep ih =>
    by_cases hroom : items.length ≤ room
    · rw [run_of_emit_of_le hstep hroom] at h ⊢
      set later := coder.run atEnd (room - items.length) (rest.drop extra) with hlater
      -- what the whole call leaves is what the later steps leave behind the first one
      have hdrop : (first :: rest).drop ((emitted items extra).followedBy later).consumed =
          (rest.drop extra).drop later.consumed := by
        rw [List.drop_drop, Progress.followedBy, emitted,
          show extra + 1 + later.consumed = extra + later.consumed + 1 by omega,
          List.drop_succ_cons]
      rw [hdrop, Progress.followedBy_assoc, ih _ h]
    · -- nothing is done when there is no room for the first character
      rw [run_of_emit hstep, if_neg hroom]
      simp [Progress.followedBy, code_of_emit hstep]

/-! ## Growing outputs -/

/-- Coding into outputs that grow goes on from what is written and taken already, and ends as a call
with room for everything does. -/
theorem progress_drainFrom [OfNat β 0] (coder : Coder α β) (output : Output β) (input : List α)
    (consumed : Nat) (growths : Array Growth) :
    (coder.drainFrom output input consumed growths).progress =
      Progress.followedBy ⟨.underflow, output.content, consumed⟩ (coder.code true input) := by
  fun_induction coder.drainFrom output input consumed growths with
  | case1 output input consumed growths filled h size ih =>
    -- the call fits into the room, and the growth keeps what is written by then
    have hroom := coder.length_output_le true output.room input
    have hfilled : filled = ⟨_, _, _⟩ := coder.fill_eq true output input
    have hsize : filled.output.size = output.size := by rw [hfilled, Output.size_write]
    have hkept : (filled.output.grow size).content =
        output.content ++ (coder.run true output.room input).output := by
      have hle : filled.output.written ≤ filled.output.size := filled.output.written_le
      rw [Output.content_grow _ (by omega), hfilled, Output.content_write _ hroom]
    rw [hfilled] at h
    rw [ih, hkept, coder.code_eq_followedBy true output.room input h, ← Progress.followedBy_assoc, hfilled]
    rfl
  | case2 output input consumed growths filled h =>
    -- the last call did not run out of room
    have hroom := coder.length_output_le true output.room input
    have hfilled : filled = ⟨_, _, _⟩ := coder.fill_eq true output input
    rw [hfilled] at h ⊢
    rw [← coder.run_eq_code true output.room input h, Transcript.progress,
      Output.content_write _ hroom]
    rfl

/-- The size of the first output and the growths leave no trace in what is done. -/
theorem progress_drain [OfNat β 0] (coder : Coder α β) (size : Nat) (input : List α) :
    (coder.drain size input).progress = coder.code true input := by
  rw [drain, progress_drainFrom]
  simp [Progress.followedBy]

/-! ## Coders between spellings -/

/-- A coder that rewrites text from one spelling to another: it emits something just where the input goes
on with a character that both spellings have, and then emits that character and takes it. -/
structure Rewrites (coder : Coder α β) (source : Spelling α) (target : Spelling β) : Prop where
  /-- What is emitted, and where. -/
  emit_iff {atEnd : Bool} {first : α} {rest : List α} {items : List β} {n : Nat} :
    coder.step atEnd first rest = .emit items n ↔
      ∃ c extra tail, source c = some (first :: extra) ∧ target c = some items ∧
        rest = extra ++ tail ∧ n = extra.length
  /-- Every character is written by at least one item. -/
  source_ne_nil {c : Char} : source c ≠ some []

/-- The coder does nothing in front of an input, for the given reason. -/
inductive Halts (coder : Coder α β) (atEnd : Bool) : List α → CoderResult → Prop
  /-- The input is used up. -/
  | nil : Halts coder atEnd [] .underflow
  /-- There is an obstacle. -/
  | stop {first : α} {rest : List α} {obstacle : Obstacle}
      (h : coder.step atEnd first rest = .stop obstacle) :
      Halts coder atEnd (first :: rest) obstacle.result

namespace Rewrites

variable {coder : Coder α β} {source : Spelling α} {target : Spelling β}

/-- A character in front of the input is rewritten first. -/
theorem code_char_append (h : coder.Rewrites source target) {c : Char} {items : List α}
    {out : List β} (hs : source c = some items) (ht : target c = some out) (atEnd : Bool)
    (rest : List α) :
    coder.code atEnd (items ++ rest) =
      Progress.followedBy ⟨.underflow, out, items.length⟩ (coder.code atEnd rest) := by
  cases items with
  | nil => exact absurd hs h.source_ne_nil
  | cons first extra =>
    have hstep : coder.step atEnd first (extra ++ rest) = .emit out extra.length :=
      h.emit_iff.mpr ⟨c, extra, rest, hs, ht, rfl, rfl⟩
    rw [List.cons_append, code_of_emit hstep, List.drop_left]
    rfl

/-- A text in front of the input is rewritten first. -/
theorem code_append (h : coder.Rewrites source target) {text : List Char} {items : List α}
    {out : List β} (hs : source.ofText? text = some items) (ht : target.ofText? text = some out)
    (atEnd : Bool) (rest : List α) :
    coder.code atEnd (items ++ rest) =
      Progress.followedBy ⟨.underflow, out, items.length⟩ (coder.code atEnd rest) := by
  -- one character after the other
  induction text generalizing items out with
  | nil =>
    obtain rfl : [] = items := by simpa using hs
    obtain rfl : [] = out := by simpa using ht
    simp [Progress.followedBy]
  | cons c text ih =>
    obtain ⟨items₁, items₂, hs₁, hs₂, rfl⟩ := Spelling.ofText?_cons_eq_some_iff.mp hs
    obtain ⟨out₁, out₂, ht₁, ht₂, rfl⟩ := Spelling.ofText?_cons_eq_some_iff.mp ht
    rw [List.append_assoc, h.code_char_append hs₁ ht₁, ih hs₂ ht₂, ← Progress.followedBy_assoc,
      List.length_append]
    rfl

/-- A call takes a text from the front of its input and writes it. It stops for want of room or because
the coder halts in front of the rest. -/
theorem exists_taken (h : coder.Rewrites source target) (atEnd : Bool) (room : Nat)
    (input : List α) :
    ∃ items rest, input = items ++ rest ∧ (coder.run atEnd room input).consumed = items.length ∧
      Spelling.SameText source target items (coder.run atEnd room input).output ∧
      ((coder.run atEnd room input).result = .overflow ∨
        coder.Halts atEnd rest (coder.run atEnd room input).result) := by
  fun_induction coder.code atEnd input generalizing room with
  | case1 =>
    rw [run_nil]
    exact ⟨[], [], rfl, rfl, .nil source target, Or.inr .nil⟩
  | case2 first rest obstacle hstep =>
    rw [run_of_stop hstep]
    exact ⟨[], first :: rest, rfl, rfl, .nil source target, Or.inr (.stop hstep)⟩
  | case3 first rest out extra hstep ih =>
    by_cases hroom : out.length ≤ room
    · -- the step takes one character, and the text goes on behind it
      obtain ⟨c, extra, tail, hs, ht, rfl, rfl⟩ := h.emit_iff.mp hstep
      rw [run_of_emit_of_le hstep hroom]
      rw [List.drop_left] at ih ⊢
      obtain ⟨items, rest, rfl, hconsumed, htext, hstop⟩ := ih (room - out.length)
      refine ⟨(first :: extra) ++ items, rest, by simp, ?_, (Spelling.SameText.of_char hs ht).append
        htext, hstop⟩
      rw [Progress.followedBy, hconsumed, List.length_append]
      rfl
    · rw [run_of_emit hstep, if_neg hroom]
      exact ⟨[], first :: rest, rfl, rfl, .nil source target, Or.inl rfl⟩

/-- Every input is a text, taken as a whole, and a rest in front of which the coder halts. -/
theorem exists_text (h : coder.Rewrites source target) (atEnd : Bool) (input : List α) :
    ∃ text items out rest result, source.ofText? text = some items ∧
      target.ofText? text = some out ∧ input = items ++ rest ∧ coder.Halts atEnd rest result ∧
      coder.code atEnd input = ⟨result, out, items.length⟩ := by
  obtain ⟨items, rest, hinput, hconsumed, ⟨text, hs, ht⟩, hstop⟩ :=
    h.exists_taken atEnd (coder.code atEnd input).output.length input
  rw [coder.run_eq_code_of_le atEnd input le_rfl] at hconsumed ht hstop
  rcases hstop with hover | hhalts
  · exact absurd hover (coder.code_result_ne_overflow atEnd input)
  · refine ⟨text, items, _, rest, _, hs, ht, hinput, hhalts, ?_⟩
    rw [← hconsumed]

/-- A call takes at least every text that the input starts with. -/
theorem length_le_consumed (h : coder.Rewrites source target) {text : List Char} {items : List α}
    {out : List β} (hs : source.ofText? text = some items) (ht : target.ofText? text = some out)
    (atEnd : Bool) (rest : List α) :
    items.length ≤ (coder.code atEnd (items ++ rest)).consumed := by
  rw [h.code_append hs ht]
  exact Nat.le_add_right _ _

end Rewrites

end Coder

end RawMemory
