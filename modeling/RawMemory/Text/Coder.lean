import RawMemory.Text.Output

/-!
# Coders

A coder turns a list of input items into output items, one whole character at a time. It is given by a
step, which looks at the rest of the input and either says what to emit for the character there or why
there is none. `run` repeats the step as long as the output of the next character fits into the room
left, so the bytes of a character are never split between two calls, and a character that cannot be
coded stops the run whether or not there is room.

`drain` codes a whole input. Whenever the room is used up it exchanges its output for one of twice the
size plus one, which keeps what is written, and goes on where it stopped.
-/

namespace RawMemory

/-- Why a coder stopped. -/
inductive CoderResult where
  /-- The input is used up, or its rest is the beginning of a character. -/
  | underflow
  /-- The output of the next character does not fit into the room left. -/
  | overflow
  /-- The next `length` items are no character. -/
  | malformed (length : Nat)
  /-- The next `length` items are a character that the output cannot express. -/
  | unmappable (length : Nat)
deriving DecidableEq

/-- Why no character can be coded at some place of the input. -/
inductive Obstacle where
  /-- The input ends inside a character that later input may complete. -/
  | incomplete
  /-- The next `length` items are no character. -/
  | malformed (length : Nat)
  /-- The next `length` items are a character that the output cannot express. -/
  | unmappable (length : Nat)
deriving DecidableEq

/-- The result of a call that stops in front of an obstacle. -/
def Obstacle.result : Obstacle → CoderResult
  | .incomplete => .underflow
  | .malformed length => .malformed length
  | .unmappable length => .unmappable length

/-- What a coder does at some place of its input. -/
inductive CoderStep (β : Type) where
  /-- Emit a whole character, which takes one input item and `extra` further ones. -/
  | emit (output : List β) (extra : Nat)
  /-- Stop in front of the item. -/
  | stop (obstacle : Obstacle)

/-- A coder from items of type `α` to items of type `β`. -/
structure Coder (α β : Type) where
  /-- What to do at a place where `first` is followed by `rest`; `atEnd` says that no input follows. -/
  step : (atEnd : Bool) → (first : α) → (rest : List α) → CoderStep β

/-- What one call of a coder did. -/
structure Progress (β : Type) where
  /-- Why it stopped. -/
  result : CoderResult
  /-- The items written. -/
  output : List β
  /-- How many input items it took. -/
  consumed : Nat

/-- What one call of a coder leaves. -/
structure Filled (β : Type) where
  /-- Why it stopped. -/
  result : CoderResult
  /-- The output that was handed over, with what was written into it. -/
  output : Output β
  /-- How many input items the call took. -/
  consumed : Nat

/-- An output taken because the one before was used up. -/
structure Growth where
  /-- The items that fit into the new output. -/
  size : Nat
  /-- The items written so far. -/
  written : Nat
deriving DecidableEq

/-- What coding a whole input did. -/
structure Transcript (β : Type) where
  /-- Why it stopped. -/
  result : CoderResult
  /-- The output taken last. -/
  output : Output β
  /-- How many input items it took. -/
  consumed : Nat
  /-- The outputs taken one after the other, the first one left out. -/
  growths : List Growth

namespace Coder

variable {α β : Type}

/-- Code `input` into `room` items, where earlier steps of the same call have written `output` and
taken `consumed` items. -/
def runFrom (coder : Coder α β) (atEnd : Bool) (room : Nat) (input : List α) (output : Array β)
    (consumed : Nat) : Progress β :=
  match input with
  | [] => ⟨.underflow, output.toList, consumed⟩
  | first :: rest =>
    match coder.step atEnd first rest with
    | .stop obstacle => ⟨obstacle.result, output.toList, consumed⟩
    | .emit bytes extra =>
      if bytes.length ≤ room then
        coder.runFrom atEnd (room - bytes.length) (rest.drop extra) (output ++ bytes.toArray)
          (consumed + (extra + 1))
      else ⟨.overflow, output.toList, consumed⟩
termination_by input.length
decreasing_by simp only [List.length_drop, List.length_cons]; omega

/-- Code as much of `input` as fits into `room` items; `atEnd` says that no input follows it. -/
def run (coder : Coder α β) (atEnd : Bool) (room : Nat) (input : List α) : Progress β :=
  coder.runFrom atEnd room input #[] 0

/-- Code `input` into an output, where earlier steps of the same call have taken `consumed` items. Each
character is written before the next one is looked at. -/
def fillFrom (coder : Coder α β) (atEnd : Bool) (output : Output β) (input : List α) (consumed : Nat) :
    Filled β :=
  match input with
  | [] => ⟨.underflow, output, consumed⟩
  | first :: rest =>
    match coder.step atEnd first rest with
    | .stop obstacle => ⟨obstacle.result, output, consumed⟩
    | .emit bytes extra =>
      if bytes.length ≤ output.room then
        coder.fillFrom atEnd (output.write bytes) (rest.drop extra) (consumed + (extra + 1))
      else ⟨.overflow, output, consumed⟩
termination_by input.length
decreasing_by simp only [List.length_drop, List.length_cons]; omega

/-- Code as much of `input` as fits into an output; `atEnd` says that no input follows it. -/
def fill (coder : Coder α β) (atEnd : Bool) (output : Output β) (input : List α) : Filled β :=
  coder.fillFrom atEnd output input 0

/-- The room that the first character of an input takes, or zero where there is none. -/
def need (coder : Coder α β) (atEnd : Bool) : List α → Nat
  | [] => 0
  | first :: rest =>
    match coder.step atEnd first rest with
    | .emit bytes _ => bytes.length
    | .stop _ => 0

/-- What earlier steps have written and taken only stands in front of what a run does. -/
theorem runFrom_append (coder : Coder α β) (atEnd : Bool) (room : Nat) (input : List α)
    (earlier output : Array β) (taken consumed : Nat) :
    coder.runFrom atEnd room input (earlier ++ output) (taken + consumed) =
      ⟨(coder.runFrom atEnd room input output consumed).result,
        earlier.toList ++ (coder.runFrom atEnd room input output consumed).output,
        taken + (coder.runFrom atEnd room input output consumed).consumed⟩ := by
  fun_induction coder.runFrom atEnd room input output consumed with
  | case1 => simp [runFrom]
  | case2 room output consumed first rest result hstep => simp [runFrom, hstep]
  | case3 room output consumed first rest bytes extra hstep hroom ih =>
    rw [runFrom]
    simp only [hstep, hroom, if_true]
    rw [← ih, Array.append_assoc, Nat.add_assoc]
  | case4 room output consumed first rest bytes extra hstep hroom =>
    simp [runFrom, hstep, hroom]

theorem run_nil (coder : Coder α β) (atEnd : Bool) (room : Nat) :
    coder.run atEnd room [] = ⟨.underflow, [], 0⟩ := by
  simp [run, runFrom]

theorem run_of_stop {coder : Coder α β} {atEnd : Bool} {first : α} {rest : List α}
    {obstacle : Obstacle} (h : coder.step atEnd first rest = .stop obstacle) (room : Nat) :
    coder.run atEnd room (first :: rest) = ⟨obstacle.result, [], 0⟩ := by
  simp [run, runFrom, h]

theorem run_of_emit {coder : Coder α β} {atEnd : Bool} {first : α} {rest : List α}
    {bytes : List β} {extra : Nat} (h : coder.step atEnd first rest = .emit bytes extra)
    (room : Nat) :
    coder.run atEnd room (first :: rest) =
      if bytes.length ≤ room then
        ⟨(coder.run atEnd (room - bytes.length) (rest.drop extra)).result,
          bytes ++ (coder.run atEnd (room - bytes.length) (rest.drop extra)).output,
          extra + 1 + (coder.run atEnd (room - bytes.length) (rest.drop extra)).consumed⟩
      else ⟨.overflow, [], 0⟩ := by
  rw [run, runFrom]
  simp only [h]
  split
  · -- the character fits: the rest of the run starts behind it
    have := runFrom_append coder atEnd (room - bytes.length) (rest.drop extra) bytes.toArray #[]
      (extra + 1) 0
    simpa [run] using this
  · rfl

theorem obstacle_result_ne_overflow (obstacle : Obstacle) : obstacle.result ≠ .overflow := by
  cases obstacle <;> simp [Obstacle.result]

/-- A run that stops for want of room without having taken anything has written nothing, and has less
room than the first character needs. -/
theorem lt_need_of_overflow {coder : Coder α β} {atEnd : Bool} {room : Nat} {input : List α}
    (h : (coder.run atEnd room input).result = .overflow)
    (hc : (coder.run atEnd room input).consumed = 0) :
    (coder.run atEnd room input).output = [] ∧ room < coder.need atEnd input := by
  cases input with
  | nil => simp [run_nil] at h
  | cons first rest =>
    cases hstep : coder.step atEnd first rest with
    | stop obstacle =>
      rw [run_of_stop hstep] at h
      exact absurd h (obstacle_result_ne_overflow obstacle)
    | emit bytes extra =>
      rw [run_of_emit hstep] at hc ⊢
      split at hc
      · simp at hc
      · rename_i hroom
        simp [need, hstep, hroom]
        omega

/-- A run never writes more than there is room for. -/
theorem length_output_le (coder : Coder α β) (atEnd : Bool) (room : Nat) (input : List α) :
    (coder.run atEnd room input).output.length ≤ room := by
  induction h : input.length using Nat.strongRecOn generalizing room input with
  | ind n ih =>
    cases input with
    | nil => simp [run_nil]
    | cons first rest =>
      cases hstep : coder.step atEnd first rest with
      | stop obstacle => simp [run_of_stop hstep]
      | emit bytes extra =>
        rw [run_of_emit hstep]
        split
        · have hrest : (rest.drop extra).length < n := by
            rw [← h, List.length_drop, List.length_cons]
            omega
          have := ih _ hrest (room - bytes.length) (rest.drop extra) rfl
          rw [List.length_append]
          omega
        · simp

/-- A call that writes as it goes leaves in its output what a run lists, behind what was there, and stops in
the same place for the same reason. -/
theorem fillFrom_eq (coder : Coder α β) (atEnd : Bool) (output : Output β) (input : List α)
    (consumed : Nat) :
    coder.fillFrom atEnd output input consumed =
      ⟨(coder.run atEnd output.room input).result,
        output.write (coder.run atEnd output.room input).output,
        consumed + (coder.run atEnd output.room input).consumed⟩ := by
  fun_induction coder.fillFrom atEnd output input consumed with
  | case1 => simp [run_nil]
  | case2 output consumed first rest obstacle hstep => simp [run_of_stop hstep]
  | case3 output consumed first rest bytes extra hstep hroom ih =>
    -- what the rest of the call writes goes behind the first character
    have hlater := coder.length_output_le atEnd (output.write bytes).room (rest.drop extra)
    have hleft := output.room_write hroom
    rw [ih, run_of_emit hstep, if_pos hroom, ← hleft, output.write_write (by omega), Nat.add_assoc]
  | case4 output consumed first rest bytes extra hstep hroom =>
    simp [run_of_emit hstep, hroom]

theorem fill_eq (coder : Coder α β) (atEnd : Bool) (output : Output β) (input : List α) :
    coder.fill atEnd output input =
      ⟨(coder.run atEnd output.room input).result,
        output.write (coder.run atEnd output.room input).output,
        (coder.run atEnd output.room input).consumed⟩ := by
  rw [fill, fillFrom_eq, Nat.zero_add]

/-- Behind a call that stops for want of room there is less input, or the same, for whose first character a
larger output lacks less. -/
theorem lex_of_overflow [OfNat β 0] {coder : Coder α β} {output : Output β} {input : List α}
    (h : (coder.fill true output input).result = .overflow) :
    Prod.Lex (· < ·) (· < ·)
      ((input.drop (coder.fill true output input).consumed).length,
        coder.need true (input.drop (coder.fill true output input).consumed) -
          ((coder.fill true output input).output.grow (2 * output.size + 1)).room)
      (input.length, coder.need true input - output.room) := by
  rw [fill_eq] at h ⊢
  dsimp only at h ⊢
  -- room is wanted only for a character, so there is input left
  have hinput : input ≠ [] := by
    rintro rfl
    simp [run_nil] at h
  have hlength := List.length_pos_iff.mpr hinput
  by_cases hc : (coder.run true output.room input).consumed = 0
  · -- nothing was taken: the first character is still the same, and there is more room for it now
    obtain ⟨ho, hn⟩ := lt_need_of_overflow h hc
    have hw : (output.write []).written = output.written := output.written_write (by simp)
    have hle := output.written_le
    rw [hc, ho, List.drop_zero]
    refine Prod.Lex.right _ ?_
    simp only [Output.room, Output.size_grow] at hn ⊢
    rw [Output.written_grow _ (by rw [hw]; simp only [Output.size]; omega), hw]
    simp only [Output.size] at hn ⊢
    omega
  · -- something was taken: the input left is shorter
    refine Prod.Lex.left _ _ ?_
    rw [List.length_drop]
    omega

/-- Code all of `input` into an output that earlier calls have begun to fill. -/
def drainFrom [OfNat β 0] (coder : Coder α β) (output : Output β) (input : List α) (consumed : Nat)
    (growths : Array Growth) : Transcript β :=
  let filled := coder.fill true output input
  if filled.result = .overflow then
    let size := 2 * output.size + 1
    coder.drainFrom (filled.output.grow size) (input.drop filled.consumed)
      (consumed + filled.consumed) (growths.push ⟨size, filled.output.written⟩)
  else ⟨filled.result, filled.output, consumed + filled.consumed, growths.toList⟩
termination_by (input.length, coder.need true input - output.room)
decreasing_by exact lex_of_overflow (by assumption)

/-- A whole input is coded by one run after the other, each into a larger output than the one before. -/
theorem drainFrom_eq [OfNat β 0] (coder : Coder α β) (output : Output β) (input : List α) (consumed : Nat)
    (growths : Array Growth) :
    coder.drainFrom output input consumed growths =
      let progress := coder.run true output.room input
      let filled := output.write progress.output
      if progress.result = .overflow then
        let size := 2 * output.size + 1
        coder.drainFrom (filled.grow size) (input.drop progress.consumed)
          (consumed + progress.consumed) (growths.push ⟨size, filled.written⟩)
      else ⟨progress.result, filled, consumed + progress.consumed, growths.toList⟩ := by
  rw [drainFrom, fill_eq]

/-- Code all of `input`, with an output of `size` items at first. -/
def drain [OfNat β 0] (coder : Coder α β) (size : Nat) (input : List α) : Transcript β :=
  coder.drainFrom (.zeroed size) input 0 #[]

end Coder

end RawMemory
