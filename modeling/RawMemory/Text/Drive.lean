import RawMemory.Text.Coder
import RawMemory.Text.Cursor

/-!
# Driving coders by hand

A caller who codes a stream piece by piece keeps a cursor into the input and makes one call after the
other. `Coder.answer` is what a single call does. The coders keep nothing between calls: a character cut
off at the end of a piece stays in the input, in front of which the cursor stops.
-/

namespace RawMemory

/-- One thing that a caller does. -/
inductive CoderCall where
  /-- Code into `room` items; `atEnd` says that no input follows. -/
  | code (room : Nat) (atEnd : Bool)
  /-- Write what is left over from earlier calls into `room` items. -/
  | flush (room : Nat)
  /-- Forget earlier calls. -/
  | reset
  /-- Pass over input items without coding them. -/
  | advance (count : UInt64)

/-- What a call does besides moving the cursor. -/
structure CoderAnswer (β : Type) where
  /-- Why it stopped. -/
  result : CoderResult
  /-- The items written into an output that nothing was written into before. -/
  output : List β

namespace Coder

variable {α β : Type}

/-- The answer of a call that has nothing to do. -/
def idle : CoderAnswer β := ⟨.underflow, []⟩

/-- What a call does, and where the cursor is after it. There is no answer to a call that aims beyond
the positions that are words. -/
def answer (coder : Coder α β) (input : Cursor α) : CoderCall → Option (CoderAnswer β × Cursor α)
  | .code room atEnd =>
    let progress := coder.run atEnd room input.rest
    some (⟨progress.result, progress.output⟩, input.advance progress.consumed)
  | .flush _ | .reset => some (idle, input)
  | .advance count => (input.advanceWord? count).map fun input => (idle, input)

/-- The items that a call answers are those that it leaves in an output with so much room, behind what was
written there before. -/
theorem answer_code (coder : Coder α β) (input : Cursor α) (output : Output β) (atEnd : Bool) :
    let filled := coder.fill atEnd output input.rest
    coder.answer input (.code output.room atEnd) =
      some (⟨filled.result, filled.output.content.drop output.written⟩, input.advance filled.consumed) := by
  have hlength := coder.length_output_le atEnd output.room input.rest
  rw [answer, fill_eq]
  dsimp only
  rw [output.content_write hlength, ← output.length_content, List.drop_left]

end Coder

end RawMemory
