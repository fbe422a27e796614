/-!
# Cursors

A cursor stands at some position of a list of items, in front of the part that a coder has still to
take. It moves towards the end and stops there.
-/

namespace RawMemory

/-- A position in a list of items. -/
structure Cursor (α : Type) where
  /-- The whole list. -/
  items : List α
  /-- How many items lie before the cursor. -/
  position : Nat

namespace Cursor

variable {α : Type}

/-- A cursor in front of all items. -/
def ofList (items : List α) : Cursor α := ⟨items, 0⟩

/-- How many items are left. -/
def remaining (c : Cursor α) : Nat := c.items.length - c.position

/-- Whether any item is left. -/
def hasRemaining (c : Cursor α) : Bool := c.position < c.items.length

/-- The items that are left. -/
def rest (c : Cursor α) : List α := c.items.drop c.position

/-- Move over `count` items, or to the end where fewer are left. -/
def advance (c : Cursor α) (count : Nat) : Cursor α :=
  { c with position := min (c.position + count) c.items.length }

/-- Move over a number of items given as a word. The position aimed at must be a word as well, also
where it lies beyond the end. -/
def advanceWord? (c : Cursor α) (count : UInt64) : Option (Cursor α) :=
  if c.position + count.toNat < 0x10000000000000000 then some (c.advance count.toNat) else none

@[simp] theorem length_rest (c : Cursor α) : c.rest.length = c.remaining := by
  simp [rest, remaining]

theorem position_advance (c : Cursor α) (count : Nat) :
    (c.advance count).position = min (c.position + count) c.items.length := rfl

theorem rest_advance (c : Cursor α) (count : Nat) : (c.advance count).rest = c.rest.drop count := by
  simp only [rest, advance, List.drop_drop]
  by_cases h : c.position + count ≤ c.items.length
  · rw [Nat.min_eq_left h]
  · rw [Nat.min_eq_right (by omega), List.drop_of_length_le (Nat.le_refl _),
      List.drop_of_length_le (by omega)]

end Cursor

end RawMemory
