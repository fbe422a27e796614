/-!
# Parts of a text by byte positions

A position in a text counts the bytes of UTF-8 in front of it. It may lie inside a character, and then
no part begins or ends there. At the end of some characters a text falls into them and the rest
(`takeBytes_append`, `dropBytes_append`).
-/

namespace RawMemory.Text

/-- The bytes that characters take. -/
def byteSize : List Char → Nat
  | [] => 0
  | c :: cs => c.utf8Size + byteSize cs

/-- The characters in front of a position. -/
def takeBytes : Nat → List Char → Option (List Char)
  | 0, _ => some []
  | _ + 1, [] => none
  | n + 1, c :: cs =>
    if c.utf8Size ≤ n + 1 then (takeBytes (n + 1 - c.utf8Size) cs).map (c :: ·) else none

/-- The characters behind a position. -/
def dropBytes : Nat → List Char → Option (List Char)
  | 0, cs => some cs
  | _ + 1, [] => none
  | n + 1, c :: cs => if c.utf8Size ≤ n + 1 then dropBytes (n + 1 - c.utf8Size) cs else none

/-- The characters between two positions. -/
def slice (cs : List Char) (start stop : Nat) : Option (List Char) :=
  (takeBytes stop cs).bind (dropBytes start)

theorem takeBytes_append (cs rest : List Char) :
    takeBytes (byteSize cs) (cs ++ rest) = some cs := by
  induction cs with
  | nil => simp [byteSize, takeBytes]
  | cons c cs ih =>
    obtain ⟨n, hn⟩ : ∃ n, byteSize (c :: cs) = n + 1 :=
      ⟨byteSize (c :: cs) - 1, by have := c.utf8Size_pos; simp [byteSize]; omega⟩
    have hrest : n + 1 - c.utf8Size = byteSize cs := by rw [← hn]; simp [byteSize]
    have hle : c.utf8Size ≤ n + 1 := by rw [← hn]; simp [byteSize]
    rw [hn, List.cons_append, takeBytes, if_pos hle, hrest, ih]
    rfl

theorem dropBytes_append (cs rest : List Char) :
    dropBytes (byteSize cs) (cs ++ rest) = some rest := by
  induction cs with
  | nil => simp [byteSize, dropBytes]
  | cons c cs ih =>
    obtain ⟨n, hn⟩ : ∃ n, byteSize (c :: cs) = n + 1 :=
      ⟨byteSize (c :: cs) - 1, by have := c.utf8Size_pos; simp [byteSize]; omega⟩
    have hrest : n + 1 - c.utf8Size = byteSize cs := by rw [← hn]; simp [byteSize]
    have hle : c.utf8Size ≤ n + 1 := by rw [← hn]; simp [byteSize]
    rw [hn, List.cons_append, dropBytes, if_pos hle, hrest, ih]

example : slice ['a', 'é', 'b'] 1 3 = some ['é'] ∧ slice ['a', 'é', 'b'] 2 4 = none := by decide

end RawMemory.Text
