/-!
# Pieces between separators

A text falls into pieces at each occurrence of a character. Neighbouring separators have an empty piece
between them, so nothing is lost: put together again with separators the pieces give the text
(`intercalate_piecesOf`).
-/

namespace RawMemory.Text

/-- The pieces of some characters between separators. -/
def piecesOf (separator : Char) : List Char → List (List Char)
  | [] => [[]]
  | c :: cs =>
    if c = separator then [] :: piecesOf separator cs
    else
      match piecesOf separator cs with
      | [] => [[c]]
      | piece :: pieces => (c :: piece) :: pieces

/-- The pieces of a text between separators. -/
def pieces (separator : Char) (text : String) : List String :=
  (piecesOf separator text.toList).map String.ofList

theorem piecesOf_ne_nil (separator : Char) (cs : List Char) : piecesOf separator cs ≠ [] := by
  induction cs with
  | nil => simp [piecesOf]
  | cons c cs ih =>
    rw [piecesOf]
    split
    · simp
    · split <;> simp

theorem intercalate_piecesOf (separator : Char) (cs : List Char) :
    [separator].intercalate (piecesOf separator cs) = cs := by
  induction cs with
  | nil => simp [piecesOf]
  | cons c cs ih =>
    rw [piecesOf]
    obtain ⟨piece, rest, h⟩ := List.exists_cons_of_ne_nil (piecesOf_ne_nil separator cs)
    rw [h] at ih ⊢
    split
    · next hc => subst hc; simpa [List.intercalate] using ih
    · cases rest <;> simp_all [List.intercalate]

/-- What stands in front of the first separator is the first piece. -/
theorem piecesOf_append_cons {separator : Char} {piece : List Char} (h : separator ∉ piece)
    (rest : List Char) :
    piecesOf separator (piece ++ separator :: rest) = piece :: piecesOf separator rest := by
  induction piece with
  | nil => rw [List.nil_append, piecesOf, if_pos rfl]
  | cons c piece ih =>
    rw [List.mem_cons, not_or] at h
    rw [List.cons_append, piecesOf, if_neg (Ne.symm h.1), ih h.2]

end RawMemory.Text
