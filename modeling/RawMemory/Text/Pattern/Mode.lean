import RawMemory.Text.Keyword

/-!
# Modes of a pattern

A pattern is read in a mode that letters inside the pattern switch on and off, as in `(?x-u:a b)`. Three
of the letters matter for whether a text is a pattern at all; the others only matter for what it matches.
In the spaced mode blanks between the parts mean nothing, and neither do comments, which go from a `#` to
the end of the line.
-/

namespace RawMemory.Text.Pattern

/-- How a pattern is read. -/
structure Mode where
  /-- Whether the pattern is about characters, and not about bytes. -/
  unicode : Bool := true
  /-- Whether case is disregarded. -/
  anyCase : Bool := false
  /-- Whether blanks and comments are passed over. -/
  spaced : Bool := false
deriving DecidableEq

/-! ### Blanks and comments -/

/-- The characters from the first one that is neither blank nor in a comment, beginning inside a comment
or outside of one. -/
def skipFrom (inComment : Bool) : List Char → List Char
  | [] => []
  | c :: cs =>
    if inComment then skipFrom (c ≠ '\n') cs
    else if c = '#' then skipFrom true cs
    else if Keyword.isBlank c then skipFrom false cs
    else c :: cs

theorem length_skipFrom_le (inComment : Bool) (cs : List Char) :
    (skipFrom inComment cs).length ≤ cs.length := by
  induction cs generalizing inComment with
  | nil => simp [skipFrom]
  | cons c cs ih =>
    rw [skipFrom]
    split
    · exact Nat.le_succ_of_le (ih _)
    · split
      · exact Nat.le_succ_of_le (ih _)
      · split
        · exact Nat.le_succ_of_le (ih _)
        · exact Nat.le_refl _

namespace Mode

/-- The characters from the first one that means something. -/
def skip (m : Mode) (cs : List Char) : List Char := if m.spaced then skipFrom false cs else cs

theorem length_skip_le (m : Mode) (cs : List Char) : (m.skip cs).length ≤ cs.length := by
  rw [skip]
  split
  · exact length_skipFrom_le false cs
  · exact Nat.le_refl _

/-- The character that seems to come next when one looks ahead. Blanks are passed over, and at most one
sign of a comment, but not the comment itself. -/
def peek (m : Mode) (cs : List Char) : Option Char :=
  let dropBlanks := List.dropWhile Keyword.isBlank
  let ahead :=
    if m.spaced then
      match dropBlanks cs with
      | '#' :: cs => dropBlanks cs
      | cs => cs
    else cs
  ahead.head? <|> cs.head?

/-! ### Letters -/

/-- The letters that stand for a mode; a hyphen switches off those behind it. -/
def letters : List Char := ['i', 'm', 's', 'U', 'u', 'R', 'x', '-']

/-- The mode with what a letter stands for on or off. -/
def set (on : Bool) (m : Mode) (letter : Char) : Mode :=
  match letter with
  | 'u' => { m with unicode := on }
  | 'i' => { m with anyCase := on }
  | 'x' => { m with spaced := on }
  | _ => m

/-- The mode that letters change this one to. No letter may stand there twice, and a hyphen not at the
end. -/
def change (m : Mode) (word : List Char) : Option Mode :=
  if word.all letters.contains ∧ word.Nodup ∧ word.getLast? ≠ some '-' then
    let on := word.takeWhile (· ≠ '-')
    let off := word.dropWhile (· ≠ '-')
    some (off.foldl (set false) (on.foldl (set true) m))
  else none

example :
    change {} "ix-u".toList = some ⟨false, true, true⟩ ∧ change {} "ii".toList = none ∧
      change {} "i-".toList = none ∧ change {} [] = some {} := by
  decide +kernel

example :
    skip ⟨true, false, true⟩ " # a\n b".toList = ['b'] ∧
      peek ⟨true, false, true⟩ " # ]".toList = some ']' := by
  decide +kernel

end Mode

end RawMemory.Text.Pattern
