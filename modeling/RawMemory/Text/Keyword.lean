/-!
# Keywords

Settings are words typed by people, so they are compared without regard to case and, in most places, to
blanks around them. `isBlank` is the Unicode property White_Space. `fold` lowers the ASCII letters and
the one other character whose lower case is an ASCII letter, which decides equality with any ASCII word.
-/

namespace RawMemory.Keyword

/-- Whether a character is white space in the sense of Unicode. -/
def isBlank (c : Char) : Bool :=
  let n := c.toNat
  (0x09 ≤ n && n ≤ 0x0D) || n == 0x20 || n == 0x85 || n == 0xA0 || n == 0x1680 ||
    (0x2000 ≤ n && n ≤ 0x200A) || n == 0x2028 || n == 0x2029 || n == 0x202F || n == 0x205F ||
    n == 0x3000

/-- The text without the blanks at its beginning and end. -/
def trim (text : String) : String :=
  String.ofList ((text.toList.dropWhile isBlank).reverse.dropWhile isBlank).reverse

/-- The lower case of a character, where that is an ASCII letter. -/
def foldChar (c : Char) : Char := if c = '\u212A' then 'k' else c.toLower

/-- The text with `foldChar` applied to every character. -/
def fold (text : String) : String := String.ofList (text.toList.map foldChar)

/-- Every blank of core's ASCII class is a blank here. -/
theorem isBlank_of_isWhitespace (c : Char) (h : c.isWhitespace = true) : isBlank c = true := by
  simp only [Char.isWhitespace, Bool.or_eq_true, decide_eq_true_eq] at h
  rcases h with ((h | h) | h) | h <;> subst h <;> decide

end RawMemory.Keyword
