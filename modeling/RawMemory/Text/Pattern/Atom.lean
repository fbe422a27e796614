import RawMemory.Text.Pattern.Mode

/-!
# Atoms of a pattern

The smallest parts of a pattern are single characters and escapes. An atom matches one character, or
none at an edge of some kind. What it matches is not known here for other than ASCII characters, since
that takes the tables of Unicode; so atoms that need them are no part of any pattern. Nor are atoms that
match a part of a character.
-/

namespace RawMemory.Text.Pattern

/-- A smallest part of a pattern. -/
inductive Atom where
  /-- A character that stands for itself. -/
  | literal (c : Char)
  /-- A byte by its two hexadecimal digits. Where the pattern is about characters it is the character of
  that number. -/
  | byte (c : Char)
  /-- Any character. -/
  | anything
  /-- A digit, a blank or a letter, or what is none. -/
  | shorthand (negated : Bool)
  /-- The beginning or the end of a line or of the text. -/
  | edge
  /-- The beginning or the end of a word. -/
  | wordEdge
deriving DecidableEq

namespace Atom

/-- The character that the atom is, if it is a single one. -/
def char? : Atom → Option Char
  | literal c | byte c => some c
  | anything | shorthand _ | edge | wordEdge => none

/-- Whether a character is ASCII. -/
def isAscii (c : Char) : Bool := c.toNat < 128

/-- Whether the atom can be a part of a pattern. -/
def isPart (m : Mode) : Atom → Bool
  | literal _ => !(m.unicode && m.anyCase)
  | byte c => if m.unicode then !m.anyCase else isAscii c
  | anything => m.unicode
  | shorthand negated => !m.unicode && !negated
  | edge => true
  | wordEdge => !m.unicode

/-- Whether the atom can be a member of a set of characters. -/
def isMember (m : Mode) : Atom → Bool
  | literal c | byte c => if m.unicode then !m.anyCase else isAscii c
  | shorthand negated => !m.unicode && !negated
  | anything | edge | wordEdge => false

/-! ### Escapes -/

/-- The value of a hexadecimal digit. -/
def hexValue? (c : Char) : Option Nat :=
  if c.isDigit then some (c.toNat - '0'.toNat)
  else if 'a' ≤ c.toLower ∧ c.toLower ≤ 'f' then some (c.toLower.toNat - 'a'.toNat + 10)
  else none

/-- The number of the hexadecimal digits that come next, given how many these are and the number of the
digits before them, and what follows them. -/
def hexNumber (m : Mode) : Nat → Nat → List Char → Option (Nat × List Char)
  | 0, n, cs => some (n, cs)
  | count + 1, n, cs =>
    match m.skip cs with
    | [] => none
    | c :: cs => (hexValue? c).bind fun d => hexNumber m count (16 * n + d) cs

/-- The character whose number comes next in so many hexadecimal digits, and what follows them. -/
def hexChar (m : Mode) (count : Nat) (cs : List Char) : Option (Char × List Char) := do
  let (n, cs) ← hexNumber m count 0 cs
  if n.isValidChar then some (Char.ofNat n, cs) else none

/-- The control characters that have a letter. -/
def controls : List (Char × Char) :=
  [('a', '\x07'), ('f', '\x0C'), ('t', '\t'), ('n', '\n'), ('r', '\x0D'), ('v', '\x0B')]

/-- The atom that a character means behind a backslash, and what follows it. A letter or digit must have
a meaning; any other ASCII character stands for itself. -/
def ofEscape (m : Mode) : List Char → Option (Atom × List Char)
  | [] => none
  | c :: cs =>
    match c with
    | 'x' => (hexChar m 2 cs).map fun (c, cs) => (byte c, cs)
    | 'u' => (hexChar m 4 cs).map fun (c, cs) => (literal c, cs)
    | 'U' => (hexChar m 8 cs).map fun (c, cs) => (literal c, cs)
    | 'd' | 's' | 'w' => some (shorthand false, cs)
    | 'D' | 'S' | 'W' => some (shorthand true, cs)
    | 'A' | 'z' => some (edge, cs)
    | 'b' | 'B' | '<' | '>' => some (wordEdge, cs)
    | _ =>
      match controls.lookup c with
      | some control => some (literal control, cs)
      | none => if isAscii c && !c.isAlphanum then some (literal c, cs) else none

/-- The character or escape that comes next, and what follows it. -/
def ofChars (m : Mode) : List Char → Option (Atom × List Char)
  | [] => none
  | '\\' :: cs => ofEscape m cs
  | c :: cs => some (literal c, cs)

/-! ### What is left to read -/

theorem length_le_of_hexNumber {m : Mode} {count n : Nat} {cs rest : List Char} {k : Nat}
    (h : hexNumber m count n cs = some (k, rest)) : rest.length ≤ cs.length := by
  induction count generalizing n cs with
  | zero => simp_all [hexNumber]
  | succ count ih =>
    rw [hexNumber] at h
    have hskip := m.length_skip_le cs
    split at h
    · simp at h
    · next c cs' hcs =>
      obtain ⟨d, -, hd⟩ := Option.bind_eq_some_iff.1 h
      have := ih hd
      rw [hcs, List.length_cons] at hskip
      omega

theorem length_le_of_hexChar {m : Mode} {count : Nat} {cs rest : List Char} {c : Char}
    (h : hexChar m count cs = some (c, rest)) : rest.length ≤ cs.length := by
  obtain ⟨⟨n, cs'⟩, hn, h⟩ := Option.bind_eq_some_iff.1 h
  have := length_le_of_hexNumber hn
  grind

theorem length_lt_of_ofEscape {m : Mode} {cs rest : List Char} {a : Atom}
    (h : ofEscape m cs = some (a, rest)) : rest.length < cs.length := by
  cases cs with
  | nil => simp [ofEscape] at h
  | cons c cs =>
    have hhex : ∀ (count : Nat) (f : Char → Atom),
        (hexChar m count cs).map (fun (c, cs) => (f c, cs)) = some (a, rest) →
          rest.length < (c :: cs).length := by
      intro count f h
      obtain ⟨⟨c', cs'⟩, hc, h⟩ := Option.map_eq_some_iff.1 h
      have := length_le_of_hexChar hc
      grind
    unfold ofEscape at h
    dsimp only at h
    split at h
    · exact hhex 2 byte h
    · exact hhex 4 literal h
    · exact hhex 8 literal h
    all_goals grind

theorem length_lt_of_ofChars {m : Mode} {cs rest : List Char} {a : Atom}
    (h : ofChars m cs = some (a, rest)) : rest.length < cs.length := by
  unfold ofChars at h
  split at h
  · simp at h
  · have := length_lt_of_ofEscape h
    grind
  · grind

example :
    ofChars {} "\\x41b".toList = some (byte 'A', ['b']) ∧
      ofChars {} "\\u00e9".toList = some (literal 'é', []) ∧ ofChars {} "\\ud800".toList = none ∧
      ofChars {} "\\%".toList = some (literal '%', []) := by
  decide +kernel

example :
    ofChars {} "\\1".toList = none ∧ ofChars {} "\\Z".toList = none ∧
      ofChars {} "\\é".toList = none := by
  decide +kernel

end Atom

end RawMemory.Text.Pattern
