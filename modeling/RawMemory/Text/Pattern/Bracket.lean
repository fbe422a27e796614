import RawMemory.Text.Pattern.Atom
import RawMemory.Text.Pattern.Depth

/-!
# Brackets in a pattern

A set of characters is written in brackets, as in `[a-z_[:digit:]]`. Its members are characters, ranges,
classes of ASCII characters and other sets, and between two lists of members may stand an operator on
sets. `read` tells how deep the sets in a bracket nest, and what follows the bracket.
-/

namespace RawMemory.Text.Pattern

/-- What has been read of a set of characters. -/
structure Bracket where
  /-- The depth of what stands before the last operator. -/
  left : Option Nat := none
  /-- The depths of the members behind the last operator, the last one first. -/
  members : List Nat := []
  /-- Whether nothing has been read but hyphens. -/
  fresh : Bool := true
deriving DecidableEq

namespace Bracket

/-- The names of classes of ASCII characters. -/
def classNames : List String :=
  ["alnum", "alpha", "ascii", "blank", "cntrl", "digit", "graph", "lower", "print", "punct", "space",
    "upper", "word", "xdigit"]

/-- The characters that are an operator on sets when they are doubled. -/
def operators : List Char := ['&', '-', '~']

/-- How deep the set nests inside. -/
def depth (b : Bracket) : Nat :=
  match b.left with
  | none => together b.members
  | some left => together [left, together b.members]

/-- The set with one more member. -/
def add (depth : Nat) (b : Bracket) : Bracket :=
  { b with members := depth :: b.members, fresh := false }

/-- The set in front of an operator. -/
def operate (b : Bracket) : Bracket := ⟨some b.depth, [], false⟩

/-- The set whose bracket has just been opened, and what follows. Only where the pattern is about
characters a set may be what its members leave. -/
def opened (m : Mode) (cs : List Char) : Option (Bracket × List Char) :=
  match m.skip cs with
  | '^' :: cs => if m.unicode then some ({}, cs) else none
  | cs => some ({}, cs)

/-- What follows a class of ASCII characters behind its open bracket, and whether the class is what its
name leaves. -/
def asciiClass? (cs : List Char) : Option (Bool × List Char) :=
  match cs with
  | ':' :: cs =>
    let negated := cs.head? = some '^'
    let cs := if negated then cs.tail else cs
    match cs.dropWhile (· ≠ ':') with
    | ':' :: ']' :: rest =>
      let name := String.ofList (cs.takeWhile (· ≠ ':'))
      if classNames.contains name then some (negated, rest) else none
    | _ => none
  | _ => none

/-- Whether a class of ASCII characters, or what it leaves, can be a member. -/
def isClassMember (m : Mode) (negated : Bool) : Bool := if m.unicode then !m.anyCase else !negated

/-- What follows the character or range that comes next, if that can be a member. A hyphen is a part of a
range unless another hyphen or the closing bracket seems to come behind it. -/
def member? (m : Mode) (cs : List Char) : Option (List Char) := do
  let (first, cs) ← Atom.ofChars m cs
  if first.isMember m then
    match m.skip cs with
    | '-' :: cs =>
      if m.peek cs = some ']' ∨ m.peek cs = some '-' then some ('-' :: cs)
      else
        let (last, cs) ← Atom.ofChars m (m.skip cs)
        if last.isMember m ∧ (← first.char?) ≤ (← last.char?) then some cs else none
    | cs => some cs
  else none

/-- What comes of reading on in brackets. -/
inductive Step where
  /-- The innermost bracket, those around it and the rest of the text. -/
  | more (b : Bracket) (outer : List Bracket) (rest : List Char)
  /-- The outermost bracket is closed; its depth and the rest of the text. -/
  | done (depth : Nat) (rest : List Char)

/-- The rest of the text after a step. -/
def Step.rest : Step → List Char
  | more _ _ rest | done _ rest => rest

/-- Close the innermost bracket. -/
def close (b : Bracket) (rest : List Char) : List Bracket → Step
  | [] => .done (1 + b.depth) rest
  | outer :: outers => .more (outer.add (1 + b.depth)) outers rest

/-- Read on in brackets, where `cs` begins with what means something. -/
def step (m : Mode) (b : Bracket) (outer : List Bracket) (cs : List Char) : Option Step :=
  match cs with
  | [] => none
  | c :: rest =>
    if b.fresh ∧ (c = '-' ∨ c = ']' ∧ b.members = []) then
      if (Atom.literal c).isMember m then
        some (.more { b.add 0 with fresh := c = '-' } outer rest)
      else none
    else if c = ']' then some (b.close rest outer)
    else if c = '[' then
      match asciiClass? rest with
      | some (negated, rest) =>
        if isClassMember m negated then some (.more (b.add 0) outer rest) else none
      | none =>
        (opened m rest).map fun (inner, rest) => .more inner ({ b with fresh := false } :: outer) rest
    else if operators.contains c ∧ rest.head? = some c then some (.more b.operate outer rest.tail)
    else (member? m cs).map fun rest => .more (b.add 0) outer rest

/-! ### What is left to read -/

theorem length_le_of_opened {m : Mode} {b : Bracket} {cs rest : List Char}
    (h : opened m cs = some (b, rest)) : rest.length ≤ cs.length := by
  have := m.length_skip_le cs
  unfold opened at h
  grind

theorem length_lt_of_asciiClass? {negated : Bool} {cs rest : List Char}
    (h : asciiClass? cs = some (negated, rest)) : rest.length < cs.length := by
  unfold asciiClass? at h
  split at h
  · next cs =>
    have hdrop : ∀ cs : List Char, (cs.dropWhile (· ≠ ':')).length ≤ cs.length :=
      fun cs => (List.dropWhile_sublist _).length_le
    grind
  · simp at h

theorem length_lt_of_member? {m : Mode} {cs rest : List Char} (h : member? m cs = some rest) :
    rest.length < cs.length := by
  obtain ⟨⟨first, cs'⟩, hfirst, h⟩ := Option.bind_eq_some_iff.1 h
  have hlt := Atom.length_lt_of_ofChars hfirst
  have hle := m.length_skip_le cs'
  dsimp only at h
  split at h
  · split at h
    · next cs'' hcs =>
      rw [hcs, List.length_cons] at hle
      split at h
      · grind
      · obtain ⟨⟨last, cs3⟩, hlast, h⟩ := Option.bind_eq_some_iff.1 h
        have := Atom.length_lt_of_ofChars hlast
        have := m.length_skip_le cs''
        obtain ⟨x, -, h⟩ := Option.bind_eq_some_iff.1 h
        obtain ⟨y, -, h⟩ := Option.bind_eq_some_iff.1 h
        grind
    · grind
  · simp at h

theorem rest_close (b : Bracket) (rest : List Char) (outer : List Bracket) :
    (b.close rest outer).rest = rest := by
  cases outer <;> rfl

theorem length_lt_of_step {m : Mode} {b : Bracket} {outer : List Bracket} {cs : List Char} {s : Step}
    (h : step m b outer cs = some s) : s.rest.length < cs.length := by
  cases cs with
  | nil => simp [step] at h
  | cons c rest =>
    rw [step] at h
    split at h
    · grind [Step.rest]
    split at h
    · grind [rest_close]
    split at h
    · split at h
      · next negated rest' hclass =>
        have := length_lt_of_asciiClass? hclass
        grind [Step.rest]
      · obtain ⟨⟨inner, rest'⟩, hinner, rfl⟩ := Option.map_eq_some_iff.1 h
        have := length_le_of_opened hinner
        grind [Step.rest]
    split at h
    · grind [Step.rest]
    · obtain ⟨rest', hrest, rfl⟩ := Option.map_eq_some_iff.1 h
      exact length_lt_of_member? hrest

/-! ### Whole sets -/

/-- The depth of the sets in brackets and what follows the outermost one. -/
def readFrom (m : Mode) (b : Bracket) (outer : List Bracket) (cs : List Char) :
    Option (Nat × List Char) :=
  match _hstep : step m b outer (m.skip cs) with
  | none => none
  | some (.done depth rest) => some (depth, rest)
  | some (.more b outer rest) => readFrom m b outer rest
termination_by cs.length
decreasing_by exact Nat.lt_of_lt_of_le (length_lt_of_step _hstep) (m.length_skip_le cs)

/-- The depth of the set whose bracket has just been opened, and what follows it. -/
def read (m : Mode) (cs : List Char) : Option (Nat × List Char) := do
  let (b, cs) ← opened m cs
  readFrom m b [] cs

theorem length_lt_of_readFrom {m : Mode} {b : Bracket} {outer : List Bracket} {cs rest : List Char}
    {depth : Nat} (h : readFrom m b outer cs = some (depth, rest)) : rest.length < cs.length := by
  fun_induction readFrom m b outer cs with
  | case1 => simp at h
  | case2 b outer cs d r hstep =>
    have := length_lt_of_step hstep
    have := m.length_skip_le cs
    grind [Step.rest]
  | case3 b outer cs b' outer' rest' hstep ih =>
    have := ih h
    have := length_lt_of_step hstep
    have := m.length_skip_le cs
    grind [Step.rest]

theorem length_lt_of_read {m : Mode} {cs rest : List Char} {depth : Nat}
    (h : read m cs = some (depth, rest)) : rest.length < cs.length := by
  obtain ⟨⟨b, cs'⟩, hb, h⟩ := Option.bind_eq_some_iff.1 h
  have := length_le_of_opened hb
  have := length_lt_of_readFrom h
  omega

end Bracket

end RawMemory.Text.Pattern
