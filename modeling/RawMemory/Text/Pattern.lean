import RawMemory.Text.Alphanumeric
import RawMemory.Text.Pattern.Bracket

/-!
# Patterns

A pattern describes texts: its parts stand one after the other, `|` stands between alternatives, `*`,
`+` and `?` repeat the part before them, and a group in parentheses is a part again. Groups may have
names, and their beginning may change the mode of what is inside, or of what follows up to their end.
`isPattern` tells which texts are patterns; what a pattern matches is of no interest here. A number of
repetitions in braces does not occur, since patterns are themselves written in braces.
-/

namespace RawMemory.Text

namespace Pattern

/-- A part of an alternative. -/
structure Part where
  /-- How deep the part nests. -/
  depth : Nat
  /-- Whether the part can be repeated, which a change of the mode cannot. -/
  canRepeat : Bool
deriving DecidableEq

/-- What has been read of a group, or of the whole pattern. -/
structure Group where
  /-- The mode at this place. -/
  mode : Mode := {}
  /-- The depths of the alternatives before this one. -/
  alternatives : List Nat := []
  /-- The parts of this alternative, the last one first. -/
  parts : List Part := []

namespace Group

/-- How deep the alternative nests. -/
def alternativeDepth (g : Group) : Nat := together (g.parts.map (·.depth))

/-- How deep the group nests inside. -/
def depth (g : Group) : Nat := together (g.alternativeDepth :: g.alternatives)

/-- The group with one more part. -/
def add (depth : Nat) (g : Group) : Group := { g with parts := ⟨depth, true⟩ :: g.parts }

/-- The group with another mode from here on. -/
def change (mode : Mode) (g : Group) : Group := { g with mode, parts := ⟨0, false⟩ :: g.parts }

/-- The group in front of another alternative. -/
def alternate (g : Group) : Group := ⟨g.mode, g.alternativeDepth :: g.alternatives, []⟩

/-- The group with its last part repeated. -/
def repeatLast (g : Group) : Option Group :=
  match g.parts with
  | ⟨depth, true⟩ :: parts => some { g with parts := ⟨depth + 1, true⟩ :: parts }
  | _ => none

end Group

/-- What has been read of a pattern. -/
structure Reading where
  /-- The names of groups. -/
  names : List (List Char) := []
  /-- The innermost open group. -/
  group : Group := {}
  /-- The open groups around it. -/
  outer : List Group := []

namespace Reading

/-- The reading with a change to the innermost group. -/
def update (f : Group → Group) (r : Reading) : Reading := { r with group := f r.group }

/-! ### Groups -/

/-- The reading at the beginning of a group. -/
def enter (mode : Mode) (r : Reading) : Reading :=
  { r with group := { mode }, outer := r.group :: r.outer }

/-- The reading behind a group, if there is an open one. -/
def leave (r : Reading) : Option Reading :=
  match r.outer with
  | [] => none
  | outer :: outers => some { r with group := outer.add (1 + r.group.depth), outer := outers }

/-- Whether characters are the name of a group. -/
def isName : List Char → Bool
  | [] => false
  | c :: cs =>
    (c = '_' || isAlphabetic c) &&
      cs.all fun c => ['_', '.', '[', ']'].contains c || isAlphanumeric c

/-- Read the name of a group, which no other group has, and enter the group. -/
def enterNamed (r : Reading) (cs : List Char) : Option (Reading × List Char) :=
  let name := cs.takeWhile (· ≠ '>')
  match cs.dropWhile (· ≠ '>') with
  | [] => none
  | _ :: rest =>
    if isName name ∧ name ∉ r.names then
      some ({ r with names := name :: r.names }.enter r.group.mode, rest)
    else none

/-- Read letters for a mode. Before a colon they hold for the group that is entered, and before a
parenthesis for the rest of the group around them. -/
def enterMode (r : Reading) (cs : List Char) : Option (Reading × List Char) := do
  let word := cs.takeWhile fun c => c ≠ ':' && c ≠ ')'
  let mode ← r.group.mode.change word
  match cs.dropWhile fun c => c ≠ ':' && c ≠ ')' with
  | ':' :: rest => some (r.enter mode, rest)
  | ')' :: rest => if word = [] then none else some (r.update (·.change mode), rest)
  | _ => none

/-- Read on behind an open parenthesis. -/
def parenthesis (r : Reading) (cs : List Char) : Option (Reading × List Char) :=
  match r.group.mode.skip cs with
  | '?' :: 'P' :: '<' :: cs => r.enterNamed cs
  | '?' :: '<' :: cs => r.enterNamed cs
  | '?' :: cs => r.enterMode cs
  | cs => some (r.enter r.group.mode, cs)

/-! ### Parts -/

/-- The reading behind an atom, if that can be a part. -/
def atom (r : Reading) (a : Atom) : Option Reading :=
  if a.isPart r.group.mode then some (r.update (·.add 0)) else none

/-- Repeat the last part. A question mark that follows at once belongs to the repetition. -/
def repetition (r : Reading) (cs : List Char) : Option (Reading × List Char) :=
  r.group.repeatLast.map fun group =>
    ({ r with group }, if cs.head? = some '?' then cs.tail else cs)

/-- Read on, where the characters begin with one that means something. -/
def step (r : Reading) : List Char → Option (Reading × List Char)
  | [] => none
  | c :: cs =>
    match c with
    | '(' => r.parenthesis cs
    | ')' => r.leave.map (·, cs)
    | '|' => some (r.update Group.alternate, cs)
    | '[' => do
      let (depth, cs) ← Bracket.read r.group.mode cs
      return (r.update (·.add depth), cs)
    | '*' | '+' | '?' => r.repetition cs
    | '\x7b' => none
    | '^' | '$' => (r.atom .edge).map (·, cs)
    | '.' => (r.atom .anything).map (·, cs)
    | _ => do
      let (a, cs) ← Atom.ofChars r.group.mode (c :: cs)
      return (← r.atom a, cs)

/-! ### What is left to read -/

theorem length_lt_of_enterNamed {r s : Reading} {cs rest : List Char}
    (h : r.enterNamed cs = some (s, rest)) : rest.length < cs.length := by
  have hdrop := (List.dropWhile_sublist (· ≠ '>') (l := cs)).length_le
  unfold enterNamed at h
  grind

theorem length_lt_of_enterMode {r s : Reading} {cs rest : List Char}
    (h : r.enterMode cs = some (s, rest)) : rest.length < cs.length := by
  have hdrop := (List.dropWhile_sublist (fun c => c ≠ ':' && c ≠ ')') (l := cs)).length_le
  obtain ⟨mode, -, h⟩ := Option.bind_eq_some_iff.1 h
  grind

theorem length_le_of_parenthesis {r s : Reading} {cs rest : List Char}
    (h : r.parenthesis cs = some (s, rest)) : rest.length ≤ cs.length := by
  have hskip := r.group.mode.length_skip_le cs
  unfold parenthesis at h
  split at h
  · next hcs => have := length_lt_of_enterNamed h; grind
  · next hcs => have := length_lt_of_enterNamed h; grind
  · next hcs => have := length_lt_of_enterMode h; grind
  · grind

theorem length_lt_of_step {r s : Reading} {cs rest : List Char}
    (h : r.step cs = some (s, rest)) : rest.length < cs.length := by
  cases cs with
  | nil => simp [step] at h
  | cons c cs =>
    unfold step at h
    dsimp only at h
    split at h
    · have := length_le_of_parenthesis h
      grind
    · grind [Option.map_eq_some_iff]
    · grind
    · obtain ⟨⟨depth, cs'⟩, hread, h⟩ := Option.bind_eq_some_iff.1 h
      have := Bracket.length_lt_of_read hread
      grind
    · grind [repetition, Option.map_eq_some_iff]
    · grind [repetition, Option.map_eq_some_iff]
    · grind [repetition, Option.map_eq_some_iff]
    · simp at h
    · grind [Option.map_eq_some_iff]
    · grind [Option.map_eq_some_iff]
    · grind [Option.map_eq_some_iff]
    · obtain ⟨⟨a, cs'⟩, hatom, h⟩ := Option.bind_eq_some_iff.1 h
      obtain ⟨r', -, h⟩ := Option.bind_eq_some_iff.1 h
      have := Atom.length_lt_of_ofChars hatom
      grind

/-! ### Whole patterns -/

/-- The depth of the pattern when the rest is read, if it is one. -/
def finish (r : Reading) (cs : List Char) : Option Nat :=
  match _hskip : r.group.mode.skip cs with
  | [] => if r.outer.isEmpty then some r.group.depth else none
  | c :: rest =>
    match _hstep : r.step (c :: rest) with
    | none => none
    | some (next, rest) => next.finish rest
termination_by cs.length
decreasing_by
  have hle := r.group.mode.length_skip_le cs
  rw [_hskip] at hle
  exact Nat.lt_of_lt_of_le (length_lt_of_step _hstep) hle

end Reading

end Pattern

/-- The depth of a pattern, if a text is one. -/
def patternDepth? (text : String) : Option Nat := ({} : Pattern.Reading).finish text.toList

/-- Whether a text is a pattern that nests no deeper than a pattern may. -/
def isPattern (text : String) : Bool := (patternDepth? text).any (· ≤ Pattern.maxDepth)

example :
    ["", "a**", "a*?", "(?P<n>a)", "(?<a.b>x)", "()", "]", "(?R)a", "a(?i)", "^*", "\\u00e9", "[a~~b]",
      "[[:alpha:]]", "(?-u:\\b\\w)", "(?x)a # (\n +", "(?i)[&&]", "[]-a]"].all isPattern := by
  decide +kernel

example :
    [")", "+", "(", "[", "[b-a]", "\\", "\\w+", "\\b", "(?i)a", "(?-u:\\xFF)", "(?P<n>a)(?P<n>b)",
      "(?P<1>a)", "(?-u).", "(?-u:[^a])", "[a-\\d]", "[[:alpha:]", "[[a]", "(*)", "(?)", "(?i)*", "a|*",
      "a\x7b2", "[a&&.--\\b]"].all (¬ isPattern ·) := by
  decide +kernel

end RawMemory.Text
