/-!
# Depth of a pattern

How deep the parts of a pattern stand in each other. A single part adds nothing to its own depth, but
parts that stand together are one level deeper than the deepest of them.
-/

namespace RawMemory.Text.Pattern

/-- The levels that a pattern may have. -/
def maxDepth : Nat := 250

/-- The depth of parts that stand together. -/
def together : List Nat → Nat
  | [] => 0
  | [depth] => depth
  | depths => 1 + depths.foldl max 0

/-- A part is at most as deep as what it stands in. -/
theorem le_together {depth : Nat} {depths : List Nat} (h : depth ∈ depths) :
    depth ≤ together depths := by
  have hmax : ∀ (ds : List Nat) (n : Nat), n ≤ ds.foldl max n ∧ ∀ d ∈ ds, d ≤ ds.foldl max n := by
    intro ds
    induction ds with
    | nil => simp
    | cons e ds ih =>
      intro n
      obtain ⟨hn, hd⟩ := ih (max n e)
      simp only [List.foldl_cons, List.mem_cons, forall_eq_or_imp]
      exact ⟨by omega, by omega, hd⟩
  match depths with
  | [] => simp at h
  | [d] => simp_all [together]
  | d :: e :: ds =>
    have := (hmax (d :: e :: ds) 0).2 depth h
    exact Nat.le_trans this (Nat.le_add_left _ 1)

end RawMemory.Text.Pattern
