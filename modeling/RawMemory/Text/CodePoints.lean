/-!
# Sets of code points

The classes of characters that Unicode defines are long, so each of them is a list of ranges in
ascending order with a gap between any two. `isAscending` checks that form, and `size` counts the
members, which catches a slip in a table.
-/

namespace RawMemory

/-- A set of code points, as ranges that are given by their first and last members. -/
structure CodePoints where
  /-- The ranges. -/
  ranges : List (Nat × Nat)

namespace CodePoints

/-- Whether a code point is in the set. -/
def contains (s : CodePoints) (n : Nat) : Bool :=
  s.ranges.any fun (first, last) => first ≤ n && n ≤ last

/-- How many code points the ranges hold. -/
def size (s : CodePoints) : Nat :=
  s.ranges.foldl (fun count (first, last) => count + (last + 1 - first)) 0

/-- Whether ranges are nonempty and in ascending order with a gap between any two. -/
def areAscending : List (Nat × Nat) → Bool
  | [] => true
  | [(first, last)] => first ≤ last
  | (first, last) :: (next, nextLast) :: rest =>
    first ≤ last && last + 1 < next && areAscending ((next, nextLast) :: rest)

/-- Whether the ranges of the set are in order. -/
def isAscending (s : CodePoints) : Bool := areAscending s.ranges

end CodePoints

end RawMemory
