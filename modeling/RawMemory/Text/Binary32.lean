/-!
# Single precision

A first output is sized by a factor in IEEE single precision. Only one operation on such numbers is
needed: a count, rounded to single precision, times the factor, rounded again, and then the least whole
number that is not smaller. `nearest` is that rounding on natural numbers: 24 significant bits, a value
in the middle going to the even neighbour.
-/

namespace RawMemory

/-- A positive, normal IEEE single, given by its bit pattern. -/
structure Binary32 where
  /-- The bit pattern. -/
  bits : UInt32
deriving DecidableEq

namespace Binary32

/-- The 24-bit significand of the number. -/
def significand (x : Binary32) : Nat := 0x800000 + x.bits.toNat % 0x800000

/-- How many bits of the significand stand after the binary point, for numbers below `2 ^ 24`. -/
def fractionBits (x : Binary32) : Nat := 150 - x.bits.toNat / 0x800000

/-- The number with 24 significant bits nearest to `n`, the even one of two that are equally near. -/
def nearest (n : Nat) : Nat :=
  -- the weight of the last of 24 significant bits
  let unit := 1 <<< (n.log2 + 1 - 24)
  let quotient := n / unit
  let twice := 2 * (n % unit)
  if unit < twice ∨ (unit = twice ∧ quotient % 2 = 1) then (quotient + 1) * unit else quotient * unit

/-- The least whole number not below the product of a count and a factor in single precision. A product
beyond the largest word gives the largest word. -/
def ceilMul (count : Nat) (factor : Binary32) : Nat :=
  let product := nearest (nearest count * factor.significand)
  let one := 1 <<< factor.fractionBits
  min ((product + (one - 1)) / one) 0xFFFFFFFFFFFFFFFF

/-- Counts of up to `2 ^ 24` are exact in single precision. -/
theorem nearest_of_le {n : Nat} (h : n ≤ 0x1000000) : nearest n = n := by
  by_cases hn : n = 0x1000000
  · subst hn
    decide
  · have hlog : n.log2 + 1 - 24 = 0 := by
      by_cases h0 : n = 0
      · subst h0
        decide
      · have : n.log2 < 24 := (Nat.log2_lt h0).mpr (by omega)
        omega
    simp [nearest, hlog, Nat.mod_one]

end Binary32

end RawMemory
