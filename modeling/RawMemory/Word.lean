/-!
# Words

Sizes, counts and addresses are 64-bit words. Addition and subtraction of `UInt64` wrap; this module
adds the forms that notice an overflow (`add?`, `sub?`, `mul?`) and the one that stops at the largest
word (`addSat`). Each lemma states the result as an unbounded natural number.
-/

namespace RawMemory.Word

/-- The largest word, `2 ^ 64 - 1`. -/
def largest : UInt64 := 0xFFFFFFFFFFFFFFFF

/-- The largest byte size that one object in memory may have, `2 ^ 63 - 1`. -/
def maxSize : UInt64 := 0x7FFFFFFFFFFFFFFF

/-- The sum, unless it exceeds the largest word. -/
def add? (a b : UInt64) : Option UInt64 :=
  if a.toNat + b.toNat < 0x10000000000000000 then some (a + b) else none

/-- The difference, unless it is negative. -/
def sub? (a b : UInt64) : Option UInt64 :=
  if b ≤ a then some (a - b) else none

/-- The product, unless it exceeds the largest word. -/
def mul? (a b : UInt64) : Option UInt64 :=
  if a.toNat * b.toNat < 0x10000000000000000 then some (a * b) else none

/-- The sum, or the largest word where the sum exceeds it. -/
def addSat (a b : UInt64) : UInt64 :=
  (add? a b).getD largest

@[simp] theorem toNat_largest : largest.toNat = 0xFFFFFFFFFFFFFFFF := rfl

@[simp] theorem toNat_maxSize : maxSize.toNat = 0x7FFFFFFFFFFFFFFF := rfl

theorem add?_eq_some_iff {a b c : UInt64} :
    add? a b = some c ↔ c.toNat = a.toNat + b.toNat := by
  unfold add?
  have hc := c.toNat_lt
  constructor
  · intro h
    split at h
    · rw [← Option.some.inj h, UInt64.toNat_add]
      omega
    · cases h
  · intro h
    rw [if_pos (by omega)]
    refine congrArg some (UInt64.toNat_inj.mp ?_)
    rw [UInt64.toNat_add]
    omega

theorem sub?_eq_some_iff {a b c : UInt64} :
    sub? a b = some c ↔ a.toNat = b.toNat + c.toNat := by
  unfold sub?
  constructor
  · intro h
    split at h
    · rename_i hle
      rw [← Option.some.inj h, UInt64.toNat_sub_of_le _ _ hle]
      have := UInt64.le_iff_toNat_le.mp hle
      omega
    · cases h
  · intro h
    have hle : b ≤ a := UInt64.le_iff_toNat_le.mpr (by omega)
    rw [if_pos hle]
    refine congrArg some (UInt64.toNat_inj.mp ?_)
    rw [UInt64.toNat_sub_of_le _ _ hle]
    omega

theorem mul?_eq_some_iff {a b c : UInt64} :
    mul? a b = some c ↔ c.toNat = a.toNat * b.toNat := by
  unfold mul?
  have hc := c.toNat_lt
  constructor
  · intro h
    split at h
    · rename_i hlt
      rw [← Option.some.inj h, UInt64.toNat_mul, Nat.mod_eq_of_lt hlt]
    · cases h
  · intro h
    rw [if_pos (by omega)]
    refine congrArg some (UInt64.toNat_inj.mp ?_)
    rw [UInt64.toNat_mul, Nat.mod_eq_of_lt (by omega), h]

theorem toNat_addSat (a b : UInt64) :
    (addSat a b).toNat = min (a.toNat + b.toNat) 0xFFFFFFFFFFFFFFFF := by
  unfold addSat add?
  split
  · -- the sum is a word
    rw [Option.getD_some, UInt64.toNat_add]
    omega
  · -- the sum is not, and the largest word is less than it
    rw [Option.getD_none, toNat_largest]
    omega

end RawMemory.Word
