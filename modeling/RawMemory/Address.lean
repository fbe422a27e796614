import RawMemory.Hex
import RawMemory.Word

/-!
# Addresses

An address names one byte of a flat 64-bit address space. Moving by `+` and `-` goes round the space;
`checkedAdd`, `checkedSub` and `offsetFrom` refuse to leave it, and `saturatingAdd` stops at its last
byte.
-/

namespace RawMemory

/-- A place in the 64-bit address space. -/
@[ext]
structure Address where
  /-- The address as a number. -/
  val : UInt64
deriving DecidableEq, Inhabited

namespace Address

/-- The address that names nothing. -/
def null : Address := ⟨0⟩

/-- Addresses are ordered as numbers. -/
instance : Ord Address := ⟨fun a b => compare a.val b.val⟩

/-- Moving up goes round the address space. -/
instance : HAdd Address UInt64 Address := ⟨fun a n => ⟨a.val + n⟩⟩

/-- Moving down goes round the address space. -/
instance : HSub Address UInt64 Address := ⟨fun a n => ⟨a.val - n⟩⟩

/-- Whether the address is `null`. -/
def isNull (a : Address) : Bool := a.val == 0

/-- Whether the address is neither null nor in the upper half of the address space, where it would be
negative as a signed word. -/
def isPositive (a : Address) : Bool := 0 < a.val && a.val ≤ Word.maxSize

/-- The address `n` bytes up, unless that is beyond the last one. -/
def checkedAdd (a : Address) (n : UInt64) : Option Address := (Word.add? a.val n).map Address.mk

/-- The address `n` bytes down, unless that is before the first one. -/
def checkedSub (a : Address) (n : UInt64) : Option Address := (Word.sub? a.val n).map Address.mk

/-- The address `n` bytes up, or the last one. -/
def saturatingAdd (a : Address) (n : UInt64) : Address := ⟨Word.addSat a.val n⟩

/-- How many bytes `a` lies above `base`, unless it lies below. -/
def offsetFrom (a base : Address) : Option UInt64 := Word.sub? a.val base.val

/-- How many bytes `a` lies above `base` when one may go round the address space. -/
def distance (a base : Address) : UInt64 := a.val - base.val

/-- The written form: sixteen hexadecimal digits after `0x`. -/
def text (a : Address) : String := String.ofList ('0' :: 'x' :: Hex.fixed 16 a.val.toNat)

@[simp] theorem val_add (a : Address) (n : UInt64) : (a + n).val = a.val + n := rfl

@[simp] theorem val_sub (a : Address) (n : UInt64) : (a - n).val = a.val - n := rfl

@[simp] theorem distance_add (a : Address) (n : UInt64) : (a + n).distance a = n := by
  simp [distance, UInt64.add_comm a.val n]

@[simp] theorem add_distance (a base : Address) : base + a.distance base = a := by
  ext1
  simp [distance, UInt64.add_comm base.val]

theorem isPositive_iff (a : Address) :
    a.isPositive = true ↔ 1 ≤ a.val.toNat ∧ a.val.toNat ≤ 0x7FFFFFFFFFFFFFFF := by
  simp only [isPositive, Bool.and_eq_true, decide_eq_true_eq, UInt64.lt_iff_toNat_lt,
    UInt64.le_iff_toNat_le, Word.toNat_maxSize, UInt64.toNat_zero]
  omega

theorem isNull_eq_false {a : Address} (ha : a ≠ null) : a.isNull = false := by
  rw [isNull, beq_eq_false_iff_ne]
  intro hzero
  exact ha (Address.ext hzero)

theorem ne_null_of_isPositive {a : Address} (ha : a.isPositive = true) : a ≠ null := by
  intro hnull
  rw [hnull] at ha
  exact absurd ha (by decide)

end Address

end RawMemory
