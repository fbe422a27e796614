/-!
# Element kinds

Memory is read and written in elements of eight kinds. An element is the bit pattern that its bytes
hold; its kind says how many bytes that takes and whether the pattern is read as a signed number. The
bytes that a pointer takes in memory are fixed, while the width that address arithmetic gives to it is
a parameter of the platform.
-/

namespace RawMemory

/-- What one element of a typed view is. -/
inductive ElementKind where
  /-- An unsigned 8-bit number. -/
  | byte
  /-- A signed 16-bit number. -/
  | short
  /-- A UTF-16 code unit. -/
  | char
  /-- A signed 32-bit number. -/
  | int
  /-- An IEEE single, kept as its bit pattern. -/
  | float
  /-- A signed 64-bit number. -/
  | long
  /-- An IEEE double, kept as its bit pattern. -/
  | double
  /-- An address. -/
  | pointer
deriving DecidableEq, Inhabited

namespace ElementKind

/-- Every kind, in the order in which reports list them. -/
def all : List ElementKind := [byte, short, char, int, float, long, double, pointer]

/-- The name of the kind in messages. -/
def name : ElementKind → String
  | byte => "byte"
  | short => "short"
  | char => "char"
  | int => "int"
  | float => "float"
  | long => "long"
  | double => "double"
  | pointer => "pointer"

/-- The width in bytes of every kind but `pointer`, whose width depends on the platform. -/
def fixedWidth : ElementKind → Option UInt64
  | byte => some 1
  | short | char => some 2
  | int | float => some 4
  | long | double => some 8
  | pointer => none

/-- The width in bytes on a platform whose pointers have `pointerSize` bytes. -/
def width (kind : ElementKind) (pointerSize : UInt64) : UInt64 := kind.fixedWidth.getD pointerSize

/-- How many bytes of memory an element takes. -/
def size : ElementKind → Nat
  | byte => 1
  | short | char => 2
  | int | float => 4
  | long | double | pointer => 8

/-- The bit pattern of one element. -/
abbrev Bits (kind : ElementKind) : Type := BitVec (8 * kind.size)

/-- Whether the pattern is a number in two's complement. -/
def isSigned : ElementKind → Bool
  | short | int | long => true
  | byte | char | float | double | pointer => false

/-- The number that a pattern stands for; a float or double stands for its pattern. -/
def toInt (kind : ElementKind) (bits : kind.Bits) : Int :=
  if kind.isSigned then bits.toInt else bits.toNat

/-- The pattern of a number, taken modulo the number of patterns. -/
def ofInt (kind : ElementKind) (n : Int) : kind.Bits := BitVec.ofInt (8 * kind.size) n

theorem size_pos (kind : ElementKind) : 0 < kind.size := by cases kind <;> decide

theorem width_eq_size (kind : ElementKind) : (kind.width 8).toNat = kind.size := by
  cases kind <;> rfl

theorem ofInt_toInt (kind : ElementKind) (bits : kind.Bits) : kind.ofInt (kind.toInt bits) = bits := by
  unfold ofInt toInt
  split <;> simp

end ElementKind

end RawMemory
