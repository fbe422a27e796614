/-!
# Hexadecimal text

Lower-case hexadecimal digits, in a fixed number of places (`fixed`, for addresses, and `ofByte`, for
bytes) or in as few as the number needs (`shortest`, for handles).
-/

namespace RawMemory.Hex

/-- The `places` lowest hexadecimal digits of `n`, the highest first. -/
def fixed : (places n : Nat) → List Char
  | 0, _ => []
  | places + 1, n => fixed places (n / 16) ++ [Nat.digitChar (n % 16)]

/-- The hexadecimal digits of `n` without leading zeros; zero is one digit. -/
def shortest (n : Nat) : List Char :=
  Nat.toDigits 16 n

/-- The two digits of a byte. -/
def ofByte (b : UInt8) : List Char :=
  fixed 2 b.toNat

/-- The digits of a byte string, two for each byte and nothing between them. -/
def ofBytes (bytes : List UInt8) : List Char :=
  bytes.flatMap ofByte

@[simp] theorem length_fixed (places n : Nat) : (fixed places n).length = places := by
  induction places generalizing n with
  | zero => rfl
  | succ places ih => simp [fixed, ih]

@[simp] theorem length_ofByte (b : UInt8) : (ofByte b).length = 2 :=
  length_fixed 2 b.toNat

end RawMemory.Hex
