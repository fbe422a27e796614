/-!
# Little-endian numbers

A number is stored as base-256 digits, the lowest first.
-/

namespace RawMemory.LittleEndian

/-- The `count` lowest base-256 digits of `n`, the lowest first. -/
def bytes : (count n : Nat) → List UInt8
  | 0, _ => []
  | count + 1, n => UInt8.ofNat n :: bytes count (n / 256)

/-- The number whose base-256 digits, the lowest first, are the given bytes. -/
def value : List UInt8 → Nat
  | [] => 0
  | b :: rest => b.toNat + 256 * value rest

@[simp] theorem length_bytes (count n : Nat) : (bytes count n).length = count := by
  induction count generalizing n with
  | zero => rfl
  | succ count ih => simp [bytes, ih]

end RawMemory.LittleEndian
