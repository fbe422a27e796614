import Mathlib
import RawMemory.LittleEndian

/-!
# Reading back little-endian numbers

Writing a value into a fixed count of bytes and reading it back leaves the value modulo `256 ^ count`
(`value_bytes`), and reading any bytes and writing them back into as many bytes leaves the bytes
(`bytes_value`). A bit pattern of whole bytes has room for what the bytes hold
(`value_bytes_toNat`, `toNat_ofNat_value`).
-/

namespace RawMemory.LittleEndian

/-- A number that is too large loses its high bytes. -/
theorem value_bytes (count n : Nat) : value (bytes count n) = n % 256 ^ count := by
  induction count generalizing n with
  | zero => simp [bytes, value, Nat.mod_one]
  | succ count ih =>
    have split : n % (256 * 256 ^ count) = n % 256 + 256 * (n / 256 % 256 ^ count) := Nat.mod_mul
    rw [bytes, value, ih, UInt8.toNat_ofNat', show 256 ^ (count + 1) = 256 * 256 ^ count from
      Nat.pow_succ', split]

/-- A number is bounded by the count of its bytes. -/
theorem value_lt (bs : List UInt8) : value bs < 256 ^ bs.length := by
  induction bs with
  | nil => simp [value]
  | cons b rest ih =>
    have := b.toNat_lt
    rw [value, List.length_cons, Nat.pow_succ]
    omega

/-- Bytes are read back from their number. -/
theorem bytes_value (bs : List UInt8) : bytes bs.length (value bs) = bs := by
  induction bs with
  | nil => rfl
  | cons b rest ih =>
    have hb := b.toNat_lt
    rw [List.length_cons, value, bytes]
    congr 1
    · -- the lowest digit is the first byte
      refine UInt8.toNat_inj.mp ?_
      rw [UInt8.toNat_ofNat']
      omega
    · -- the other digits make up the quotient
      rw [show (b.toNat + 256 * value rest) / 256 = value rest by omega, ih]

/-- Digits above the ones that are written do not matter. -/
theorem bytes_mod (count n : Nat) : bytes count (n % 256 ^ count) = bytes count n := by
  have h := bytes_value (bytes count n)
  rwa [length_bytes, value_bytes] at h

/-- Each byte is a digit of the number. -/
theorem getElem_bytes {count n k : Nat} (h : k < (bytes count n).length) :
    (bytes count n)[k] = UInt8.ofNat (n / 256 ^ k) := by
  induction count generalizing n k with
  | zero => exact absurd h (Nat.not_lt_zero k)
  | succ count ih =>
    cases k with
    | zero => simp [bytes]
    | succ k =>
      simp only [bytes, List.getElem_cons_succ, ih, Nat.div_div_eq_div_mul]
      rw [← Nat.pow_succ']

/-- Later bytes count more. -/
theorem value_append (front back : List UInt8) :
    value (front ++ back) = value front + 256 ^ front.length * value back := by
  induction front with
  | nil => simp [value]
  | cons b front ih =>
    rw [List.cons_append, value, value, ih, List.length_cons, Nat.pow_succ', Nat.mul_add,
      Nat.mul_assoc, Nat.add_assoc]

/-- A pattern of whole bytes is read back from them. -/
theorem value_bytes_toNat {count : Nat} (bits : BitVec (8 * count)) :
    value (bytes count bits.toNat) = bits.toNat := by
  rw [value_bytes, show 256 = 2 ^ 8 from rfl, ← Nat.pow_mul, Nat.mod_eq_of_lt bits.isLt]

/-- A pattern of as many bytes as are read holds all of them. -/
theorem toNat_ofNat_value {bs : List UInt8} {width : Nat} (h : width = 8 * bs.length) :
    (BitVec.ofNat width (value bs)).toNat = value bs := by
  have hlt := value_lt bs
  rw [show 256 = 2 ^ 8 from rfl, ← Nat.pow_mul, ← h] at hlt
  rw [BitVec.toNat_ofNat, Nat.mod_eq_of_lt hlt]

end RawMemory.LittleEndian
