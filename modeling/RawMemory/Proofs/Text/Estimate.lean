import Mathlib
import RawMemory.Text.Decoding

/-!
# First sizes

A first output is sized by a count and a factor in single precision, so rounding decides whether it is large
enough. Nothing is rounded where the factor is a power of two: such a product of a count up to `2 ^ 24` has
no more than 24 significant bits (`Binary32.nearest_of_dvd`). For the factor of UTF-8, which is not, the error
of one rounding is far below the tenth by which the factor exceeds one (`Text.length_le_encodeEstimate`).

* `Text.encodeEstimate_of_ne_utf8`: the exact size of a first output for bytes, but for UTF-8.
* `Text.length_le_encodeEstimate`: there is a byte for each unit at least.
* `Text.decodeEstimate_eq`: the exact size of a first output for units.
-/

namespace RawMemory

namespace Binary32

/-! ## Rounding -/

/-- The weight of the last of 24 significant bits of a number. -/
def unit (n : Nat) : Nat := 2 ^ (n.log2 + 1 - 24)

theorem unit_pos (n : Nat) : 0 < unit n := Nat.two_pow_pos _

/-- A number is rounded down to a multiple of its unit, or up to the next one. -/
theorem nearest_cases (n : Nat) :
    nearest n = n / unit n * unit n ∨ (nearest n = (n / unit n + 1) * unit n ∧ n % unit n ≠ 0) := by
  have hpos := unit_pos n
  rw [nearest, Nat.one_shiftLeft, ← unit]
  split
  · next hup =>
    refine Or.inr ⟨rfl, fun hrest => ?_⟩
    rw [hrest] at hup
    omega
  · exact Or.inl rfl

/-- A multiple of the unit is kept. -/
theorem nearest_of_unit_dvd {n : Nat} (h : unit n ∣ n) : nearest n = n := by
  rcases nearest_cases n with hdown | ⟨-, hrest⟩
  · rw [hdown, Nat.div_mul_cancel h]
  · exact absurd (Nat.mod_eq_zero_of_dvd h) hrest

/-- What is lost by rounding is less than a unit. -/
theorem lt_nearest_add_unit (n : Nat) : n < nearest n + unit n := by
  have hmod := Nat.mod_lt n (unit_pos n)
  have hdiv := Nat.div_add_mod' n (unit n)
  rcases nearest_cases n with hdown | ⟨hup, -⟩
  · rw [hdown]
    omega
  · rw [hup, Nat.succ_mul]
    omega

/-- The error of a rounding is below one part in `2 ^ 23`. -/
theorem unit_mul_le {n : Nat} (h : 2 ^ 23 ≤ n) : unit n * 2 ^ 23 ≤ n := by
  have hlog : 23 ≤ n.log2 := (Nat.le_log2 (by omega)).mpr h
  calc unit n * 2 ^ 23 = 2 ^ n.log2 := by
        rw [unit, ← Nat.pow_add, show n.log2 + 1 - 24 + 23 = n.log2 by omega]
    _ ≤ n := Nat.log2_self_le (by omega)

/-- Multiples of `2 ^ k` are exact as long as they have no more than `24 + k` bits, and so is the next power
of two. -/
theorem nearest_of_dvd {n k : Nat} (hdvd : 2 ^ k ∣ n) (hle : n ≤ 2 ^ (k + 24)) : nearest n = n := by
  apply nearest_of_unit_dvd
  rcases Nat.lt_or_eq_of_le hle with hlt | heq
  · rcases Nat.eq_zero_or_pos n with hzero | hpos
    · rw [hzero]
      exact Nat.dvd_zero _
    · -- the unit is a power of two up to `2 ^ k`
      have hlog : n.log2 < k + 24 := (Nat.log2_lt (by omega)).mpr hlt
      have hexponent : n.log2 + 1 - 24 ≤ k := by omega
      exact (Nat.pow_dvd_pow 2 hexponent).trans hdvd
  · -- the power of two is a multiple of any unit that it can have
    rw [heq, unit, Nat.log2_two_pow]
    exact Nat.pow_dvd_pow 2 (by omega)

/-! ## Products -/

/-- Up to 2 ^ 24 a count is exact, and only the product is rounded. -/
theorem ceilMul_of_le {count : Nat} (h : count ≤ 2 ^ 24) (factor : Binary32) :
    ceilMul count factor =
      min ((nearest (count * factor.significand) + (2 ^ factor.fractionBits - 1)) /
        2 ^ factor.fractionBits) 0xFFFFFFFFFFFFFFFF := by
  rw [ceilMul, nearest_of_le h, Nat.one_shiftLeft]

/-- The product with a power of two is rounded once, to a whole number. -/
theorem ceilMul_of_significand {count : Nat} (h : count ≤ 2 ^ 24) {factor : Binary32}
    (hfactor : factor.significand = 2 ^ 23) :
    ceilMul count factor =
      min ((count * 2 ^ 23 + (2 ^ factor.fractionBits - 1)) / 2 ^ factor.fractionBits)
        0xFFFFFFFFFFFFFFFF := by
  -- the product has the significant bits of the count
  have hexact : nearest (count * 2 ^ 23) = count * 2 ^ 23 := by
    apply nearest_of_dvd (Nat.dvd_mul_left _ count)
    rw [Nat.add_comm, Nat.pow_add]
    exact Nat.mul_le_mul_right _ h
  rw [ceilMul_of_le h, hfactor, hexact]

end Binary32

/-! ## Sizes of first outputs -/

/-- The most bytes that a unit takes, as a part of its character. -/
def Charset.bytesOfUnit : Charset → Nat
  | usAscii | latin1 => 1
  | utf8 => 3
  | utf16le | utf16be => 2

/-- The fewest bytes that a unit takes, as a part of its character. -/
def Charset.leastBytesOfUnit : Charset → Nat
  | usAscii | latin1 | utf8 => 1
  | utf16le | utf16be => 2

namespace Text

open Binary32

/-- But for UTF-8, a first output has room for any units. -/
theorem encodeEstimate_of_ne_utf8 {charset : Charset} (hne : charset ≠ .utf8) {units : List UInt16}
    (hunits : units.length ≤ 2 ^ 24) :
    encodeEstimate charset units = charset.bytesOfUnit * units.length := by
  rw [encodeEstimate]
  cases charset with
  | usAscii | latin1 =>
    rw [ceilMul_of_significand hunits rfl, Charset.bytesOfUnit, Charset.bytesPerUnit,
      show fractionBits ⟨0x3F800000⟩ = 23 from rfl]
    omega
  | utf8 => exact absurd rfl hne
  | utf16le | utf16be =>
    rw [ceilMul_of_significand hunits rfl, Charset.bytesOfUnit, Charset.bytesPerUnit,
      show fractionBits ⟨0x40000000⟩ = 22 from rfl]
    omega

/-- There is at least a byte for each unit. -/
theorem length_le_encodeEstimate_utf8 {units : List UInt16} (hunits : units.length ≤ 2 ^ 24) :
    units.length ≤ encodeEstimate .utf8 units := by
  rw [encodeEstimate, ceilMul_of_le hunits,
    show (Charset.bytesPerUnit .utf8).significand = 9227469 from rfl,
    show (Charset.bytesPerUnit .utf8).fractionBits = 23 from rfl]
  rcases Nat.eq_zero_or_pos units.length with hnone | hpos
  · rw [hnone]
    exact Nat.zero_le _
  · -- the product is about eleven tenths of the count, and the error small
    have hlower := lt_nearest_add_unit (units.length * 9227469)
    have hunit := unit_mul_le (n := units.length * 9227469) (by omega)
    omega

/-- A first output has a byte for each unit. -/
theorem length_le_encodeEstimate (charset : Charset) {units : List UInt16}
    (hunits : units.length ≤ 2 ^ 24) : units.length ≤ encodeEstimate charset units := by
  by_cases hutf8 : charset = .utf8
  · rw [hutf8]
    exact length_le_encodeEstimate_utf8 hunits
  · rw [encodeEstimate_of_ne_utf8 hutf8 hunits]
    apply Nat.le_mul_of_pos_left
    cases charset <;> decide

/-- A first output has as many units as the bytes can be, were each of them as short as it can be. -/
theorem decodeEstimate_eq (charset : Charset) {bytes : List UInt8} (hbytes : bytes.length ≤ 2 ^ 24) :
    decodeEstimate charset bytes =
      (bytes.length + (charset.leastBytesOfUnit - 1)) / charset.leastBytesOfUnit := by
  rw [decodeEstimate]
  cases charset with
  | usAscii | latin1 | utf8 =>
    rw [ceilMul_of_significand hbytes rfl, Charset.leastBytesOfUnit, Charset.unitsPerByte,
      show fractionBits ⟨0x3F800000⟩ = 23 from rfl]
    omega
  | utf16le | utf16be =>
    rw [ceilMul_of_significand hbytes rfl, Charset.leastBytesOfUnit, Charset.unitsPerByte,
      show fractionBits ⟨0x3F000000⟩ = 24 from rfl]
    omega

end Text

end RawMemory
