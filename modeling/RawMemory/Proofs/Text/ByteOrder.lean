import Mathlib
import RawMemory.Text.Decoding

/-!
# Units as bytes

A unit and its two bytes determine each other in either byte order (`ByteOrder.unit_of_bytes`,
`ByteOrder.bytes_unit`), so byte lists of even length are the same as unit lists
(`flatMap_unitsOfBytes`, `unitsOfBytes_flatMap`).
-/

namespace RawMemory

namespace ByteOrder

/-- The low byte of a unit is its remainder. -/
theorem toNat_low (u : UInt16) : u.toUInt8.toNat = u.toNat % 256 := by
  rw [UInt16.toNat_toUInt8]

/-- The high byte of a unit is its quotient. -/
theorem toNat_high (u : UInt16) : (u >>> 8).toUInt8.toNat = u.toNat / 256 := by
  have hu := u.toNat_lt
  have h8 : (8 : UInt16).toNat % 16 = 8 := rfl
  rw [UInt16.toNat_toUInt8, UInt16.toNat_shiftRight, h8, Nat.shiftRight_eq_div_pow]
  omega

/-- A unit has room for two bytes. -/
theorem toNat_ofNat_low_high (low high : UInt8) :
    (UInt16.ofNat (low.toNat + 256 * high.toNat)).toNat = low.toNat + 256 * high.toNat := by
  have hlow := low.toNat_lt
  have hhigh := high.toNat_lt
  rw [UInt16.toNat_ofNat', Nat.mod_eq_of_lt (by omega)]

/-- The bytes of the unit that two bytes hold are these bytes. -/
theorem bytes_unit (order : ByteOrder) (first second : UInt8) :
    order.bytes (order.unit first second) = [first, second] := by
  have hfirst := first.toNat_lt
  have hsecond := second.toNat_lt
  -- in either order the low byte is the remainder and the high one the quotient
  cases order <;>
    · simp only [bytes, unit, List.cons.injEq, ← UInt8.toNat_inj, and_true]
      rw [toNat_high, toNat_low, toNat_ofNat_low_high]
      omega

/-- The unit that the bytes of a unit hold is this unit. -/
theorem unit_of_bytes {order : ByteOrder} {u : UInt16} {first second : UInt8}
    (h : order.bytes u = [first, second]) : order.unit first second = u := by
  have hu := u.toNat_lt
  cases order <;>
    · simp only [bytes, List.cons.injEq, and_true] at h
      obtain ⟨rfl, rfl⟩ := h
      rw [unit, ← UInt16.toNat_inj, toNat_ofNat_low_high, toNat_low, toNat_high]
      omega

/-- A unit has two bytes, and is read back from them. -/
theorem exists_bytes_eq (order : ByteOrder) (u : UInt16) :
    ∃ first second, order.bytes u = [first, second] ∧ order.unit first second = u := by
  obtain ⟨first, second, h⟩ : ∃ first second, order.bytes u = [first, second] := by
    cases order <;> exact ⟨_, _, rfl⟩
  exact ⟨first, second, h, unit_of_bytes h⟩

@[simp] theorem length_bytes (order : ByteOrder) (u : UInt16) : (order.bytes u).length = 2 := by
  cases order <;> rfl

/-- Units take two bytes each. -/
theorem length_flatMap_bytes (order : ByteOrder) (units : List UInt16) :
    (units.flatMap order.bytes).length = 2 * units.length := by
  induction units with
  | nil => rfl
  | cons u units ih =>
    rw [List.flatMap_cons, List.length_append, length_bytes, ih, List.length_cons]
    omega

end ByteOrder

namespace Text

/-- The units that the bytes of units hold are these units. -/
@[simp] theorem unitsOfBytes_flatMap (order : ByteOrder) (units : List UInt16) :
    unitsOfBytes order (units.flatMap order.bytes) = units := by
  induction units with
  | nil => rfl
  | cons u units ih =>
    obtain ⟨first, second, hbytes, hunit⟩ := order.exists_bytes_eq u
    rw [List.flatMap_cons, hbytes, List.cons_append, List.cons_append, List.nil_append,
      unitsOfBytes, hunit, ih]

/-- The bytes of the units that bytes hold are these bytes, but for one that may be left over. -/
theorem exists_eq_flatMap_unitsOfBytes_append (order : ByteOrder) (bytes : List UInt8) :
    ∃ last, last.length = bytes.length % 2 ∧
      bytes = (unitsOfBytes order bytes).flatMap order.bytes ++ last := by
  fun_induction unitsOfBytes order bytes with
  | case1 first second rest ih =>
    obtain ⟨last, hlast, hrest⟩ := ih
    refine ⟨last, by rw [hlast, List.length_cons, List.length_cons]; omega, ?_⟩
    rw [List.flatMap_cons, ByteOrder.bytes_unit, List.append_assoc, ← hrest]
    rfl
  | case2 last => exact ⟨[last], rfl, rfl⟩
  | case3 => exact ⟨[], rfl, rfl⟩

/-- An even number of bytes is read back from its units. -/
theorem flatMap_unitsOfBytes {order : ByteOrder} {bytes : List UInt8} (h : Even bytes.length) :
    (unitsOfBytes order bytes).flatMap order.bytes = bytes := by
  obtain ⟨last, hlast, hbytes⟩ := exists_eq_flatMap_unitsOfBytes_append order bytes
  rw [Nat.even_iff.mp h, List.length_eq_zero_iff] at hlast
  rw [hlast, List.append_nil] at hbytes
  exact hbytes.symm

/-- Byte lists of even length are those of units. -/
theorem even_length_iff (order : ByteOrder) {bytes : List UInt8} :
    Even bytes.length ↔ ∃ units : List UInt16, bytes = units.flatMap order.bytes := by
  constructor
  · intro h
    exact ⟨unitsOfBytes order bytes, (flatMap_unitsOfBytes h).symm⟩
  · rintro ⟨units, rfl⟩
    exact ⟨units.length, by rw [ByteOrder.length_flatMap_bytes, Nat.two_mul]⟩

end Text

end RawMemory
