import RawMemory.Proofs.ElementAddress
import RawMemory.Proofs.Handle

/-!
# Views of the same memory

Views of different kinds may show the same bytes, at any distance from each other. What is put through one
of them is therefore told by bytes: `Store.Updated` says which bytes of memory are those of a pattern, that
all others are as before, and that a read through any view finds the number that the bytes there make up now
(`Store.number`).

* `View.Fits.updated_put`: an element that is put.
* `View.Fits.updated_putUnit`: a unit that is put to a byte view, at an even or an odd offset.
* `View.unitAccess`: a unit is got and put like its two bytes.
* `View.access_coherent`: all of this, and where a unit can be accessed at all.
-/

namespace RawMemory

/-! ## Numbers in memory -/

namespace Store

/-- The number of which the bytes from `a` on are the `width` digits, the lowest first. -/
def number (m : Store) (a : Address) (width : Nat) : Nat :=
  ∑ k ∈ Finset.range width, (m.byte (a + UInt64.ofNat k)).toNat * 256 ^ k

/-- Bytes that are read are the digits of the number that is stored there. -/
theorem value_read (m : Store) (a : Address) (width : Nat) :
    LittleEndian.value (m.read a width) = m.number a width := by
  induction width with
  | zero => rfl
  | succ width ih =>
    have hread : m.read a (width + 1) = m.read a width ++ [m.byte (a + UInt64.ofNat width)] := by
      rw [read, List.range_succ, List.map_append]
      rfl
    have hnumber : m.number a (width + 1) =
        m.number a width + (m.byte (a + UInt64.ofNat width)).toNat * 256 ^ width :=
      Finset.sum_range_succ _ _
    rw [hread, hnumber, LittleEndian.value_append, ih, length_read, LittleEndian.value,
      LittleEndian.value, Nat.mul_zero, Nat.add_zero, Nat.mul_comm]

/-- A pattern that was stored is read back bit for bit. -/
theorem ofNat_value_read_write (m : Store) (a : Address) {count : Nat} (hcount : count < 2 ^ 64)
    (bits : BitVec (8 * count)) :
    BitVec.ofNat (8 * count) (LittleEndian.value
      ((m.write a (LittleEndian.bytes count bits.toNat).toArray).read a count)) = bits := by
  have hlength := LittleEndian.length_bytes count bits.toNat
  have hread := m.read_write a (hlength.trans_lt hcount)
  rw [hlength] at hread
  rw [hread, LittleEndian.value_bytes_toNat, BitVec.ofNat_toNat, BitVec.setWidth_eq]

end Store

namespace View

variable {kind : ElementKind} {v : View kind} {index : UInt64}

/-- An element is the number that its bytes make up. -/
theorem exists_get (hi : index.toNat < v.capacity.toNat) (m : Store) :
    ∃ element, v.get m index = .ok element ∧
      element.toNat = m.number (v.elementAddress index) kind.size :=
  ⟨v.load m index, get_eq_ok hi m, by rw [toNat_load, Store.value_read]⟩

section Units

variable {v : View .byte}

/-- A unit of which the second byte has an index beyond all words is refused like any other outside. -/
theorem checkIndex_addSat_eq_ok_iff :
    v.checkIndex (Word.addSat index 1) = .ok () ↔ index.toNat + 1 < v.capacity.toNat := by
  constructor
  · exact toNat_lt_of_checkIndex_addSat
  · intro hi
    rw [checkIndex_eq_ok_iff, Word.toNat_addSat, UInt64.toNat_one]
    omega

/-- A unit is the number that its two bytes make up. -/
theorem exists_getUnit (hi : index.toNat + 1 < v.capacity.toNat) (m : Store) :
    ∃ unit, v.getUnit m index = .ok unit ∧ unit.toNat = m.number (v.address + index) 2 := by
  refine ⟨BitVec.ofNat 16 (LittleEndian.value (m.read (v.address + index) 2)), ?_, ?_⟩
  · rw [getUnit, checkIndex_addSat_eq_ok_iff.mpr hi]
    rfl
  · rw [LittleEndian.toNat_ofNat_value (by rw [Store.length_read]), Store.value_read]

/-- A unit is stored little-endian if both bytes are there. -/
theorem putUnit_eq_ok (hi : index.toNat + 1 < v.capacity.toNat) (m : Store) (unit : BitVec 16) :
    v.putUnit m index unit =
      .ok (m.write (v.address + index) (LittleEndian.bytes 2 unit.toNat).toArray) := by
  rw [putUnit_eq, checkIndex_addSat_eq_ok_iff.mpr hi]
  rfl

/-- A unit can be got just where both of its bytes are inside. -/
theorem exists_getUnit_iff {m : Store} :
    (∃ unit, v.getUnit m index = .ok unit) ↔ index.toNat + 1 < v.capacity.toNat := by
  constructor
  · rintro ⟨unit, hunit⟩
    obtain ⟨_, hcheck, -⟩ := exists_of_bind_eq_ok hunit
    exact checkIndex_addSat_eq_ok_iff.mp hcheck
  · intro hi
    obtain ⟨unit, hunit, -⟩ := exists_getUnit hi m
    exact ⟨unit, hunit⟩

/-- A unit can be stored just if both bytes are there. -/
theorem exists_putUnit_iff {m : Store} {unit : BitVec 16} :
    (∃ stored, v.putUnit m index unit = .ok stored) ↔ index.toNat + 1 < v.capacity.toNat := by
  constructor
  · rintro ⟨stored, hstored⟩
    rw [putUnit_eq] at hstored
    obtain ⟨_, hcheck, -⟩ := exists_of_bind_eq_ok hstored
    exact checkIndex_addSat_eq_ok_iff.mp hcheck
  · intro hi
    exact ⟨_, putUnit_eq_ok hi m unit⟩

end Units

end View

/-! ## What is stored, as any view shows it -/

/-- Memory `m` has become `stored` by putting the `width` digits of a number to the addresses from `a` on. -/
structure Store.Updated (m stored : Store) (a : Address) (width n : Nat) : Prop where
  /-- The bytes there are the digits of the number, the lowest first. -/
  digit : ∀ k < width, (stored.byte (a + UInt64.ofNat k)).toNat = n / 256 ^ k % 256
  /-- Every other byte is as before. -/
  others : ∀ x ∉ a.range width, stored.byte x = m.byte x
  /-- An element that is got through any view is what the bytes at its address are now. -/
  elements : ∀ {kind : ElementKind} (w : View kind) (index : UInt64),
    index.toNat < w.capacity.toNat → ∃ element, w.get stored index = .ok element ∧
      element.toNat = stored.number (w.elementAddress index) kind.size
  /-- So is a unit that is got through any view of bytes. -/
  units : ∀ (w : View .byte) (index : UInt64),
    index.toNat + 1 < w.capacity.toNat → ∃ unit, w.getUnit stored index = .ok unit ∧
      unit.toNat = stored.number (w.address + index) 2

/-- The bytes of a number are stored so that the number is read back and nothing else has changed. -/
theorem Store.updated_write (m : Store) {a : Address} {width : Nat}
    (fits : a.val.toNat + width ≤ 2 ^ 64) (hwidth : width < 2 ^ 64) (n : Nat) :
    m.Updated (m.write a (LittleEndian.bytes width n).toArray) a width n where
  digit k hk := by
    have hlength := LittleEndian.length_bytes width n
    have hindex : (UInt64.ofNat k).toNat = k := by
      rw [UInt64.toNat_ofNat', Nat.mod_eq_of_lt (by omega)]
    rw [byte_write, Address.distance_add, hindex, List.getElem?_toArray,
      List.getElem?_eq_getElem (by omega), Option.getD_some, LittleEndian.getElem_bytes,
      UInt8.toNat_ofNat']
  others _ hx := m.changesOnly_write (by simp) fits hx
  elements _ _ hi := View.exists_get hi _
  units _ _ hi := View.exists_getUnit hi _

namespace View

variable {kind : ElementKind} {v : View kind} {index : UInt64}

/-- An element that was put is got back, and memory shows it to every view. -/
theorem Fits.updated_put (h : v.Fits) (hi : index.toNat < v.capacity.toNat) (m : Store)
    (element : kind.Bits) :
    ∃ stored, v.put m index element = .ok stored ∧ v.get stored index = .ok element ∧
      m.Updated stored (v.elementAddress index) kind.size element.toNat := by
  have hsize : kind.size < 2 ^ 64 := by cases kind <;> decide
  refine ⟨_, put_eq_ok hi m element, ?_, m.updated_write (h.element_le hi) hsize _⟩
  rw [get_eq_ok hi, load, m.ofNat_value_read_write _ hsize]

section Units

variable {v : View .byte}

/-- A unit that was put is got back, and memory shows it to every view. -/
theorem Fits.updated_putUnit (h : v.Fits) (hi : index.toNat + 1 < v.capacity.toNat) (m : Store)
    (unit : BitVec 16) :
    ∃ stored, v.putUnit m index unit = .ok stored ∧ v.getUnit stored index = .ok unit ∧
      m.Updated stored (v.address + index) 2 unit.toNat := by
  refine ⟨_, putUnit_eq_ok hi m unit, ?_, m.updated_write (h.unitPlace_le hi) (by decide) _⟩
  rw [getUnit, checkIndex_addSat_eq_ok_iff.mpr hi]
  exact congrArg Except.ok (@Store.ofNat_value_read_write m (v.address + index) 2 (by decide) unit)

/-- Bytes lie one behind the other. -/
theorem elementAddress_byte (v : View .byte) (index : UInt64) :
    v.elementAddress index = v.address + index :=
  congrArg (v.address + ·) (UInt64.mul_one index)

/-- The next byte is one further. -/
theorem elementAddress_succ (v : View .byte) (index : UInt64) :
    v.elementAddress (index + 1) = v.address + index + (1 : UInt64) := by
  rw [elementAddress_byte]
  exact Address.ext (UInt64.add_assoc ..).symm

/-- An index below the capacity is not the largest word. -/
theorem toNat_succ (hi : index.toNat + 1 < v.capacity.toNat) :
    (index + 1).toNat = index.toNat + 1 := by
  have := v.capacity.toNat_lt
  rw [UInt64.toNat_add, UInt64.toNat_one, Nat.mod_eq_of_lt (by omega)]

/-- A unit is accessed like its two bytes, of which the low one comes first. -/
structure UnitAccess (v : View .byte) (index : UInt64) : Prop where
  get : ∀ m, ∃ low high unit, v.get m index = .ok low ∧ v.get m (index + 1) = .ok high ∧
    v.getUnit m index = .ok unit ∧ unit.toNat = low.toNat + 256 * high.toNat
  put : ∀ (m : Store) (unit : BitVec 16), ∃ low high, unit.toNat = low.toNat + 256 * high.toNat ∧
    (do v.put (← v.put m index low) (index + 1) high) = v.putUnit m index unit

/-- A unit is two bytes of a view, the lower one first. -/
theorem unitAccess (hi : index.toNat + 1 < v.capacity.toNat) : v.UnitAccess index where
  get m := by
    have hfirst : index.toNat < v.capacity.toNat := by omega
    have hsecond : (index + 1).toNat < v.capacity.toNat := by rwa [toNat_succ hi]
    obtain ⟨low, hlow, hlowNat⟩ := exists_get hfirst m
    obtain ⟨high, hhigh, hhighNat⟩ := exists_get hsecond m
    obtain ⟨unit, hunit, hunitNat⟩ := exists_getUnit hi m
    refine ⟨low, high, unit, hlow, hhigh, hunit, ?_⟩
    rw [hunitNat, hlowNat, hhighNat, elementAddress_byte, elementAddress_succ]
    simp [Store.number, ElementKind.size, Finset.sum_range_succ, Nat.mul_comm]
  put m unit := by
    have hunit := unit.isLt
    refine ⟨BitVec.ofNat _ unit.toNat, BitVec.ofNat _ (unit.toNat / 256), ?_, ?_⟩
    · simp only [BitVec.toNat_ofNat, ElementKind.size]
      omega
    · -- the two bytes are stored one after the other
      have hsecond : (index + 1).toNat < v.capacity.toNat := by rwa [toNat_succ hi]
      have hbytes : ∀ n, LittleEndian.bytes ElementKind.byte.size
          (BitVec.ofNat (8 * ElementKind.byte.size) n).toNat = LittleEndian.bytes 1 n := by
        intro n
        rw [BitVec.toNat_ofNat]
        exact LittleEndian.bytes_mod 1 n
      have hlength : (LittleEndian.bytes 1 unit.toNat).length +
          (LittleEndian.bytes 1 (unit.toNat / 256)).length < 2 ^ 64 := by simp
      have hsplit : m.write (v.address + index) (LittleEndian.bytes 2 unit.toNat).toArray =
          (m.write (v.address + index) (LittleEndian.bytes 1 unit.toNat).toArray).write
            (v.address + index + (1 : UInt64))
            (LittleEndian.bytes 1 (unit.toNat / 256)).toArray :=
        m.write_append (v.address + index) hlength
      rw [put_eq_ok (by omega), putUnit_eq_ok hi]
      change v.put _ (index + 1) _ = _
      rw [put_eq_ok hsecond, elementAddress_byte, elementAddress_succ, hbytes, hbytes]
      exact congrArg Except.ok hsplit.symm

end Units

/-- Access to memory through views of any kinds. What is put through one of them is got back bit for bit, and
every view shows the bytes that are in memory now, whether or not its elements begin where others do. A
unit of a byte view is put and got in the same way, at any offset, and like its two bytes; it is there just
if the index of the second byte, as a number, is below the capacity. -/
theorem access_coherent :
    (∀ {kind : ElementKind} (v : View kind) (index : UInt64), v.Fits →
      index.toNat < v.capacity.toNat →
      (v.elementAddress index).val.toNat = v.address.val.toNat + index.toNat * kind.size ∧
      ∀ (m : Store) (element : kind.Bits), ∃ stored, v.put m index element = .ok stored ∧
        v.get stored index = .ok element ∧
        m.Updated stored (v.elementAddress index) kind.size element.toNat) ∧
    (∀ (v : View .byte) (index : UInt64), v.Fits → index.toNat + 1 < v.capacity.toNat →
      (v.address + index).val.toNat = v.address.val.toNat + index.toNat ∧
      v.UnitAccess index ∧
      ∀ (m : Store) (unit : BitVec 16), ∃ stored, v.putUnit m index unit = .ok stored ∧
        v.getUnit stored index = .ok unit ∧
        m.Updated stored (v.address + index) 2 unit.toNat) ∧
    ∀ (v : View .byte) (index : UInt64) (m : Store),
      ((∃ unit, v.getUnit m index = .ok unit) ↔ index.toNat + 1 < v.capacity.toNat) ∧
      ∀ unit, (∃ stored, v.putUnit m index unit = .ok stored) ↔
        index.toNat + 1 < v.capacity.toNat := by
  refine ⟨fun {kind} v index h hi => ?_, fun v index h hi => ?_, fun v index m => ?_⟩
  · exact ⟨(h.toNat_elementAddress hi).1, h.updated_put hi⟩
  · have hwindow := fits_byte_iff.mp h
    exact ⟨Address.toNat_add (by omega), unitAccess hi, h.updated_putUnit hi⟩
  · exact ⟨exists_getUnit_iff, fun unit => exists_putUnit_iff⟩

/-- A double that is no number shows four of its bytes as a negative number of four bytes, and a unit that
is put to an odd offset takes the last of its bytes away. -/
theorem access_coherent_overlapping :
    ∃ (double : View .double) (int : View .int) (bytes : View .byte) (stored later : Store),
      double.Fits ∧ bytes.Fits ∧
      double.put .zero 0 0xFFF8010203040506#64 = .ok stored ∧
      double.get stored 0 = .ok 0xFFF8010203040506#64 ∧
      int.get stored 0 = .ok 0xF8010203#32 ∧ ElementKind.int.toInt 0xF8010203#32 = -0x7FEFDFD ∧
      bytes.putUnit stored 7 0xABCD#16 = .ok later ∧
      bytes.getUnit later 7 = .ok 0xABCD#16 ∧
      double.get later 0 = .ok 0xCDF8010203040506#64 := by
  obtain ⟨hput, hunit, -⟩ := access_coherent
  let double : View .double := ⟨⟨0x1000⟩, 1, .native, 0⟩
  let int : View .int := ⟨⟨0x1003⟩, 1, .native, 0⟩
  let bytes : View .byte := ⟨⟨0x1000⟩, 9, .native, 0⟩
  have hdouble : double.Fits := by unfold Fits; decide
  have hbytes : bytes.Fits := by unfold Fits; decide
  obtain ⟨-, hput⟩ := hput double 0 hdouble (by decide)
  obtain ⟨stored, hstored, hget, hshown⟩ := hput .zero 0xFFF8010203040506#64
  obtain ⟨-, -, hunit⟩ := hunit bytes 7 hbytes (by decide)
  obtain ⟨later, hlater, hgot, hlast⟩ := hunit stored 0xABCD#16
  refine ⟨double, int, bytes, stored, later, hdouble, hbytes, hstored, hget, ?_, by decide, hlater,
    hgot, ?_⟩
  · -- the last byte but one of the double is the last one of the number
    obtain ⟨element, helement, hnumber⟩ := hshown.elements int 0 (by decide)
    obtain rfl := Except.ok.inj hstored
    rw [helement]
    exact congrArg Except.ok (BitVec.eq_of_toNat_eq (hnumber.trans (by decide)))
  · obtain ⟨element, helement, hnumber⟩ := hlast.elements double 0 (by decide)
    obtain rfl := Except.ok.inj hstored
    obtain rfl := Except.ok.inj hlater
    rw [helement]
    exact congrArg Except.ok (BitVec.eq_of_toNat_eq (hnumber.trans (by decide)))

end View

end RawMemory
