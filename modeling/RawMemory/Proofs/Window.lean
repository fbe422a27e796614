import RawMemory.Hexdump
import RawMemory.Proofs.Heap
import RawMemory.Text.Decoding

/-!
# The window of a view

A view is a window of some elements from its address on. An index is checked against the number of
elements, but the address of an element is reckoned modulo `2 ^ 64`; as long as the window ends within
the address space, an index that passes the check leads to an element inside (`View.element_subset`).
So an operation reads the window and nothing else, whatever index it is given and wherever the cursor
stands, and one that stores changes the element that it names and nothing else.
-/

namespace RawMemory

open Store (ReadsOnly ChangesOnly)

/-- No element is too large for its size to be a word. -/
theorem ElementKind.toNat_ofNat_size (kind : ElementKind) :
    (UInt64.ofNat kind.size).toNat = kind.size := by
  cases kind <;> rfl

/-- The offset of an element is reckoned without going round if it is a word. -/
theorem ElementKind.toNat_offset {kind : ElementKind} {index : UInt64}
    (hlt : index.toNat * kind.size < 2 ^ 64) :
    (index * UInt64.ofNat kind.size).toNat = index.toNat * kind.size := by
  rw [UInt64.toNat_mul, kind.toNat_ofNat_size, Nat.mod_eq_of_lt hlt]

namespace View

variable {kind : ElementKind}

/-- The addresses of all elements. -/
def window (v : View kind) : Set Address := v.address.range (v.capacity.toNat * kind.size)

/-- The window ends within the address space. -/
def Fits (v : View kind) : Prop := v.address.val.toNat + v.capacity.toNat * kind.size ≤ 2 ^ 64

/-- The addresses of the element of an index. -/
def element (v : View kind) (index : UInt64) : Set Address :=
  (v.elementAddress index).range kind.size

variable {v : View kind} {index : UInt64}

/-- An index is accepted just if there is an element. -/
theorem checkIndex_eq_ok_iff : v.checkIndex index = .ok () ↔ index.toNat < v.capacity.toNat := by
  rw [← UInt64.lt_iff_toNat_lt, ← UInt64.not_le, checkIndex]
  split <;> simp [*]

/-- The address of an element is reckoned without going round if it lies in the address space. -/
theorem toNat_elementAddress (hlt : v.address.val.toNat + index.toNat * kind.size < 2 ^ 64) :
    (v.elementAddress index).val.toNat = v.address.val.toNat + index.toNat * kind.size := by
  have hoffset : (index * UInt64.ofNat kind.size).toNat = index.toNat * kind.size :=
    ElementKind.toNat_offset (by omega)
  rw [elementAddress, Address.toNat_add (by omega), hoffset]

/-- Elements lie one behind the other, and those of the window end where the window does. -/
theorem Fits.toNat_elementAddress (h : v.Fits) (hi : index.toNat < v.capacity.toNat) :
    (v.elementAddress index).val.toNat = v.address.val.toNat + index.toNat * kind.size ∧
      index.toNat * kind.size + kind.size ≤ v.capacity.toNat * kind.size := by
  have hinside : index.toNat * kind.size + kind.size ≤ v.capacity.toNat * kind.size := by
    rw [← Nat.succ_mul]
    exact Nat.mul_le_mul_right _ hi
  have hpos := kind.size_pos
  unfold Fits at h
  exact ⟨View.toNat_elementAddress (by omega), hinside⟩

/-- Each element lies in the window. -/
theorem Fits.element_subset (h : v.Fits) (hi : index.toNat < v.capacity.toNat) :
    v.element index ⊆ v.window := by
  obtain ⟨haddress, hinside⟩ := h.toNat_elementAddress hi
  exact Address.range_subset_range (by omega) (by omega)

/-- Each element ends within the address space. -/
theorem Fits.element_le (h : v.Fits) (hi : index.toNat < v.capacity.toNat) :
    (v.elementAddress index).val.toNat + kind.size ≤ 2 ^ 64 := by
  obtain ⟨haddress, hinside⟩ := h.toNat_elementAddress hi
  unfold Fits at h
  omega

/-! ## Reading -/

/-- To load an element reads the window at most. -/
theorem Fits.readsOnly_load (h : v.Fits) (hi : index.toNat < v.capacity.toNat) :
    ReadsOnly v.window fun m => v.load m index := by
  have hread := (Store.readsOnly_read (h.element_le hi)).mono (h.element_subset hi)
  exact hread.comp fun bytes => BitVec.ofNat _ (LittleEndian.value bytes)

/-- A checked access reads the window at most, and nothing at all if it is refused. -/
theorem Fits.readsOnly_get (h : v.Fits) (index : UInt64) : ReadsOnly v.window (v.get · index) := by
  intro m n hagree
  change v.get m index = v.get n index
  rcases hcheck : v.checkIndex index with e | _
  · -- the check fails before memory is touched
    rw [get, get, hcheck]
    rfl
  · have hload : v.load m index = v.load n index :=
      h.readsOnly_load (checkIndex_eq_ok_iff.mp hcheck) hagree
    rw [get, get, hload]

/-- An access at the cursor reads the window at most. -/
theorem Fits.readsOnly_read (h : v.Fits) : ReadsOnly v.window v.read := by
  intro m n hagree
  have hget : v.get m v.position = v.get n v.position := h.readsOnly_get v.position hagree
  rw [read_eq, read_eq, hget]

/-- An element that is stored changes memory where it lies, which is in the window. -/
theorem Fits.changesOnly_put (h : v.Fits) {m stored : Store} {element : kind.Bits}
    (hput : v.put m index element = .ok stored) :
    ChangesOnly (v.element index ∩ v.window) m stored := by
  rcases hcheck : v.checkIndex index with e | _
  · rw [put_eq, hcheck] at hput
    cases hput
  · have hi := checkIndex_eq_ok_iff.mp hcheck
    rw [put_eq, hcheck] at hput
    obtain rfl := Except.ok.inj hput
    -- the element lies in the window as a whole
    rw [Set.inter_eq_left.mpr (h.element_subset hi)]
    exact m.changesOnly_write (by simp) (h.element_le hi)

theorem Fits.changesOnly_write (h : v.Fits) {m : Store} {element : kind.Bits}
    {result : Store × View kind} (hwrite : v.write m element = .ok result) :
    ChangesOnly (v.element v.position ∩ v.window) m result.1 := by
  rcases hput : v.put m v.position element with e | stored
  · rw [write_eq, hput] at hwrite
    cases hwrite
  · rw [write_eq, hput] at hwrite
    obtain rfl := Except.ok.inj hwrite
    exact h.changesOnly_put hput

/-! ## Byte views -/

section Bytes

variable {v : View .byte}

/-- A view of bytes fits if its bytes do. -/
theorem fits_byte_iff : v.Fits ↔ v.address.val.toNat + v.capacity.toNat ≤ 2 ^ 64 := by
  rw [Fits, ElementKind.size, Nat.mul_one]

/-- The index of the second byte stops at the largest word, which is the index of no element. -/
theorem toNat_lt_of_checkIndex_addSat (h : v.checkIndex (Word.addSat index 1) = .ok ()) :
    index.toNat + 1 < v.capacity.toNat := by
  have hi := checkIndex_eq_ok_iff.mp h
  have := v.capacity.toNat_lt
  rw [Word.toNat_addSat, UInt64.toNat_one] at hi
  omega

/-- A unit ends within the address space. -/
theorem Fits.unitPlace_le (h : v.Fits) (hi : index.toNat + 1 < v.capacity.toNat) :
    (v.address + index).val.toNat + 2 ≤ 2 ^ 64 := by
  rw [fits_byte_iff] at h
  rw [Address.toNat_add (by omega)]
  omega

end Bytes

/-! ## All operations -/

end View

/-! ## Views of buffers -/

/-- The view of a buffer with the cursor somewhere. -/
def Buffer.viewAt (b : Buffer) (kind : ElementKind) (position : UInt64) : View kind :=
  { b.view kind with position }

/-- The elements that fit in a buffer take no more than its bytes. -/
theorem Buffer.capacity_mul_size_le (b : Buffer) (kind : ElementKind) :
    (b.view kind).capacity.toNat * kind.size ≤ b.length.toNat := by
  rw [view, UInt64.toNat_div, kind.toNat_ofNat_size]
  exact Nat.div_mul_le_self _ _

/-- A view of a buffer ends where the buffer does, at the latest. -/
theorem Buffer.Fits.viewAt {b : Buffer} (hb : b.Fits) (kind : ElementKind) (position : UInt64) :
    (b.viewAt kind position).Fits := by
  have := b.capacity_mul_size_le kind
  exact (Nat.add_le_add_left this _).trans hb.le

end RawMemory
