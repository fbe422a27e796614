import Mathlib
import RawMemory.Store

/-!
# Ranges of addresses

What an operation may read and what it may change are sets of addresses. Addresses are reckoned modulo
`2 ^ 64`, and so are their distances; a range that ends within the address space is the set of all
addresses at a smaller distance than its length (`Address.distance_lt_iff`). A block is read from such a
range (`Store.readsOnly_read`) and stored to it (`Store.changesOnly_write`).
-/

namespace RawMemory

/-! ## Ranges -/

namespace Address

/-- The addresses of the `length` bytes from `a` on. -/
def range (a : Address) (length : Nat) : Set Address :=
  {x | a.val.toNat ≤ x.val.toNat ∧ x.val.toNat < a.val.toNat + length}

variable {a b x : Address} {length : Nat}

theorem mem_range_iff :
    x ∈ a.range length ↔ a.val.toNat ≤ x.val.toNat ∧ x.val.toNat < a.val.toNat + length := Iff.rfl

/-- A range lies in another if it begins no earlier and ends no later. -/
theorem range_subset_range {part : Nat} (hstart : a.val.toNat ≤ b.val.toNat)
    (hstop : b.val.toNat + part ≤ a.val.toNat + length) : b.range part ⊆ a.range length := by
  intro x hx
  rw [mem_range_iff] at hx ⊢
  omega

/-- Ranges lie apart if one ends before the other begins. -/
theorem disjoint_range {other : Nat} (h : a.val.toNat + length ≤ b.val.toNat) :
    Disjoint (a.range length) (b.range other) := by
  rw [Set.disjoint_left]
  intro x hx hother
  rw [mem_range_iff] at hx hother
  omega

@[simp] theorem add_zero (a : Address) : a + (0 : UInt64) = a :=
  Address.ext (UInt64.add_zero _)

/-- Addresses are reckoned without going round below the end of the address space. -/
theorem toNat_add {n : UInt64} (h : a.val.toNat + n.toNat < 2 ^ 64) :
    (a + n).val.toNat = a.val.toNat + n.toNat := by
  rw [val_add, UInt64.toNat_add, Nat.mod_eq_of_lt h]

/-- An offset below the length leads into the range. -/
theorem add_mem_range (fits : a.val.toNat + length ≤ 2 ^ 64) {n : UInt64} (h : n.toNat < length) :
    a + n ∈ a.range length := by
  rw [mem_range_iff, toNat_add (by omega)]
  omega

/-- An address lies in a range just if its distance from the start is below the length. -/
theorem distance_lt_iff (fits : a.val.toNat + length ≤ 2 ^ 64) :
    (x.distance a).toNat < length ↔ x ∈ a.range length := by
  constructor
  · intro h
    have := add_mem_range fits h
    rwa [add_distance] at this
  · rintro ⟨hstart, hstop⟩
    rw [distance, UInt64.toNat_sub_of_le _ _ (UInt64.le_iff_toNat_le.mpr hstart)]
    omega

end Address

/-! ## Reading and storing -/

namespace Store

/-- What a function of memory gives depends on the bytes of some addresses only. -/
def ReadsOnly {β : Type} (s : Set Address) (f : Store → β) : Prop :=
  ∀ ⦃m n : Store⦄, Set.EqOn m.byte n.byte s → f m = f n

/-- Two states of memory differ in the bytes of some addresses only. -/
def ChangesOnly (s : Set Address) (m n : Store) : Prop := Set.EqOn n.byte m.byte sᶜ

variable {β γ : Type} {s t : Set Address} {f : Store → β}

/-- What reads a set reads any larger one. -/
theorem ReadsOnly.mono (h : ReadsOnly s f) (hst : s ⊆ t) : ReadsOnly t f :=
  fun _ _ hagree => h (hagree.mono hst)

/-- What is made of a result reads no more. -/
theorem ReadsOnly.comp (h : ReadsOnly s f) (g : β → γ) : ReadsOnly s fun m => g (f m) :=
  fun _ _ hagree => congrArg g (h hagree)

/-- What changes a set changes any larger one. -/
theorem ChangesOnly.mono {m n : Store} (h : ChangesOnly s m n) (hst : s ⊆ t) : ChangesOnly t m n :=
  Set.EqOn.mono (Set.compl_subset_compl.mpr hst) h

/-- To read a range is to look at that range only. -/
theorem readsOnly_read {a : Address} {count : Nat} (fits : a.val.toNat + count ≤ 2 ^ 64) :
    ReadsOnly (a.range count) fun m => m.read a count := by
  intro m n hagree
  refine List.map_congr_left fun i hi => hagree (Address.add_mem_range fits ?_)
  rw [List.mem_range] at hi
  rw [UInt64.toNat_ofNat', Nat.mod_eq_of_lt (by omega)]
  exact hi

/-- What is read of a range has each byte of it at its distance from the first. -/
theorem getElem?_read_of_mem {m : Store} {a x : Address} {count : Nat}
    (fits : a.val.toNat + count ≤ 2 ^ 64) (hx : x ∈ a.range count) :
    (m.read a count)[(x.distance a).toNat]? = some (m.byte x) := by
  have hlt := (Address.distance_lt_iff fits).mpr hx
  rw [List.getElem?_eq_getElem (by simpa using hlt), getElem_read, UInt64.ofNat_toNat,
    Address.add_distance]

/-- What is read of a range tells all of its bytes. -/
theorem read_eq_read_iff {m n : Store} {a : Address} {count : Nat}
    (fits : a.val.toNat + count ≤ 2 ^ 64) :
    m.read a count = n.read a count ↔ Set.EqOn m.byte n.byte (a.range count) := by
  constructor
  · intro hread x hx
    have hbyte := getElem?_read_of_mem (m := m) fits hx
    rw [hread, getElem?_read_of_mem fits hx] at hbyte
    exact (Option.some.inj hbyte).symm
  · intro hagree
    exact readsOnly_read fits hagree

/-- Bytes that were written are read back. -/
theorem read_write (m : Store) (a : Address) {bytes : List UInt8}
    (h : bytes.length < 2 ^ 64) : (m.write a bytes.toArray).read a bytes.length = bytes := by
  refine List.ext_getElem (length_read _ _ _) fun i hi hi' => ?_
  have hindex : (UInt64.ofNat i).toNat = i := by
    rw [UInt64.toNat_ofNat', Nat.mod_eq_of_lt (by omega)]
  rw [getElem_read, byte_write, Address.distance_add, hindex, List.getElem?_toArray,
    List.getElem?_eq_getElem hi', Option.getD_some]

/-- To store a block is to change its range only. -/
theorem changesOnly_write (m : Store) {a : Address} {block : Array UInt8} {length : Nat}
    (hsize : block.size = length) (fits : a.val.toNat + length ≤ 2 ^ 64) :
    ChangesOnly (a.range length) m (m.write a block) := by
  intro x hx
  have hfar : ¬ (x.distance a).toNat < length := fun h => hx ((Address.distance_lt_iff fits).mp h)
  rw [byte_write, Array.getElem?_eq_none (by omega), Option.getD_none]

/-- A block is stored like its parts one after the other. -/
theorem write_append (m : Store) (a : Address) {front back : List UInt8}
    (h : front.length + back.length < 2 ^ 64) :
    m.write a (front ++ back).toArray =
      (m.write a front.toArray).write (a + UInt64.ofNat front.length) back.toArray := by
  have hfront : (UInt64.ofNat front.length).toNat = front.length := by
    rw [UInt64.toNat_ofNat', Nat.mod_eq_of_lt (by omega)]
  ext x
  have hd := (x.distance a).toNat_lt
  have hdistance : x.distance (a + UInt64.ofNat front.length) =
      x.distance a - UInt64.ofNat front.length := by
    rw [Address.distance, Address.distance, Address.val_add]
    grind
  simp only [byte_write, List.getElem?_toArray, hdistance]
  rcases Nat.lt_or_ge (x.distance a).toNat front.length with hlt | hge
  · -- in front of the second part its distances go round the address space
    have hout : back[(x.distance a - UInt64.ofNat front.length).toNat]? = none := by
      rw [List.getElem?_eq_none_iff, UInt64.toNat_sub, hfront]
      omega
    rw [hout, Option.getD_none, List.getElem?_append_left hlt]
  · rw [UInt64.toNat_sub_of_le _ _ (UInt64.le_iff_toNat_le.mpr (by omega)), hfront,
      List.getElem?_append_right hge, List.getElem?_eq_none hge, Option.getD_none]

/-- A range that was filled has the same byte everywhere. -/
theorem read_fill (m : Store) (a : Address) (b : UInt8) (count : UInt64) :
    (m.fill a b count).read a count.toNat = List.replicate count.toNat b := by
  refine List.ext_getElem (by simp) fun i hi _ => ?_
  rw [length_read] at hi
  rw [getElem_read, byte_fill, Address.distance_add, List.getElem_replicate, if_pos]
  rw [UInt64.lt_iff_toNat_lt, UInt64.toNat_ofNat', Nat.mod_eq_of_lt (by have := count.toNat_lt; omega)]
  exact hi

/-- Nothing else changes when a range is filled. -/
theorem changesOnly_fill (m : Store) {a : Address} {count : UInt64} (b : UInt8)
    (fits : a.val.toNat + count.toNat ≤ 2 ^ 64) :
    ChangesOnly (a.range count.toNat) m (m.fill a b count) := by
  intro x hx
  rw [byte_fill, if_neg]
  rwa [UInt64.lt_iff_toNat_lt, Address.distance_lt_iff fits]

/-- What was in the source is in the destination. -/
theorem read_copy (m : Store) (src dst : Address) (count : UInt64) :
    (m.copy src dst count).read dst count.toNat = m.read src count.toNat := by
  refine List.ext_getElem (by simp) fun i hi _ => ?_
  rw [length_read] at hi
  rw [getElem_read, getElem_read, byte_copy, Address.distance_add, if_pos]
  rw [UInt64.lt_iff_toNat_lt, UInt64.toNat_ofNat', Nat.mod_eq_of_lt (by have := count.toNat_lt; omega)]
  exact hi

/-- Nothing but the destination changes when a range is copied. -/
theorem changesOnly_copy (m : Store) (src : Address) {dst : Address} {count : UInt64}
    (fits : dst.val.toNat + count.toNat ≤ 2 ^ 64) :
    ChangesOnly (dst.range count.toNat) m (m.copy src dst count) := by
  intro x hx
  rw [byte_copy, if_neg]
  rwa [UInt64.lt_iff_toNat_lt, Address.distance_lt_iff fits]

end Store

end RawMemory
