import RawMemory.Proofs.AddressRange
import RawMemory.Proofs.Handle

/-!
# The functions of the C library

What the three functions of the C library leave in memory is documented for ranges that lie in memory, and
for copies between disjoint ranges. There the documentation leaves nothing open: the bytes of one range are
said, and all others are to stay as they are. So the functions do what the bulk operations on stores do
(`CLibrary.Meets.memset_eq`, `memcpy_eq` and `memmove_eq`). What they do elsewhere is not said. Checked mode
lets no plain copy through but between disjoint ranges (`Handle.disjoint_of_overlap`).
-/

namespace RawMemory

/-! ## What is left in memory -/

namespace Store

variable {m n n' : Store} {a src dst : Address}

/-- The bytes of a range and those outside are all of memory. -/
theorem eq_of_changesOnly {count : Nat} (fits : a.val.toNat + count ≤ 2 ^ 64)
    (hread : n.read a count = n'.read a count) (hn : ChangesOnly (a.range count) m n)
    (hn' : ChangesOnly (a.range count) m n') : n = n' := by
  refine Store.ext (funext fun x => ?_)
  by_cases hx : x ∈ a.range count
  · exact (read_eq_read_iff fits).mp hread hx
  · rw [hn hx, hn' hx]

/-- Between ranges with no byte in common, copying byte by byte is as good as any other way. -/
theorem copyForward_eq_copy (m : Store) {count : UInt64} (fits : src.val.toNat + count.toNat ≤ 2 ^ 64)
    (hdisjoint : Disjoint (src.range count.toNat) (dst.range count.toNat)) :
    m.copyForward src dst count = m.copy src dst count := by
  refine Store.ext (funext fun x => ?_)
  rw [byte_copy, copyForward]
  dsimp only
  split
  · next hlt =>
    rw [UInt64.lt_iff_toNat_lt] at hlt
    -- else the destination would start inside the source
    have hfar : ¬ (dst.distance src).toNat < count.toNat := fun hnear =>
      Set.disjoint_left.mp hdisjoint ((Address.distance_lt_iff fits).mp hnear)
        (Address.mem_range_iff.mpr ⟨le_rfl, by omega⟩)
    rw [UInt64.mod_eq_of_lt (UInt64.lt_iff_toNat_lt.mpr (by omega))]
  · rfl

end Store

/-! ## The documentation -/

open Store (ChangesOnly)

/-- The range of `count` bytes from `a` on lies in memory and does not go round the address space. -/
def Backed (memory : Set Address) (a : Address) (count : UInt64) : Prop :=
  a.val.toNat + count.toNat ≤ 2 ^ 64 ∧ a.range count.toNat ⊆ memory

/-- The functions of the C library that work on blocks of memory. -/
structure CLibrary where
  /-- Store a byte at a number of successive addresses. -/
  memset : Store → Address → UInt8 → UInt64 → Store
  /-- Copy bytes from the first address to the second. -/
  memcpy : Store → Address → Address → UInt64 → Store
  /-- Copy bytes from the first address to the second, which may be close to each other. -/
  memmove : Store → Address → Address → UInt64 → Store

namespace CLibrary

/-- The functions are as documented where there is memory. -/
structure Meets (c : CLibrary) (memory : Set Address) : Prop where
  /-- The range is filled, and nothing else is changed. -/
  memset : ∀ m a b count, Backed memory a count →
    (c.memset m a b count).read a count.toNat = List.replicate count.toNat b ∧
      ChangesOnly (a.range count.toNat) m (c.memset m a b count)
  /-- The source arrives at the destination if they have no byte in common, and nothing else is changed. -/
  memcpy : ∀ m src dst count, Backed memory src count → Backed memory dst count →
    Disjoint (src.range count.toNat) (dst.range count.toNat) →
    (c.memcpy m src dst count).read dst count.toNat = m.read src count.toNat ∧
      ChangesOnly (dst.range count.toNat) m (c.memcpy m src dst count)
  /-- What was the source before arrives at the destination, and nothing else is changed. -/
  memmove : ∀ m src dst count, Backed memory src count → Backed memory dst count →
    (c.memmove m src dst count).read dst count.toNat = m.read src count.toNat ∧
      ChangesOnly (dst.range count.toNat) m (c.memmove m src dst count)

variable {c : CLibrary} {memory : Set Address} {a src dst : Address} {count : UInt64}

/-- A library that is documented fills memory in the only way there is. -/
theorem Meets.memset_eq (hc : c.Meets memory) (ha : Backed memory a count) (m : Store) (b : UInt8) :
    c.memset m a b count = m.fill a b count := by
  obtain ⟨hread, hchanges⟩ := hc.memset m a b count ha
  exact Store.eq_of_changesOnly ha.1 (hread.trans (m.read_fill a b count).symm) hchanges
    (m.changesOnly_fill b ha.1)

/-- Blocks that lie apart are copied as if at once. -/
theorem Meets.memcpy_eq (hc : c.Meets memory) (hsrc : Backed memory src count)
    (hdst : Backed memory dst count)
    (hdisjoint : Disjoint (src.range count.toNat) (dst.range count.toNat)) (m : Store) :
    c.memcpy m src dst count = m.copy src dst count := by
  obtain ⟨hread, hchanges⟩ := hc.memcpy m src dst count hsrc hdst hdisjoint
  exact Store.eq_of_changesOnly hdst.1 (hread.trans (m.read_copy src dst count).symm) hchanges
    (m.changesOnly_copy src hdst.1)

/-- Blocks are moved as if at once, also where they overlap. -/
theorem Meets.memmove_eq (hc : c.Meets memory) (hsrc : Backed memory src count)
    (hdst : Backed memory dst count) (m : Store) :
    c.memmove m src dst count = m.copy src dst count := by
  obtain ⟨hread, hchanges⟩ := hc.memmove m src dst count hsrc hdst
  exact Store.eq_of_changesOnly hdst.1 (hread.trans (m.read_copy src dst count).symm) hchanges
    (m.changesOnly_copy src hdst.1)

/-- A library that copies byte by byte from the lowest address on, unless ranges may overlap. -/
def bytewise : CLibrary := ⟨Store.fill, Store.copyForward, Store.copy⟩

/-- To go byte by byte is enough. -/
theorem bytewise_meets (memory : Set Address) : bytewise.Meets memory where
  memset m a b count ha := ⟨m.read_fill a b count, m.changesOnly_fill b ha.1⟩
  memcpy m src dst count hsrc hdst hdisjoint := by
    rw [show bytewise.memcpy m src dst count = _ from m.copyForward_eq_copy hsrc.1 hdisjoint]
    exact ⟨m.read_copy src dst count, m.changesOnly_copy src hdst.1⟩
  memmove m src dst count _ hdst := ⟨m.read_copy src dst count, m.changesOnly_copy src hdst.1⟩

end CLibrary

/-- The bulk operations of a C library. -/
def Accessor.ofLibrary (c : CLibrary) : Accessor :=
  { Accessor.libc with fill := c.memset, copy := c.memcpy, move := c.memmove }

/-! ## Overlap -/

namespace Handle

variable {src dst : Address} {count : UInt64}

/-- Ranges that do not overlap lie one behind the other, if they have bytes at all. -/
theorem overlap_eq_false_iff :
    overlap src dst count = false ↔
      count.toNat = 0 ∨ src.val.toNat + count.toNat ≤ dst.val.toNat ∨
        dst.val.toNat + count.toNat ≤ src.val.toNat := by
  rw [overlap, Bool.and_eq_false_iff, bne_eq_false_iff_eq, ← UInt64.toNat_inj, UInt64.toNat_zero]
  -- only the one that lies above the other has a distance from it
  by_cases hle : src.val ≤ dst.val
  · have hdistance := UInt64.toNat_sub_of_le _ _ hle
    rw [show dst.offsetFrom src = some (dst.val - src.val) from if_pos hle]
    rw [UInt64.le_iff_toNat_le] at hle
    show _ ∨ decide (dst.val - src.val < count) = false ↔ _
    rw [decide_eq_false_iff_not, UInt64.lt_iff_toNat_lt]
    omega
  · have hge : dst.val ≤ src.val := UInt64.le_of_lt (UInt64.not_le.mp hle)
    have hdistance := UInt64.toNat_sub_of_le _ _ hge
    rw [show dst.offsetFrom src = none from if_neg hle,
      show src.offsetFrom dst = some (src.val - dst.val) from if_pos hge]
    rw [UInt64.le_iff_toNat_le] at hle hge
    show _ ∨ decide (src.val - dst.val < count) = false ↔ _
    rw [decide_eq_false_iff_not, UInt64.lt_iff_toNat_lt]
    omega

/-- Ranges that do not overlap have no byte in common. -/
theorem disjoint_of_overlap (h : overlap src dst count = false) :
    Disjoint (src.range count.toNat) (dst.range count.toNat) := by
  have hapart := overlap_eq_false_iff.mp h
  rw [Set.disjoint_left]
  intro x hsrc hdst
  rw [Address.mem_range_iff] at hsrc hdst
  omega

end Handle

end RawMemory
