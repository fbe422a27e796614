import Mathlib
import RawMemory.Heap
import RawMemory.Proofs.AddressRange

/-!
# Where buffers lie

Where a block of storage lies is up to the allocator, and `Allocator.Documented` is what it promises: a
block shares no byte with those in use nor with memory that is set aside for others, and its bytes are zero.
Nothing is assumed of how large a block may be, nor of when a request is refused.

* `Heap.Tidy`: the blocks of a heap lie apart. Each request and each block given back keeps this.
* `Heap.Owns`: the heaps that can come about with a documented allocator, each with the buffers in use.
  Buffers are made in four ways, cut short and let go, and memory is stored to at any time.
* `Heap.Owns.wellPlaced`: on all of these, buffers have blocks of their own, none of which is smaller than
  its buffer.
* `Heap.WellPlaced.disjoint_extent`, `Heap.WellPlaced.disjoint_native`: so their bytes lie apart.
-/

namespace RawMemory

/-- The addresses of the bytes of a block. -/
def Block.extent (block : Block) : Set Address := block.address.range block.size.toNat

/-- The addresses of the bytes that belong to a buffer. -/
def Buffer.extent (b : Buffer) : Set Address := b.address.range b.length.toNat

/-- The buffer ends before the address space does. -/
def Buffer.Fits (b : Buffer) : Prop := b.address.val.toNat + b.length.toNat < 2 ^ 64

/-- The addresses of memory that is set aside for others than buffers. -/
def Heap.native : Set Address := Address.range ⟨0x10000000⟩ 0x10000

/-! ## Allocators -/

namespace Allocator

/-- What an allocator promises of the blocks that it gives out. It may refuse any request. -/
structure Documented (alloc : Allocator) : Prop where
  /-- The address of a block is neither null nor negative. -/
  isPositive : ∀ {requests : Nat} {inUse : List Block} {size : UInt64} {a : Address},
    alloc.place? requests inUse size = some a → a.isPositive = true
  /-- A block ends before the address space does. -/
  fits : ∀ {requests : Nat} {inUse : List Block} {size : UInt64} {a : Address},
    alloc.place? requests inUse size = some a → a.val.toNat + size.toNat < 2 ^ 64
  /-- A block shares no byte with those in use. -/
  fresh : ∀ {requests : Nat} {inUse : List Block} {size : UInt64} {a : Address},
    alloc.place? requests inUse size = some a →
      ∀ block ∈ inUse, Disjoint (a.range size.toNat) block.extent
  /-- A block shares no byte with memory that is set aside for others. -/
  apart : ∀ {requests : Nat} {inUse : List Block} {size : UInt64} {a : Address},
    alloc.place? requests inUse size = some a → Disjoint (a.range size.toNat) Heap.native
  /-- The bytes of a new block are zero. -/
  read_zero : ∀ (m : Store) (a : Address) (size : UInt64),
    (alloc.zero m a size).read a size.toNat = List.replicate size.toNat 0
  /-- No other bytes change when they are made so. -/
  changesOnly_zero : ∀ (m : Store) {a : Address} {size : UInt64}, a.val.toNat + size.toNat ≤ 2 ^ 64 →
    Store.ChangesOnly (a.range size.toNat) m (alloc.zero m a size)

/-! ### Slots -/

theorem toNat_slotBase : slotBase.toNat = 0x20000000 := rfl

theorem toNat_slotSize : slotSize.toNat = 0x100000 := rfl

/-- No slot lies behind the end of the address space, so that addresses are reckoned without going round. -/
theorem toNat_slotAddress {slot : Nat} (h : slot < slotCount) :
    (slotAddress slot).val.toNat = slotBase.toNat + slot * slotSize.toNat := by
  rw [slotCount] at h
  have hslot : (UInt64.ofNat slot).toNat = slot := by
    rw [UInt64.toNat_ofNat', Nat.mod_eq_of_lt (by omega)]
  rw [slotAddress, UInt64.toNat_add, UInt64.toNat_mul, hslot, toNat_slotBase, toNat_slotSize]
  omega

/-- A block is given out where a free slot begins that is large enough. -/
theorem exists_of_place?_slots {requests : Nat} {inUse : List Block} {size : UInt64} {a : Address}
    (h : slots.place? requests inUse size = some a) :
    ∃ slot < slotCount, a.val.toNat = slotBase.toNat + slot * slotSize.toNat ∧
      size.toNat ≤ slotSize.toNat ∧ isFree inUse slot = true := by
  obtain ⟨hsize, hfound⟩ := Option.ite_none_left_eq_some.mp h
  obtain ⟨slot, hfree, rfl⟩ := Option.map_eq_some_iff.mp hfound
  have hslot : slot < slotCount := by
    have := List.mem_range.mp (List.mem_of_find?_eq_some hfree)
    omega
  exact ⟨slot, hslot, toNat_slotAddress hslot, UInt64.le_iff_toNat_le.mp (UInt64.not_lt.mp hsize),
    List.find?_some hfree⟩

/-- The slots are all above the memory that is set aside for others, and below the end of the address space.
-/
theorem documented_slots : slots.Documented where
  isPositive h := by
    obtain ⟨slot, hslot, ha, -, -⟩ := exists_of_place?_slots h
    rw [slotCount] at hslot
    rw [Address.isPositive_iff, ha, toNat_slotBase, toNat_slotSize]
    omega
  fits h := by
    obtain ⟨slot, hslot, ha, hsize, -⟩ := exists_of_place?_slots h
    rw [slotCount] at hslot
    rw [toNat_slotSize] at ha hsize
    rw [ha, toNat_slotBase]
    omega
  fresh h block hblock := by
    obtain ⟨slot, hslot, ha, hsize, hfree⟩ := exists_of_place?_slots h
    have hapart := List.all_eq_true.mp hfree block hblock
    rw [Bool.or_eq_true, decide_eq_true_iff, decide_eq_true_iff, toNat_slotAddress hslot, ← ha] at hapart
    rcases hapart with hbelow | habove
    · exact Address.disjoint_range (by omega)
    · exact (Address.disjoint_range habove).symm
  apart h := by
    obtain ⟨slot, -, ha, -, -⟩ := exists_of_place?_slots h
    refine (Address.disjoint_range ?_).symm
    rw [ha, toNat_slotBase]
    change 0x10000000 + 0x10000 ≤ _
    omega
  read_zero m a size := m.read_fill a 0 size
  changesOnly_zero m _ _ hfits := m.changesOnly_fill 0 hfits

/-! ### Blocks in a row -/

/-- The end of the last of the blocks in use, or where the first block may begin. -/
def lastEnd : List Block → Nat
  | [] => slotBase.toNat
  | block :: inUse => max (lastEnd inUse) (block.address.val.toNat + block.size.toNat)

/-- The first boundary behind all blocks in use. -/
def rowEnd (inUse : List Block) : Nat := (lastEnd inUse + 15) / 16 * 16

/-- An allocator that gives out one block behind the other, of any size up to the end of what is positive. -/
def row : Allocator where
  place? _ inUse size :=
    if rowEnd inUse + size.toNat < 2 ^ 63 then some ⟨UInt64.ofNat (rowEnd inUse)⟩ else none
  zero m a size := m.fill a 0 size

end Allocator

/-! ## Blocks -/

namespace Buffer

/-- A block has at least one byte. -/
theorem toNat_storageSize (length : UInt64) : (storageSize length).toNat = max length.toNat 1 := by
  rw [storageSize, UInt64.toNat_max, UInt64.toNat_one]

/-- A buffer is cut to the smaller of two lengths. -/
theorem toNat_length_truncate (b : Buffer) (length : UInt64) :
    (b.truncate length).length.toNat = min b.length.toNat length.toNat :=
  UInt64.toNat_min ..

/-- No buffer becomes longer when it is cut. -/
theorem length_truncate_le (b : Buffer) (length : UInt64) : (b.truncate length).length ≤ b.length := by
  rw [UInt64.le_iff_toNat_le, toNat_length_truncate]
  exact Nat.min_le_left _ _

/-- A buffer of no more bytes than were set aside for it lies in its block. -/
theorem extent_subset {b : Buffer} (hb : b.length ≤ b.allocated) : b.extent ⊆ b.block.extent := by
  refine Address.range_subset_range le_rfl ?_
  have := UInt64.le_iff_toNat_le.mp hb
  have hblock : b.block.size.toNat = max b.allocated.toNat 1 := toNat_storageSize b.allocated
  change b.address.val.toNat + b.length.toNat ≤ b.address.val.toNat + b.block.size.toNat
  omega

end Buffer

namespace Heap

variable {b c : Buffer} {h h' : Heap} {bs : List Buffer}

/-- A heap whose allocator keeps its promises, and whose blocks lie apart. -/
structure Tidy (h : Heap) : Prop where
  /-- The allocator is documented. -/
  documented : h.allocator.Documented
  /-- Blocks end before the address space does. -/
  fits : ∀ block ∈ h.blocks, block.address.val.toNat + block.size.toNat < 2 ^ 64
  /-- Blocks share no byte with memory that is set aside for others. -/
  apart : ∀ block ∈ h.blocks, Disjoint block.extent native
  /-- No two blocks share a byte. -/
  disjoint : h.blocks.Pairwise fun x y => Disjoint x.extent y.extent

/-- Without any blocks there is nothing to keep apart. -/
theorem tidy_of_blocks_eq_nil (halloc : h.allocator.Documented) (hblocks : h.blocks = []) : h.Tidy := by
  refine ⟨halloc, ?_, ?_, ?_⟩ <;> simp [hblocks]

/-- What does not concern the blocks leaves them apart. -/
theorem Tidy.of_blocks_eq (ht : h.Tidy) (hblocks : h'.blocks = h.blocks)
    (hallocator : h'.allocator = h.allocator) : h'.Tidy := by
  obtain ⟨hdocumented, hfits, hapart, hdisjoint⟩ := ht
  rw [← hblocks] at hfits hapart hdisjoint
  exact ⟨hallocator ▸ hdocumented, hfits, hapart, hdisjoint⟩

/-- A request that is granted gets a block that lies apart from all others. -/
theorem Tidy.setAside (ht : h.Tidy) {size : UInt64} {a : Address}
    (hplace : h.allocator.place? h.requests h.blocks size = some a) : (h.asked.setAside ⟨a, size⟩).Tidy where
  documented := ht.documented
  fits := List.forall_mem_cons.mpr ⟨ht.documented.fits hplace, ht.fits⟩
  apart := List.forall_mem_cons.mpr ⟨ht.documented.apart hplace, ht.apart⟩
  disjoint := List.pairwise_cons.mpr ⟨ht.documented.fresh hplace, ht.disjoint⟩

/-- A block that is given back leaves the others where they are. -/
theorem Tidy.free (ht : h.Tidy) (b : Buffer) : (h.free b).Tidy where
  documented := ht.documented
  fits block hblock := ht.fits block (List.mem_of_mem_erase hblock)
  apart block hblock := ht.apart block (List.mem_of_mem_erase hblock)
  disjoint := ht.disjoint.sublist List.erase_sublist

/-! ## New buffers -/

/-- A request for a new buffer has been granted. -/
structure Gives (h : Heap) (b : Buffer) (h' : Heap) : Prop where
  /-- The buffer lies where the allocator says. -/
  place_eq : h.place? b.length = some b.address
  /-- It has all the bytes that were set aside for it. -/
  allocated_eq : b.allocated = b.length
  /-- Its block is set aside now. -/
  blocks_eq : h'.blocks = b.block :: h.blocks
  /-- Storage is asked for in the same place as before. -/
  allocator_eq : h'.allocator = h.allocator
  /-- One more request has been made. -/
  requests_eq : h'.requests = h.requests + 1

/-- The allocator has found the block of a buffer. -/
theorem place?_of_place? {length : UInt64} {a : Address} (hplace : h.place? length = some a) :
    h.allocator.place? h.requests h.blocks (Buffer.storageSize length) = some a :=
  (Option.ite_none_left_eq_some.mp hplace).2

/-- No block is larger than an object may be. -/
theorem le_of_place? {length : UInt64} {a : Address} (hplace : h.place? length = some a) :
    length.toNat ≤ Word.maxSize.toNat := by
  have hsize := UInt64.le_iff_toNat_le.mp (UInt64.not_lt.mp (Option.ite_none_left_eq_some.mp hplace).1)
  rw [Buffer.toNat_storageSize] at hsize
  have hlargest : largestBlock.toNat = 2 ^ 63 - 16 := rfl
  rw [Word.toNat_maxSize]
  omega

/-- There is no room for more bytes than words can count either. -/
theorem le_of_place?_ofNatClamp {length : Nat} {a : Address}
    (hplace : h.place? (UInt64.ofNatClamp length) = some a) : length ≤ Word.maxSize.toNat := by
  have hle := le_of_place? hplace
  rcases Nat.lt_or_ge length UInt64.size with hlt | hge
  · rwa [UInt64.toNat_ofNatClamp_of_lt hlt] at hle
  · rw [UInt64.toNat_ofNatClamp_of_le hge, Word.toNat_maxSize, UInt64.size] at hle
    omega

/-- A zeroed buffer has been given a block. -/
theorem gives_of_allocate {size : UInt64} (hnew : h.allocate size = .ok (b, h')) : h.Gives b h' := by
  rw [allocate_eq] at hnew
  rcases hplace : h.place? size with _ | a
  · rw [hplace] at hnew
    cases hnew
  · rw [hplace] at hnew
    cases hnew
    exact ⟨hplace, rfl, rfl, rfl, rfl⟩

/-- What is stored in a buffer after it was set aside does not move it. -/
theorem gives_of_storing {size : UInt64} {store : Buffer → Store → Store}
    (hnew : (h.allocate size).map (storing store) = .ok (b, h')) : h.Gives b h' := by
  rcases hallocate : h.allocate size with e | ⟨made, zeroed⟩
  · rw [hallocate] at hnew
    cases hnew
  · rw [hallocate] at hnew
    cases hnew
    obtain ⟨hplace, hallocated, hblocks, hallocator, hrequests⟩ := gives_of_allocate hallocate
    exact ⟨hplace, hallocated, hblocks, hallocator, hrequests⟩

theorem gives_of_ofBytes {bytes : List UInt8} (hnew : h.ofBytes bytes = .ok (b, h')) : h.Gives b h' := by
  rw [ofBytes, Access.ofBytes, result_allocateWith] at hnew
  exact gives_of_storing hnew

theorem gives_of_clone (hnew : h.clone c = .ok (b, h')) : h.Gives b h' := by
  rw [clone, Access.clone, result_allocateWith] at hnew
  exact gives_of_storing hnew

theorem gives_of_grow {size keep : UInt64} (hnew : h.grow c size keep = .ok (b, h')) : h.Gives b h' := by
  rw [grow, Access.grow, result_allocateWith] at hnew
  exact gives_of_storing hnew

/-- A new block ends before the address space does. -/
theorem Gives.fits_block (hb : h.Gives b h') (halloc : h.allocator.Documented) :
    b.address.val.toNat + max b.length.toNat 1 < 2 ^ 64 := by
  rw [← Buffer.toNat_storageSize]
  exact halloc.fits (place?_of_place? hb.place_eq)

/-- A heap stays tidy when a buffer is made. -/
theorem Gives.tidy (hb : h.Gives b h') (ht : h.Tidy) : h'.Tidy := by
  have hnew := ht.setAside (place?_of_place? hb.place_eq)
  have hblocks : h'.blocks = ⟨b.address, Buffer.storageSize b.length⟩ :: h.blocks := by
    rw [hb.blocks_eq, Buffer.block, hb.allocated_eq]
  refine ⟨hb.allocator_eq ▸ ht.documented, ?_, ?_, ?_⟩
  · exact hblocks ▸ hnew.fits
  · exact hblocks ▸ hnew.apart
  · exact hblocks ▸ hnew.disjoint

/-! ## Heaps -/

/-- A heap that can come about, with the buffers in use. -/
inductive Owns : Heap → List Buffer → Prop where
  /-- At first there are no buffers. -/
  | empty (store : Store) {allocator : Allocator} (requests : Nat) :
    allocator.Documented → Owns { store, allocator, requests } []
  /-- A zeroed buffer is set aside. -/
  | allocate {h h' : Heap} {b : Buffer} {bs : List Buffer} {size : UInt64} :
    Owns h bs → h.allocate size = .ok (b, h') → Owns h' (b :: bs)
  /-- A buffer is made from bytes. -/
  | ofBytes {h h' : Heap} {b : Buffer} {bs : List Buffer} {bytes : List UInt8} :
    Owns h bs → h.ofBytes bytes = .ok (b, h') → Owns h' (b :: bs)
  /-- A buffer is copied. -/
  | clone {h h' : Heap} {b c : Buffer} {bs : List Buffer} :
    Owns h bs → c ∈ bs → h.clone c = .ok (b, h') → Owns h' (b :: bs)
  /-- A buffer is copied to a larger one. -/
  | grow {h h' : Heap} {b c : Buffer} {bs : List Buffer} {size keep : UInt64} :
    Owns h bs → c ∈ bs → h.grow c size keep = .ok (b, h') → Owns h' (b :: bs)
  /-- A request for storage is refused. -/
  | refused {h : Heap} {bs : List Buffer} : Owns h bs → Owns h.asked bs
  /-- A buffer is cut short. -/
  | truncate {h : Heap} {b : Buffer} {front back : List Buffer} (length : UInt64) :
    Owns h (front ++ b :: back) → Owns h (front ++ b.truncate length :: back)
  /-- A buffer is let go, and its storage given back. -/
  | drop {h : Heap} {b : Buffer} {front back : List Buffer} :
    Owns h (front ++ b :: back) → Owns (h.free b) (front ++ back)
  /-- A buffer is forgotten, and its storage stays set aside. -/
  | forget {h : Heap} {b : Buffer} {front back : List Buffer} :
    Owns h (front ++ b :: back) → Owns h (front ++ back)
  /-- Somebody stores to memory. -/
  | store {h : Heap} {bs : List Buffer} (store : Store) : Owns h bs → Owns { h with store } bs

/-- Buffers lie in blocks of their own, which are set aside in a tidy heap. -/
structure WellPlaced (h : Heap) (bs : List Buffer) : Prop where
  /-- Blocks lie apart. -/
  tidy : h.Tidy
  /-- Each buffer has a block, and no two of them have the same. -/
  blocks : (bs.map Buffer.block).Subperm h.blocks
  /-- No buffer has more bytes than were set aside for it. -/
  length_le : ∀ b ∈ bs, b.length ≤ b.allocated

namespace WellPlaced

/-- What does not concern the blocks does not move buffers. -/
theorem of_blocks_eq (hbs : h.WellPlaced bs) (hblocks : h'.blocks = h.blocks)
    (hallocator : h'.allocator = h.allocator) : h'.WellPlaced bs :=
  ⟨hbs.tidy.of_blocks_eq hblocks hallocator, hblocks ▸ hbs.blocks, hbs.length_le⟩

/-- A new buffer has a block that no other has. -/
theorem cons (hbs : h.WellPlaced bs) (hb : h.Gives b h') : h'.WellPlaced (b :: bs) := by
  refine ⟨hb.tidy hbs.tidy, ?_, List.forall_mem_cons.mpr ⟨?_, hbs.length_le⟩⟩
  · rw [List.map_cons, hb.blocks_eq]
    exact (List.subperm_cons _).mpr hbs.blocks
  · rw [hb.allocated_eq]
    exact UInt64.le_refl _

/-- The order of the buffers does not matter. -/
theorem perm (hbs : h.WellPlaced bs) {others : List Buffer} (hperm : others.Perm bs) :
    h.WellPlaced others where
  tidy := hbs.tidy
  blocks := (hperm.map _).subperm.trans hbs.blocks
  length_le b hb := hbs.length_le b (hperm.subset hb)

/-- A buffer that is cut keeps its block. -/
theorem truncate (hbs : h.WellPlaced (b :: bs)) (length : UInt64) :
    h.WellPlaced (b.truncate length :: bs) where
  tidy := hbs.tidy
  blocks := hbs.blocks
  length_le := by
    obtain ⟨hb, hrest⟩ := List.forall_mem_cons.mp hbs.length_le
    exact List.forall_mem_cons.mpr ⟨UInt64.le_trans (b.length_truncate_le length) hb, hrest⟩

/-- Without one buffer the others still have blocks. -/
theorem forget (hbs : h.WellPlaced (b :: bs)) : h.WellPlaced bs where
  tidy := hbs.tidy
  blocks := (List.subperm_cons_self ..).trans hbs.blocks
  length_le := (List.forall_mem_cons.mp hbs.length_le).2

/-- The others still have blocks when that of one buffer is given back. -/
theorem drop (hbs : h.WellPlaced (b :: bs)) : (h.free b).WellPlaced bs where
  tidy := hbs.tidy.free b
  blocks := by
    have hrest := hbs.blocks.erase b.block
    rwa [List.map_cons, List.erase_cons_head] at hrest
  length_le := (List.forall_mem_cons.mp hbs.length_le).2

/-- A buffer has a block in which it lies. -/
theorem exists_block (hbs : h.WellPlaced bs) (hb : b ∈ bs) :
    b.block ∈ h.blocks ∧ b.extent ⊆ b.block.extent :=
  ⟨hbs.blocks.subset (List.mem_map_of_mem hb), Buffer.extent_subset (hbs.length_le b hb)⟩

/-- A buffer ends before the address space does. -/
theorem fits (hbs : h.WellPlaced bs) (hb : b ∈ bs) : b.Fits := by
  have hblock := hbs.tidy.fits _ (hbs.exists_block hb).1
  have hlength := UInt64.le_iff_toNat_le.mp (hbs.length_le b hb)
  have hsize : b.block.size.toNat = max b.allocated.toNat 1 := Buffer.toNat_storageSize b.allocated
  change b.address.val.toNat + b.block.size.toNat < 2 ^ 64 at hblock
  unfold Buffer.Fits
  omega

/-- The blocks of buffers share no bytes, and so neither do the buffers. -/
theorem disjoint_block (hbs : h.WellPlaced bs) :
    bs.Pairwise fun b c => Disjoint b.block.extent c.block.extent := by
  obtain ⟨blocks, hperm, hsublist⟩ := hbs.blocks
  have hsorted := hbs.tidy.disjoint.sublist hsublist
  have hblocks : (bs.map Buffer.block).Pairwise fun x y => Disjoint x.extent y.extent :=
    (hperm.pairwise_iff fun hxy => hxy.symm).mp hsorted
  exact (List.pairwise_map (R := fun x y : Block => Disjoint x.extent y.extent)).mp hblocks

/-- No two buffers share a byte. -/
theorem disjoint_extent (hbs : h.WellPlaced bs) : bs.Pairwise fun b c => Disjoint b.extent c.extent :=
  hbs.disjoint_block.imp_of_mem fun hb hc hblocks =>
    hblocks.mono (hbs.exists_block hb).2 (hbs.exists_block hc).2

/-- A new block lies apart from the buffers that there are. -/
theorem disjoint_new (hbs : h.WellPlaced bs) (hc : c ∈ bs) (hb : h.Gives b h') :
    Disjoint c.extent b.block.extent := by
  obtain ⟨hblock, hsubset⟩ := hbs.exists_block hc
  have hfresh := hbs.tidy.documented.fresh (place?_of_place? hb.place_eq) c.block hblock
  rw [← hb.allocated_eq] at hfresh
  exact (hfresh.mono_right hsubset).symm

end WellPlaced

/-- Buffers are well placed however they came about. -/
theorem Owns.wellPlaced (hbs : h.Owns bs) : h.WellPlaced bs := by
  induction hbs with
  | empty _ _ halloc => exact ⟨tidy_of_blocks_eq_nil halloc rfl, List.nil_subperm, by simp⟩
  | allocate _ hnew ih => exact ih.cons (gives_of_allocate hnew)
  | ofBytes _ hnew ih => exact ih.cons (gives_of_ofBytes hnew)
  | clone _ _ hnew ih => exact ih.cons (gives_of_clone hnew)
  | grow _ _ hnew ih => exact ih.cons (gives_of_grow hnew)
  | refused _ ih => exact ih.of_blocks_eq rfl rfl
  | truncate length _ ih => exact ((ih.perm List.perm_middle.symm).truncate length).perm List.perm_middle
  | drop _ ih => exact (ih.perm List.perm_middle.symm).drop
  | forget _ ih => exact (ih.perm List.perm_middle.symm).forget
  | store _ _ ih => exact ih.of_blocks_eq rfl rfl

end Heap

end RawMemory
