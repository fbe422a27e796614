import RawMemory.Proofs.CLibrary
import RawMemory.Proofs.TypedAccess

/-!
# The bytes of buffers

A buffer holds the bytes from its address on, as many as its length says (`Heap.contents`). This module says
what the operations of heaps and views make of them.

* `Heap.MakesIfGranted`: a buffer is made in four ways, whenever the allocator grants the request. It holds
  what it should, wherever it lies and whatever was there before, and nothing else has changed.
* `Heap.Rewrites`: what is stored to a buffer replaces bytes of it (`overwrite`), and changes no others.
* `View.Sees`: a view of a buffer shows its bytes, those of the elements that are there as a whole.
-/

namespace RawMemory

open Store (ChangesOnly)

/-- Bytes of which some, from an offset on, have been replaced by those of a block. -/
def overwrite (bytes : List UInt8) (offset : Nat) (block : List UInt8) : List UInt8 :=
  bytes.take offset ++ block ++ bytes.drop (offset + block.length)

/-- Bytes are replaced one for one. -/
theorem length_overwrite {bytes block : List UInt8} {offset : Nat}
    (hinside : offset + block.length ≤ bytes.length) :
    (overwrite bytes offset block).length = bytes.length := by
  rw [overwrite, List.length_append, List.length_append, List.length_take, List.length_drop]
  omega

/-- The first bytes of a list, as many as both a bound and a size allow, and zeros behind them up to that
size. -/
def grown (bytes : List UInt8) (size keep : Nat) : List UInt8 :=
  bytes.take (min (min keep bytes.length) size) ++
    List.replicate (size - min (min keep bytes.length) size) 0

/-- The size is what was asked for, whatever is kept. -/
theorem length_grown (bytes : List UInt8) (size keep : Nat) : (grown bytes size keep).length = size := by
  rw [grown, List.length_append, List.length_take, List.length_replicate]
  omega

/-! ## Parts of a range -/

namespace Store

variable {m n : Store} {a : Address} {s : Set Address}

/-- A range is read like its parts one after the other. -/
theorem read_add (m : Store) (a : Address) (front back : Nat) :
    m.read a (front + back) = m.read a front ++ m.read (a + UInt64.ofNat front) back := by
  have haddress : ∀ i, a + UInt64.ofNat (front + i) = a + UInt64.ofNat front + UInt64.ofNat i := by
    intro i
    apply Address.ext
    rw [Address.val_add, Address.val_add, Address.val_add, UInt64.ofNat_add, UInt64.add_assoc]
  rw [read, List.range_add, List.map_append, List.map_map]
  simp only [Function.comp_def, haddress]
  rfl

/-- The first part of a range is read on its own. -/
theorem take_read (m : Store) (a : Address) {part count : Nat} (hpart : part ≤ count) :
    (m.read a count).take part = m.read a part := by
  obtain ⟨rest, rfl⟩ := Nat.exists_eq_add_of_le hpart
  rw [read_add, List.take_left' (length_read m a part)]

theorem drop_read (m : Store) (a : Address) {part count : Nat} (hpart : part ≤ count) :
    (m.read a count).drop part = m.read (a + UInt64.ofNat part) (count - part) := by
  obtain ⟨rest, rfl⟩ := Nat.exists_eq_add_of_le hpart
  rw [read_add, List.drop_left' (length_read m a part), Nat.add_sub_cancel_left]

/-- Where nothing has changed, the same is read. -/
theorem ChangesOnly.read_eq (h : ChangesOnly s m n) {count : Nat} (fits : a.val.toNat + count ≤ 2 ^ 64)
    (hdisjoint : Disjoint (a.range count) s) : n.read a count = m.read a count :=
  (read_eq_read_iff fits).mpr (Set.EqOn.mono hdisjoint.subset_compl_right h)

/-- A block that is stored within a range replaces the bytes there. -/
theorem read_write_within (m : Store) {offset : UInt64} {block : List UInt8} {count : Nat}
    (hinside : offset.toNat + block.length ≤ count) (fits : a.val.toNat + count < 2 ^ 64) :
    (m.write (a + offset) block.toArray).read a count = overwrite (m.read a count) offset.toNat block := by
  have hlength : (UInt64.ofNat block.length).toNat = block.length := by
    rw [UInt64.toNat_ofNat', Nat.mod_eq_of_lt (by omega)]
  have hstart : (a + offset).val.toNat = a.val.toNat + offset.toNat := Address.toNat_add (by omega)
  have hstop : (a + offset + UInt64.ofNat block.length).val.toNat =
      a.val.toNat + offset.toNat + block.length := by
    rw [Address.toNat_add (by omega), hstart, hlength]
  have hchanges := m.changesOnly_write (a := a + offset) block.size_toArray (by omega)
  -- the range is the part in front of the block, that of the block and the part behind it
  obtain ⟨rest, rfl⟩ := Nat.exists_eq_add_of_le hinside
  have hsplit : ∀ m : Store, m.read a (offset.toNat + block.length + rest) =
      m.read a offset.toNat ++ (m.read (a + offset) block.length ++
        m.read (a + offset + UInt64.ofNat block.length) rest) := by
    intro m
    rw [Nat.add_assoc, read_add, read_add, UInt64.ofNat_toNat]
  have hfront : (m.write (a + offset) block.toArray).read a offset.toNat = m.read a offset.toNat :=
    hchanges.read_eq (by omega) (Address.disjoint_range (by omega))
  have hback : (m.write (a + offset) block.toArray).read (a + offset + UInt64.ofNat block.length) rest =
      m.read (a + offset + UInt64.ofNat block.length) rest :=
    hchanges.read_eq (by omega) (Address.disjoint_range (by omega)).symm
  have hblock : (m.write (a + offset) block.toArray).read (a + offset) block.length = block :=
    m.read_write (a + offset) (by omega)
  rw [overwrite, hsplit, hsplit m, hfront, hblock, hback, ← List.drop_drop]
  simp

/-- What is copied to the front of a range leaves the bytes behind it as they are. -/
theorem read_copy_front (m : Store) (src : Address) {dst : Address} {part : UInt64} {count : Nat}
    (hpart : part.toNat ≤ count) (fits : dst.val.toNat + count < 2 ^ 64) :
    (m.copy src dst part).read dst count = m.read src part.toNat ++ (m.read dst count).drop part.toNat := by
  have hoffset : (dst + UInt64.ofNat part.toNat).val.toNat = dst.val.toNat + part.toNat := by
    rw [UInt64.ofNat_toNat, Address.toNat_add (by omega)]
  have hchanges : ChangesOnly (dst.range part.toNat) m (m.copy src dst part) :=
    m.changesOnly_copy src (by omega)
  have hback : (m.copy src dst part).read (dst + UInt64.ofNat part.toNat) (count - part.toNat) =
      m.read (dst + UInt64.ofNat part.toNat) (count - part.toNat) :=
    hchanges.read_eq (by omega) (Address.disjoint_range (by omega)).symm
  calc (m.copy src dst part).read dst count
    _ = (m.copy src dst part).read dst (part.toNat + (count - part.toNat)) := by
        rw [Nat.add_sub_of_le hpart]
    _ = m.read src part.toNat ++ m.read (dst + UInt64.ofNat part.toNat) (count - part.toNat) := by
        rw [read_add, read_copy, hback]
    _ = m.read src part.toNat ++ (m.read dst count).drop part.toNat := by rw [drop_read m dst hpart]

end Store

namespace Heap

variable {h h' : Heap} {b c : Buffer} {bs : List Buffer} {bytes : List UInt8}

/-! ## Making buffers -/

/-- A buffer of some bytes has been made, and no byte outside of its block has changed. -/
structure Makes (h : Heap) (bytes : List UInt8) (b : Buffer) (h' : Heap) : Prop extends h.Gives b h' where
  /-- The buffer has these bytes. -/
  contents_eq : h'.contents b = bytes
  /-- All other bytes are as before. -/
  changesOnly : ChangesOnly b.block.extent h.store h'.store

/-- A buffer of some bytes is made where the request for it is granted, and none elsewhere. -/
structure MakesIfGranted (h : Heap) (bytes : List UInt8) (made : Except MemoryError (Buffer × Heap)) :
    Prop where
  /-- There is a buffer if the request is granted. -/
  of_grants : h.grants bytes.length = true → ∃ b h', made = .ok (b, h') ∧ h.Makes bytes b h'
  /-- If it is refused, the error names the size that was asked for. -/
  of_not_grants : h.grants bytes.length = false →
    made = .error (.allocationFailed (UInt64.ofNatClamp bytes.length))

/-- A buffer has as many bytes as its length says. -/
@[simp] theorem length_contents (h : Heap) (b : Buffer) : (h.contents b).length = b.length.toNat :=
  Store.length_read ..

/-- A buffer that is cut has the bytes in front. -/
theorem contents_truncate (h : Heap) (b : Buffer) (length : UInt64) :
    h.contents (b.truncate length) = (h.contents b).take length.toNat := by
  have hlength := b.toNat_length_truncate length
  rw [List.take_eq_take_min, length_contents, contents, contents,
    Store.take_read _ _ (Nat.min_le_right _ _), Nat.min_comm, ← hlength]
  rfl

/-- What is done elsewhere leaves a buffer as it is. -/
theorem contents_eq_of_disjoint (hb : b.Fits) {s : Set Address}
    (hchanges : ChangesOnly s h.store h'.store) (hdisjoint : Disjoint b.extent s) :
    h'.contents b = h.contents b :=
  hchanges.read_eq hb.le hdisjoint

/-- A new buffer is as long as what it holds. -/
theorem Makes.length_eq (hmade : h.Makes bytes b h') : b.length.toNat = bytes.length := by
  rw [← hmade.contents_eq, length_contents]

/-- A new buffer ends before the address space does. -/
theorem Makes.fits (hmade : h.Makes bytes b h') (halloc : h.allocator.Documented) : b.Fits := by
  have := hmade.fits_block halloc
  unfold Buffer.Fits
  omega

/-- A word is not clamped. -/
theorem ofNatClamp_toNat (size : UInt64) : UInt64.ofNatClamp size.toNat = size := by
  rw [← UInt64.toNat_inj, UInt64.toNat_ofNatClamp_of_lt size.toNat_lt]

/-- The bytes of a new buffer are zero, whatever its block held before. -/
theorem makesIfGranted_allocate (halloc : h.allocator.Documented) (size : UInt64) :
    h.MakesIfGranted (List.replicate size.toNat 0) (h.allocate size) := by
  rw [allocate_eq]
  constructor <;> rw [List.length_replicate, grants, ofNatClamp_toNat]
  · intro hgrants
    obtain ⟨a, hplace⟩ := Option.isSome_iff_exists.mp hgrants
    have hgives : h.Gives ⟨a, size, size⟩ (h.asked.setAside ⟨a, Buffer.storageSize size⟩) :=
      ⟨hplace, rfl, rfl, rfl, rfl⟩
    rw [hplace]
    refine ⟨_, _, rfl, hgives, ?_, ?_⟩
    · -- the block may be larger than the buffer by one byte
      have hzeros := halloc.read_zero h.store a (Buffer.storageSize size)
      have hle : size.toNat ≤ (Buffer.storageSize size).toNat := by
        rw [Buffer.toNat_storageSize]
        exact le_max_left _ _
      change (h.allocator.zero h.store a (Buffer.storageSize size)).read a size.toNat = _
      rw [← Store.take_read _ _ hle, hzeros, List.take_replicate, min_eq_left hle]
    · exact halloc.changesOnly_zero h.store (halloc.fits (place?_of_place? hplace)).le
  · intro hrefused
    rw [Option.isSome_eq_false_iff.mp hrefused |> Option.isNone_iff_eq_none.mp]

/-- A buffer that is set aside for some bytes, and in which they are then stored. -/
theorem makesIfGranted_storing (halloc : h.allocator.Documented) {size : UInt64}
    (hsize : size = UInt64.ofNatClamp bytes.length) (store : Buffer → Store → Store)
    (hstore : ∀ b zeroed, size.toNat = bytes.length → h.Makes (List.replicate size.toNat 0) b zeroed →
      b.length = size → (store b zeroed.store).read b.address size.toNat = bytes ∧
        ChangesOnly b.extent zeroed.store (store b zeroed.store)) :
    h.MakesIfGranted bytes ((h.allocate size).map (storing store)) := by
  have hzeros := h.makesIfGranted_allocate halloc size
  have hgrants : h.grants (List.replicate size.toNat (0 : UInt8)).length = h.grants bytes.length := by
    rw [List.length_replicate, grants, grants, ofNatClamp_toNat, hsize]
  constructor
  · intro hgranted
    obtain ⟨b, zeroed, hnew, hmade⟩ := hzeros.of_grants (hgrants.trans hgranted)
    obtain ⟨a, hplace⟩ := Option.isSome_iff_exists.mp hgranted
    have hle := le_of_place?_ofNatClamp hplace
    -- what is granted is no larger than an object may be, and so its size is not clamped
    have hcount : size.toNat = bytes.length := by
      rw [hsize, UInt64.toNat_ofNatClamp_of_lt]
      rw [Word.toNat_maxSize] at hle
      rw [UInt64.size]
      omega
    have hlength : b.length = size := by
      rw [← UInt64.toNat_inj, hmade.length_eq, List.length_replicate]
    obtain ⟨hbytes, hchanges⟩ := hstore b zeroed hcount hmade hlength
    refine ⟨b, { zeroed with store := store b zeroed.store }, by rw [hnew]; rfl, ?_, ?_, ?_⟩
    · exact ⟨hmade.place_eq, hmade.allocated_eq, hmade.blocks_eq, hmade.allocator_eq, hmade.requests_eq⟩
    · rw [contents, hlength]
      exact hbytes
    · -- the bytes are stored in the new block, and the rest of memory is as it was after the request
      have hsubset : b.extent ⊆ b.block.extent :=
        Buffer.extent_subset (hmade.allocated_eq ▸ UInt64.le_refl _)
      exact fun x hx => (hchanges fun hin => hx (hsubset hin)).trans (hmade.changesOnly hx)
  · intro hrefused
    rw [hzeros.of_not_grants (hgrants.trans hrefused), List.length_replicate, ofNatClamp_toNat, hsize]
    rfl

/-- A buffer that is made from bytes holds them. -/
theorem makesIfGranted_ofBytes (halloc : h.allocator.Documented) (bytes : List UInt8) :
    h.MakesIfGranted bytes (h.ofBytes bytes) := by
  rw [ofBytes, Access.ofBytes, result_allocateWith]
  refine makesIfGranted_storing halloc rfl _ fun b zeroed hcount hmade hlength => ?_
  have hfits := hmade.fits halloc
  have hbytes := (UInt64.ofNatClamp bytes.length).toNat_lt
  unfold Buffer.Fits at hfits
  rw [hlength, hcount] at hfits
  rw [hcount] at hbytes ⊢
  refine ⟨Store.read_write _ _ hbytes, ?_⟩
  rw [Buffer.extent, hlength, hcount]
  exact Store.changesOnly_write _ bytes.size_toArray hfits.le

/-- A buffer that was there before is still there when a new one has been made. -/
theorem WellPlaced.contents_eq_of_makes (hbs : h.WellPlaced bs) (hc : c ∈ bs) (hmade : h.Makes bytes b h') :
    h'.contents c = h.contents c :=
  contents_eq_of_disjoint (hbs.fits hc) hmade.changesOnly (hbs.disjoint_new hc hmade.toGives)

/-- A copy holds the bytes of its original. -/
theorem WellPlaced.makesIfGranted_clone (hbs : h.WellPlaced bs) (hc : c ∈ bs) :
    h.MakesIfGranted (h.contents c) (h.clone c) := by
  rw [clone, Access.clone, result_allocateWith]
  have hsize : c.length = UInt64.ofNatClamp (h.contents c).length := by
    rw [length_contents, ofNatClamp_toNat]
  refine makesIfGranted_storing hbs.tidy.documented hsize _ fun b zeroed _ hmade hlength => ?_
  have hfits := hmade.fits hbs.tidy.documented
  constructor
  · rw [Store.read_copy]
    exact hbs.contents_eq_of_makes hc hmade
  · rw [Buffer.extent, hlength]
    exact Store.changesOnly_copy _ _ (hlength ▸ hfits.le)

/-- A buffer that is made from another holds the first bytes of it and zeros behind them. -/
theorem WellPlaced.makesIfGranted_grow (hbs : h.WellPlaced bs) (hc : c ∈ bs) (size keep : UInt64) :
    h.MakesIfGranted (grown (h.contents c) size.toNat keep.toNat) (h.grow c size keep) := by
  rw [grow, Access.grow, result_allocateWith]
  have hsize : size = UInt64.ofNatClamp (grown (h.contents c) size.toNat keep.toNat).length := by
    rw [length_grown, ofNatClamp_toNat]
  refine makesIfGranted_storing hbs.tidy.documented hsize _ fun b zeroed _ hmade hlength => ?_
  have hfits : b.address.val.toNat + size.toNat < 2 ^ 64 := hlength ▸ hmade.fits hbs.tidy.documented
  have hkept : (min (min keep c.length) size).toNat =
      min (min keep.toNat (h.contents c).length) size.toNat := by
    rw [UInt64.toNat_min, UInt64.toNat_min, length_contents]
  rw [grown, ← hkept]
  generalize min (min keep c.length) size = kept at hkept ⊢
  rw [length_contents] at hkept
  have hsize : kept.toNat ≤ size.toNat := by omega
  constructor
  · -- what is kept comes from the other buffer, and behind it are the zeros that were there at first
    have hsource : zeroed.store.read c.address kept.toNat = (h.contents c).take kept.toNat := by
      rw [← hbs.contents_eq_of_makes hc hmade, contents, Store.take_read _ _ (by omega)]
    have hzeros : zeroed.store.read b.address size.toNat = List.replicate size.toNat 0 := by
      rw [← hmade.contents_eq, contents, hlength]
    rw [Store.read_copy_front _ _ hsize hfits, hsource, hzeros, List.drop_replicate]
  · rw [Buffer.extent, hlength]
    exact (zeroed.store.changesOnly_copy c.address (by omega)).mono
      (Address.range_subset_range le_rfl (by omega))

/-! ## Storing to buffers -/

/-- What has been stored to a buffer leaves these bytes in it, and no byte outside of it has changed. -/
structure Rewrites (h : Heap) (b : Buffer) (stored : Store) (bytes : List UInt8) : Prop where
  /-- The bytes of the buffer. -/
  read_eq : stored.read b.address b.length.toNat = bytes
  /-- All other bytes are as before. -/
  changesOnly : ChangesOnly b.extent h.store stored

/-- All bytes are replaced by the same. -/
theorem rewrites_fill (hb : b.Fits) (h : Heap) (byte : UInt8) :
    h.Rewrites b (h.fill b byte).store (List.replicate b.length.toNat byte) :=
  ⟨h.store.read_fill b.address byte b.length, h.store.changesOnly_fill byte hb.le⟩

/-- A block that lies within the buffer replaces the bytes where it is stored. -/
theorem rewrites_write (hb : b.Fits) (h : Heap) {offset : UInt64} {block : List UInt8}
    (hinside : offset.toNat + block.length ≤ b.length.toNat) :
    h.Rewrites b (h.store.write (b.address + offset) block.toArray)
      (overwrite (h.contents b) offset.toNat block) := by
  have hfits : b.address.val.toNat + b.length.toNat < 2 ^ 64 := hb
  have hstart : (b.address + offset).val.toNat = b.address.val.toNat + offset.toNat :=
    Address.toNat_add (by omega)
  refine ⟨h.store.read_write_within hinside hfits, ?_⟩
  exact (h.store.changesOnly_write block.size_toArray (by omega)).mono
    (Address.range_subset_range (by omega) (by omega))

variable {kind : ElementKind} {index : UInt64}

/-- A view has as many elements as fit as a whole. -/
theorem toNat_capacity_viewAt (b : Buffer) (kind : ElementKind) (position : UInt64) :
    (b.viewAt kind position).capacity.toNat = b.length.toNat / kind.size := by
  rw [Buffer.viewAt, Buffer.view, UInt64.toNat_div, kind.toNat_ofNat_size]

/-- An element that a view of a buffer has lies in the buffer as a whole. -/
theorem offset_le (hi : index.toNat < b.length.toNat / kind.size) :
    (index * UInt64.ofNat kind.size).toNat = index.toNat * kind.size ∧
      index.toNat * kind.size + kind.size ≤ b.length.toNat := by
  have hpos := kind.size_pos
  have hlength := b.length.toNat_lt
  have hinside : index.toNat * kind.size + kind.size ≤ b.length.toNat := by
    rw [← Nat.succ_mul]
    exact (Nat.le_div_iff_mul_le hpos).mp hi
  exact ⟨ElementKind.toNat_offset (by omega), hinside⟩

/-- An element replaces the bytes where it lies, and no others. -/
theorem rewrites_put (hb : b.Fits) (h : Heap) (position : UInt64)
    (hi : index.toNat < b.length.toNat / kind.size) (element : kind.Bits) :
    ∃ stored, (b.viewAt kind position).put h.store index element = .ok stored ∧
      h.Rewrites b stored (overwrite (h.contents b) (index.toNat * kind.size)
        (LittleEndian.bytes kind.size element.toNat)) := by
  obtain ⟨hoffset, hinside⟩ := offset_le hi
  refine ⟨_, View.put_eq_ok (by rwa [toNat_capacity_viewAt]) _ _, ?_⟩
  rw [← hoffset]
  exact rewrites_write hb h (by rwa [hoffset, LittleEndian.length_bytes])

/-- A unit replaces two bytes, at any index. -/
theorem rewrites_putUnit (hb : b.Fits) (h : Heap) (position : UInt64)
    (hi : index.toNat + 1 < b.length.toNat) (unit : BitVec 16) :
    ∃ stored, (b.viewAt .byte position).putUnit h.store index unit = .ok stored ∧
      h.Rewrites b stored (overwrite (h.contents b) index.toNat (LittleEndian.bytes 2 unit.toNat)) := by
  refine ⟨_, View.putUnit_eq_ok ?_ _ _, rewrites_write hb h ?_⟩
  · rwa [toNat_capacity_viewAt, ElementKind.size, Nat.div_one]
  · rwa [LittleEndian.length_bytes]

end Heap

/-! ## Looking at buffers -/

/-- The element of an index among bytes that hold elements one behind the other. -/
def ElementKind.elementAt (kind : ElementKind) (bytes : List UInt8) (index : Nat) : kind.Bits :=
  BitVec.ofNat _ (LittleEndian.value ((bytes.drop (index * kind.size)).take kind.size))

namespace View

variable {kind : ElementKind}

/-- An index that is too large is reported together with the capacity. -/
theorem checkIndex_eq_outOfBounds {v : View kind} {index : UInt64}
    (hi : v.capacity.toNat ≤ index.toNat) :
    v.checkIndex index = .error (.outOfBounds index v.capacity) :=
  if_pos (UInt64.le_iff_toNat_le.mpr hi)

/-- There is no element behind the last. -/
theorem get_eq_error {v : View kind} {index : UInt64} (hi : v.capacity.toNat ≤ index.toNat) (m : Store) :
    v.get m index = .error (.outOfBounds index v.capacity) := by
  rw [get, checkIndex_eq_outOfBounds hi]
  rfl

/-- Nothing is stored behind the last element. -/
theorem put_eq_error {v : View kind} {index : UInt64} (hi : v.capacity.toNat ≤ index.toNat) (m : Store)
    (element : kind.Bits) : v.put m index element = .error (.outOfBounds index v.capacity) := by
  rw [put_eq, checkIndex_eq_outOfBounds hi]
  rfl

/-- A view shows bytes: the elements that are there as a whole, and nothing else. -/
structure Sees (v : View kind) (m : Store) (bytes : List UInt8) : Prop where
  /-- There are as many elements as the bytes have room for. -/
  capacity_eq : v.capacity.toNat = bytes.length / kind.size
  /-- Each element is among the bytes. -/
  get_eq : ∀ index, v.get m index =
    if index.toNat < bytes.length / kind.size then .ok (kind.elementAt bytes index.toNat)
    else .error (.outOfBounds index v.capacity)
  /-- So are those from the cursor on. -/
  toList_eq : v.toList m =
    (List.range' v.position.toNat (bytes.length / kind.size - v.position.toNat)).map (kind.elementAt bytes)

/-- A view of bytes shows them, in pairs too. -/
structure SeesBytes (v : View .byte) (m : Store) (bytes : List UInt8) : Prop where
  /-- All of the bytes are there. -/
  bytes_eq : v.bytes m = bytes
  /-- Those from the cursor on are what remains. -/
  remainingBytes_eq : v.remainingBytes m = bytes.drop v.position.toNat
  /-- A unit is a pair of bytes. -/
  getUnit_eq : ∀ index, v.getUnit m index =
    if index.toNat + 1 < bytes.length then .ok (BitVec.ofNat 16 (LittleEndian.value
      ((bytes.drop index.toNat).take 2)))
    else .error (.outOfBounds (Word.addSat index 1) v.capacity)

end View

namespace Heap

variable {b : Buffer} {kind : ElementKind} {index : UInt64}

/-- The bytes of a part of a buffer. -/
theorem read_part (h : Heap) {offset : UInt64} {count : Nat}
    (hinside : offset.toNat + count ≤ b.length.toNat) :
    h.store.read (b.address + offset) count = ((h.contents b).drop offset.toNat).take count := by
  rw [contents, Store.drop_read _ _ (by omega), UInt64.ofNat_toNat, Store.take_read _ _ (by omega)]

/-- An element of a view is made of the bytes of the buffer where it lies. -/
theorem load_viewAt (h : Heap) (position : UInt64) (hi : index.toNat < b.length.toNat / kind.size) :
    (b.viewAt kind position).load h.store index = kind.elementAt (h.contents b) index.toNat := by
  obtain ⟨hoffset, hinside⟩ := offset_le hi
  have hread : h.store.read (b.address + index * UInt64.ofNat kind.size) kind.size =
      ((h.contents b).drop (index * UInt64.ofNat kind.size).toNat).take kind.size :=
    h.read_part (by rwa [hoffset])
  rw [View.load, ElementKind.elementAt, ← hoffset, ← hread]
  rfl

/-- A view of a buffer shows its bytes. -/
theorem sees_viewAt (h : Heap) (b : Buffer) (kind : ElementKind) (position : UInt64) :
    (b.viewAt kind position).Sees h.store (h.contents b) := by
  have hcapacity := toNat_capacity_viewAt b kind position
  constructor
  case capacity_eq => rw [hcapacity, length_contents]
  case get_eq =>
    intro index
    rw [length_contents]
    split
    · next hi => rw [View.get_eq_ok (by rwa [hcapacity]), load_viewAt h position hi]
    · next hi => exact View.get_eq_error (by rwa [hcapacity, ← Nat.not_lt]) _
  case toList_eq =>
    rw [View.toList, hcapacity, length_contents, List.range'_eq_map_range, List.map_map]
    refine List.map_congr_left fun k hk => ?_
    change k ∈ List.range (b.length.toNat / kind.size - position.toNat) at hk
    rw [List.mem_range] at hk
    -- elements of the list lie below the capacity, so that indices do not go round
    have hindex : (position + UInt64.ofNat k).toNat = position.toNat + k := by
      have hlength := b.length.toNat_lt
      have hcount := Nat.div_le_self b.length.toNat kind.size
      rw [UInt64.toNat_add, UInt64.toNat_ofNat', Nat.mod_eq_of_lt (a := k) (by omega),
        Nat.mod_eq_of_lt (by omega)]
    have hload : (b.viewAt kind position).load h.store (position + UInt64.ofNat k) =
        kind.elementAt (h.contents b) (position + UInt64.ofNat k).toNat :=
      load_viewAt h position (by omega)
    rwa [hindex] at hload

/-- A view of single bytes shows all of them. -/
theorem seesBytes_viewAt (h : Heap) (b : Buffer) (position : UInt64) :
    (b.viewAt .byte position).SeesBytes h.store (h.contents b) := by
  have hcapacity : (b.viewAt .byte position).capacity.toNat = b.length.toNat := by
    rw [toNat_capacity_viewAt, ElementKind.size, Nat.div_one]
  have hbytes : (b.viewAt .byte position).bytes h.store = h.contents b := by
    rw [View.bytes, hcapacity]
    rfl
  constructor
  case bytes_eq => exact hbytes
  case remainingBytes_eq => rw [View.remainingBytes, hbytes]
  case getUnit_eq =>
    intro index
    rw [length_contents, ← hcapacity, View.getUnit]
    split
    · next hi =>
      rw [View.checkIndex_addSat_eq_ok_iff.mpr hi, ← h.read_part (by omega)]
      rfl
    · next hi =>
      have hend : (b.viewAt .byte position).capacity.toNat ≤ (Word.addSat index 1).toNat := by
        have := b.length.toNat_lt
        rw [Word.toNat_addSat, UInt64.toNat_one]
        omega
      rw [View.checkIndex_eq_outOfBounds hend]
      rfl

end Heap

end RawMemory
