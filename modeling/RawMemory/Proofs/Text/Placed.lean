import RawMemory.Proofs.Access
import RawMemory.Proofs.Heap.Contents
import RawMemory.Text.Placed

/-!
# Encoding into buffers

`Text.encodeUnits` tells what becomes of units without saying where the bytes are. In memory they are
written into a buffer, which is exchanged for a larger one when it is used up, and let go when the units
cannot be encoded. It comes to the same (`Heap.ends_place`): the buffer holds the bytes in the end, the same
events are reported, and the errors are the same. One thing can happen besides, which is that storage is
refused.

Whatever happens, nobody else's memory is touched (`Heap.Spares`). What was written before an error is in
storage that has been given back, which the allocator may give out again (`Heap.spare`).
-/

namespace RawMemory

open Store (ChangesOnly)

namespace Heap

variable {h h' h'' : Heap} {b next : Buffer} {bytes : List UInt8}

/-! ## Memory in use -/

/-- The addresses of the blocks that are set aside, and of memory that is set aside for others. -/
def inUse (h : Heap) : Set Address := native ∪ {x | ∃ block ∈ h.blocks, x ∈ block.extent}

/-- The addresses of storage that is not in use, and that the allocator may give out. -/
def spare (h : Heap) : Set Address :=
  {x | x ∉ h.inUse ∧ ∃ requests blocks size a,
    h.allocator.place? requests blocks size = some a ∧ x ∈ a.range size.toNat}

/-- The same blocks are set aside, and no byte has changed but in storage that is not in use. -/
structure Spares (h h' : Heap) : Prop where
  /-- Storage is asked for in the same place. -/
  allocator_eq : h'.allocator = h.allocator
  /-- The same blocks are set aside. -/
  blocks_eq : h'.blocks = h.blocks
  /-- All other bytes are as before. -/
  changesOnly : ChangesOnly h.spare h.store h'.store

/-- One more block is set aside than before, which is that of a buffer. No byte has changed but in storage
that was not in use before. -/
structure Holds (h : Heap) (b : Buffer) (h' : Heap) : Prop where
  /-- Blocks lie apart. -/
  tidy : h'.Tidy
  /-- Storage is asked for in the same place. -/
  allocator_eq : h'.allocator = h.allocator
  /-- The block of the buffer is the newest one. -/
  blocks_eq : h'.blocks = b.block :: h.blocks
  /-- It was not in use before. -/
  block_subset : b.block.extent ⊆ h.spare
  /-- The buffer has no more bytes than were set aside for it. -/
  length_le : b.length ≤ b.allocated
  /-- All other bytes are as before. -/
  changesOnly : ChangesOnly h.spare h.store h'.store

/-- A heap that is the same has lost no block. -/
theorem Same.spares (hsame : h.Same h') : h.Spares h' :=
  ⟨hsame.allocator_eq, hsame.blocks_eq, fun x _ => congrArg (Store.byte · x) hsame.store_eq⟩

/-- What is free depends on the blocks and on the allocator only. -/
theorem spare_eq (hblocks : h'.blocks = h.blocks) (hallocator : h'.allocator = h.allocator) :
    h'.spare = h.spare := by
  rw [spare, spare, inUse, inUse, hblocks, hallocator]

/-- What one change leaves alone and then another one does. -/
theorem Spares.trans (hfirst : h.Spares h') (hsecond : h'.Spares h'') : h.Spares h'' := by
  have hchanges := hsecond.changesOnly
  rw [spare_eq hfirst.blocks_eq hfirst.allocator_eq] at hchanges
  exact ⟨hsecond.allocator_eq.trans hfirst.allocator_eq, hsecond.blocks_eq.trans hfirst.blocks_eq,
    hchanges.trans hfirst.changesOnly⟩

/-- Blocks that are spared lie apart as they did. -/
theorem Spares.tidy (hspares : h.Spares h') (ht : h.Tidy) : h'.Tidy :=
  ht.of_blocks_eq hspares.blocks_eq hspares.allocator_eq

/-- Memory in use has not changed. -/
theorem Spares.eqOn (hspares : h.Spares h') : Set.EqOn h'.store.byte h.store.byte h.inUse :=
  fun _ hx => hspares.changesOnly fun hspare => hspare.1 hx

/-- A buffer whose block is set aside has the same bytes. -/
theorem Spares.contents_eq (hspares : h.Spares h') (ht : h.Tidy) (hblock : b.block ∈ h.blocks)
    (hlength : b.length ≤ b.allocated) : h'.contents b = h.contents b := by
  have hplaced : h.WellPlaced [b] := ⟨ht, List.singleton_subperm_iff.mpr hblock, by simpa using hlength⟩
  refine contents_eq_of_disjoint (hplaced.fits List.mem_cons_self) hspares.changesOnly ?_
  refine Set.disjoint_left.mpr fun x hx hspare => hspare.1 (Or.inr ⟨b.block, hblock, ?_⟩)
  exact Buffer.extent_subset hlength hx

namespace Holds

/-- What is stored in the block of the buffer concerns nobody else. -/
theorem of_changesOnly (hb : h.Holds b h') {store : Store}
    (hchanges : ChangesOnly b.block.extent h'.store store) : h.Holds b { h' with store } :=
  ⟨hb.tidy.of_blocks_eq rfl rfl, hb.allocator_eq, hb.blocks_eq, hb.block_subset, hb.length_le,
    (hchanges.mono hb.block_subset).trans hb.changesOnly⟩

/-- A buffer that is cut is still held. -/
theorem truncate (hb : h.Holds b h') (length : UInt64) : h.Holds (b.truncate length) h' := by
  have hlength : (b.truncate length).length ≤ b.allocated :=
    UInt64.le_trans (b.length_truncate_le length) hb.length_le
  exact ⟨hb.tidy, hb.allocator_eq, hb.blocks_eq, hb.block_subset, hlength, hb.changesOnly⟩

/-- When the buffer is let go the same blocks are left as before. -/
theorem free (hb : h.Holds b h') : h.Spares (h'.free b) := by
  refine ⟨hb.allocator_eq, ?_, hb.changesOnly⟩
  rw [Heap.free, hb.blocks_eq]
  exact List.erase_cons_head ..

/-- A request that is refused takes no buffer away. -/
theorem of_same (hb : h.Holds b h') (hsame : h'.Same h'') : h.Holds b h'' :=
  ⟨hb.tidy.of_blocks_eq hsame.blocks_eq hsame.allocator_eq, hsame.allocator_eq.trans hb.allocator_eq,
    hsame.blocks_eq.trans hb.blocks_eq, hb.block_subset, hb.length_le, hsame.store_eq ▸ hb.changesOnly⟩

/-- The buffer that is held lies in its block. -/
theorem wellPlaced (hb : h.Holds b h') : h'.WellPlaced [b] := by
  refine ⟨hb.tidy, ?_, List.forall_mem_singleton.mpr hb.length_le⟩
  rw [hb.blocks_eq, List.map_singleton]
  exact List.singleton_subperm_iff.mpr List.mem_cons_self

end Holds

/-- A block that is set aside besides others lies apart from memory that is in use already. -/
theorem disjoint_inUse {block : Block} (ht : h'.Tidy) (hblocks : h'.blocks = block :: h.blocks) :
    Disjoint block.extent h.inUse := by
  have hdisjoint := ht.disjoint
  have hapart := ht.apart
  rw [hblocks] at hdisjoint hapart
  refine Set.disjoint_union_right.mpr ⟨hapart _ List.mem_cons_self, Set.disjoint_left.mpr ?_⟩
  rintro x hx ⟨other, hother, hin⟩
  exact Set.disjoint_left.mp ((List.pairwise_cons.mp hdisjoint).1 other hother) hx hin

/-- A new buffer is one more than there were. -/
theorem Makes.holds (hmade : h.Makes bytes b h') (ht : h.Tidy) : h.Holds b h' := by
  have ht' := hmade.tidy ht
  have hdisjoint := disjoint_inUse ht' hmade.blocks_eq
  have hsubset : b.block.extent ⊆ h.spare := by
    refine fun x hx => ⟨Set.disjoint_left.mp hdisjoint hx, h.requests, h.blocks, b.block.size, b.address, ?_, hx⟩
    rw [Buffer.block, hmade.allocated_eq]
    exact place?_of_place? hmade.place_eq
  exact ⟨ht', hmade.allocator_eq, hmade.blocks_eq, hsubset, hmade.allocated_eq ▸ UInt64.le_refl _,
    hmade.changesOnly.mono hsubset⟩

/-- A buffer is exchanged for another one and let go. -/
theorem Holds.exchange (hb : h.Holds b h') (hmade : h'.Makes bytes next h'') :
    h.Holds next (h''.free b) ∧ (h''.free b).contents next = bytes := by
  have ht := hmade.tidy hb.tidy
  have hnext := hmade.holds hb.tidy
  have hspare : h'.spare ⊆ h.spare := by
    -- with one more block in use there is less to give out
    rintro x ⟨hx, requests, blocks, size, a, hplace, hin⟩
    refine ⟨fun hused => hx (hused.imp id ?_), requests, blocks, size, a, hb.allocator_eq ▸ hplace, hin⟩
    rintro ⟨block, hblock, hmem⟩
    exact ⟨block, hb.blocks_eq ▸ List.mem_cons_of_mem _ hblock, hmem⟩
  have hne : next.block ≠ b.block := by
    -- a block has a byte, which no other block has
    intro heq
    have hfirst : b.block.address ∈ b.block.extent := by
      have hsize : b.block.size.toNat = max b.allocated.toNat 1 := Buffer.toNat_storageSize b.allocated
      rw [Block.extent, Address.mem_range_iff]
      omega
    have hmem : b.block ∈ h'.blocks := hb.blocks_eq ▸ List.mem_cons_self
    exact (hnext.block_subset (heq ▸ hfirst)).1 (Or.inr ⟨b.block, hmem, hfirst⟩)
  have hblocks : (h''.free b).blocks = next.block :: h.blocks := by
    rw [Heap.free, hmade.blocks_eq, hb.blocks_eq, List.erase_cons_tail (by simpa using hne),
      List.erase_cons_head]
  exact ⟨⟨ht.free b, hmade.allocator_eq.trans hb.allocator_eq, hblocks, hnext.block_subset.trans hspare,
    hnext.length_le, (hnext.changesOnly.mono hspare).trans hb.changesOnly⟩, hmade.contents_eq⟩

/-! ## Lending a buffer to a coder -/

/-- A coder gets the bytes that are in the buffer. -/
theorem lend_eq {o : Output UInt8} (hcontents : h.contents b = o.storage.toList) :
    h.lend b o.size o.written = o := by
  have hlength : b.length.toNat = o.size := by
    rw [← length_contents h, hcontents, Array.length_toList, Output.size]
  have hstorage : (h.store.read b.address o.size).toArray = o.storage := by
    rw [← hlength, ← contents, hcontents, Array.toArray_toList]
  have hwritten : min o.written o.size = o.written := Nat.min_eq_left o.written_le
  obtain ⟨storage, written, hle⟩ := o
  exact Output.mk.injEq .. |>.mpr ⟨hstorage, hwritten⟩

/-- The buffer has the bytes then that the coder has left. -/
theorem Holds.takeBack (hb : h.Holds b h') {o : Output UInt8} (hsize : o.size = b.length.toNat) :
    h.Holds b (h'.takeBack b o) ∧ (h'.takeBack b o).contents b = o.storage.toList := by
  have hfits := hb.wellPlaced.fits List.mem_cons_self
  have hsubset := Buffer.extent_subset hb.length_le
  have hlength : o.storage.toList.length = b.length.toNat := by rw [Array.length_toList, ← hsize, Output.size]
  constructor
  · exact hb.of_changesOnly ((h'.store.changesOnly_write hsize hfits.le).mono hsubset)
  · have hcount : o.storage.toList.length < 2 ^ 64 := hlength ▸ b.length.toNat_lt
    have hread := h'.store.read_write b.address hcount
    rw [hlength, Array.toArray_toList] at hread
    exact hread

end Heap

/-! ## Encoding -/

/-- What coding a whole input comes to, with the events that are reported on the way. -/
def Text.coded (charset : Charset) (transcript : Transcript UInt8) :
    Traced (Except MemoryError (List UInt8)) where
  value := outcome charset transcript
  events := transcript.growths.map fun g => .encodeGrew charset g.size g.written

/-- How encoding into a buffer ends, where encoding without memory is known. -/
inductive Heap.Ends (h : Heap) (before : List Event) (coded : Traced (Except MemoryError (List UInt8))) :
    Except MemoryError Buffer × Workspace → Prop where
  /-- There is a buffer with the bytes. -/
  | placed {b : Buffer} {w : Workspace} (holds : h.Holds b w.heap)
    (events_eq : w.events = before ++ coded.events) (value_eq : coded.value = .ok (w.heap.contents b)) :
    Ends h before coded (.ok b, w)
  /-- There are no bytes, and no buffer is left. -/
  | failed {e : MemoryError} {w : Workspace} (spares : h.Spares w.heap)
    (events_eq : w.events = before ++ coded.events) (value_eq : coded.value = .error e) :
    Ends h before coded (.error e, w)
  /-- Storage was refused, and no buffer is left. -/
  | refused {size : UInt64} {w : Workspace} (spares : h.Spares w.heap) :
    Ends h before coded (.error (.allocationFailed size), w)

namespace Access

open Stateful

/-- Making a buffer either gives one with the bytes, or is refused. -/
theorem run_of_makesIfGranted {x : Access Heap Buffer} {h : Heap} {bytes : List UInt8} {size : UInt64}
    (hx : SetsAside size x) (hmade : h.MakesIfGranted bytes (x.result h)) :
    (∃ b h', x.run.run h = (.ok b, h') ∧ h.Makes bytes b h') ∨
      ∃ size h', x.run.run h = (.error (.allocationFailed size), h') ∧ h.Same h' := by
  rcases hrun : x.run.run h with ⟨e | b, h'⟩
  · right
    -- if the request had been granted there would be a result
    have hresult : x.result h = .error e := by rw [result, hrun]
    rcases hgrants : h.grants bytes.length with _ | _
    · have herror := hmade.of_not_grants hgrants
      rw [hresult] at herror
      obtain rfl := Except.error.inj herror
      exact ⟨_, h', rfl, hx.same hrun⟩
    · obtain ⟨b, h'', hok, -⟩ := hmade.of_grants hgrants
      rw [hresult] at hok
      cases hok
  · left
    have hresult : x.result h = .ok (b, h') := by rw [result, hrun]
    rcases hgrants : h.grants bytes.length with _ | _
    · have herror := hmade.of_not_grants hgrants
      rw [hresult] at herror
      cases herror
    · obtain ⟨c, h'', hok, hnew⟩ := hmade.of_grants hgrants
      rw [hresult] at hok
      obtain ⟨rfl, rfl⟩ := Prod.mk.inj (Except.ok.inj hok)
      exact ⟨b, h', rfl, hnew⟩

/-- A buffer that is at hand is let go after a failure. -/
theorem run_holding {α : Type} (b : Buffer) (x : Access Workspace α) (w : Workspace) :
    (holding b x).run.run w =
      match x.run.run w with
      | (.ok a, left) => (.ok a, left)
      | (.error e, left) => (.error e, { left with heap := left.heap.free b }) := by
  rw [holding, run_tryCatch]
  rcases x.run.run w with ⟨_ | _, _⟩ <;> rfl

/-- Once storage is set aside, units are encoded into it. -/
theorem run_encodeUnits {charset : Charset} {units : List UInt16} {w : Workspace} {b : Buffer} {left : Heap}
    (h : (allocate (UInt64.ofNatClamp (Text.encodeEstimate charset units))).run.run w.heap = (.ok b, left)) :
    (encodeUnits charset units).run.run w =
      (encodeFrom charset b (Text.encodeEstimate charset units) 0 units 0).run.run ⟨left, w.events⟩ := by
  rw [encodeUnits, run_bind, onHeap, run_onPart, h]

/-- One call of the coder, and what is done when it stops. -/
theorem run_encodeFrom (charset : Charset) (b : Buffer) (size written : Nat) (input : List UInt16)
    (consumed : Nat) (w : Workspace) :
    (encodeFrom charset b size written input consumed).run.run w =
      let filled := charset.encoder.fill true (w.heap.lend b size written) input
      let heap := w.heap.takeBack b filled.output
      match filled.result with
      | .overflow =>
        let events := w.events ++ [.encodeGrew charset (2 * size + 1) filled.output.written]
        match (grow b (UInt64.ofNatClamp (2 * size + 1)) (UInt64.ofNat filled.output.written)).run.run heap with
        | (.error e, left) => (.error e, ⟨left.free b, events⟩)
        | (.ok next, left) =>
          (encodeFrom charset next (2 * size + 1) filled.output.written (input.drop filled.consumed)
            (consumed + filled.consumed)).run.run ⟨left.free b, events⟩
      | .underflow => (.ok (b.truncate (UInt64.ofNat filled.output.written)), ⟨heap, w.events⟩)
      | .malformed _ =>
        (.error (.codec charset .malformed (consumed + filled.consumed)), ⟨heap.free b, w.events⟩)
      | .unmappable _ =>
        (.error (.codec charset .unmappable (consumed + filled.consumed)), ⟨heap.free b, w.events⟩) := by
  rw [encodeFrom, run_bind_of_ok (x := get) rfl]
  dsimp only
  generalize charset.encoder.fill true (w.heap.lend b size written) input = filled
  rw [run_bind_of_ok (x := onHeap _) (t := ⟨w.heap.takeBack b filled.output, w.events⟩) rfl]
  rcases hresult : filled.result
  case overflow =>
    -- the event comes first, and the old buffer is let go whether there is a new one or not
    rw [if_pos rfl, run_bind_of_ok (x := report _) rfl, run_bind, run_holding]
    dsimp only [onHeap]
    rw [run_onPart]
    dsimp only
    rcases (grow b (UInt64.ofNatClamp (2 * size + 1)) (UInt64.ofNat filled.output.written)).run.run
      (w.heap.takeBack b filled.output) with ⟨_ | _, _⟩
    all_goals rfl
  all_goals rfl

end Access

namespace Heap

open Stateful

variable {h : Heap} {before : List Event}

/-- The buffer that coding a whole input works on, where the output of the coder is known. -/
structure Coding (h : Heap) (b : Buffer) (o : Output UInt8) (h' : Heap) : Prop where
  /-- The buffer is set aside besides what was there. -/
  holds : h.Holds b h'
  /-- It has the bytes of the output. -/
  contents_eq : h'.contents b = o.storage.toList

/-- A buffer is grown like an output. -/
theorem toList_storage_grow (o : Output UInt8) {size : Nat} (hsize : o.size ≤ size) :
    (o.grow size).storage.toList = grown o.storage.toList size o.written := by
  have hwritten : o.written ≤ o.storage.size := o.written_le
  have hle : o.written ≤ size := hwritten.trans hsize
  rw [grown, Array.length_toList, Nat.min_eq_left hwritten, Nat.min_eq_left hle, Output.grow]
  simp only [Output.regrown, Nat.min_eq_left hle, Array.toList_append, Array.toList_extract,
    List.extract_eq_take_drop, Nat.sub_zero, List.drop_zero, Array.size_extract, Nat.min_eq_left hwritten,
    Array.toList_replicate]

/-- What a coder writes goes into the buffer. -/
theorem Coding.takeBack {o filled : Output UInt8} {b : Buffer} {h' : Heap} (hb : h.Coding b o h')
    (hsize : filled.size = o.size) : h.Coding b filled (h'.takeBack b filled) := by
  have hlength : o.size = b.length.toNat := by
    rw [← length_contents h', hb.contents_eq, Array.length_toList, Output.size]
  exact ⟨(hb.holds.takeBack (hsize.trans hlength)).1, (hb.holds.takeBack (hsize.trans hlength)).2⟩

/-- The buffer cut to what is written has what the output has. -/
theorem Coding.contents_truncate {o : Output UInt8} {b : Buffer} {h' : Heap} (hb : h.Coding b o h') :
    h'.contents (b.truncate (UInt64.ofNat o.written)) = o.content := by
  have hlength : o.storage.size = b.length.toNat := by
    rw [← length_contents h', hb.contents_eq, Array.length_toList]
  have hwritten : (UInt64.ofNat o.written).toNat = o.written := by
    have hle := o.written_le
    have hlt := b.length.toNat_lt
    rw [UInt64.toNat_ofNat', Nat.mod_eq_of_lt (by omega)]
  rw [Heap.contents_truncate, hb.contents_eq, hwritten, Output.content]

/-- A larger buffer that has been made to go on with. -/
theorem Coding.exchange {o : Output UInt8} {size : Nat} {b next : Buffer} {h' h'' : Heap}
    (hb : h.Coding b o h') (hsize : o.size ≤ size)
    (hmade : h'.Makes (grown (h'.contents b) (UInt64.ofNatClamp size).toNat (UInt64.ofNat o.written).toNat)
      next h'') : h.Coding next (o.grow size) (h''.free b) := by
  obtain ⟨hholds, hcontents⟩ := hb.holds.exchange hmade
  have hlength : next.length = UInt64.ofNatClamp size :=
    UInt64.toNat_inj.mp (hmade.length_eq.trans (length_grown ..))
  -- storage was granted, so the size is no more than words can count
  have hle := le_of_place?_ofNatClamp (hlength ▸ hmade.place_eq)
  rw [Word.toNat_maxSize] at hle
  have hwritten : o.written ≤ size := o.written_le.trans hsize
  refine ⟨hholds, hcontents.trans ?_⟩
  rw [UInt64.toNat_ofNatClamp_of_lt (by rw [UInt64.size]; omega), UInt64.toNat_ofNat',
    Nat.mod_eq_of_lt (by omega), hb.contents_eq, toList_storage_grow o hsize]

/-- The rest of an input is coded into a buffer like into an output that is not in memory. -/
theorem ends_encodeFrom (charset : Charset) (o : Output UInt8) (input : List UInt16) (consumed : Nat)
    (growths : Array Growth) {b : Buffer} {w : Workspace} (hb : h.Coding b o w.heap)
    (hevents : w.events = before ++ growths.toList.map fun g => .encodeGrew charset g.size g.written) :
    h.Ends before (Text.coded charset (charset.encoder.drainFrom o input consumed growths))
      ((Access.encodeFrom charset b o.size o.written input consumed).run.run w) := by
  fun_induction Coder.drainFrom charset.encoder o input consumed growths generalizing b w
  case case1 o input consumed growths filled hresult size ih =>
    have hfilled : charset.encoder.fill true o input = filled := rfl
    have hsize : filled.output.size = o.size := by rw [← hfilled, Coder.fill_eq, Output.size_write]
    have hle : filled.output.size ≤ size := by omega
    have hback := hb.takeBack hsize
    rw [Access.run_encodeFrom, lend_eq hb.contents_eq, hfilled]
    dsimp only
    rw [hresult]
    -- the buffer is full, and a larger one is asked for while it is still there
    have hmade := hback.holds.wellPlaced.makesIfGranted_grow List.mem_cons_self (UInt64.ofNatClamp size)
      (UInt64.ofNat filled.output.written)
    rcases Access.run_of_makesIfGranted (Access.setsAside_grow ..) hmade with
      ⟨next, left, hrun, hmade⟩ | ⟨_, left, hrun, hsame⟩
    · -- the call goes on with the larger buffer
      have hnext := hback.exchange hle hmade
      have hwritten := filled.output.written_grow (filled.output.written_le.trans hle)
      have hlater := ih hnext (w := ⟨left.free b, w.events ++ [.encodeGrew charset size filled.output.written]⟩)
        (by simp [hevents, size])
      rw [Output.size_grow, hwritten] at hlater
      dsimp only
      rw [hrun]
      exact hlater
    · dsimp only
      rw [hrun]
      exact .refused (hback.holds.of_same hsame).free
  case case2 o input consumed growths filled hresult =>
    have hfilled : charset.encoder.fill true o input = filled := rfl
    have hsize : filled.output.size = o.size := by rw [← hfilled, Coder.fill_eq, Output.size_write]
    have hback := hb.takeBack hsize
    rw [Access.run_encodeFrom, lend_eq hb.contents_eq, hfilled]
    clear_value filled
    dsimp only
    rcases hstop : filled.result
    case underflow =>
      refine .placed (hback.holds.truncate _) hevents ?_
      rw [hback.contents_truncate, Text.coded, Text.outcome]
    case overflow => exact absurd hstop hresult
    all_goals exact .failed hback.holds.free hevents rfl

/-- Units are encoded into a buffer as they are encoded without memory. -/
theorem ends_encodeUnits {w : Workspace} (ht : w.heap.Tidy) (charset : Charset) (units : List UInt16) :
    w.heap.Ends w.events (Text.encodeUnits charset units) ((Access.encodeUnits charset units).run.run w) := by
  have hmade := makesIfGranted_allocate ht.documented (UInt64.ofNatClamp (Text.encodeEstimate charset units))
  rcases Access.run_of_makesIfGranted (Access.setsAside_allocate _) hmade with
    ⟨b, left, hrun, hmade⟩ | ⟨_, left, hrun, hsame⟩
  · rw [Access.run_encodeUnits hrun]
    have hlength : b.length = UInt64.ofNatClamp (Text.encodeEstimate charset units) :=
      UInt64.toNat_inj.mp (hmade.length_eq.trans (List.length_replicate ..))
    have hle := le_of_place?_ofNatClamp (hlength ▸ hmade.place_eq)
    rw [Word.toNat_maxSize] at hle
    have hcoding : w.heap.Coding b (.zeroed (Text.encodeEstimate charset units)) left := by
      refine ⟨hmade.holds ht, hmade.contents_eq.trans ?_⟩
      rw [UInt64.toNat_ofNatClamp_of_lt (by rw [UInt64.size]; omega), Output.zeroed, Array.toList_replicate]
    have hends := ends_encodeFrom charset _ units 0 #[] (w := ⟨left, w.events⟩) hcoding
      (List.append_nil w.events).symm
    rw [Output.size_zeroed, Output.written_zeroed] at hends
    exact hends
  · rw [Access.encodeUnits, run_bind, Access.onHeap, run_onPart, hrun]
    exact .refused hsame.spares

/-- A buffer is made of bytes that are known already. -/
theorem ends_ofBytes {w : Workspace} (ht : w.heap.Tidy) (bytes : List UInt8) :
    w.heap.Ends w.events (pure (.ok bytes)) ((Access.onHeap (Access.ofBytes bytes)).run.run w) := by
  rw [Access.onHeap, run_onPart]
  have hmade := makesIfGranted_ofBytes ht.documented bytes
  rcases Access.run_of_makesIfGranted (Access.setsAside_ofBytes _) hmade with
    ⟨b, left, hrun, hmade⟩ | ⟨_, left, hrun, hsame⟩
  · rw [hrun]
    exact .placed (hmade.holds ht) (List.append_nil _).symm (congrArg Except.ok hmade.contents_eq.symm)
  · rw [hrun]
    exact .refused hsame.spares

/-- Whatever is asked for, it is encoded into a buffer as it is encoded without memory. -/
theorem ends_place {w : Workspace} (ht : w.heap.Tidy) (request : Text.EncodeRequest) :
    w.heap.Ends w.events request.run (request.place.run.run w) := by
  have hunknown (e : MemoryError) : w.heap.Ends w.events (pure (.error e)) (.error e, w) :=
    .failed ⟨rfl, rfl, fun _ _ => rfl⟩ (List.append_nil _).symm rfl
  cases request with
  | narrow text termination => exact ends_ofBytes ht _
  | wide text termination => exact ends_ofBytes ht _
  | charset name text termination =>
    unfold Text.EncodeRequest.place Text.EncodeRequest.run
    dsimp only
    rcases Charset.ofName name with e | found
    · exact hunknown e
    · exact ends_encodeUnits ht found _
  | units name input =>
    unfold Text.EncodeRequest.place Text.EncodeRequest.run
    dsimp only
    rcases Charset.ofName name with e | found
    · exact hunknown e
    · exact ends_encodeUnits ht found _

end Heap

end RawMemory
