import RawMemory.Proofs.Access
import RawMemory.Proofs.Heap.Contents

/-!
# Any number of buffers

A shelf is memory with all the buffers that have been made in it. They are made from nothing, from bytes
and from each other, cut short, and stored to in all the ways there are (`BufferCall`). What calls make of
the bytes that buffers hold is told by lists (`BufferCall.bytes?`), where there is no memory and nothing
behind the end of a list. `Shelf.Placed.rel_perform` is the step: a call does the same in memory, for any
allocator that keeps its promises and any sizes that it grants.

So the bytes in memory that are no buffer's, those that were cut off among them, are never seen again
(`Shelf.Agrees.run`). What this means to a caller is collected in `Shelf.Sound`, which holds after any calls
(`Shelf.sound_run`).
-/

namespace RawMemory

/-! ## Calls -/

/-- How a buffer is made. Other buffers are named by their number, in the order of their making. -/
inductive BufferSource where
  /-- From nothing, with so many zero bytes. -/
  | zeros (size : UInt64)
  /-- From these bytes. -/
  | ofBytes (bytes : List UInt8)
  /-- As a copy of another buffer. -/
  | clone (source : Nat)
  /-- From the first bytes of another buffer, as many as are to be kept, with another size. -/
  | grow (source : Nat) (size keep : UInt64)

/-- What is done to a buffer. Bytes are stored directly, or elements through a view of the whole buffer,
under an index or at the cursor. -/
inductive BufferChange where
  /-- It is cut to so many bytes. -/
  | truncate (length : UInt64)
  /-- All of it is filled with a byte. -/
  | fill (byte : UInt8)
  /-- Bytes are stored at an offset. -/
  | store (offset : UInt64) (block : List UInt8)
  /-- An element is stored under an index. -/
  | put (kind : ElementKind) (index : UInt64) (element : kind.Bits)
  /-- An element is stored at the cursor, which stands at a position. -/
  | write (kind : ElementKind) (position : UInt64) (element : kind.Bits)
  /-- A 16-bit unit is stored with its first byte at an index. -/
  | putUnit (index : UInt64) (unit : BitVec 16)

/-- One thing to do with buffers. -/
inductive BufferCall where
  /-- Make a buffer. -/
  | make (source : BufferSource)
  /-- Do something to the buffer of a number. -/
  | change (target : Nat) (how : BufferChange)

/-! ### On lists of bytes -/

/-- The bytes that a new buffer should have, where others hold some. -/
def BufferSource.bytes? (held : List (List UInt8)) : BufferSource → Option (List UInt8)
  | zeros size => some (List.replicate size.toNat 0)
  | ofBytes bytes => some bytes
  | clone source => held[source]?
  | grow source size keep => held[source]?.map fun bytes => grown bytes size.toNat keep.toNat

/-- The bytes that a new buffer has, unless storage for so many is refused. -/
def BufferSource.made? (grants : Nat → Bool) (held : List (List UInt8)) (source : BufferSource) :
    Option (List UInt8) := do
  let bytes ← source.bytes? held
  if grants bytes.length then some bytes else none

/-- What becomes of the bytes of a buffer. Nothing is stored beyond the last of them. -/
def BufferChange.bytes? (bytes : List UInt8) : BufferChange → Option (List UInt8)
  | truncate length => some (bytes.take length.toNat)
  | fill byte => some (List.replicate bytes.length byte)
  | store offset block =>
    if offset.toNat + block.length ≤ bytes.length then some (overwrite bytes offset.toNat block) else none
  | put kind index element | write kind index element =>
    if index.toNat < bytes.length / kind.size then
      some (overwrite bytes (index.toNat * kind.size) (LittleEndian.bytes kind.size element.toNat))
    else none
  | putUnit index unit =>
    if index.toNat + 1 < bytes.length then
      some (overwrite bytes index.toNat (LittleEndian.bytes 2 unit.toNat))
    else none

/-- What becomes of the bytes of all buffers, unless the call is refused. -/
def BufferCall.bytes? (grants : Nat → Bool) (held : List (List UInt8)) :
    BufferCall → Option (List (List UInt8))
  | make source => return held ++ [← source.made? grants held]
  | change target how => do
    let bytes ← held[target]?
    return held.set target (← how.bytes? bytes)

/-! ### In memory -/

/-- What is left of a buffer to which something is done. -/
def BufferChange.leaves (b : Buffer) : BufferChange → Buffer
  | truncate length => b.truncate length
  | _ => b

/-- Memory in which something was done to a buffer. -/
def Heap.change (h : Heap) (b : Buffer) : BufferChange → Option Store
  | .truncate _ => some h.store
  | .fill byte => some (h.fill b byte).store
  | .store offset block =>
    if offset.toNat + block.length ≤ b.length.toNat then
      some (h.store.write (b.address + offset) block.toArray)
    else none
  | .put kind index element => ((b.view kind).put h.store index element).toOption
  | .write kind position element =>
    ((b.viewAt kind position).write h.store element).toOption.map fun written => written.1
  | .putUnit index unit => ((b.view .byte).putUnit h.store index unit).toOption

/-- Memory with the buffers that have been made in it, in the order of their making. -/
structure Shelf where
  /-- Memory. -/
  heap : Heap
  /-- The buffers, the oldest first. -/
  buffers : List Buffer

namespace Shelf

/-- Memory in which no buffer has been made yet. Others may have storage in it. -/
def empty (heap : Heap) : Shelf := ⟨heap, []⟩

/-- The operation that makes a buffer, and how many bytes it asks for. -/
def making? (s : Shelf) : BufferSource → Option (UInt64 × Access Heap Buffer)
  | .zeros size => some (size, Access.allocate size)
  | .ofBytes bytes => some (UInt64.ofNatClamp bytes.length, Access.ofBytes bytes)
  | .clone source => s.buffers[source]?.map fun b => (b.length, Access.clone b)
  | .grow source size keep => s.buffers[source]?.map fun b => (size, Access.grow b size keep)

/-- Make a buffer. -/
def make (s : Shelf) (source : BufferSource) : Option (Buffer × Heap) := do
  let (_, x) ← s.making? source
  (x.result s.heap).toOption

/-- Carry out a call, unless it is refused. -/
def perform (s : Shelf) : BufferCall → Option Shelf
  | .make source => do
    let (b, heap) ← s.make source
    return ⟨heap, s.buffers ++ [b]⟩
  | .change target how => do
    let b ← s.buffers[target]?
    let store ← s.heap.change b how
    return ⟨{ s.heap with store }, s.buffers.set target (how.leaves b)⟩

/-- What a call leaves that is refused. Only a refused copy of a buffer ends the program, and no call comes
after it. -/
def refuse (s : Shelf) : BufferCall → Shelf
  | .make source =>
    match s.making? source with
    | some (_, x) => { s with heap := (x.run.run s.heap).2 }
    | none => s
  | .change .. => s

/-- Carry out a call. -/
def step (s : Shelf) (call : BufferCall) : Shelf := (s.perform call).getD (s.refuse call)

/-- Carry out calls one after the other. -/
def run (s : Shelf) (calls : List BufferCall) : Shelf := calls.foldl step s

/-- The bytes of all buffers. -/
def contents (s : Shelf) : List (List UInt8) := s.buffers.map s.heap.contents

end Shelf

/-! ## Lists of bytes -/

/-- Nothing that is done to a buffer makes it longer. -/
theorem BufferChange.length_le {how : BufferChange} {bytes after : List UInt8}
    (h : how.bytes? bytes = some after) : after.length ≤ bytes.length := by
  cases how with
  | truncate length =>
    cases h
    exact List.length_take_le' ..
  | fill byte =>
    cases h
    exact (List.length_replicate ..).le
  | store offset block =>
    obtain ⟨hinside, hafter⟩ := Option.ite_none_right_eq_some.mp h
    rw [← Option.some.inj hafter, length_overwrite hinside]
  | put kind index element | write kind index element =>
    obtain ⟨hi, hafter⟩ := Option.ite_none_right_eq_some.mp h
    have hinside := (Nat.le_div_iff_mul_le kind.size_pos).mp hi
    rw [← Option.some.inj hafter, length_overwrite]
    rwa [LittleEndian.length_bytes, ← Nat.succ_mul]
  | putUnit index unit =>
    obtain ⟨hi, hafter⟩ := Option.ite_none_right_eq_some.mp h
    rw [← Option.some.inj hafter, length_overwrite]
    rwa [LittleEndian.length_bytes]

/-- A call makes no buffer longer, and changes the bytes of no buffer but the one that it is about. -/
theorem BufferCall.exists_getElem? {call : BufferCall} {grants : Nat → Bool}
    {held after : List (List UInt8)} (h : call.bytes? grants held = some after) {i : Nat}
    {bytes : List UInt8} (hi : held[i]? = some bytes) :
    ∃ later, after[i]? = some later ∧ later.length ≤ bytes.length ∧
      ((∀ how, call ≠ .change i how) → later = bytes) := by
  have hlt := (List.getElem?_eq_some_iff.mp hi).1
  cases call with
  | make source =>
    obtain ⟨made, -, hafter⟩ := Option.bind_eq_some_iff.mp h
    refine ⟨bytes, ?_, le_rfl, fun _ => rfl⟩
    rw [← Option.some.inj hafter, List.getElem?_append_left hlt, hi]
  | change target how =>
    obtain ⟨before, hbefore, hchange⟩ := Option.bind_eq_some_iff.mp h
    obtain ⟨changed, hchanged, hafter⟩ := Option.bind_eq_some_iff.mp hchange
    rw [← Option.some.inj hafter]
    by_cases htarget : target = i
    · subst htarget
      obtain rfl := Option.some.inj (hi.symm.trans hbefore)
      exact ⟨changed, List.getElem?_set_self hlt, how.length_le hchanged,
        fun hother => absurd rfl (hother how)⟩
    · exact ⟨bytes, by rw [List.getElem?_set_ne htarget, hi], le_rfl, fun _ => rfl⟩

/-! ## The step -/

/-- A buffer was another, in the same place, and has perhaps been cut since. -/
structure Buffer.ShrunkFrom (later b : Buffer) : Prop where
  /-- It begins at the same address. -/
  address_eq : later.address = b.address
  /-- It has the storage that was set aside for it. -/
  allocated_eq : later.allocated = b.allocated
  /-- It has not become longer. -/
  length_le : later.length.toNat ≤ b.length.toNat

theorem Buffer.ShrunkFrom.refl (b : Buffer) : b.ShrunkFrom b := ⟨rfl, rfl, le_rfl⟩

/-- What was cut twice was cut. -/
theorem Buffer.ShrunkFrom.trans {b next later : Buffer} (h : later.ShrunkFrom next)
    (hnext : next.ShrunkFrom b) : later.ShrunkFrom b :=
  ⟨h.address_eq.trans hnext.address_eq, h.allocated_eq.trans hnext.allocated_eq,
    h.length_le.trans hnext.length_le⟩

/-- A buffer that was cut has the storage that it had. -/
theorem Buffer.ShrunkFrom.block_eq {b later : Buffer} (h : later.ShrunkFrom b) : later.block = b.block := by
  rw [Buffer.block, Buffer.block, h.address_eq, h.allocated_eq]

/-- Whatever is done to a buffer, it stays in its place and does not become longer. -/
theorem BufferChange.shrunkFrom_leaves (how : BufferChange) (b : Buffer) : (how.leaves b).ShrunkFrom b := by
  cases how with
  | truncate length =>
    exact ⟨rfl, rfl, UInt64.le_iff_toNat_le.mp (b.length_truncate_le length)⟩
  | _ => exact .refl b

namespace Heap

variable {h : Heap} {b : Buffer} {bytes : List UInt8}

/-- Something has been stored to memory within a buffer, which has perhaps been cut. -/
structure Changes (h : Heap) (b : Buffer) (how : BufferChange) (store : Store) (bytes : List UInt8) :
    Prop where
  /-- All other bytes are as before. -/
  changesOnly : Store.ChangesOnly b.extent h.store store
  /-- What is left of the buffer has these bytes. -/
  contents_eq : { h with store }.contents (how.leaves b) = bytes

/-- What is stored to a buffer that stays as long as it is replaces its bytes. -/
theorem Rewrites.changes {how : BufferChange} {stored : Store} (hstored : h.Rewrites b stored bytes)
    (hleaves : how.leaves b = b) : h.Changes b how stored bytes := by
  refine ⟨hstored.changesOnly, ?_⟩
  rw [hleaves]
  exact hstored.read_eq

/-- A buffer is made in memory just if storage for its bytes is granted. -/
theorem MakesIfGranted.rel {made : Except MemoryError (Buffer × Heap)}
    (hmade : h.MakesIfGranted bytes made) :
    Option.Rel (fun made bytes => h.Makes bytes made.1 made.2) made.toOption
      (if h.grants bytes.length then some bytes else none) := by
  rcases hgrants : h.grants bytes.length with _ | _
  · rw [hmade.of_not_grants hgrants]
    exact .none
  · obtain ⟨b, h', rfl, hnew⟩ := hmade.of_grants hgrants
    exact .some hnew

/-- What is stored to an element is refused where there is none. -/
theorem rel_of_put {how : BufferChange} {stored : Except MemoryError Store} {inside : Prop}
    [Decidable inside] (hleaves : how.leaves b = b)
    (hok : inside → ∃ m, stored = .ok m ∧ h.Rewrites b m bytes)
    (herror : ¬ inside → ∃ e, stored = .error e) :
    Option.Rel (h.Changes b how) stored.toOption (if inside then some bytes else none) := by
  split
  · next hi =>
    obtain ⟨m, rfl, hstored⟩ := hok hi
    exact .some (hstored.changes hleaves)
  · next hi =>
    obtain ⟨e, rfl⟩ := herror hi
    exact .none

/-- What is done to a buffer in memory is what becomes of its bytes. -/
theorem rel_change (hb : b.Fits) (h : Heap) (how : BufferChange) :
    Option.Rel (h.Changes b how) (h.change b how) (how.bytes? (h.contents b)) := by
  have hcapacity := toNat_capacity_viewAt b
  cases how with
  | truncate length => exact .some ⟨fun _ _ => rfl, h.contents_truncate b length⟩
  | fill byte =>
    rw [BufferChange.bytes?, length_contents]
    exact .some ((rewrites_fill hb h byte).changes rfl)
  | store offset block =>
    rw [Heap.change, BufferChange.bytes?, length_contents]
    split
    · next hinside => exact .some ((rewrites_write hb h hinside).changes rfl)
    · exact .none
  | put kind index element =>
    rw [BufferChange.bytes?, length_contents]
    refine rel_of_put rfl (rewrites_put hb h 0 · element) fun hi => ⟨_, View.put_eq_error ?_ _ _⟩
    exact (hcapacity kind 0).trans_le (Nat.not_lt.mp hi)
  | write kind position element =>
    -- to store at the cursor is to store under the position
    have hput : h.change b (.write kind position element) =
        ((b.viewAt kind position).put h.store position element).toOption := by
      have hposition : (b.viewAt kind position).position = position := rfl
      rw [Heap.change, View.write_eq_map, hposition]
      cases (b.viewAt kind position).put h.store position element <;> rfl
    rw [hput, BufferChange.bytes?, length_contents]
    refine rel_of_put rfl (rewrites_put hb h position · element) fun hi => ⟨_, View.put_eq_error ?_ _ _⟩
    exact (hcapacity kind position).trans_le (Nat.not_lt.mp hi)
  | putUnit index unit =>
    rw [BufferChange.bytes?, length_contents]
    refine rel_of_put rfl (rewrites_putUnit hb h 0 · unit) fun hi => ?_
    rcases hput : (b.view .byte).putUnit h.store index unit with e | stored
    · exact ⟨e, rfl⟩
    · have hinside := View.exists_putUnit_iff.mp ⟨stored, hput⟩
      rw [show (b.view .byte).capacity.toNat = b.length.toNat from
        (hcapacity .byte 0).trans (Nat.div_one _)] at hinside
      exact absurd hinside hi

end Heap

/-! ### All buffers -/

namespace Shelf

variable {s t : Shelf} {b : Buffer} {i : Nat} {heap : Heap}

/-- Buffers lie in blocks of their own. -/
def Placed (s : Shelf) : Prop := s.heap.WellPlaced s.buffers

/-- A shelf becomes another by a call that leaves these bytes in the buffers. -/
structure Becomes (s s' : Shelf) (held : List (List UInt8)) : Prop where
  /-- Buffers still lie in blocks of their own. -/
  placed : s'.Placed
  /-- The bytes of all buffers, the new ones among them. -/
  contents_eq : s'.contents = held
  /-- Each buffer that was there is still there, and in its place. -/
  kept : ∀ {i : Nat} {b : Buffer}, s.buffers[i]? = some b →
    ∃ later, s'.buffers[i]? = some later ∧ later.ShrunkFrom b

/-- Each buffer has its bytes. -/
@[simp] theorem length_contents (s : Shelf) : s.contents.length = s.buffers.length := List.length_map ..

theorem getElem?_contents (s : Shelf) (i : Nat) : s.contents[i]? = s.buffers[i]?.map s.heap.contents :=
  List.getElem?_map ..

/-- A new buffer comes behind the others. -/
theorem Placed.of_makes (hs : s.Placed) {bytes : List UInt8} (hmade : s.heap.Makes bytes b heap) :
    s.Becomes ⟨heap, s.buffers ++ [b]⟩ (s.contents ++ [bytes]) := by
  refine ⟨?_, ?_, fun {i c} hc => ⟨c, ?_, .refl c⟩⟩
  · exact (hs.cons hmade.toGives).perm (List.perm_append_singleton ..)
  · rw [contents, List.map_append, List.map_singleton, hmade.contents_eq]
    refine congrArg (· ++ [bytes]) (List.map_congr_left fun c hc => ?_)
    exact hs.contents_eq_of_makes hc hmade
  · rw [List.getElem?_append_left (List.getElem?_eq_some_iff.mp hc).1, hc]

/-- Buffers of different numbers share no byte. -/
theorem Placed.disjoint (hs : s.Placed) {c : Buffer} {j : Nat} (hb : s.buffers[i]? = some b)
    (hc : s.buffers[j]? = some c) (hij : i ≠ j) : Disjoint b.extent c.extent := by
  obtain ⟨hi, rfl⟩ := List.getElem?_eq_some_iff.mp hb
  obtain ⟨hj, rfl⟩ := List.getElem?_eq_some_iff.mp hc
  have hapart := List.pairwise_iff_getElem.mp hs.disjoint_extent
  rcases Nat.lt_or_gt_of_ne hij with hlt | hgt
  · exact hapart i j hi hj hlt
  · exact (hapart j i hj hi hgt).symm

/-- What is done to a buffer leaves the others as they are. -/
theorem Placed.of_changes (hs : s.Placed) (hb : s.buffers[i]? = some b) {how : BufferChange} {store : Store}
    {bytes : List UInt8} (hchanged : s.heap.Changes b how store bytes) :
    s.Becomes ⟨{ s.heap with store }, s.buffers.set i (how.leaves b)⟩ (s.contents.set i bytes) := by
  obtain ⟨hlt, hget⟩ := List.getElem?_eq_some_iff.mp hb
  have hshrunk := how.shrunkFrom_leaves b
  constructor
  case placed =>
    have hblocks : (s.buffers.set i (how.leaves b)).map Buffer.block = s.buffers.map Buffer.block := by
      have hsame : s.buffers.set i b = s.buffers := by rw [← hget, List.set_getElem_self]
      rw [List.map_set, hshrunk.block_eq, ← List.map_set, hsame]
    refine ⟨hs.tidy.of_blocks_eq rfl rfl, hblocks ▸ hs.blocks, fun c hc => ?_⟩
    rcases List.mem_or_eq_of_mem_set hc with hold | rfl
    · exact hs.length_le c hold
    · rw [hshrunk.allocated_eq]
      exact UInt64.le_trans (UInt64.le_iff_toNat_le.mpr hshrunk.length_le)
        (hs.length_le b (List.mem_of_getElem? hb))
  case contents_eq =>
    refine List.ext_getElem? fun j => ?_
    by_cases hij : i = j
    · subst hij
      rw [getElem?_contents, List.getElem?_set_self hlt,
        List.getElem?_set_self (by rwa [length_contents]), ← hchanged.contents_eq]
      rfl
    · -- any other buffer lies apart from this one
      rw [getElem?_contents, List.getElem?_set_ne hij, List.getElem?_set_ne hij, getElem?_contents]
      refine Option.map_congr fun c hc => ?_
      exact Heap.contents_eq_of_disjoint (hs.fits (List.mem_of_getElem? hc)) hchanged.changesOnly
        (hs.disjoint hc hb (Ne.symm hij))
  case kept =>
    intro j c hc
    by_cases hij : i = j
    · subst hij
      obtain rfl := Option.some.inj (hc.symm.trans hb)
      exact ⟨_, List.getElem?_set_self hlt, hshrunk⟩
    · exact ⟨c, by rw [List.getElem?_set_ne hij, hc], .refl c⟩

/-- What a buffer is made of is known where others hold it, and then only storage has to be granted. -/
theorem made?_of_bytes? {source : BufferSource} {grants : Nat → Bool} {held : List (List UInt8)}
    {bytes : List UInt8} (h : source.bytes? held = some bytes) :
    source.made? grants held = if grants bytes.length then some bytes else none := by
  rw [BufferSource.made?, h]
  rfl

/-- A copy is to have the bytes of its original. -/
theorem bytes?_clone (hb : s.buffers[i]? = some b) :
    (BufferSource.clone i).bytes? s.contents = some (s.heap.contents b) := by
  rw [BufferSource.bytes?, getElem?_contents, hb, Option.map_some]

/-- A buffer that is made from another is to have the first bytes of it. -/
theorem bytes?_grow (hb : s.buffers[i]? = some b) (size keep : UInt64) :
    (BufferSource.grow i size keep).bytes? s.contents =
      some (grown (s.heap.contents b) size.toNat keep.toNat) := by
  rw [BufferSource.bytes?, getElem?_contents, hb, Option.map_some, Option.map_some]

/-- A buffer is made by the operation for it. -/
theorem make_of_making? {source : BufferSource} {size : UInt64} {x : Access Heap Buffer}
    (h : s.making? source = some (size, x)) : s.make source = (x.result s.heap).toOption := by
  rw [make, h]
  rfl

/-- A buffer is made in memory just if there are bytes for it, and storage for so many is granted. -/
theorem Placed.rel_make (hs : s.Placed) (source : BufferSource) :
    Option.Rel (fun made bytes => s.heap.Makes bytes made.1 made.2) (s.make source)
      (source.made? s.heap.grants s.contents) := by
  cases source with
  | zeros size =>
    rw [make_of_making? rfl, made?_of_bytes? rfl]
    exact (Heap.makesIfGranted_allocate hs.tidy.documented size).rel
  | ofBytes bytes =>
    rw [make_of_making? rfl, made?_of_bytes? rfl]
    exact (Heap.makesIfGranted_ofBytes hs.tidy.documented bytes).rel
  | clone source =>
    rcases hb : s.buffers[source]? with _ | b
    · rw [make, making?, BufferSource.made?, BufferSource.bytes?, getElem?_contents, hb]
      exact .none
    · have hmaking : s.making? (.clone source) = some (b.length, Access.clone b) := by
        rw [making?, hb, Option.map_some]
      rw [make_of_making? hmaking, made?_of_bytes? (bytes?_clone hb)]
      exact (hs.makesIfGranted_clone (List.mem_of_getElem? hb)).rel
  | grow source size keep =>
    rcases hb : s.buffers[source]? with _ | b
    · rw [make, making?, BufferSource.made?, BufferSource.bytes?, getElem?_contents, hb]
      exact .none
    · have hmaking : s.making? (.grow source size keep) = some (size, Access.grow b size keep) := by
        rw [making?, hb, Option.map_some]
      rw [make_of_making? hmaking, made?_of_bytes? (bytes?_grow hb size keep)]
      exact (hs.makesIfGranted_grow (List.mem_of_getElem? hb) size keep).rel

/-- A call does in memory what it does with lists of bytes. It is refused in the same cases. -/
theorem Placed.rel_perform (hs : s.Placed) (call : BufferCall) :
    Option.Rel s.Becomes (s.perform call) (call.bytes? s.heap.grants s.contents) := by
  cases call with
  | make source =>
    have hrel := hs.rel_make source
    rw [perform, BufferCall.bytes?]
    generalize s.make source = made, source.made? s.heap.grants s.contents = bytes at hrel ⊢
    cases hrel with
    | none => exact .none
    | some hmade => exact .some (hs.of_makes hmade)
  | change target how =>
    rw [perform, BufferCall.bytes?, getElem?_contents]
    rcases hb : s.buffers[target]? with _ | b
    · exact .none
    · have hrel := Heap.rel_change (hs.fits (List.mem_of_getElem? hb)) s.heap how
      change Option.Rel s.Becomes (do
        let store ← s.heap.change b how
        return ⟨{ s.heap with store }, s.buffers.set target (how.leaves b)⟩) (do
        return s.contents.set target (← how.bytes? (s.heap.contents b)))
      generalize s.heap.change b how = changed, how.bytes? (s.heap.contents b) = bytes at hrel ⊢
      cases hrel with
      | none => exact .none
      | some hchanged => exact .some (hs.of_changes hb hchanged)

/-- The operation that makes a buffer asks for as many bytes as the buffer is to have. -/
theorem setsAside_of_making? {source : BufferSource} {size : UInt64} {x : Access Heap Buffer}
    (h : s.making? source = some (size, x)) : Access.SetsAside size x := by
  cases source with
  | zeros size =>
    cases h
    exact Access.setsAside_allocate size
  | ofBytes bytes =>
    cases h
    exact Access.setsAside_ofBytes bytes
  | clone source =>
    obtain ⟨b, -, hx⟩ := Option.map_eq_some_iff.mp h
    cases hx
    exact Access.setsAside_clone b
  | grow source size keep =>
    obtain ⟨b, -, hx⟩ := Option.map_eq_some_iff.mp h
    cases hx
    exact Access.setsAside_grow b size keep

/-- What becomes of a shelf when a buffer is to be made. -/
theorem step_make {source : BufferSource} {size : UInt64} {x : Access Heap Buffer}
    (h : s.making? source = some (size, x)) :
    s.step (.make source) =
      match x.run.run s.heap with
      | (.ok b, heap) => ⟨heap, s.buffers ++ [b]⟩
      | (.error _, heap) => { s with heap } := by
  rw [step, perform, make_of_making? h, refuse, h]
  change (((x.result s.heap).toOption.bind fun made => some (⟨made.2, s.buffers ++ [made.1]⟩ : Shelf)).getD
    { s with heap := (x.run.run s.heap).2 }) = _
  rw [Stateful.result]
  rcases x.run.run s.heap with ⟨_ | _, _⟩ <;> rfl

/-- Where there is no buffer to make one from, nothing is asked. -/
theorem step_of_making?_eq_none {source : BufferSource} (h : s.making? source = none) :
    s.step (.make source) = s := by
  rw [step, perform, make, refuse, h]
  rfl

/-- What is done to a buffer is done to memory and to that buffer. -/
theorem exists_of_perform_change {target : Nat} {how : BufferChange} {after : Shelf}
    (h : s.perform (.change target how) = some after) :
    ∃ b store, s.buffers[target]? = some b ∧
      after = ⟨{ s.heap with store }, s.buffers.set target (how.leaves b)⟩ := by
  obtain ⟨b, hb, hchange⟩ := Option.bind_eq_some_iff.mp h
  obtain ⟨store, -, hafter⟩ := Option.bind_eq_some_iff.mp hchange
  exact ⟨b, store, hb, (Option.some.inj hafter).symm⟩

/-- A call that is refused has done nothing but to ask for storage. -/
theorem same_refuse {call : BufferCall} (h : s.perform call = none) :
    s.heap.Same (s.refuse call).heap ∧ (s.refuse call).buffers = s.buffers := by
  cases call with
  | change target how => exact ⟨.refl _, rfl⟩
  | make source =>
    rw [refuse]
    rcases hmaking : s.making? source with _ | ⟨size, x⟩
    · exact ⟨.refl _, rfl⟩
    · refine ⟨?_, rfl⟩
      dsimp only
      rcases hrun : x.run.run s.heap with ⟨e | b, left⟩
      · exact (setsAside_of_making? hmaking).same hrun
      · -- a buffer that was made is there, and the call was not refused
        have hmade : s.perform (.make source) = some ⟨left, s.buffers ++ [b]⟩ := by
          rw [perform, make_of_making? hmaking, Stateful.result, hrun]
          rfl
        cases h.symm.trans hmade

/-- A request that is refused leaves the buffers, and their bytes. -/
theorem Placed.of_same (hs : s.Placed) (h : s.heap.Same heap) :
    s.Becomes { s with heap } s.contents where
  placed := hs.of_blocks_eq h.blocks_eq h.allocator_eq
  contents_eq := by
    refine List.map_congr_left fun b _ => ?_
    rw [Heap.contents, Heap.contents, h.store_eq]
  kept {_ b} hb := ⟨b, hb, .refl b⟩

/-- What a call leaves, whether it is carried out or refused. -/
theorem Placed.becomes_step (hs : s.Placed) (call : BufferCall) :
    s.Becomes (s.step call) ((call.bytes? s.heap.grants s.contents).getD s.contents) := by
  have hrel := hs.rel_perform call
  rw [step]
  rcases hperform : s.perform call with _ | after
  · obtain ⟨hsame, hbuffers⟩ := same_refuse hperform
    have hrefuse : s.refuse call = { s with heap := (s.refuse call).heap } := by rw [← hbuffers]
    rw [hperform] at hrel
    generalize call.bytes? s.heap.grants s.contents = held at hrel ⊢
    cases hrel
    rw [Option.getD_none, Option.getD_none, hrefuse]
    exact hs.of_same hsame
  · rw [hperform] at hrel
    generalize call.bytes? s.heap.grants s.contents = held at hrel ⊢
    cases hrel with
    | some hbecomes => exact hbecomes

/-! ## Many calls -/

/-- Buffers lie in blocks of their own after any calls. -/
theorem Placed.run (hs : s.Placed) (calls : List BufferCall) : (s.run calls).Placed := by
  induction calls generalizing s with
  | nil => exact hs
  | cons call calls ih => exact ih (hs.becomes_step call).placed

/-- A buffer as it is after a call. -/
theorem Placed.exists_step (hs : s.Placed) (hb : s.buffers[i]? = some b) (call : BufferCall) :
    ∃ later, (s.step call).buffers[i]? = some later ∧ later.ShrunkFrom b ∧
      ((∀ how, call ≠ .change i how) → (s.step call).heap.contents later = s.heap.contents b) := by
  have hstep := hs.becomes_step call
  obtain ⟨later, hlater, hshrunk⟩ := hstep.kept hb
  refine ⟨later, hlater, hshrunk, fun hother => ?_⟩
  -- what becomes of the bytes is told by lists
  have hheld : s.contents[i]? = some (s.heap.contents b) := by rw [getElem?_contents, hb, Option.map_some]
  have hafter : (s.step call).contents[i]? = some (s.heap.contents b) := by
    rw [hstep.contents_eq]
    rcases hcall : call.bytes? s.heap.grants s.contents with _ | held
    · exact hheld
    · obtain ⟨bytes, hbytes, -, hsame⟩ := BufferCall.exists_getElem? hcall hheld
      rwa [hsame hother] at hbytes
  rw [getElem?_contents, hlater, Option.map_some] at hafter
  exact Option.some.inj hafter

/-- A buffer as it is after any calls. -/
theorem Placed.exists_run (hs : s.Placed) (hb : s.buffers[i]? = some b) (calls : List BufferCall) :
    ∃ later, (s.run calls).buffers[i]? = some later ∧ later.ShrunkFrom b ∧
      ((∀ how, .change i how ∉ calls) → (s.run calls).heap.contents later = s.heap.contents b) := by
  induction calls generalizing s b with
  | nil => exact ⟨b, hb, .refl b, fun _ => rfl⟩
  | cons call calls ih =>
    obtain ⟨next, hnext, hshrunk, hsame⟩ := hs.exists_step hb call
    obtain ⟨later, hlater, hmore, hafter⟩ := ih (hs.becomes_step call).placed hnext
    refine ⟨later, hlater, hmore.trans hshrunk, fun hother => ?_⟩
    have hcalls : ∀ how, .change i how ∉ calls := fun how hmem => hother how (List.mem_cons_of_mem _ hmem)
    have hcall : ∀ how, call ≠ .change i how := fun how heq => hother how (heq ▸ List.mem_cons_self)
    exact (hafter hcalls).trans (hsame hcall)

/-! ### Memory that no buffer has -/

/-- Shelves have the same buffers, with the same bytes, and storage will be set aside in the same places.
Nothing is said of the other bytes of memory. -/
structure Agrees (s t : Shelf) : Prop where
  /-- The same allocator is asked for storage. -/
  allocator_eq : t.heap.allocator = s.heap.allocator
  /-- It was asked as often. -/
  requests_eq : t.heap.requests = s.heap.requests
  /-- The same blocks are set aside. -/
  blocks_eq : t.heap.blocks = s.heap.blocks
  /-- The buffers are the same. -/
  buffers_eq : t.buffers = s.buffers
  /-- So are their bytes. -/
  contents_eq : t.contents = s.contents

namespace Agrees

/-- Where buffers lie has nothing to do with the bytes of memory. -/
theorem placed (h : s.Agrees t) (hs : s.Placed) : t.Placed := by
  rw [Placed, h.buffers_eq]
  exact hs.of_blocks_eq h.blocks_eq h.allocator_eq

/-- A block is set aside in the same place, or in none. -/
theorem place?_eq (h : s.Agrees t) (size : UInt64) : t.heap.place? size = s.heap.place? size := by
  rw [Heap.place?, Heap.place?, h.allocator_eq, h.requests_eq, h.blocks_eq]

/-- The same sizes are granted. -/
theorem grants_eq (h : s.Agrees t) : t.heap.grants = s.heap.grants :=
  funext fun length => congrArg Option.isSome (h.place?_eq (UInt64.ofNatClamp length))

/-- The same is made, of the same size. -/
theorem making?_eq (h : s.Agrees t) (source : BufferSource) : t.making? source = s.making? source := by
  cases source <;> simp only [making?, h.buffers_eq]

/-- The same bytes are there after a call. -/
theorem contents_step (h : s.Agrees t) (hs : s.Placed) (call : BufferCall) :
    (t.step call).contents = (s.step call).contents := by
  rw [((h.placed hs).becomes_step call).contents_eq, (hs.becomes_step call).contents_eq, h.grants_eq,
    h.contents_eq]

/-- Shelves that agree make a buffer in the same place, or none. -/
theorem step_make (h : s.Agrees t) (hs : s.Placed) (source : BufferSource) :
    (s.step (.make source)).Agrees (t.step (.make source)) := by
  have hcontents := h.contents_step hs (.make source)
  rcases hmaking : s.making? source with _ | ⟨size, x⟩
  · have hother : t.making? source = none := (h.making?_eq source).trans hmaking
    rwa [step_of_making?_eq_none hmaking, step_of_making?_eq_none hother]
  · have hother : t.making? source = some (size, x) := (h.making?_eq source).trans hmaking
    have hx := setsAside_of_making? hmaking
    rw [Shelf.step_make hmaking, Shelf.step_make hother] at hcontents ⊢
    rcases hplace : s.heap.place? size with _ | a
    · -- a refusal is counted on both shelves, unless the request was not even passed on
      rw [hx.refused hplace, hx.refused ((h.place?_eq size).trans hplace)] at hcontents ⊢
      refine ⟨?_, ?_, ?_, h.buffers_eq, hcontents⟩
      · rw [(Heap.same_refuse ..).allocator_eq, (Heap.same_refuse ..).allocator_eq, h.allocator_eq]
      · dsimp only
        rw [Heap.refuse, Heap.refuse]
        split
        · exact h.requests_eq
        · exact congrArg (· + 1) h.requests_eq
      · rw [(Heap.same_refuse ..).blocks_eq, (Heap.same_refuse ..).blocks_eq, h.blocks_eq]
    · obtain ⟨left, hrun, hnew⟩ := hx.granted hplace
      obtain ⟨right, hrunt, hnewt⟩ := hx.granted ((h.place?_eq size).trans hplace)
      rw [hrun, hrunt] at hcontents ⊢
      refine ⟨?_, ?_, ?_, ?_, hcontents⟩
      · rw [hnewt.allocator_eq, hnew.allocator_eq, h.allocator_eq]
      · rw [hnewt.requests_eq, hnew.requests_eq, h.requests_eq]
      · rw [hnewt.blocks_eq, hnew.blocks_eq, h.blocks_eq]
      · rw [h.buffers_eq]

/-- Something is done to a buffer on both of them, or on neither. -/
theorem step_change (h : s.Agrees t) (hs : s.Placed) (target : Nat) (how : BufferChange) :
    (s.step (.change target how)).Agrees (t.step (.change target how)) := by
  have hcontents := h.contents_step hs (.change target how)
  have hrel := hs.rel_perform (.change target how)
  have hrelt := (h.placed hs).rel_perform (.change target how)
  rw [h.grants_eq, h.contents_eq] at hrelt
  rw [step, step] at hcontents ⊢
  generalize BufferCall.bytes? s.heap.grants s.contents (.change target how) = held at hrel hrelt
  rcases hperform : s.perform (.change target how) with _ | after <;>
    rcases hperformt : t.perform (.change target how) with _ | aftert <;>
    rw [hperform] at hrel hcontents <;> rw [hperformt] at hrelt hcontents
  · exact h
  · cases hrel
    cases hrelt
  · cases hrel
    cases hrelt
  · obtain ⟨b, store, hb, rfl⟩ := exists_of_perform_change hperform
    obtain ⟨c, storet, hc, rfl⟩ := exists_of_perform_change hperformt
    rw [h.buffers_eq] at hc
    obtain rfl := Option.some.inj (hb.symm.trans hc)
    exact ⟨h.allocator_eq, h.requests_eq, h.blocks_eq, congrArg (·.set target (how.leaves b)) h.buffers_eq,
      hcontents⟩

/-- Bytes that no buffer has make no difference to a call. -/
theorem step (h : s.Agrees t) (hs : s.Placed) (call : BufferCall) : (s.step call).Agrees (t.step call) := by
  cases call with
  | make source => exact h.step_make hs source
  | change target how => exact h.step_change hs target how

/-- Bytes that no buffer has make no difference to any calls. -/
theorem run (h : s.Agrees t) (hs : s.Placed) (calls : List BufferCall) :
    (s.run calls).Agrees (t.run calls) := by
  induction calls generalizing s t with
  | nil => exact h
  | cons call calls ih => exact ih (h.step hs call) (hs.becomes_step call).placed

end Agrees

/-! ## What a caller may rely on -/

/-- Buffers are as they should be, and will be. Storage may be refused at any time, and nothing is said of
when that happens: `Heap.grants` tells whether a buffer of some size can be had. -/
structure Sound (s : Shelf) : Prop where
  /-- No buffer has more bytes than were set aside for it. -/
  length_le : ∀ b ∈ s.buffers, b.length ≤ b.allocated
  /-- Each buffer has storage that is set aside for it, and no byte of that is another's. -/
  storage : (∀ b ∈ s.buffers, b.block ∈ s.heap.blocks) ∧
    s.buffers.Pairwise fun b c => Disjoint b.block.extent c.block.extent
  /-- A call does to the bytes of buffers what it does to lists, and nothing else matters. -/
  perform : ∀ call, (s.perform call).map contents = call.bytes? s.heap.grants s.contents
  /-- A call that is refused leaves all buffers and their bytes. -/
  refused : ∀ call, s.perform call = none →
    (s.step call).buffers = s.buffers ∧ (s.step call).contents = s.contents
  /-- After any calls a buffer has the storage that it had, and has not become longer. -/
  shrunk : ∀ (i : Nat) (b : Buffer), s.buffers[i]? = some b → ∀ calls,
    ∃ later, (s.run calls).buffers[i]? = some later ∧ later.ShrunkFrom b
  /-- A buffer that is cut keeps the bytes in front. -/
  truncate : ∀ (i : Nat) (b : Buffer), s.buffers[i]? = some b → ∀ length,
    ∃ after, s.perform (.change i (.truncate length)) = some after ∧
      after.buffers = s.buffers.set i { b with length := min b.length length } ∧
      after.contents = s.contents.set i ((s.heap.contents b).take length.toNat)
  /-- A copy has the bytes of its original, which keeps them. -/
  clone : ∀ (i : Nat) (b : Buffer), s.buffers[i]? = some b → s.heap.grants b.length.toNat = true →
    ∃ after copy, s.perform (.make (.clone i)) = some after ∧ after.buffers = s.buffers ++ [copy] ∧
      copy.length = b.length ∧ after.heap.contents copy = s.heap.contents b ∧
      after.heap.contents b = s.heap.contents b
  /-- The bytes of a buffer stay as long as there is no call to change that one, whatever is done to its
  copies or to its original. -/
  unchanged : ∀ (i : Nat) (b : Buffer), s.buffers[i]? = some b → ∀ calls,
    (∀ how, .change i how ∉ calls) → ∃ later, (s.run calls).buffers[i]? = some later ∧
      (s.run calls).heap.contents later = s.heap.contents b
  /-- A buffer of a size that is made from another has the first bytes of it and is zero behind them. -/
  grow : ∀ (i : Nat) (b : Buffer), s.buffers[i]? = some b → ∀ size keep : UInt64,
    s.heap.grants size.toNat = true → let kept := min (min keep.toNat b.length.toNat) size.toNat
    ∃ after next, s.perform (.make (.grow i size keep)) = some after ∧
      after.buffers = s.buffers ++ [next] ∧ next.length = size ∧
      after.heap.contents next = (s.heap.contents b).take kept ++ List.replicate (size.toNat - kept) 0
  /-- Whatever the bytes of memory are that no buffer has, those that were cut off among them, there are the
  same buffers with the same bytes after any calls. -/
  hidden : ∀ t, s.Agrees t → ∀ calls, (s.run calls).Agrees (t.run calls)
  /-- A view has as many elements as fit in a buffer, and shows its bytes only. -/
  view : ∀ b ∈ s.buffers, ∀ kind position,
    (b.view kind).capacity.toNat = b.length.toNat / kind.size ∧
    (b.viewAt kind position).Sees s.heap.store (s.heap.contents b) ∧
    (b.viewAt .byte position).SeesBytes s.heap.store (s.heap.contents b)

/-- Where there are bytes for a new buffer, and storage is granted, it comes behind the others. -/
theorem Placed.exists_perform_make (hs : s.Placed) {source : BufferSource} {bytes : List UInt8}
    (hbytes : source.bytes? s.contents = some bytes) (hgrants : s.heap.grants bytes.length = true) :
    ∃ after made, s.perform (.make source) = some after ∧ after.buffers = s.buffers ++ [made] ∧
      s.heap.Makes bytes made after.heap := by
  have hrel := hs.rel_make source
  rw [made?_of_bytes? hbytes, if_pos hgrants] at hrel
  rw [perform]
  generalize s.make source = made at hrel ⊢
  cases hrel with
  | some hnew => exact ⟨_, _, rfl, rfl, hnew⟩

/-- It is enough for buffers to lie in blocks of their own. -/
theorem Placed.sound (hs : s.Placed) : s.Sound where
  length_le := hs.length_le
  storage := ⟨fun _ hb => (hs.exists_block hb).1, hs.disjoint_block⟩
  perform call := by
    have hrel := hs.rel_perform call
    generalize s.perform call = after, call.bytes? s.heap.grants s.contents = held at hrel ⊢
    cases hrel with
    | none => rfl
    | some hbecomes => exact congrArg some hbecomes.contents_eq
  refused call hrefused := by
    obtain ⟨hsame, hbuffers⟩ := same_refuse hrefused
    have hstep : s.step call = { s with heap := (s.refuse call).heap } := by
      rw [step, hrefused, Option.getD_none, ← hbuffers]
    rw [hstep]
    exact ⟨rfl, (hs.of_same hsame).contents_eq⟩
  shrunk i b hb calls := by
    obtain ⟨later, hlater, hshrunk, -⟩ := hs.exists_run hb calls
    exact ⟨later, hlater, hshrunk⟩
  truncate i b hb length := by
    have hchanged : s.heap.Changes b (.truncate length) s.heap.store
        ((s.heap.contents b).take length.toNat) :=
      ⟨fun _ _ => rfl, s.heap.contents_truncate b length⟩
    refine ⟨_, ?_, rfl, (hs.of_changes hb hchanged).contents_eq⟩
    rw [Shelf.perform, hb]
    rfl
  clone i b hb hgrants := by
    obtain ⟨after, copy, hafter, hbuffers, hmade⟩ :=
      hs.exists_perform_make (bytes?_clone hb) (by rwa [Heap.length_contents])
    refine ⟨after, copy, hafter, hbuffers, ?_, hmade.contents_eq, ?_⟩
    · exact UInt64.toNat_inj.mp (hmade.length_eq.trans (s.heap.length_contents b))
    · exact hs.contents_eq_of_makes (List.mem_of_getElem? hb) hmade
  unchanged i b hb calls hother := by
    obtain ⟨later, hlater, -, hsame⟩ := hs.exists_run hb calls
    exact ⟨later, hlater, hsame hother⟩
  grow i b hb size keep hgrants := by
    obtain ⟨after, next, hafter, hbuffers, hmade⟩ :=
      hs.exists_perform_make (bytes?_grow hb size keep) (by rwa [length_grown])
    refine ⟨after, next, hafter, hbuffers, ?_, ?_⟩
    · exact UInt64.toNat_inj.mp (hmade.length_eq.trans (length_grown ..))
    · rw [hmade.contents_eq, grown, Heap.length_contents]
  hidden t ht calls := ht.run hs calls
  view b _ kind position :=
    ⟨Heap.toNat_capacity_viewAt b kind 0, Heap.sees_viewAt .., Heap.seesBytes_viewAt ..⟩

-- Two of four bytes are cut off, and then there is room for four again.
example :
    ((empty { store := ⟨fun _ => 0xAA⟩ }).run [.make (.ofBytes [1, 2, 3, 4]), .change 0 (.truncate 2),
      .make (.grow 0 4 4)]).contents = [[1, 2], [1, 2, 0, 0]] := by
  decide +kernel

end Shelf

end RawMemory
