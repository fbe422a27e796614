import RawMemory.Allocator
import RawMemory.View

/-!
# Owned buffers

A heap is a store together with the blocks of it that are set aside. Each buffer has a block, which an
allocator has found for it and which starts out zeroed. A buffer may be cut short afterwards, and the bytes
cut off stay in its block but belong to it no longer. When the buffer is let go its block is given back.
-/

namespace RawMemory

/-- A piece of memory that this library owns. -/
structure Buffer where
  /-- The address of the first byte. -/
  address : Address
  /-- How many bytes it has. -/
  length : UInt64
  /-- How many bytes it had at first. -/
  allocated : UInt64
deriving DecidableEq

/-- Memory with the storage that is set aside in it. -/
structure Heap where
  /-- The bytes of all of memory. -/
  store : Store := .zero
  /-- Who is asked for storage. -/
  allocator : Allocator := .slots
  /-- How many times storage was asked for. -/
  requests : Nat := 0
  /-- The blocks that are set aside, the newest first. -/
  blocks : List Block := []

namespace Buffer

/-- The bytes of storage that a buffer of some length is set aside with. A block has at least one byte, so
that an empty buffer has an address of its own. -/
def storageSize (length : UInt64) : UInt64 := max length 1

/-- The storage of the buffer. -/
def block (b : Buffer) : Block := ⟨b.address, storageSize b.allocated⟩

/-- Cut the buffer to at most `length` bytes. -/
def truncate (b : Buffer) (length : UInt64) : Buffer := { b with length := min b.length length }

/-- The buffer as a view of as many whole elements as fit. -/
def view (b : Buffer) (kind : ElementKind) : View kind where
  address := b.address
  capacity := b.length / UInt64.ofNat kind.size
  origin := .owned

/-- The buffer in words. -/
def describe (b : Buffer) : String :=
  "OwnedBuffer \x7b address: Address(" ++ toString b.address.val.toNat ++ "), len: " ++
    toString b.length.toNat ++ " \x7d"

end Buffer

namespace Heap

/-- The boundary that storage begins at, a multiple of so many bytes. -/
def alignment : UInt64 := 16

/-- The bytes of the largest block that can be asked for: rounded up to the boundary it must be no larger than
an object may be. -/
def largestBlock : UInt64 := Word.maxSize - (alignment - 1)

/-- The bytes of a buffer. -/
def contents (h : Heap) (b : Buffer) : List UInt8 := h.store.read b.address b.length.toNat

/-- Store the same byte everywhere in a buffer. -/
def fill (h : Heap) (b : Buffer) (byte : UInt8) : Heap :=
  { h with store := h.store.fill b.address byte b.length }

/-- Memory after one more request for storage. -/
def asked (h : Heap) : Heap := { h with requests := h.requests + 1 }

/-- Memory with a zeroed block set aside. -/
def setAside (h : Heap) (block : Block) : Heap where
  store := h.allocator.zero h.store block.address block.size
  allocator := h.allocator
  requests := h.requests
  blocks := block :: h.blocks

/-- Give back the storage of a buffer. -/
def free (h : Heap) (b : Buffer) : Heap := { h with blocks := h.blocks.erase b.block }

end Heap

/-! ### Making buffers -/

namespace Access

/-- Set aside a zeroed buffer. -/
def allocate (size : UInt64) : Access Heap Buffer := do
  let bytes := Buffer.storageSize size
  if Heap.largestBlock < bytes then throw (.allocationFailed size)
  let h ← get
  modify Heap.asked
  match h.allocator.place? h.requests h.blocks bytes with
  | none => throw (.allocationFailed size)
  | some address =>
    modify fun h => h.setAside ⟨address, bytes⟩
    return ⟨address, size, size⟩

/-- Let a buffer go, and give back its storage. -/
def letGo (b : Buffer) : Access Heap Unit := modify fun h => h.free b

/-- Set aside a buffer and store something in memory then. -/
def allocateWith (size : UInt64) (store : Buffer → Store → Store) : Access Heap Buffer := do
  let b ← allocate size
  modify fun h => { h with store := store b h.store }
  return b

/-- Set aside a buffer that holds the given bytes. -/
def ofBytes (bytes : List UInt8) : Access Heap Buffer :=
  allocateWith (UInt64.ofNatClamp bytes.length) fun b m => m.write b.address bytes.toArray

/-- Set aside a copy of a buffer. -/
def clone (b : Buffer) : Access Heap Buffer :=
  allocateWith b.length fun copy m => m.copy b.address copy.address b.length

/-- Set aside a buffer of another size that starts with the first `keep` bytes of a buffer, as far as both of
them have so many. -/
def grow (b : Buffer) (size keep : UInt64) : Access Heap Buffer :=
  -- neither buffer may be left on the way
  allocateWith size fun next m => m.copy b.address next.address (min (min keep b.length) size)

end Access

namespace Heap

/-- A zeroed buffer, and memory with it. -/
def allocate (h : Heap) (size : UInt64) : Except MemoryError (Buffer × Heap) :=
  (Access.allocate size).result h

/-- A buffer that holds the given bytes, and memory with it. -/
def ofBytes (h : Heap) (bytes : List UInt8) : Except MemoryError (Buffer × Heap) :=
  (Access.ofBytes bytes).result h

/-- A copy of a buffer, and memory with it. -/
def clone (h : Heap) (b : Buffer) : Except MemoryError (Buffer × Heap) := (Access.clone b).result h

/-- A buffer of another size that starts with the first bytes of a buffer, and memory with it. -/
def grow (h : Heap) (b : Buffer) (size keep : UInt64) : Except MemoryError (Buffer × Heap) :=
  (Access.grow b size keep).result h

/-- Where storage for a buffer of some length is set aside now, unless the request is refused. -/
def place? (h : Heap) (length : UInt64) : Option Address :=
  if largestBlock < Buffer.storageSize length then none
  else h.allocator.place? h.requests h.blocks (Buffer.storageSize length)

/-- What a request for a buffer comes to, and memory after it. A request that is too large is refused without
being passed on. -/
theorem run_allocate (h : Heap) (size : UInt64) :
    (Access.allocate size).run.run h =
      match h.place? size with
      | some address =>
        (.ok ⟨address, size, size⟩, h.asked.setAside ⟨address, Buffer.storageSize size⟩)
      | none => (.error (.allocationFailed size),
          if largestBlock < Buffer.storageSize size then h else h.asked) := by
  rw [place?, Access.allocate]
  dsimp only
  split
  · rfl
  · change (match h.allocator.place? h.requests h.blocks (Buffer.storageSize size) with
      | none => (throw (MemoryError.allocationFailed size) : Access Heap Buffer)
      | some address => do
        modify fun h : Heap => h.setAside ⟨address, Buffer.storageSize size⟩
        return ⟨address, size, size⟩).run.run h.asked = _
    cases h.allocator.place? h.requests h.blocks (Buffer.storageSize size) <;> rfl

/-- Whether a buffer of some length can be had now. -/
def grants (h : Heap) (length : Nat) : Bool := (h.place? (UInt64.ofNatClamp length)).isSome

/-- What is stored in a new buffer is stored once it is set aside. -/
theorem run_allocateWith (h : Heap) (size : UInt64) (store : Buffer → Store → Store) :
    (Access.allocateWith size store).run.run h =
      match (Access.allocate size).run.run h with
      | (.ok b, zeroed) => (.ok b, { zeroed with store := store b zeroed.store })
      | (.error e, left) => (.error e, left) := by
  rw [Access.allocateWith, Stateful.run_bind]
  rcases (Access.allocate size).run.run h with ⟨_ | _, _⟩ <;> rfl

theorem allocate_eq (h : Heap) (size : UInt64) :
    h.allocate size =
      match h.place? size with
      | some address =>
        .ok (⟨address, size, size⟩, h.asked.setAside ⟨address, Buffer.storageSize size⟩)
      | none => .error (.allocationFailed size) := by
  rw [allocate, Stateful.result, run_allocate]
  cases h.place? size <;> rfl

/-- A new buffer, and memory in which something was stored after the buffer had been set aside. -/
def storing (store : Buffer → Store → Store) (made : Buffer × Heap) : Buffer × Heap :=
  (made.1, { made.2 with store := store made.1 made.2.store })

theorem result_allocateWith (h : Heap) (size : UInt64) (store : Buffer → Store → Store) :
    (Access.allocateWith size store).result h = (h.allocate size).map (storing store) := by
  rw [allocate, Stateful.result, Stateful.result, run_allocateWith]
  rcases (Access.allocate size).run.run h with ⟨_ | _, _⟩ <;> rfl

end Heap

end RawMemory
