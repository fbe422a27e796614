import RawMemory.Store

/-!
# Allocators

Storage is set aside in blocks. Where a block lies, and whether there is one to be had at all, is up to the
allocator of the system. `Allocator.slots` is the allocator of the memory that sessions work on: it has slots
of one size, and gives out the first one that is free.
-/

namespace RawMemory

/-- A block of storage. -/
structure Block where
  /-- The address of the first byte. -/
  address : Address
  /-- How many bytes there are. -/
  size : UInt64
deriving DecidableEq

/-- The allocator of a system. -/
structure Allocator where
  /-- Where a block of a size is set aside, unless the request is refused. This may depend on how many
  requests there were before, and on the blocks in use. -/
  place? : (requests : Nat) → (inUse : List Block) → (size : UInt64) → Option Address
  /-- Make the bytes of a new block zero. -/
  zero : Store → Address → UInt64 → Store

namespace Allocator

/-- The address of the first slot. -/
def slotBase : UInt64 := 0x20000000

/-- The bytes of a slot. -/
def slotSize : UInt64 := 0x100000

/-- How many slots there are. -/
def slotCount : Nat := 0x40000000000

/-- The address of a slot. -/
def slotAddress (slot : Nat) : Address := ⟨slotBase + UInt64.ofNat slot * slotSize⟩

/-- Whether a slot shares no byte with any of the blocks in use. -/
def isFree (inUse : List Block) (slot : Nat) : Bool :=
  let start := (slotAddress slot).val.toNat
  inUse.all fun block =>
    start + slotSize.toNat ≤ block.address.val.toNat || block.address.val.toNat + block.size.toNat ≤ start

/-- The first free slot. Each block in use takes one slot at most as long as it was set aside in a slot, so
one slot more than there are blocks is enough to look at. -/
def freeSlot? (inUse : List Block) : Option Nat :=
  (List.range (min (inUse.length + 1) slotCount)).find? (isFree inUse)

/-- An allocator that gives out slots. -/
def slots : Allocator where
  place? _ inUse size := if slotSize < size then none else (freeSlot? inUse).map slotAddress
  zero m a size := m.fill a 0 size

end Allocator

end RawMemory
