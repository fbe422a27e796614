import RawMemory.Accessor.Kind
import RawMemory.Log.Event
import RawMemory.View

/-!
# Accessors

An accessor carries out the bulk operations on memory, makes views and binds them to other memory, and
tells the sizes of the platform. Before one is used it has to pass `selfTest`, which runs its bulk
operations on scratch memory and compares the bytes; how it treats views is not tested. `select` takes the
first of the built-in accessors that passes, the preferred one being tried first.
-/

namespace RawMemory

/-- What an accessor answers when a view is to be bound to other memory. -/
inductive Rebind (kind : ElementKind) where
  /-- The view that was handed over is bound to it now. -/
  | inPlace
  /-- The view that was handed over could not be changed, and this one is to be used. -/
  | fresh (view : View kind)
deriving DecidableEq

/-- The operations of a platform, with its sizes. -/
structure Accessor where
  /-- Which kind of accessor it is. -/
  kind : AccessorKind
  /-- The bytes of a memory page. -/
  pageSize : UInt64
  /-- The bytes of a pointer. -/
  pointerSize : UInt64
  /-- The address of the first element of a view. -/
  addressOf : {kind : ElementKind} → View kind → Address := View.address
  /-- Make a view of a number of elements at an address. -/
  newView : (kind : ElementKind) → Address → UInt64 → View kind := fun _ => View.foreign
  /-- Bind the view that is handed over to a number of elements at another address, or make another view. -/
  rebindView : {kind : ElementKind} → Address → UInt64 → StateM (View kind) (Rebind kind)
  /-- Store a byte at a number of successive addresses. -/
  fill : Store → Address → UInt8 → UInt64 → Store
  /-- Copy bytes from the first address to the second; the ranges are disjoint. -/
  copy : Store → Address → Address → UInt64 → Store
  /-- Copy bytes from the first address to the second; the ranges may overlap. -/
  move : Store → Address → Address → UInt64 → Store

/-- Why an accessor must not be used. -/
inductive SelfTestFailure where
  /-- The page size is no power of two. -/
  | pageSize (bytes : UInt64)
  /-- Pointers have neither four nor eight bytes. -/
  | pointerSize (bytes : UInt64)
  /-- Filling and copying leave other bytes than they should. -/
  | fillAndCopy
  /-- Moving a block onto itself leaves other bytes than it should. -/
  | overlappingMove
deriving DecidableEq

/-- The failure in words. -/
def SelfTestFailure.message : SelfTestFailure → String
  | pageSize bytes => "page size " ++ toString bytes.toNat ++ " is not a power of two"
  | pointerSize bytes => "unsupported pointer size " ++ toString bytes.toNat
  | fillAndCopy => "set/copy self-test produced unexpected bytes"
  | overlappingMove => "overlapping move self-test produced unexpected bytes"

/-- How a synthetic accessor moves overlapping blocks. -/
inductive MoveBehaviour where
  /-- As it should be. -/
  | correct
  /-- Not at all. -/
  | ignored
  /-- Byte by byte from the lowest address on. -/
  | forward
deriving DecidableEq

namespace Accessor

/-- The bulk operations of the C library. -/
def libc : Accessor where
  kind := .libc
  pageSize := 4096
  pointerSize := 8
  rebindView a capacity := do
    modify fun v => v.bindTo a capacity
    return .inPlace
  fill := Store.fill
  copy := Store.copy
  move := Store.copy

/-- Bulk operations that need no library. -/
def portable : Accessor where
  kind := .portable
  pageSize := 4096
  pointerSize := 8
  rebindView a capacity := return .fresh (.foreign a capacity)
  fill := Store.fill
  copy := Store.copy
  move := Store.copy

/-- The built-in accessor of a kind. -/
def ofKind : AccessorKind → Accessor
  | .libc => libc
  | .portable => portable

/-- An accessor with any sizes, whose operations can be made to fail. -/
def synthetic (pageSize pointerSize : UInt64) (fills copies : Bool) (moves : MoveBehaviour) :
    Accessor where
  kind := .portable
  pageSize := pageSize
  pointerSize := pointerSize
  rebindView a capacity := return .fresh (.foreign a capacity)
  fill m a b count := if fills then m.fill a b count else m
  copy m src dst count := if copies then m.copy src dst count else m
  move m src dst count :=
    match moves with
    | .correct => m.copy src dst count
    | .ignored => m
    | .forward => m.copyForward src dst count

/-- The view to be used after a view was handed over to be bound to other memory. -/
def bound (acc : Accessor) {kind : ElementKind} (v : View kind) (a : Address) (capacity : UInt64) :
    View kind :=
  match (acc.rebindView a capacity).run v with
  | (.inPlace, changed) => changed
  | (.fresh made, _) => made

/-- Whether a word is a power of two. -/
def isPowerOfTwo (n : UInt64) : Bool := n != 0 && n &&& (n - 1) == 0

/-- Where the self-test has its scratch memory. -/
def scratch : Address := ⟨0x1000⟩

/-- Fill half of a scratch block and copy it to the other half: all bytes must be the same. -/
def fillsAndCopies (acc : Accessor) : Bool :=
  -- a scratch block of 64 bytes, the upper half of which is still zero after the fill
  let filled := acc.fill .zero scratch 0xA5 32
  let copied := acc.copy filled scratch (scratch + (32 : UInt64)) 32
  copied.read scratch 64 == List.replicate 64 0xA5

/-- Move eight numbered bytes up by one: they must arrive in order, and nothing else may change. -/
def movesOverlapping (acc : Accessor) : Bool :=
  let numbered := Store.zero.write scratch #[0, 1, 2, 3, 4, 5, 6, 7, 8, 9, 10, 11, 12, 13, 14, 15]
  let moved := acc.move numbered scratch (scratch + (1 : UInt64)) 8
  moved.read scratch 10 == [0, 0, 1, 2, 3, 4, 5, 6, 7, 9]

/-- Whether the accessor may be used, and why not. -/
def selfTest (acc : Accessor) : Except SelfTestFailure Unit :=
  if ¬ isPowerOfTwo acc.pageSize then .error (.pageSize acc.pageSize)
  else if acc.pointerSize ≠ 4 ∧ acc.pointerSize ≠ 8 then .error (.pointerSize acc.pointerSize)
  else if ¬ acc.fillsAndCopies then .error .fillAndCopy
  else if ¬ acc.movesOverlapping then .error .overlappingMove
  else .ok ()

/-- Run the self-test as a condition for the use of the accessor. -/
def probe (acc : Accessor) : Except MemoryError Unit :=
  match acc.selfTest with
  | .ok () => .ok ()
  | .error failure =>
    .error (.accessorUnavailable (acc.kind.name ++ ": " ++ failure.message))

/-- The order in which the kinds are tried: the preferred one first, then the others as usual. -/
def preference : Option AccessorKind → List AccessorKind
  | none => AccessorKind.all
  | some preferred => preferred :: AccessorKind.all.filter (· ≠ preferred)

/-- Take the first accessor that passes its self-test; `failures` are those of the ones before. -/
def selectFrom (failures : List String) :
    List AccessorKind → Traced (Except MemoryError Accessor)
  | [] => pure (.error (.accessorUnavailable (String.intercalate "; " failures)))
  | kind :: others => do
    let acc := ofKind kind
    match acc.probe with
    | .ok () =>
      Traced.report (.accessorSelected kind acc.pageSize acc.pointerSize)
      return .ok acc
    | .error e =>
      Traced.report (.accessorRejected kind e.message)
      selectFrom (failures ++ [e.message]) others

/-- The accessor to use when one kind may be preferred. -/
def select (preferred : Option AccessorKind) : Traced (Except MemoryError Accessor) :=
  selectFrom [] (preference preferred)

end Accessor

end RawMemory
