import RawMemory.Access
import RawMemory.LittleEndian
import RawMemory.Store

/-!
# Views

A view is a window onto memory: a base address, a number of elements of one kind, and a cursor. Elements
are stored with the low byte first, at any alignment, and an index is checked against the capacity before
memory is touched.

An operation that changes memory or moves the cursor works on both (`Focus`), in the order in which it is
written down under `Access`. Under `View` stands what comes of it for a given view and a given memory.
-/

namespace RawMemory

/-- Who owns the memory that a view shows. -/
inductive Origin where
  /-- Somebody else. -/
  | native
  /-- A buffer of this library. -/
  | owned
deriving DecidableEq

/-- The name of the origin in reports. -/
def Origin.name : Origin → String
  | native => "Native"
  | owned => "Owned"

/-- A window onto memory of elements of one kind. -/
@[ext]
structure View (kind : ElementKind) where
  /-- The address of the first element. -/
  address : Address
  /-- How many elements there are. -/
  capacity : UInt64
  /-- Who owns the memory. -/
  origin : Origin
  /-- The index of the element that is read or written next. -/
  position : UInt64 := 0
deriving DecidableEq

namespace View

variable {kind : ElementKind}

/-- A view of memory that somebody else owns. -/
def foreign (a : Address) (capacity : UInt64) : View kind :=
  { address := a, capacity, origin := .native }

/-- The view bound to memory that somebody else owns. -/
def bindTo (v : View kind) (a : Address) (capacity : UInt64) : View kind :=
  { v with address := a, capacity, origin := .native }

/-- How many elements lie at or after the cursor. -/
def remaining (v : View kind) : UInt64 := v.capacity - v.position

/-- Whether there is an element at the cursor. -/
def hasRemaining (v : View kind) : Bool := v.position < v.capacity

/-- The view with the cursor at the first element. -/
def rewind (v : View kind) : View kind := { v with position := 0 }

/-- Fails unless there is an element of this index. -/
def checkIndex (v : View kind) (index : UInt64) : Except MemoryError Unit :=
  if v.capacity ≤ index then .error (.outOfBounds index v.capacity) else .ok ()

/-- The address of the element of an index. -/
def elementAddress (v : View kind) (index : UInt64) : Address :=
  v.address + index * UInt64.ofNat kind.size

/-- The element of an index, whether or not it lies in the window. -/
def load (v : View kind) (m : Store) (index : UInt64) : kind.Bits :=
  BitVec.ofNat _ (LittleEndian.value (m.read (v.elementAddress index) kind.size))

/-- The element of an index. -/
def get (v : View kind) (m : Store) (index : UInt64) : Except MemoryError kind.Bits := do
  v.checkIndex index
  return v.load m index

/-- The elements at and after the cursor. -/
def toList (v : View kind) (m : Store) : List kind.Bits :=
  (List.range (v.capacity.toNat - v.position.toNat)).map fun k =>
    v.load m (v.position + UInt64.ofNat k)

/-! ### Byte views -/

/-- The bytes of the whole window. -/
def bytes (v : View .byte) (m : Store) : List UInt8 := m.read v.address v.capacity.toNat

/-- The bytes at and after the cursor. -/
def remainingBytes (v : View .byte) (m : Store) : List UInt8 :=
  (v.bytes m).drop v.position.toNat

/-- The 16-bit unit whose first byte has the given index. -/
def getUnit (v : View .byte) (m : Store) (index : UInt64) : Except MemoryError (BitVec 16) := do
  v.checkIndex (Word.addSat index 1)
  return BitVec.ofNat 16 (LittleEndian.value (m.read (v.address + index) 2))

end View

/-! ### Operations on a view and memory -/

/-- A view that is worked with, and memory. -/
structure Focus (kind : ElementKind) where
  /-- The bytes of memory. -/
  store : Store
  /-- The view. -/
  view : View kind

namespace Access

variable {kind : ElementKind}

/-- Move the cursor to an index, which may be just behind the last element. -/
def setPosition (position : UInt64) : Access (View kind) Unit := do
  let v ← get
  if v.capacity < position then throw (.outOfBounds position v.capacity)
  modify fun v => { v with position }

/-- Move the cursor only. -/
def onCursor (x : Access (View kind) Unit) : Access (Focus kind) Unit :=
  x.onPart Focus.view fun view f => { f with view }

/-- Store an element under an index. -/
def put (index : UInt64) (element : kind.Bits) : Access (Focus kind) Unit := do
  let f ← get
  f.view.checkIndex index
  let block := (LittleEndian.bytes kind.size element.toNat).toArray
  modify fun f => { f with store := f.store.write (f.view.elementAddress index) block }

/-- Move the cursor on by one element. -/
def advance : Access (Focus kind) Unit :=
  modify fun f => { f with view := { f.view with position := f.view.position + 1 } }

/-- Read the element at the cursor, which then moves on to the next one. -/
def read : Access (Focus kind) kind.Bits := do
  let f ← get
  let element ← f.view.get f.store f.view.position
  advance
  return element

/-- Store an element at the cursor, which then moves on to the next one. -/
def write (element : kind.Bits) : Access (Focus kind) Unit := do
  let f ← get
  put f.view.position element
  advance

/-- Store a 16-bit unit with its first byte at the given index of a byte view. -/
def putUnit (index : UInt64) (unit : BitVec 16) : Access (Focus .byte) Unit := do
  let f ← get
  f.view.checkIndex (Word.addSat index 1)
  let block := (LittleEndian.bytes 2 unit.toNat).toArray
  modify fun f => { f with store := f.store.write (f.view.address + index) block }

end Access

namespace View

variable {kind : ElementKind}

/-- The view with the cursor at an index, which may be just behind the last element. -/
def setPosition (v : View kind) (position : UInt64) : Except MemoryError (View kind) :=
  (Access.setPosition position).after v

/-- Memory with an element stored under an index. -/
def put (v : View kind) (m : Store) (index : UInt64) (element : kind.Bits) : Except MemoryError Store :=
  ((Access.put index element).after ⟨m, v⟩).map Focus.store

/-- The element at the cursor, and the view with the cursor at the next one. -/
def read (v : View kind) (m : Store) : Except MemoryError (kind.Bits × View kind) :=
  (Access.read.result ⟨m, v⟩).map fun made => (made.1, made.2.view)

/-- Memory with an element stored at the cursor, and the view with the cursor at the next one. -/
def write (v : View kind) (m : Store) (element : kind.Bits) : Except MemoryError (Store × View kind) :=
  ((Access.write element).after ⟨m, v⟩).map fun f => (f.store, f.view)

/-- Memory with a 16-bit unit stored at the given index. -/
def putUnit (v : View .byte) (m : Store) (index : UInt64) (unit : BitVec 16) : Except MemoryError Store :=
  ((Access.putUnit index unit).after ⟨m, v⟩).map Focus.store

theorem setPosition_eq (v : View kind) (position : UInt64) :
    v.setPosition position =
      if v.capacity < position then .error (.outOfBounds position v.capacity)
      else .ok { v with position } := by
  rw [setPosition, Access.setPosition, Stateful.after_get_bind]
  split <;> rfl

theorem put_eq (v : View kind) (m : Store) (index : UInt64) (element : kind.Bits) :
    v.put m index element = v.checkIndex index >>= fun _ =>
      .ok (m.write (v.elementAddress index)
        (LittleEndian.bytes kind.size element.toNat).toArray) := by
  rw [put, Access.put, Stateful.after_get_bind, Stateful.after_check_bind]
  cases v.checkIndex index <;> rfl

theorem read_eq (v : View kind) (m : Store) :
    v.read m = v.get m v.position >>= fun element =>
      .ok (element, { v with position := v.position + 1 }) := by
  rw [read, Access.read, Stateful.result_get_bind, Stateful.result_check_bind]
  cases v.get m v.position <;> rfl

theorem write_eq (v : View kind) (m : Store) (element : kind.Bits) :
    v.write m element = v.put m v.position element >>= fun stored =>
      .ok (stored, { v with position := v.position + 1 }) := by
  rw [put_eq, write, Access.write, Stateful.after_get_bind, Stateful.after_bind, Access.put,
    Stateful.result_get_bind, Stateful.result_check_bind]
  cases v.checkIndex v.position <;> rfl

theorem putUnit_eq (v : View .byte) (m : Store) (index : UInt64) (unit : BitVec 16) :
    v.putUnit m index unit = v.checkIndex (Word.addSat index 1) >>= fun _ =>
      .ok (m.write (v.address + index) (LittleEndian.bytes 2 unit.toNat).toArray) := by
  rw [putUnit, Access.putUnit, Stateful.after_get_bind, Stateful.after_check_bind]
  cases v.checkIndex (Word.addSat index 1) <;> rfl

end View

/-- A view of some kind. -/
structure AnyView where
  /-- The kind of the elements. -/
  kind : ElementKind
  /-- The view. -/
  view : View kind
deriving DecidableEq

end RawMemory
