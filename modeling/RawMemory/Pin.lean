import RawMemory.Access
import RawMemory.Table

/-!
# Pinned objects

Foreign code knows an object by a handle, a nonzero word. A pin table keeps each object alive under its
handle until it is released. New handles come from a counter that goes round all words and passes over
zero and over handles in use.
-/

namespace RawMemory

/-- The objects pinned at some moment, and the counter for new handles. -/
structure PinTable (α : Type) where
  /-- The word that the next handle is looked for from. -/
  next : UInt64 := 1
  /-- The objects by handle. -/
  live : Table UInt64 α := {}

namespace PinTable

variable {α : Type}

/-- Whether a word can become a handle. -/
def isFree (t : PinTable α) (handle : UInt64) : Bool := handle != 0 && !t.live.contains handle

/-- The words that are looked at for a new handle. Zero and the handles in use are all that a free word
can be missed for, so two words more than there are handles in use are enough. -/
def candidates (t : PinTable α) : List UInt64 :=
  (List.range (t.live.size + 2)).map fun k => t.next + UInt64.ofNat k

/-- The first free word from the counter on, unless every word is taken. -/
def freeHandle? (t : PinTable α) : Option UInt64 := t.candidates.find? t.isFree

/-- Keep an object under a new handle. -/
def pin (t : PinTable α) (object : α) : Option (UInt64 × PinTable α) :=
  t.freeHandle?.map fun handle => (handle, ⟨handle + 1, t.live.insert handle object⟩)

/-- The object under a handle. -/
def resolve? (t : PinTable α) (handle : UInt64) : Option α := t.live.get? handle

/-- The object under a handle, if it has the given type. -/
def resolveTyped? {τ : Type} [DecidableEq τ] (typeOf : α → τ) (t : PinTable α) (type : τ)
    (handle : UInt64) : Option α :=
  (t.resolve? handle).filter fun object => typeOf object = type

/-- How many objects are pinned. -/
def size (t : PinTable α) : Nat := t.live.size

/-- The table without what is under a handle. -/
def remove (t : PinTable α) (handle : UInt64) : PinTable α := { t with live := t.live.erase handle }

end PinTable

/-- Give up a handle and take back its object. The handle is removed before it is known whether there was an
object under it. -/
def Access.release {α : Type} (handle : UInt64) : Access (PinTable α) α := do
  let released ← modifyGet fun t => (t.live.get? handle, t.remove handle)
  match released with
  | some object => return object
  | none => throw (.invalidPin handle)

namespace PinTable

variable {α : Type}

/-- The object under a handle, and the table after the handle was given up. -/
def release (t : PinTable α) (handle : UInt64) : Except MemoryError (α × PinTable α) :=
  (Access.release handle).result t

/-- The handle is given up whether there was an object under it or not. -/
theorem run_release (t : PinTable α) (handle : UInt64) :
    (Access.release handle).run.run t =
      match t.live.get? handle with
      | some object => (.ok object, t.remove handle)
      | none => (.error (.invalidPin handle), t.remove handle) := by
  rw [Access.release, Stateful.run_bind]
  change (match t.live.get? handle with
    | some object => (pure object : Access (PinTable α) α)
    | none => throw (MemoryError.invalidPin handle)).run.run (t.remove handle) = _
  cases t.live.get? handle <;> rfl

theorem release_eq (t : PinTable α) (handle : UInt64) :
    t.release handle =
      match t.live.get? handle with
      | some object => .ok (object, t.remove handle)
      | none => .error (.invalidPin handle) := by
  rw [release, Stateful.result, run_release]
  cases t.live.get? handle <;> rfl

end PinTable

/-- The types of objects that a session pins. -/
inductive PinType where
  /-- An unsigned 32-bit number. -/
  | uint32
  /-- A signed 64-bit number. -/
  | int64
  /-- A text. -/
  | string
  /-- A list of unsigned 32-bit numbers. -/
  | uint32List
deriving DecidableEq

/-- An object that a session pins. -/
inductive PinnedObject where
  /-- An unsigned 32-bit number. -/
  | uint32 (n : UInt32)
  /-- A signed 64-bit number. -/
  | int64 (n : Int64)
  /-- A text. -/
  | string (s : String)
  /-- A list of unsigned 32-bit numbers. -/
  | uint32List (ns : List UInt32)
deriving DecidableEq

/-- The type of an object. -/
def PinnedObject.type : PinnedObject → PinType
  | uint32 _ => .uint32
  | int64 _ => .int64
  | string _ => .string
  | uint32List _ => .uint32List

/-- The object under a handle of a session, if it has the given type. -/
def PinTable.resolveAs? (t : PinTable PinnedObject) (type : PinType) (handle : UInt64) :
    Option PinnedObject :=
  t.resolveTyped? PinnedObject.type type handle

end RawMemory
