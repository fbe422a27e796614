import RawMemory.Heap
import RawMemory.Text.Request

/-!
# Encoding into buffers

Units are encoded into a buffer that is set aside before the first of them is looked at. A buffer that turns
out too small is exchanged for a larger one and let go. Units that cannot be encoded are met when others have
been written already, and then the buffer is let go with what was written into it.
-/

namespace RawMemory

/-- What encoding works on: memory, and the events reported so far. -/
structure Workspace where
  /-- Memory, with the storage set aside in it. -/
  heap : Heap
  /-- The events, the first one first. -/
  events : List Event

/-- The bytes of a buffer of `size` bytes, lent to a coder that writes behind those that are written. -/
def Heap.lend (h : Heap) (b : Buffer) (size written : Nat) : Output UInt8 where
  storage := (h.store.read b.address size).toArray
  written := min written size
  written_le := by
    rw [List.size_toArray, Store.length_read]
    exact Nat.min_le_right _ _

/-- Memory with the bytes of a buffer as a coder has left them. -/
def Heap.takeBack (h : Heap) (b : Buffer) (lent : Output UInt8) : Heap :=
  { h with store := h.store.write b.address lent.storage }

@[simp] theorem Heap.size_lend (h : Heap) (b : Buffer) (size written : Nat) :
    (h.lend b size written).size = size :=
  (List.size_toArray ..).trans (Store.length_read ..)

@[simp] theorem Heap.room_lend (h : Heap) (b : Buffer) (size written : Nat) :
    (h.lend b size written).room = size - written := by
  rw [Output.room, size_lend]
  change size - min written size = size - written
  omega

/-- The part of a buffer that a coder has written becomes the written part of a larger one. -/
theorem Heap.room_grow_lend (h : Heap) (b : Buffer) (size written : Nat) (items : List UInt8) :
    (((h.lend b size written).write items).grow (2 * size + 1)).room =
      2 * size + 1 - ((h.lend b size written).write items).written := by
  have hle := ((h.lend b size written).write items).written_le
  have hsize : ((h.lend b size written).write items).storage.size = size :=
    (Output.size_write _ items).trans (h.size_lend b size written)
  rw [Output.room, Output.size_grow, Output.written_grow _ (by omega)]

namespace Access

variable {α : Type}

/-- An operation on memory. -/
def onHeap (x : Access Heap α) : Access Workspace α :=
  x.onPart Workspace.heap fun heap w => { w with heap }

/-- Report an event. -/
def report (e : Event) : Access Workspace Unit := modify fun w => { w with events := w.events ++ [e] }

/-- Do something with a buffer at hand, which is let go if that fails. -/
def holding (b : Buffer) (x : Access Workspace α) : Access Workspace α :=
  tryCatch x fun e => do
    onHeap (letGo b)
    throw e

/-- Encode units into a buffer of `size` bytes, of which `written` are written; `consumed` units have been
taken before. -/
def encodeFrom (charset : Charset) (b : Buffer) (size written : Nat) (input : List UInt16)
    (consumed : Nat) : Access Workspace Buffer := do
  let w ← get
  let filled := charset.encoder.fill true (w.heap.lend b size written) input
  onHeap (modify fun h => h.takeBack b filled.output)
  if filled.result = .overflow then
    report (.encodeGrew charset (2 * size + 1) filled.output.written)
    let next ← holding b <| onHeap <|
      grow b (UInt64.ofNatClamp (2 * size + 1)) (UInt64.ofNat filled.output.written)
    onHeap (letGo b)
    encodeFrom charset next (2 * size + 1) filled.output.written (input.drop filled.consumed)
      (consumed + filled.consumed)
  else
    match filled.result with
    | .underflow | .overflow => return b.truncate (UInt64.ofNat filled.output.written)
    | .malformed _ =>
      onHeap (letGo b)
      throw (.codec charset .malformed (consumed + filled.consumed))
    | .unmappable _ =>
      onHeap (letGo b)
      throw (.codec charset .unmappable (consumed + filled.consumed))
termination_by (input.length, charset.encoder.need true input - (size - written))
decreasing_by
  rename_i hoverflow
  have hless := Coder.lex_of_overflow hoverflow
  rw [Heap.size_lend, Heap.room_lend] at hless
  rw [Coder.fill_eq] at hless ⊢
  rwa [Heap.room_grow_lend] at hless

/-- Set aside a buffer that holds units in a charset. -/
def encodeUnits (charset : Charset) (units : List UInt16) : Access Workspace Buffer := do
  let size := Text.encodeEstimate charset units
  let b ← onHeap (allocate (UInt64.ofNatClamp size))
  encodeFrom charset b size 0 units 0

end Access

/-- Set aside a buffer that holds what a request asks for. -/
def Text.EncodeRequest.place : Text.EncodeRequest → Access Workspace Buffer
  | .narrow text termination => Access.onHeap (Access.ofBytes (encodeNarrow text termination))
  | .wide text termination => Access.onHeap (Access.ofBytes (encodeWide text termination))
  | .charset name text termination => do
    let charset ← Charset.ofName name
    Access.encodeUnits charset (Text.units text termination)
  | .units name input => do
    let charset ← Charset.ofName name
    Access.encodeUnits charset input

end RawMemory
