import RawMemory.Hexdump
import RawMemory.Session.Operation
import RawMemory.Text.Placed

/-!
# Running sessions

`perform` carries out one operation on the state of a session. The state lives on when an operation fails,
so what an operation has changed before it fails stays changed: `Step.on` runs an operation on a part of the
state, and puts back what it leaves of that part whether it fails or not. `run` carries out a script and
collects the answers.
-/

namespace RawMemory.Session

/-- What a session keeps between operations. -/
structure State where
  /-- Memory, with the buffers set aside in it. -/
  heap : Heap := {}
  /-- The pinned objects. -/
  pins : PinTable PinnedObject := {}
  /-- The views by name. -/
  views : Table String AnyView := {}
  /-- The buffers by name. -/
  buffers : Table String Buffer := {}
  /-- The events reported so far. -/
  events : List Event := []

/-- A computation on the state of a session, which may fail. -/
abbrev Step := Stateful Failure State

namespace Step

variable {σ α : Type}

/-- Carry out an operation on a part of the state. -/
def on (part : State → σ) (put : σ → State → State) (x : Access σ α) : Step α :=
  Stateful.onPart part put (ExceptT.adapt Failure.memory x)

/-- Carry out an operation on memory. -/
def onHeap (x : Access Heap α) : Step α := on State.heap (fun heap s => { s with heap }) x

/-- Carry out an operation on the bytes of memory. -/
def onStore (x : Access Store α) : Step α :=
  onHeap (x.onPart Heap.store fun store heap => { heap with store })

/-- Carry out an operation on the pinned objects. -/
def onPins (x : Access (PinTable PinnedObject) α) : Step α := on State.pins (fun pins s => { s with pins }) x

/-- Carry out an operation on memory that reports events. -/
def onWorkspace (x : Access Workspace α) : Step α :=
  on (fun s => ⟨s.heap, s.events⟩) (fun w s => { s with heap := w.heap, events := w.events }) x

/-- Carry out an operation on a view, which is kept under a name, and on the bytes of memory. -/
def onView {kind : ElementKind} (name : String) (v : View kind) (x : Access (Focus kind) α) : Step α :=
  on (fun s => ⟨s.heap.store, v⟩)
    (fun f s => { s with
      heap := { s.heap with store := f.store }
      views := s.views.replace name ⟨kind, f.view⟩ }) x

/-- Fail where an operation on memory does. -/
def ofExcept : Except MemoryError α → Step α
  | .ok a => return a
  | .error e => throw (.memory e)

/-- Keep the events of an operation on memory, and fail where it does. -/
def ofTraced (x : Traced (Except MemoryError α)) : Step α := do
  modify fun s => { s with events := s.events ++ x.events }
  ofExcept x.value

/-- The bytes of memory. -/
def store : Step Store := return (← get).heap.store

/-- The view of a name. -/
def findView (name : String) : Step AnyView := do
  match (← get).views.get? name with
  | some v => return v
  | none => throw (.unknownView name)

/-- The byte view of a name. -/
def findBytes (name : String) : Step (View .byte) := do
  match ← findView name with
  | ⟨.byte, v⟩ => return v
  | _ => throw (.notBytes name)

/-- The buffer of a name. -/
def findBuffer (name : String) : Step Buffer := do
  match (← get).buffers.get? name with
  | some b => return b
  | none => throw (.unknownBuffer name)

/-- Keep a view under a name, if one is given. -/
def nameView (target : Option String) (v : AnyView) : Step Unit :=
  match target with
  | some name => modify fun s => { s with views := s.views.insert name v }
  | none => return ()

/-- Keep a buffer under a name, if one is given. -/
def nameBuffer (target : Option String) (b : Buffer) : Step Unit :=
  match target with
  | some name => modify fun s => { s with buffers := s.buffers.insert name b }
  | none => return ()

/-- Keep a new view and answer it. -/
def answerView {kind : ElementKind} (target : Option String) (v : View kind) : Step Answer := do
  nameView target ⟨kind, v⟩
  return .view ⟨kind, v⟩

/-- Keep a view that may be missing and answer it. -/
def answerViewOrNone (target : Option String) : Option (View .byte) → Step Answer
  | some v => answerView target v
  | none => return .noView

/-- Keep a new buffer and answer it. -/
def answerBuffer (target : Option String) (b : Buffer) : Step Answer := do
  nameBuffer target b
  return .buffer b ((← get).heap.contents b)

/-- Encode what a request asks for; the bytes. The buffer that they were encoded into is let go. -/
def encoded (request : Text.EncodeRequest) : Step (List UInt8) := do
  let made ← onWorkspace request.place
  let bytes := (← get).heap.contents made
  onHeap (Access.letGo made)
  return bytes

/-- Pin an object; the new handle and how many objects are pinned. -/
def pinObject (object : PinnedObject) : Step (UInt64 × Nat) := do
  match (← get).pins.pin object with
  | some (handle, pins) =>
    modify fun s => { s with pins, events := s.events ++ [.pinned handle] }
    return (handle, pins.size)
  | none => throw .noHandle

end Step

open Step in
/-- Carry out one operation through a handle. -/
def perform (h : Handle) : Operation → Step Answer
  -- memory by address
  | .poke a block => do
    onStore (modify fun m => m.write a block)
    return .done
  | .peek a count => return .bytes ((← store).read a count.toNat)
  | .info => return .info (h.report (← get).pins.size)
  | .set a b count => do
    onStore (Access.set h a b count)
    return .done
  | .copy src dst count => do
    onStore (Access.copy h src dst count)
    return .done
  | .copyOverlapping src dst count => do
    onStore (Access.copyOverlapping h src dst count)
    return .done
  -- making views
  | .view kind a capacity target => do
    answerView target (← ofExcept (h.view kind a capacity))
  | .bufferView buffer kind target => do
    answerView target ((← findBuffer buffer).view kind)
  | .rebind view a capacity target => do
    let ⟨_, v⟩ ← findView view
    -- the view is used up even if it cannot be bound again
    modify fun s => { s with views := s.views.erase view }
    answerView target (← ofExcept (h.rebind v a capacity))
  | .viewToZeroByte a target => do
    answerViewOrNone target (← ofExcept (h.viewToZeroByte (← store) a))
  | .viewToZeroUnit a target => do
    answerViewOrNone target (← ofExcept (h.viewToZeroUnit (← store) a))
  -- working with views
  | .addresses view index => do
    let v ← findView view
    return .addresses (h.addresses v.2 index) (h.addressesOrNull (some v) index)
  | .addressesOfNone index => return .addressesOfNone (h.addressesOrNull none index)
  | .decodeNone request => return .text (← ofTraced (request.run none))
  | .state view => return .view (← findView view)
  | .setPosition view position => do
    let ⟨_, v⟩ ← findView view
    onView view v (Access.onCursor (Access.setPosition position))
    return .view (← findView view)
  | .rewind view => do
    let ⟨_, v⟩ ← findView view
    onView view v (Access.onCursor (modify View.rewind))
    return .view (← findView view)
  | .get view index => do
    let ⟨kind, v⟩ ← findView view
    return .element kind (← ofExcept (v.get (← store) index))
  | .put view index value => do
    let ⟨kind, v⟩ ← findView view
    onView view v (Access.put index (kind.ofInt value))
    return .done
  | .read view => do
    let ⟨kind, v⟩ ← findView view
    let bits ← onView view v Access.read
    return .elementThen kind bits (← findView view).view.position
  | .write view value => do
    let ⟨kind, v⟩ ← findView view
    onView view v (Access.write (kind.ofInt value))
    return .position (← findView view).view.position
  | .toList view => do
    let ⟨kind, v⟩ ← findView view
    return .elements kind (v.toList (← store))
  -- byte views
  | .getUnit view index => do
    return .unit (← ofExcept ((← findBytes view).getUnit (← store) index))
  | .putUnit view index value => do
    let v ← findBytes view
    onView view v (Access.putUnit index (BitVec.ofInt 16 value))
    return .done
  | .bytes view => do
    let v ← findBytes view
    return .viewBytes (v.bytes (← store)) (v.remainingBytes (← store))
  | .hexdump view width => return .dump (Hexdump.ofView (← findBytes view) (← store) width)
  | .decode view request => do
    let v ← findBytes view
    return .text (← ofTraced (request.run (some (v.remainingBytes (← store)))))
  -- buffers
  | .allocate size target => do
    answerBuffer target (← onHeap (Access.allocate size))
  | .ofBytes bytes target => do
    answerBuffer target (← onHeap (Access.ofBytes bytes))
  | .encode request target => do
    let bytes ← encoded request
    answerBuffer target (← onHeap (Access.ofBytes bytes))
  | .clone buffer target => do
    let b ← findBuffer buffer
    answerBuffer target (← onHeap (Access.clone b))
  | .bufferState buffer => do
    let b ← findBuffer buffer
    return .bufferInFull b ((← get).heap.contents b)
  | .truncate buffer length => do
    let b := (← findBuffer buffer).truncate length
    nameBuffer (some buffer) b
    return .length b.length
  | .fill buffer byte => do
    let b ← findBuffer buffer
    modify fun s => { s with heap := s.heap.fill b byte }
    return .bytes ((← get).heap.contents b)
  | .equal buffer other => do
    let b ← findBuffer buffer
    let o ← findBuffer other
    let heap := (← get).heap
    return .equal (heap.contents b == heap.contents o)
  -- pinned objects
  | .pin object => do
    let (handle, count) ← pinObject object
    return .pinned handle count
  | .resolve handle type => do
    if handle = 0 then return .nullHandle
    return .object ((← get).pins.resolveAs? type handle)
  | .repin handle type => do
    if handle = 0 then return .nullHandle
    match (← get).pins.resolveAs? type handle with
    | some object => return .repinned (some (← pinObject object))
    | none => return .repinned none
  | .release handle => do
    if handle = 0 then return .nullHandle
    let object ← onPins (Access.release handle)
    modify fun s => { s with events := s.events ++ [.released handle] }
    return .released object (← get).pins.size

/-- Carry out one operation: its answer, and the state after it. -/
def step (h : Handle) (s : State) (op : Operation) : Except Failure Answer × State :=
  (perform h op).run.run s

/-- Carry out a script: the answer to each operation, and the state after the last. A failed operation
does not end the script. -/
def run (h : Handle) (s : State) : List Operation → List (Except Failure Answer) × State
  | [] => ([], s)
  | op :: ops =>
    let (answer, s) := step h s op
    let (answers, s) := run h s ops
    (answer :: answers, s)

end RawMemory.Session
