import RawMemory.Accessor
import RawMemory.Config

/-!
# Memory handles

A handle is the entry to memory: an accessor, and whether arguments are checked. In checked mode every
operation refuses null and negative addresses, blocks and views larger than an object may be, plain
copies between overlapping ranges, and the rebinding of views over owned memory; all of this happens
before memory is touched. Without checks the arguments go to the accessor as they are.

The operations that change memory stand under `Access`, in the order in which they check and store. Under
`Handle` stands what comes of them for a given memory.
-/

namespace RawMemory

/-- An entry to memory. -/
structure Handle where
  /-- What carries out the bulk operations. -/
  accessor : Accessor
  /-- Whether arguments are checked. -/
  checked : Bool

namespace Handle

/-- The handle that a configuration asks for. -/
def ofConfig (config : Config) : Traced (Except MemoryError Handle) := do
  match ← Accessor.select config.preferred with
  | .ok accessor => return .ok ⟨accessor, config.checked⟩
  | .error e => return .error e

/-- The bytes that address arithmetic gives to an element. -/
def elementWidth (h : Handle) (kind : ElementKind) : UInt64 := kind.width h.accessor.pointerSize

/-! ### Checks -/

/-- Refuses an argument in checked mode if a condition does not hold. -/
def require (h : Handle) (condition : Bool) (cause : ArgumentError) : Except MemoryError Unit :=
  if h.checked && !condition then .error (.invalidArgument cause) else .ok ()

/-- Refuses null and negative addresses. -/
def checkAddress (h : Handle) (role : AddressRole) (a : Address) : Except MemoryError Unit :=
  h.require a.isPositive (.address role a)

/-- Refuses blocks larger than an object may be. -/
def checkByteCount (h : Handle) (count : UInt64) : Except MemoryError Unit :=
  h.require (count ≤ Word.maxSize) (.byteCount count)

/-- Refuses addresses at which no view may start, and views larger than an object may be. -/
def checkView (h : Handle) (kind : ElementKind) (a : Address) (capacity : UInt64) :
    Except MemoryError Unit := do
  h.checkAddress .view a
  let fits := (Word.mul? capacity (h.elementWidth kind)).any (· ≤ Word.maxSize)
  h.require fits (.capacity capacity kind)

/-- Whether two ranges of `count` bytes each share a byte. -/
def overlap (src dst : Address) (count : UInt64) : Bool :=
  count != 0 &&
    match dst.offsetFrom src with
    | some distance => distance < count
    | none => (src.offsetFrom dst).any (· < count)

/-! ### Addresses -/

/-- The address of the element of an index. The index need not lie in the window, and the address goes
round the address space. -/
def addressAt (h : Handle) {kind : ElementKind} (v : View kind) (index : UInt64) : Address :=
  h.accessor.addressOf v + index * h.elementWidth kind

/-- The address of the element at the cursor. -/
def address (h : Handle) {kind : ElementKind} (v : View kind) : Address := h.addressAt v v.position

/-- The addresses of a view: of its first element, of the one at the cursor, and of one by index. -/
structure ViewAddresses where
  /-- The address of the first element. -/
  first : Address
  /-- The address of the element at the cursor. -/
  cursor : Address
  /-- The address of the element of an index. -/
  element : Address
deriving DecidableEq

/-- The addresses of a view. -/
def addresses (h : Handle) {kind : ElementKind} (v : View kind) (index : UInt64) : ViewAddresses :=
  ⟨h.accessor.addressOf v, h.address v, h.addressAt v index⟩

/-- The addresses of a view that may be missing, in which case all of them are null. -/
def addressesOrNull (h : Handle) (v : Option AnyView) (index : UInt64) : ViewAddresses :=
  match v with
  | some ⟨_, v⟩ => h.addresses v index
  | none => ⟨.null, .null, .null⟩

/-! ### Views -/

/-- A view of foreign memory. -/
def view (h : Handle) (kind : ElementKind) (a : Address) (capacity : UInt64) :
    Except MemoryError (View kind) := do
  h.checkView kind a capacity
  return (h.accessor.newView kind a capacity).rewind

/-- Bind a view to other memory, which is foreign. The cursor returns to the first element. -/
def rebind (h : Handle) {kind : ElementKind} (v : View kind) (a : Address) (capacity : UInt64) :
    Except MemoryError (View kind) := do
  h.checkView kind a capacity
  -- the owner of the memory would not learn that the view has left it
  if h.checked && v.origin = .owned then throw (.rebindOwned v.address)
  return (h.accessor.bound v a capacity).rewind

/-- A view of the bytes from `a` on that precede a terminator, where `length?` finds out how many those
are. There is no view of the null address, nor where no terminator follows. The address is checked
before memory is read. -/
def viewToTerminator (h : Handle) (m : Store) (length? : Store → Address → Option Nat) (a : Address) :
    Except MemoryError (Option (View .byte)) := do
  if a.isNull then return none
  h.checkAddress .string a
  -- a view of unknown extent, which is then cut to what precedes the terminator
  let unbounded := (h.accessor.newView .byte a Word.maxSize).rewind
  match length? m unbounded.address with
  | none => return none
  | some length =>
    let v ← h.rebind unbounded a (UInt64.ofNat length)
    return some v

/-- A view of the bytes that precede the first zero byte from an address on. -/
def viewToZeroByte (h : Handle) (m : Store) (a : Address) :
    Except MemoryError (Option (View .byte)) :=
  h.viewToTerminator m Store.zeroByteAfter? a

/-- A view of the bytes that precede the first zero unit from an address on. -/
def viewToZeroUnit (h : Handle) (m : Store) (a : Address) :
    Except MemoryError (Option (View .byte)) :=
  h.viewToTerminator m (fun m a => (m.zeroUnitAfter? a).map (2 * ·)) a

/-! ### Reports -/

/-- What a handle tells about itself. -/
structure Report where
  /-- The accessor. -/
  accessor : AccessorKind
  /-- The bytes of a memory page. -/
  pageSize : UInt64
  /-- The bytes of a pointer. -/
  pointerSize : UInt64
  /-- Whether arguments are checked. -/
  checked : Bool
  /-- The bytes that address arithmetic gives to an element of each kind. -/
  widths : List (ElementKind × UInt64)
  /-- How many objects are pinned. -/
  pinned : Nat
deriving DecidableEq

/-- The report of a handle, with the number of pinned objects. -/
def report (h : Handle) (pinned : Nat) : Report where
  accessor := h.accessor.kind
  pageSize := h.accessor.pageSize
  pointerSize := h.accessor.pointerSize
  checked := h.checked
  widths := ElementKind.all.map fun kind => (kind, h.elementWidth kind)
  pinned := pinned

/-- The report in one line. -/
def Report.line (r : Report) : String :=
  "Memory \x7b accessor: \"" ++ r.accessor.name ++ "\", page_size: " ++
    toString r.pageSize.toNat ++ ", pointer_size: " ++ toString r.pointerSize.toNat ++
    ", checked: " ++ toString r.checked ++ ", pinned: " ++ toString r.pinned ++ " \x7d"

/-! ### The process-wide handle -/

/-- Make a handle the process-wide one, whose place may hold one already. -/
def install (place : Option Handle) (h : Handle) : Except MemoryError Handle :=
  match place with
  | some _ => .error (.invalidArgument .installed)
  | none => .ok h

end Handle

/-! ### Bulk operations -/

namespace Access

/-- Store the same byte at `count` successive addresses. -/
def set (h : Handle) (a : Address) (b : UInt8) (count : UInt64) : Access Store Unit := do
  h.checkAddress .destination a
  h.checkByteCount count
  modify fun m => h.accessor.fill m a b count

/-- Copy bytes between ranges that do not overlap. -/
def copy (h : Handle) (src dst : Address) (count : UInt64) : Access Store Unit := do
  h.checkAddress .source src
  h.checkAddress .destination dst
  h.checkByteCount count
  h.require (!Handle.overlap src dst count) (.overlap count src dst)
  modify fun m => h.accessor.copy m src dst count

/-- Copy bytes between ranges that may overlap. -/
def copyOverlapping (h : Handle) (src dst : Address) (count : UInt64) : Access Store Unit := do
  h.checkAddress .source src
  h.checkAddress .destination dst
  h.checkByteCount count
  modify fun m => h.accessor.move m src dst count

end Access

namespace Handle

/-- Memory with the same byte stored at `count` successive addresses. -/
def set (h : Handle) (m : Store) (a : Address) (b : UInt8) (count : UInt64) :
    Except MemoryError Store :=
  (Access.set h a b count).after m

/-- Memory with bytes copied between ranges that do not overlap. -/
def copy (h : Handle) (m : Store) (src dst : Address) (count : UInt64) : Except MemoryError Store :=
  (Access.copy h src dst count).after m

/-- Memory with bytes copied between ranges that may overlap. -/
def copyOverlapping (h : Handle) (m : Store) (src dst : Address) (count : UInt64) :
    Except MemoryError Store :=
  (Access.copyOverlapping h src dst count).after m

theorem set_eq (h : Handle) (m : Store) (a : Address) (b : UInt8) (count : UInt64) :
    h.set m a b count = (do
      h.checkAddress .destination a
      h.checkByteCount count
      return h.accessor.fill m a b count) := by
  simp only [set, Access.set, Stateful.after_check_bind, Stateful.after_modify]
  rfl

theorem copy_eq (h : Handle) (m : Store) (src dst : Address) (count : UInt64) :
    h.copy m src dst count = (do
      h.checkAddress .source src
      h.checkAddress .destination dst
      h.checkByteCount count
      h.require (!overlap src dst count) (.overlap count src dst)
      return h.accessor.copy m src dst count) := by
  simp only [copy, Access.copy, Stateful.after_check_bind, Stateful.after_modify]
  rfl

theorem copyOverlapping_eq (h : Handle) (m : Store) (src dst : Address) (count : UInt64) :
    h.copyOverlapping m src dst count = (do
      h.checkAddress .source src
      h.checkAddress .destination dst
      h.checkByteCount count
      return h.accessor.move m src dst count) := by
  simp only [copyOverlapping, Access.copyOverlapping, Stateful.after_check_bind, Stateful.after_modify]
  rfl

end Handle

end RawMemory
