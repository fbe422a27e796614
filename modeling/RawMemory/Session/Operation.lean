import RawMemory.Handle
import RawMemory.Heap
import RawMemory.Pin
import RawMemory.Text.Request

/-!
# Session operations

A session works on one memory with named views and buffers. This module lists what can be asked of it
and what it answers.
-/

namespace RawMemory.Session

/-- One thing to do in a session. The results of some operations are kept under a `target` name. -/
inductive Operation where
  /-- Store bytes, without any check. -/
  | poke (a : Address) (block : Array UInt8)
  /-- Read bytes, without any check. -/
  | peek (a : Address) (count : UInt64)
  /-- Report on the handle. -/
  | info
  /-- Store the same byte at successive addresses. -/
  | set (a : Address) (b : UInt8) (count : UInt64)
  /-- Copy between disjoint ranges. -/
  | copy (src dst : Address) (count : UInt64)
  /-- Copy between any ranges. -/
  | copyOverlapping (src dst : Address) (count : UInt64)
  /-- Make a view of foreign memory. -/
  | view (kind : ElementKind) (a : Address) (capacity : UInt64) (target : Option String)
  /-- Make a view of a buffer. -/
  | bufferView (buffer : String) (kind : ElementKind) (target : Option String)
  /-- Bind a view to other memory. The name of the view is given up in any case. -/
  | rebind (view : String) (a : Address) (capacity : UInt64) (target : Option String)
  /-- Make a view of the bytes in front of the first zero byte. -/
  | viewToZeroByte (a : Address) (target : Option String)
  /-- Make a view of the bytes in front of the first zero unit. -/
  | viewToZeroUnit (a : Address) (target : Option String)
  /-- The addresses of a view. -/
  | addresses (view : String) (index : UInt64)
  /-- The addresses of no view. -/
  | addressesOfNone (index : UInt64)
  /-- Decode no bytes. -/
  | decodeNone (request : Text.DecodeRequest)
  /-- Look at a view. -/
  | state (view : String)
  /-- Move the cursor of a view. -/
  | setPosition (view : String) (position : UInt64)
  /-- Move the cursor of a view to the first element. -/
  | rewind (view : String)
  /-- Read an element by index. -/
  | get (view : String) (index : UInt64)
  /-- Store an element by index. -/
  | put (view : String) (index : UInt64) (value : Int)
  /-- Read the element at the cursor. -/
  | read (view : String)
  /-- Store an element at the cursor. -/
  | write (view : String) (value : Int)
  /-- Read the elements from the cursor on. -/
  | toList (view : String)
  /-- Read a 16-bit unit of a byte view. -/
  | getUnit (view : String) (index : UInt64)
  /-- Store a 16-bit unit in a byte view. -/
  | putUnit (view : String) (index : UInt64) (value : Int)
  /-- The bytes of a byte view. -/
  | bytes (view : String)
  /-- Dump the bytes of a byte view from the cursor on. -/
  | hexdump (view : String) (width : UInt64)
  /-- Decode the bytes of a byte view from the cursor on. -/
  | decode (view : String) (request : Text.DecodeRequest)
  /-- Set aside a zeroed buffer. -/
  | allocate (size : UInt64) (target : Option String)
  /-- Set aside a buffer that holds the given bytes. -/
  | ofBytes (bytes : List UInt8) (target : Option String)
  /-- Set aside a buffer that holds an encoded text. -/
  | encode (request : Text.EncodeRequest) (target : Option String)
  /-- Set aside a copy of a buffer. -/
  | clone (buffer : String) (target : Option String)
  /-- Look at a buffer. -/
  | bufferState (buffer : String)
  /-- Cut a buffer short. -/
  | truncate (buffer : String) (length : UInt64)
  /-- Store the same byte everywhere in a buffer. -/
  | fill (buffer : String) (b : UInt8)
  /-- Compare the bytes of two buffers. -/
  | equal (buffer other : String)
  /-- Pin an object. -/
  | pin (object : PinnedObject)
  /-- Look up a pinned object. -/
  | resolve (handle : UInt64) (type : PinType)
  /-- Pin a pinned object once more. -/
  | repin (handle : UInt64) (type : PinType)
  /-- Release a pinned object. -/
  | release (handle : UInt64)

/-- What a session answers when an operation succeeds. -/
inductive Answer where
  /-- Nothing but success. -/
  | done
  /-- Bytes of memory or of a buffer. -/
  | bytes (bytes : List UInt8)
  /-- The report on the handle. -/
  | info (report : Handle.Report)
  /-- A view. -/
  | view (view : AnyView)
  /-- That there is no view. -/
  | noView
  /-- The addresses of a view, and those it has if it is allowed to be missing. -/
  | addresses (plain orNull : Handle.ViewAddresses)
  /-- The addresses of a missing view. -/
  | addressesOfNone (orNull : Handle.ViewAddresses)
  /-- A decoded text, missing where there were no bytes. -/
  | text (text : Option String)
  /-- An element. -/
  | element (kind : ElementKind) (bits : kind.Bits)
  /-- An element, and where the cursor is after it. -/
  | elementThen (kind : ElementKind) (bits : kind.Bits) (position : UInt64)
  /-- Where the cursor is. -/
  | position (position : UInt64)
  /-- A list of elements. -/
  | elements (kind : ElementKind) (bits : List kind.Bits)
  /-- A 16-bit unit. -/
  | unit (unit : BitVec 16)
  /-- All bytes of a view, and those from the cursor on. -/
  | viewBytes (all remaining : List UInt8)
  /-- A dump. -/
  | dump (text : String)
  /-- A buffer with its bytes. -/
  | buffer (buffer : Buffer) (bytes : List UInt8)
  /-- A buffer with its bytes, to be described in full. -/
  | bufferInFull (buffer : Buffer) (bytes : List UInt8)
  /-- The length of a buffer. -/
  | length (length : UInt64)
  /-- Whether two buffers hold the same bytes. -/
  | equal (equal : Bool)
  /-- That zero is no handle. -/
  | nullHandle
  /-- A new handle, and how many objects are pinned. -/
  | pinned (handle : UInt64) (count : Nat)
  /-- A pinned object, missing where the handle has none of that type. -/
  | object (object : Option PinnedObject)
  /-- A new handle of a pinned object with the count, missing where the handle has no such object. -/
  | repinned (handle : Option (UInt64 × Nat))
  /-- A released object, and how many objects remain pinned. -/
  | released (object : PinnedObject) (count : Nat)
deriving DecidableEq

/-- Why an operation fails. -/
inductive Failure where
  /-- The operation on memory fails. -/
  | memory (error : MemoryError)
  /-- No view has this name. -/
  | unknownView (name : String)
  /-- No buffer has this name. -/
  | unknownBuffer (name : String)
  /-- The view of this name is no byte view. -/
  | notBytes (name : String)
  /-- There is no handle left. -/
  | noHandle
deriving DecidableEq

end RawMemory.Session
