import RawMemory.Address
import RawMemory.Element
import RawMemory.Text.Charset

/-!
# Errors

What an operation on memory can fail with. Each error is a cause with its particulars; `message` is the
one place that puts it into words.
-/

namespace RawMemory

/-- What an address is given for. -/
inductive AddressRole where
  /-- The base of a view. -/
  | view
  /-- The beginning of a terminated string. -/
  | string
  /-- The target of a bulk operation. -/
  | destination
  /-- The origin of a bulk operation. -/
  | source
deriving DecidableEq

/-- The name of the role in messages. -/
def AddressRole.name : AddressRole → String
  | view => "view"
  | string => "string"
  | destination => "destination"
  | source => "source"

/-- Why an argument is refused. -/
inductive ArgumentError where
  /-- An address is null or in the upper half of the address space. -/
  | address (role : AddressRole) (address : Address)
  /-- More bytes than one object may have. -/
  | byteCount (bytes : UInt64)
  /-- A view larger than one object may be. -/
  | capacity (capacity : UInt64) (kind : ElementKind)
  /-- The two ranges of a plain copy share a byte. -/
  | overlap (bytes : UInt64) (src dst : Address)
  /-- The place of the process-wide handle is taken. -/
  | installed
  /-- Any other reason, in words. -/
  | other (reason : String)
deriving DecidableEq

/-- The reason in words. -/
def ArgumentError.message : ArgumentError → String
  | address role a => role.name ++ " address " ++ a.text ++ " must be non-null and non-negative"
  | byteCount bytes => "byte count " ++ toString bytes.toNat ++ " exceeds isize::MAX"
  | capacity c kind =>
    "capacity " ++ toString c.toNat ++ " of " ++ kind.name ++ " elements exceeds isize::MAX bytes"
  | overlap bytes src dst =>
    "copy of " ++ toString bytes.toNat ++ " bytes from " ++ src.text ++ " to " ++ dst.text ++
      " overlaps; use copy_overlapping"
  | installed => "a global memory handle is already installed"
  | other reason => reason

/-- Why text cannot be coded. -/
inductive CodecFailure where
  /-- The input is not well formed. -/
  | malformed
  /-- The charset lacks a character. -/
  | unmappable
deriving DecidableEq

/-- The failure in words. -/
def CodecFailure.message : CodecFailure → String
  | malformed => "malformed input"
  | unmappable => "unmappable character"

/-- Why an operation on memory failed. -/
inductive MemoryError where
  /-- An argument is refused before anything is done. -/
  | invalidArgument (cause : ArgumentError)
  /-- A view over owned memory at `address` was to be bound to other memory. -/
  | rebindOwned (address : Address)
  /-- There is no element `index` in a view of `capacity` elements. -/
  | outOfBounds (index capacity : UInt64)
  /-- Text cannot be coded beyond `position` items of the input. -/
  | codec (charset : Charset) (failure : CodecFailure) (position : Nat)
  /-- No charset has this name. -/
  | unsupportedCharset (name : String)
  /-- There is no storage of this size. -/
  | allocationFailed (size : UInt64)
  /-- No accessor can be used, for the reason given in words. -/
  | accessorUnavailable (reason : String)
  /-- Nothing is pinned under this handle. -/
  | invalidPin (handle : UInt64)
deriving DecidableEq

/-- The error in words. -/
def MemoryError.message : MemoryError → String
  | invalidArgument cause => "Invalid argument: " ++ cause.message
  | rebindOwned address => "Cannot rebind a view over owned memory at " ++ address.text
  | outOfBounds index capacity =>
    "Index " ++ toString index.toNat ++ " out of bounds for view of capacity " ++
      toString capacity.toNat
  | codec charset failure position =>
    charset.name ++ " codec failed at position " ++ toString position ++ ": " ++ failure.message
  | unsupportedCharset name => "Unsupported charset: " ++ name
  | allocationFailed size => "Failed to allocate " ++ toString size.toNat ++ " bytes"
  | accessorUnavailable reason => "No usable memory accessor: " ++ reason
  | invalidPin handle => "Invalid pin handle: 0x" ++ String.ofList (Hex.shortest handle.toNat)

/-- The charset known under a name. -/
def Charset.ofName (name : String) : Except MemoryError Charset :=
  match Charset.ofName? name with
  | some charset => .ok charset
  | none => .error (.unsupportedCharset name)

end RawMemory
