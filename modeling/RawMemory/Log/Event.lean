import RawMemory.Accessor.Kind
import RawMemory.Log.Level
import RawMemory.Text.Charset

/-!
# Events

What the library tells a log. An event is a thing that happened, with its particulars; its level, its
target and its words follow from that. `Traced` is a computation that reports events along the way.
-/

namespace RawMemory

/-- A particular of an event. -/
inductive FieldValue where
  /-- A number. -/
  | number (n : Nat)
  /-- A text. -/
  | text (s : String)
deriving DecidableEq

/-- A thing worth logging. -/
inductive Event where
  /-- The setting of the accessor means no kind. -/
  | accessorIgnored (word : String)
  /-- The setting of the checked mode is no truth value. -/
  | checkedIgnored (word : String)
  /-- An accessor failed its self-test. -/
  | accessorRejected (kind : AccessorKind) (reason : String)
  /-- An accessor was chosen. -/
  | accessorSelected (kind : AccessorKind) (pageSize pointerSize : UInt64)
  /-- Encoding took a larger output of `size` bytes, with `written` bytes done. -/
  | encodeGrew (charset : Charset) (size written : Nat)
  /-- Decoding took a larger output of `size` units, with `written` units done. -/
  | decodeGrew (charset : Charset) (size written : Nat)
  /-- An object was pinned. -/
  | pinned (handle : UInt64)
  /-- A pinned object was released. -/
  | released (handle : UInt64)
  /-- A command encodes without checks because the charset is ASCII. -/
  | narrowPath
  /-- A command encodes without checks because the charset is native UTF-16. -/
  | widePath
  /-- A command has encoded its text. -/
  | encoded (charset : Charset) (bytes : Nat)
deriving DecidableEq

namespace Event

/-- How important the event is. -/
def level : Event → LogLevel
  | accessorIgnored _ | checkedIgnored _ => .warn
  | accessorRejected .. | narrowPath | widePath => .debug
  | accessorSelected .. | encoded .. => .info
  | encodeGrew .. | decodeGrew .. | pinned _ | released _ => .trace

/-- The part of the program that reports the event. -/
def target : Event → String
  | accessorIgnored _ | checkedIgnored _ => "nativemem_core::config"
  | accessorRejected .. | accessorSelected .. => "nativemem_core::platform"
  | encodeGrew .. | decodeGrew .. => "nativemem_core::text"
  | pinned _ | released _ => "nativemem_core::pin"
  | narrowPath | widePath | encoded .. => "nativemem"

/-- The event in words. -/
def message : Event → String
  | accessorIgnored word => "Ignoring NATIVEMEM_ACCESSOR: " ++ AccessorKind.unknown word
  | checkedIgnored word =>
    "Ignoring NATIVEMEM_CHECKED: expected a boolean, found '" ++ word ++ "'"
  | accessorRejected _ reason => "Memory accessor probe failed: " ++ reason
  | accessorSelected .. => "Selected memory accessor"
  | encodeGrew .. => "Growing encode buffer"
  | decodeGrew .. => "Growing decode buffer"
  | pinned _ => "Pinned object"
  | released _ => "Released pinned object"
  | narrowPath => "Using ASCII fast path"
  | widePath => "Using native UTF-16 fast path"
  | encoded .. => "Encoded text"

/-- The particulars of the event by name. -/
def fields : Event → List (String × FieldValue)
  | accessorIgnored _ | checkedIgnored _ | narrowPath | widePath => []
  | accessorRejected kind _ => [("accessor", .text kind.name)]
  | accessorSelected kind pageSize pointerSize =>
    [("accessor", .text kind.name), ("page_size", .number pageSize.toNat),
      ("pointer_size", .number pointerSize.toNat)]
  | encodeGrew charset size written | decodeGrew charset size written =>
    [("charset", .text charset.name), ("size", .number size), ("written", .number written)]
  | pinned handle | released handle => [("handle", .number handle.toNat)]
  | encoded charset bytes => [("charset", .text charset.name), ("bytes", .number bytes)]

/-- The names under which the event carries something, its words among them. -/
def names (e : Event) : List String := "message" :: e.fields.map (·.1)

end Event

/-- A value with the events reported on the way to it. -/
structure Traced (α : Type) where
  /-- The value. -/
  value : α
  /-- The events, the first one first. -/
  events : List Event := []

/-- Computations one after the other report their events in that order. -/
instance : Monad Traced where
  pure a := ⟨a, []⟩
  bind x f :=
    let y := f x.value
    ⟨y.value, x.events ++ y.events⟩

/-- A computation that reports one event. -/
def Traced.report (e : Event) : Traced Unit := ⟨(), [e]⟩

@[simp] theorem Traced.value_pure {α : Type} (a : α) : (pure a : Traced α).value = a := rfl

end RawMemory
