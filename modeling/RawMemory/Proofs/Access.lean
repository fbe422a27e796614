import RawMemory.Handle
import RawMemory.Pin
import RawMemory.Proofs.Heap

/-!
# What operations leave

An operation succeeds or fails, and leaves a state either way. `Stateful.Acts` says how that state is
related to the one before, of a success and of a failure apart, and `Stateful.Acts.bind` carries this from
one step of an operation to the next. A step that fails ends the operation, so what counts is what had been
done by then.

* `Stateful.Atomic`: operations that have changed nothing when they fail. They make all their checks first
  (`Stateful.Looks`), and nothing that comes behind a change can fail (`Stateful.Total`).
* `Access.atomic_put`, `Access.atomic_write`, `Access.atomic_set`, `Access.atomic_copy` and others: storing
  to a view and in bulk, moving its cursor, and giving up a handle are atomic.
* `Access.SetsAside`: if no buffer can be set aside, memory is as before (`Heap.Same`), though storage has
  been asked for. This holds of all ways of making a buffer.
-/

namespace RawMemory

/-! ## Operations in general -/

namespace Stateful

variable {ε σ τ α β : Type} {x : Stateful ε σ α} {f : α → Stateful ε σ β}
variable {done more both failed failedMore : σ → σ → Prop}

/-- How the state that a computation leaves is related to the one before. -/
structure Acts (done failed : σ → σ → Prop) (x : Stateful ε σ α) : Prop where
  /-- What holds of a success. -/
  ok : ∀ {s a t}, x.run.run s = (.ok a, t) → done s t
  /-- What holds of a failure. -/
  error : ∀ {s e t}, x.run.run s = (.error e, t) → failed s t

/-- Anything may be done to the state. -/
def Anything (_ _ : σ) : Prop := True

/-- There is no state that a computation may leave. -/
def Nothing (_ _ : σ) : Prop := False

/-- The computation changes nothing, whether it fails or not. -/
abbrev Looks (x : Stateful ε σ α) : Prop := Acts Eq Eq x

/-- If the computation fails, it has changed nothing. -/
abbrev Atomic (x : Stateful ε σ α) : Prop := Acts Anything Eq x

/-- The computation does not fail. -/
abbrev Total (x : Stateful ε σ α) : Prop := Acts Anything Nothing x

namespace Acts

/-- A weaker relation holds as well. -/
theorem mono (hx : Acts done failed x) (hdone : ∀ {s t}, done s t → more s t)
    (hfailed : ∀ {s t}, failed s t → failedMore s t) : Acts more failedMore x where
  ok hrun := hdone (hx.ok hrun)
  error hrun := hfailed (hx.error hrun)

/-- The second of two computations starts where the first one ends, unless that one fails. -/
theorem bind (hx : Acts done failed x) (hf : ∀ a, Acts more failedMore (f a))
    (hboth : ∀ {s t u}, done s t → more t u → both s u)
    (hfailed : ∀ {s t u}, done s t → failedMore t u → failed s u) : Acts both failed (x >>= f) := by
  constructor
  all_goals
    intro s r u hrun
    rw [run_bind] at hrun
    rcases hfirst : x.run.run s with ⟨e | a, t⟩
    all_goals rw [hfirst] at hrun
  case ok.error => cases hrun
  case ok.ok => exact hboth (hx.ok hfirst) ((hf a).ok hrun)
  case error.error =>
    obtain ⟨-, rfl⟩ := Prod.mk.inj hrun
    exact hx.error hfirst
  case error.ok => exact hfailed (hx.ok hfirst) ((hf a).error hrun)

/-- Each branch has to keep what is asked for. -/
theorem ite {p : Prop} [Decidable p] {y : Stateful ε σ α} (hx : Acts done failed x)
    (hy : Acts done failed y) : Acts done failed (if p then x else y) := by
  split
  · exact hx
  · exact hy

/-- What is done to a part of the state. -/
theorem onPart {part : τ → σ} {put : σ → τ → τ} {doneAll failedAll : τ → τ → Prop}
    (hx : Acts done failed x) (hdone : ∀ {t s}, done (part t) s → doneAll t (put s t))
    (hfailed : ∀ {t s}, failed (part t) s → failedAll t (put s t)) :
    Acts doneAll failedAll (x.onPart part put) := by
  constructor
  all_goals
    intro t r u hrun
    rw [run_onPart] at hrun
    obtain ⟨hresult, rfl⟩ := Prod.mk.inj hrun
  case ok => exact hdone (hx.ok (Prod.ext hresult rfl))
  case error => exact hfailed (hx.error (Prod.ext hresult rfl))

end Acts

/-! ### Looking before changing -/

theorem looks_pure (a : α) : Looks (pure a : Stateful ε σ α) :=
  ⟨fun hrun => (Prod.mk.inj hrun).2, fun hrun => (Prod.mk.inj hrun).2⟩

/-- To fail is to change nothing. -/
theorem looks_throw (e : ε) : Looks (throw e : Stateful ε σ α) :=
  ⟨fun hrun => (Prod.mk.inj hrun).2, fun hrun => (Prod.mk.inj hrun).2⟩

/-- To look at the state is to change nothing. -/
theorem looks_get : Looks (get : Stateful ε σ σ) :=
  ⟨fun hrun => (Prod.mk.inj hrun).2, fun hrun => (Prod.mk.inj hrun).2⟩

/-- A check that does not look at the state at all. -/
theorem looks_check (r : Except ε α) : Looks (liftM r : Stateful ε σ α) := by
  cases r with
  | ok a => exact looks_pure a
  | error e => exact looks_throw e

theorem total_pure (a : α) : Total (pure a : Stateful ε σ α) := ⟨fun _ => trivial, nofun⟩

/-- To change the state never fails. -/
theorem total_modify (g : σ → σ) : Total (modify g : Stateful ε σ Unit) := ⟨fun _ => trivial, nofun⟩

/-- What never fails has nothing to undo. -/
theorem Total.atomic (hx : Total x) : Atomic x := hx.mono id False.elim

/-- To look first does not matter to what is done then. -/
theorem Looks.thenAtomic (hx : Looks x) (hf : ∀ a, Atomic (f a)) : Atomic (x >>= f) :=
  Acts.bind hx hf (fun _ _ => trivial) Eq.trans

/-- More may be done after a change, as long as it cannot fail any more. -/
theorem Atomic.thenTotal (hx : Atomic x) (hf : ∀ a, Total (f a)) : Atomic (x >>= f) :=
  Acts.bind hx hf (fun _ _ => trivial) fun _ => False.elim

/-- An atomic computation is told by what it returns and leaves when it succeeds. -/
theorem Atomic.run_eq (hx : Atomic x) (s : σ) :
    x.run.run s =
      match x.result s with
      | .ok (a, t) => (.ok a, t)
      | .error e => (.error e, s) := by
  rw [result]
  rcases hrun : x.run.run s with ⟨e | a, t⟩
  · exact Prod.ext rfl (hx.error hrun).symm
  · rfl

end Stateful

/-! ## Views and bulk operations -/

namespace Access

open Stateful

variable {kind : ElementKind}

/-- A position is checked before the cursor moves. -/
theorem atomic_setPosition (position : UInt64) :
    Atomic (setPosition position : Access (View kind) Unit) :=
  looks_get.thenAtomic fun _ => .ite ((looks_throw _).thenAtomic fun _ => (total_modify _).atomic)
    (total_modify _).atomic

/-- The store has no part in what is done to the view alone. -/
theorem atomic_onCursor {x : Access (View kind) Unit} (hx : Atomic x) : Atomic (onCursor x) :=
  hx.onPart (fun _ => trivial) fun h => h ▸ rfl

/-- An index is checked before an element is stored. -/
theorem atomic_put (index : UInt64) (element : kind.Bits) : Atomic (put index element) :=
  looks_get.thenAtomic fun _ => (looks_check _).thenAtomic fun _ => (total_modify _).atomic

/-- To store an element does nothing to the view. -/
theorem view_of_put {index : UInt64} {element : kind.Bits} {m : Store} {v : View kind} {a : Unit}
    {w : Focus kind} (h : (put index element).result ⟨m, v⟩ = .ok (a, w)) : w.view = v := by
  rw [put, result_get_bind, result_check_bind] at h
  rcases hcheck : v.checkIndex index with e | _
  all_goals
    rw [hcheck] at h
    cases h
  rfl

/-- To store a unit does nothing to the view. -/
theorem view_of_putUnit {index : UInt64} {unit : BitVec 16} {m : Store} {v : View .byte} {a : Unit}
    {w : Focus .byte} (h : (putUnit index unit).result ⟨m, v⟩ = .ok (a, w)) : w.view = v := by
  rw [putUnit, result_get_bind, result_check_bind] at h
  rcases hcheck : v.checkIndex (Word.addSat index 1) with e | _
  all_goals
    rw [hcheck] at h
    cases h
  rfl

/-- The cursor moves after the element is read, if there is one. -/
theorem atomic_read : Atomic (read : Access (Focus kind) kind.Bits) :=
  looks_get.thenAtomic fun _ => (looks_check _).thenAtomic fun _ =>
    (total_modify _).atomic.thenTotal fun _ => total_pure _

/-- The cursor moves after the element is stored. -/
theorem atomic_write (element : kind.Bits) : Atomic (write element) :=
  looks_get.thenAtomic fun f => (atomic_put f.view.position element).thenTotal fun _ => total_modify _

/-- Both bytes of a unit are checked before either is stored. -/
theorem atomic_putUnit (index : UInt64) (unit : BitVec 16) : Atomic (putUnit index unit) :=
  looks_get.thenAtomic fun _ => (looks_check _).thenAtomic fun _ => (total_modify _).atomic

variable (h : Handle)

/-- All arguments are checked before a byte is filled. -/
theorem atomic_set (a : Address) (b : UInt8) (count : UInt64) : Atomic (set h a b count) :=
  (looks_check _).thenAtomic fun _ => (looks_check _).thenAtomic fun _ => (total_modify _).atomic

/-- All arguments are checked before a byte is copied, and so is the overlap. -/
theorem atomic_copy (src dst : Address) (count : UInt64) : Atomic (copy h src dst count) :=
  (looks_check _).thenAtomic fun _ => (looks_check _).thenAtomic fun _ => (looks_check _).thenAtomic fun _ =>
    (looks_check _).thenAtomic fun _ => (total_modify _).atomic

/-- All arguments are checked before a byte is moved. -/
theorem atomic_copyOverlapping (src dst : Address) (count : UInt64) :
    Atomic (copyOverlapping h src dst count) :=
  (looks_check _).thenAtomic fun _ => (looks_check _).thenAtomic fun _ => (looks_check _).thenAtomic fun _ =>
    (total_modify _).atomic

/-- A handle is given up before its object is looked at, which is no change if there is none. -/
theorem atomic_release {α : Type} (handle : UInt64) :
    Atomic (release handle : Access (PinTable α) α) where
  ok _ := trivial
  error {t e u} hrun := by
    rw [PinTable.run_release] at hrun
    rcases hobject : t.live.get? handle with _ | object
    · rw [hobject] at hrun
      obtain ⟨-, rfl⟩ := Prod.mk.inj hrun
      rw [PinTable.remove, Table.erase_eq_self hobject]
    · rw [hobject] at hrun
      cases hrun

end Access

/-! ## Buffers -/

/-- Memory is the same, though storage may have been asked for. -/
structure Heap.Same (h h' : Heap) : Prop where
  /-- All bytes are the same. -/
  store_eq : h'.store = h.store
  /-- Storage is asked for in the same place. -/
  allocator_eq : h'.allocator = h.allocator
  /-- The same blocks are set aside. -/
  blocks_eq : h'.blocks = h.blocks

theorem Heap.Same.refl (h : Heap) : h.Same h := ⟨rfl, rfl, rfl⟩

/-- Memory after a request for storage that was refused. One that is too large is not even passed on. -/
def Heap.refuse (h : Heap) (size : UInt64) : Heap :=
  if largestBlock < Buffer.storageSize size then h else h.asked

/-- A request that was refused is counted, and that is all. -/
theorem Heap.same_refuse (h : Heap) (size : UInt64) : h.Same (h.refuse size) := by
  rw [refuse]
  split <;> exact ⟨rfl, rfl, rfl⟩

namespace Access

/-- An operation that makes a buffer of a size. -/
structure SetsAside (size : UInt64) (x : Access Heap Buffer) : Prop where
  /-- If storage is granted, the buffer has a block of its own there. -/
  granted : ∀ {h : Heap} {a : Address}, h.place? size = some a →
    ∃ h', x.run.run h = (.ok ⟨a, size, size⟩, h') ∧ h.Gives ⟨a, size, size⟩ h'
  /-- If it is refused, nothing has been done but to ask. -/
  refused : ∀ {h : Heap}, h.place? size = none →
    x.run.run h = (.error (.allocationFailed size), h.refuse size)

/-- A zeroed buffer is set aside with all the bytes that were asked for. -/
theorem setsAside_allocate (size : UInt64) : SetsAside size (allocate size) where
  granted {h a} hplace := by
    rw [Heap.run_allocate, hplace]
    exact ⟨_, rfl, hplace, rfl, rfl, rfl, rfl⟩
  refused {h} hplace := by rw [Heap.run_allocate, hplace, Heap.refuse]

/-- What is stored in a buffer afterwards does not move it, and nothing is stored without it. -/
theorem setsAside_allocateWith (size : UInt64) (store : Buffer → Store → Store) :
    SetsAside size (allocateWith size store) where
  granted {h a} hplace := by
    obtain ⟨h', hrun, -, hallocated, hblocks, hallocator, hrequests⟩ :=
      (setsAside_allocate size).granted hplace
    rw [Heap.run_allocateWith, hrun]
    exact ⟨_, rfl, hplace, hallocated, hblocks, hallocator, hrequests⟩
  refused {h} hplace := by rw [Heap.run_allocateWith, (setsAside_allocate size).refused hplace]

/-- There is a byte for each of those that are to be held. -/
theorem setsAside_ofBytes (bytes : List UInt8) :
    SetsAside (UInt64.ofNatClamp bytes.length) (ofBytes bytes) := setsAside_allocateWith ..

theorem setsAside_clone (b : Buffer) : SetsAside b.length (clone b) := setsAside_allocateWith ..

theorem setsAside_grow (b : Buffer) (size keep : UInt64) : SetsAside size (grow b size keep) :=
  setsAside_allocateWith ..

namespace SetsAside

variable {size : UInt64} {x : Access Heap Buffer} {h h' : Heap} {b : Buffer} {e : MemoryError}

/-- A new buffer has a block of its own. -/
theorem gives (hx : SetsAside size x) (hrun : x.run.run h = (.ok b, h')) : h.Gives b h' := by
  rcases hplace : h.place? size with _ | a
  · cases (hx.refused hplace).symm.trans hrun
  · obtain ⟨left, hgranted, hgives⟩ := hx.granted hplace
    cases hgranted.symm.trans hrun
    exact hgives

/-- Without one memory is as before. -/
theorem same (hx : SetsAside size x) (hrun : x.run.run h = (.error e, h')) : h.Same h' := by
  rcases hplace : h.place? size with _ | a
  · cases (hx.refused hplace).symm.trans hrun
    exact h.same_refuse size
  · obtain ⟨left, hgranted, -⟩ := hx.granted hplace
    cases hgranted.symm.trans hrun

end SetsAside

end Access

end RawMemory
