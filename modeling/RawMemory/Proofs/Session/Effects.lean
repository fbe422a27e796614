import RawMemory.Proofs.Access
import RawMemory.Proofs.Text.Placed
import RawMemory.Session.Run

/-!
# What operations change

A session runs operations on parts of its state, and what such an operation has done before it fails stays
done. So whether a failure leaves the state as it was depends on the order in which the operation checks and
stores; that it makes its checks first is proved of each one by itself (`Stateful.Atomic`). Here this is
carried over to sessions.

* `SameBut`: all but the events is the same, where memory may be in a wider relation to what it was.
* `Moves`: what a success may do, which is to change one of the views and to set blocks aside.
* `Step.acts_perform`: an operation that fails leaves all but the events as it was, and one that succeeds
  changes at most one view. Encoding may have stored to blocks that it has given back (`Operation.Leaves`).
  Only rebinding, which gives up a view before it can fail, is not of this form (`step_rebind`).
-/

namespace RawMemory.Session

/-! ## The views of an operation -/

namespace Operation

/-- The name under which an operation keeps a view that it makes. -/
def madeView? : Operation → Option String
  | .view _ _ _ target | .bufferView _ _ target | .rebind _ _ _ target => target
  | .viewToZeroByte _ target | .viewToZeroUnit _ target => target
  | _ => none

/-- The name of the view that an operation uses up. -/
def usedUp? : Operation → Option String
  | .rebind name .. => some name
  | _ => none

/-- The name of the view whose cursor an operation may move. -/
def movedView? : Operation → Option String
  | .setPosition name _ | .rewind name | .read name | .write name _ => some name
  | _ => none

/-- The name of the view that an operation may make or move. -/
def changedView? (op : Operation) : Option String :=
  match op.movedView? with
  | some name => some name
  | none => op.madeView?

/-- Only rebinding uses up a view. -/
theorem eq_rebind {op : Operation} {name : String} (h : op.usedUp? = some name) :
    ∃ a capacity target, op = .rebind name a capacity target := by
  cases op with
  | rebind used a capacity target =>
    obtain rfl := Option.some.inj h
    exact ⟨a, capacity, target, rfl⟩
  | _ => cases h

end Operation

/-! ## States before and after -/

/-- Two states differ in the events reported, and their memory is in a relation. All else is the same. -/
structure SameBut (related : Heap → Heap → Prop) (s t : State) : Prop where
  /-- Memory is related to what it was. -/
  heap : related s.heap t.heap
  /-- The pinned objects are the same. -/
  pins : t.pins = s.pins
  /-- The views are the same. -/
  views : t.views = s.views
  /-- The buffers are the same. -/
  buffers : t.buffers = s.buffers

/-- Two states have the same views, but for the one of a name. -/
def SameButView (name? : Option String) (s t : State) : Prop :=
  ∀ name, name? ≠ some name → t.views.get? name = s.views.get? name

/-- The blocks of a state lie apart, and each of its buffers has one. -/
structure State.Tidy (s : State) : Prop where
  /-- Blocks lie apart, and the allocator keeps its promises. -/
  heap : s.heap.Tidy
  /-- The block of each buffer is set aside. -/
  block_mem : ∀ {name b}, s.buffers.get? name = some b → b.block ∈ s.heap.blocks
  /-- No buffer has more bytes than were set aside for it. -/
  length_le : ∀ {name b}, s.buffers.get? name = some b → b.length ≤ b.allocated

/-- What a successful operation may do to the state, where it changes no view but the one of a name. -/
structure Moves (name? : Option String) (s t : State) : Prop where
  /-- All other views are the same. -/
  views : SameButView name? s t
  /-- Blocks still lie apart. -/
  tidy : s.Tidy → t.Tidy

/-- How memory is left by an operation that fails. To encode, storage is set aside and given back. -/
def Operation.Leaves : Operation → Heap → Heap → Prop
  | .encode .. => fun h h' => h.Tidy → h.Spares h'
  | _ => Heap.Same

section

variable {name? : Option String} {s t u : State} {related more both : Heap → Heap → Prop}

/-- A state is related to itself if its heap is. -/
theorem SameBut.of_heap (hheap : related s.heap s.heap) : SameBut related s s := ⟨hheap, rfl, rfl, rfl⟩

/-- Less may be said of the heap. -/
theorem SameBut.mono (hs : SameBut related s t) (hmore : related s.heap t.heap → more s.heap t.heap) :
    SameBut more s t := ⟨hmore hs.heap, hs.pins, hs.views, hs.buffers⟩

/-- Two steps that leave the same things leave them together. -/
theorem SameBut.trans (hs : SameBut related s t) (ht : SameBut more t u)
    (hboth : related s.heap t.heap → more t.heap u.heap → both s.heap u.heap) : SameBut both s u :=
  ⟨hboth hs.heap ht.heap, ht.pins.trans hs.pins, ht.views.trans hs.views, ht.buffers.trans hs.buffers⟩

theorem SameButView.of_eq (h : t.views = s.views) : SameButView name? s t :=
  fun name _ => congrArg (Table.get? · name) h

/-- Two steps about one view are about no other. -/
theorem SameButView.trans (h : SameButView name? s t) (h' : SameButView name? t u) :
    SameButView name? s u := fun name hname => (h' name hname).trans (h name hname)

/-- A session may start with any memory in which no storage is set aside. -/
theorem State.tidy_of_documented (halloc : s.heap.allocator.Documented) (hblocks : s.heap.blocks = [])
    (hbuffers : s.buffers = {}) : s.Tidy where
  heap := Heap.tidy_of_blocks_eq_nil halloc hblocks
  block_mem hfound := by rw [hbuffers, Table.get?_empty] at hfound; cases hfound
  length_le hfound := by rw [hbuffers, Table.get?_empty] at hfound; cases hfound

/-- As long as the blocks and the buffers are the same, they are tidy. -/
theorem State.Tidy.of_eq (hs : s.Tidy) (hheap : t.heap.Tidy) (hblocks : t.heap.blocks = s.heap.blocks)
    (hbuffers : t.buffers = s.buffers) : t.Tidy where
  heap := hheap
  block_mem hfound := hblocks ▸ hs.block_mem (hbuffers ▸ hfound)
  length_le hfound := hs.length_le (hbuffers ▸ hfound)

/-- A new block lies apart from those of the buffers that there are. -/
theorem State.Tidy.gives (hs : s.Tidy) {b : Buffer} {heap : Heap} (hb : s.heap.Gives b heap) :
    ({ s with heap } : State).Tidy where
  heap := hb.tidy hs.heap
  block_mem hfound := hb.blocks_eq ▸ List.mem_cons_of_mem _ (hs.block_mem hfound)
  length_le := hs.length_le

/-- A buffer with a block may be kept under any name. Another buffer of that name is forgotten, and its block
stays set aside. -/
theorem State.Tidy.nameBuffer (hs : s.Tidy) {b : Buffer} (hblock : b.block ∈ s.heap.blocks)
    (hlength : b.length ≤ b.allocated) (name : String) :
    ({ s with buffers := s.buffers.insert name b } : State).Tidy := by
  refine ⟨hs.heap, fun {other c} hfound => ?_, fun {other c} hfound => ?_⟩
  all_goals
    change (s.buffers.insert name b).get? other = some c at hfound
    rw [Table.get?_insert] at hfound
    split at hfound
  · obtain rfl := Option.some.inj hfound
    exact hblock
  · exact hs.block_mem hfound
  · obtain rfl := Option.some.inj hfound
    exact hlength
  · exact hs.length_le hfound

theorem Moves.refl (s : State) : Moves name? s s := ⟨.of_eq rfl, id⟩

/-- What each of two steps keeps, both keep. -/
theorem Moves.trans (h : Moves name? s t) (h' : Moves name? t u) : Moves name? s u :=
  ⟨h.views.trans h'.views, fun hs => h'.tidy (h.tidy hs)⟩

/-- To store to memory, and to do something to views and pinned objects, leaves the blocks where they are. -/
theorem Moves.of_eq (hviews : SameButView name? s t) (hblocks : t.heap.blocks = s.heap.blocks)
    (hallocator : t.heap.allocator = s.heap.allocator) (hbuffers : t.buffers = s.buffers) : Moves name? s t :=
  ⟨hviews, fun hs => hs.of_eq (hs.heap.of_blocks_eq hblocks hallocator) hblocks hbuffers⟩

/-- Where nothing has changed at all, no view has moved. -/
theorem SameBut.moves (h : SameBut Eq s t) : Moves name? s t :=
  .of_eq (.of_eq h.views) (h.heap ▸ rfl) (h.heap ▸ rfl) h.buffers

/-- Whatever an operation leaves when it fails, blocks still lie apart. -/
theorem SameBut.tidy (h : SameBut (fun h h' => h.Tidy → h.Spares h') s t) (hs : s.Tidy) : t.Tidy :=
  have hspares := h.heap hs.heap
  hs.of_eq (hspares.tidy hs.heap) hspares.blocks_eq h.buffers

/-- Whatever an operation that fails has done to memory, the blocks in use are as they were. -/
theorem Operation.Leaves.spares {op : Operation} {h h' : Heap} (hleft : op.Leaves h h') (ht : h.Tidy) :
    h.Spares h' := by
  cases op with
  | encode request target => exact hleft ht
  | _ => exact Heap.Same.spares hleft

end

/-- A state after something was done to the view of a name and to the bytes of memory. -/
def State.withFocus (s : State) (name : String) {kind : ElementKind} (f : Focus kind) : State :=
  { s with heap := { s.heap with store := f.store }, views := s.views.replace name ⟨kind, f.view⟩ }

/-- The view that is looked at stays under its name. -/
theorem State.get?_withFocus (s : State) {name : String} {v : AnyView} (hfound : s.views.get? name = some v)
    {kind : ElementKind} (f : Focus kind) : (s.withFocus name f).views.get? name = some ⟨kind, f.view⟩ := by
  rw [State.withFocus, Table.get?_replace, if_pos rfl, hfound, Option.map_some]

/-- The other views are where they were. -/
theorem State.get?_withFocus_of_ne (s : State) {name other : String} (hne : name ≠ other) {kind : ElementKind}
    (f : Focus kind) : (s.withFocus name f).views.get? other = s.views.get? other := by
  rw [State.withFocus, Table.get?_replace, if_neg hne]

/-- To put back what was there changes nothing. -/
theorem State.withFocus_eq_self (s : State) {name : String} {kind : ElementKind} {v : View kind}
    (hfound : s.views.get? name = some ⟨kind, v⟩) : s.withFocus name ⟨s.heap.store, v⟩ = s := by
  rw [State.withFocus, Table.replace_eq_self hfound]

/-! ## Computations on the state -/

namespace Step

open Stateful (Atomic Anything Nothing)

variable {α β γ : Type} {name? : Option String} {x : Step α} {f : α → Step β}

/-- The computation changes nothing, whether it fails or not. It may report events. -/
abbrev Looks (x : Step α) : Prop := Stateful.Acts (SameBut Eq) (SameBut Eq) x

/-- The computation does not fail, and keeps all views but the one of a name. -/
abbrev Succeeds (name? : Option String) (x : Step α) : Prop := Stateful.Acts (Moves name?) Nothing x

/-- If the computation fails it has changed nothing, and if it succeeds it keeps all views but the one of
a name. -/
abbrev Acts (name? : Option String) (x : Step α) : Prop := Stateful.Acts (Moves name?) (SameBut Heap.Same) x

namespace Looks

theorem pure (a : α) : Looks (pure a) :=
  (Stateful.looks_pure a).mono (fun h => h ▸ .of_heap rfl) fun h => h ▸ .of_heap rfl

theorem throw (e : Failure) : Looks (throw e : Step α) :=
  (Stateful.looks_throw e).mono (fun h => h ▸ .of_heap rfl) fun h => h ▸ .of_heap rfl

theorem get : Looks get :=
  Stateful.looks_get.mono (fun h => h ▸ .of_heap rfl) fun h => h ▸ .of_heap rfl

theorem bind (hx : Looks x) (hf : ∀ a, Looks (f a)) : Looks (x >>= f) :=
  Stateful.Acts.bind hx hf (fun h h' => h.trans h' Eq.trans) fun h h' => h.trans h' Eq.trans

/-- Memory may be looked at. -/
theorem store : Looks store := bind get fun _ => pure _

/-- What can be told without the state does not change it. -/
theorem ofExcept (r : Except MemoryError α) : Looks (ofExcept r) := by
  cases r with
  | ok a => exact .pure a
  | error e => exact .throw _

/-- To report events changes nothing else. -/
theorem report (events : State → List Event) :
    Looks (modify fun s => { s with events := s.events ++ events s } : Step Unit) where
  ok hrun := by
    obtain ⟨-, rfl⟩ := Prod.mk.inj hrun
    exact ⟨rfl, rfl, rfl, rfl⟩
  error hrun := by cases hrun

theorem ofTraced (x : Traced (Except MemoryError α)) : Looks (ofTraced x) :=
  bind (report fun _ => x.events) fun _ => .ofExcept _

/-- To find a view changes nothing, whether there is one or not. -/
theorem findView (name : String) : Looks (findView name) := by
  refine bind .get fun s => ?_
  cases s.views.get? name with
  | some v => exact .pure v
  | none => exact .throw _

/-- To find a view of bytes changes nothing either, though it fails for a view of another kind. -/
theorem findBytes (name : String) : Looks (findBytes name) := by
  refine bind (.findView name) fun ⟨kind, v⟩ => ?_
  cases kind with
  | byte => exact .pure v
  | _ => exact .throw _

/-- To find a buffer changes nothing. -/
theorem findBuffer (name : String) : Looks (findBuffer name) := by
  refine bind .get fun s => ?_
  cases s.buffers.get? name with
  | some b => exact .pure b
  | none => exact .throw _

/-- A step that only looks leaves the state in either case. -/
theorem acts (hx : Looks x) : Acts name? x :=
  hx.mono SameBut.moves fun h => h.mono fun heq => heq ▸ .refl _

/-- To look first does not matter to what is done then. -/
theorem thenActs (hx : Looks x) (hf : ∀ a, Acts name? (f a)) : Acts name? (x >>= f) :=
  Stateful.Acts.bind (hx.mono id fun h => h.mono fun heq => heq ▸ .refl _) hf (fun h => h.moves.trans)
    fun h h' => h.trans h' fun heq hsame => heq ▸ hsame

end Looks

namespace Succeeds

theorem pure (a : α) : Succeeds name? (pure a) :=
  ⟨fun hrun => (Prod.mk.inj hrun).2 ▸ .refl _, nofun⟩

/-- A change of the state, of whatever it makes of it. -/
theorem modify {f : State → State} (h : ∀ s, Moves name? s (f s)) : Succeeds name? (modify f : Step Unit) where
  ok {s _ _} hrun := by
    obtain ⟨-, rfl⟩ := Prod.mk.inj hrun
    exact h s
  error hrun := by cases hrun

/-- The state can always be had. -/
theorem get : Succeeds name? get := ⟨fun hrun => (Prod.mk.inj hrun).2 ▸ .refl _, nofun⟩

/-- Steps that do not fail do not fail one after the other. -/
theorem bind (hx : Succeeds name? x) (hf : ∀ a, Succeeds name? (f a)) : Succeeds name? (x >>= f) :=
  Stateful.Acts.bind hx hf Moves.trans fun _ => id

/-- A step that does not fail has no failure to answer for. -/
theorem acts (hx : Succeeds name? x) : Acts name? x := hx.mono id False.elim

/-- To give a view a name moves the view of that name, and no other. -/
theorem nameView (target : Option String) (v : AnyView) : Succeeds target (nameView target v) := by
  cases target with
  | none => exact .pure ()
  | some name =>
    refine modify fun s => .of_eq (fun other hother => ?_) rfl rfl rfl
    exact (s.views.get?_insert name other v).trans (if_neg fun h => hother (congrArg some h))

theorem answerView {kind : ElementKind} (target : Option String) (v : View kind) :
    Succeeds target (answerView target v) := bind (.nameView target _) fun _ => .pure _

/-- Where there is no view, nothing moves. -/
theorem answerViewOrNone (target : Option String) (v : Option (View .byte)) :
    Succeeds target (answerViewOrNone target v) := by
  cases v with
  | none => exact .pure _
  | some v => exact .answerView target v

end Succeeds

/-- More may be done after a computation that acts, as long as it cannot fail any more. -/
theorem Acts.thenSucceeds (hx : Acts name? x) (hf : ∀ a, Succeeds name? (f a)) : Acts name? (x >>= f) :=
  Stateful.Acts.bind hx hf Moves.trans fun _ => False.elim

/-- Views are as before, but for the one of a name. -/
theorem get?_views {related : Heap → Heap → Prop} (hx : Stateful.Acts (Moves name?) (SameBut related) x)
    {name : String} (hname : name? ≠ some name) (s : State) :
    (x.run.run s).2.views.get? name = s.views.get? name := by
  rcases hrun : x.run.run s with ⟨e | a, t⟩
  · exact congrArg (Table.get? · name) (hx.error hrun).views
  · exact (hx.ok hrun).views name hname

/-- Blocks lie apart, as they did before. -/
theorem tidy {related : Heap → Heap → Prop} (hx : Stateful.Acts (Moves name?) (SameBut related) x)
    (hrelated : ∀ {h h'}, related h h' → h.Tidy → h.Spares h') {s : State} (hs : s.Tidy) :
    (x.run.run s).2.Tidy := by
  rcases hrun : x.run.run s with ⟨e | a, t⟩
  · exact ((hx.error hrun).mono hrelated).tidy hs
  · exact (hx.ok hrun).tidy hs

/-- Keep a view and answer it, if it could be made. -/
def answerMade {kind : ElementKind} (target : Option String) (made : Except MemoryError (View kind)) :
    Step Answer := do
  answerView target (← ofExcept made)

/-- A view that could not be made is not given a name. -/
theorem acts_answerMade {kind : ElementKind} (target : Option String)
    (made : Except MemoryError (View kind)) : Acts target (answerMade target made) :=
  (Looks.ofExcept made).thenActs fun v => (Succeeds.answerView target v).acts

/-! ### Operations on parts of the state -/

/-- What an operation leaves of a part of the state is put back, also if it fails. -/
theorem run_on {σ : Type} (part : State → σ) (put : σ → State → State) (x : Access σ α) (s : State) :
    (on part put x).run.run s =
      match x.run.run (part s) with
      | (.ok a, t) => (.ok a, put t s)
      | (.error e, t) => (.error (.memory e), put t s) := by
  have hadapt : (ExceptT.adapt Failure.memory x).run.run (part s) =
      ((x.run.run (part s)).1.mapError Failure.memory, (x.run.run (part s)).2) := rfl
  rw [on, Stateful.run_onPart, hadapt]
  rcases x.run.run (part s) with ⟨_ | _, _⟩ <;> rfl

/-- An operation on a part of the state does to the state what it does to the part. -/
theorem acts_on {σ : Type} {part : State → σ} {put : σ → State → State} {x : Access σ α}
    {done failed : σ → σ → Prop} (hx : Stateful.Acts done failed x)
    (hdone : ∀ {s t}, done (part s) t → Moves name? s (put t s))
    (hfailed : ∀ {s t}, failed (part s) t → SameBut Heap.Same s (put t s)) : Acts name? (on part put x) := by
  constructor
  all_goals
    intro s r u hrun
    rw [run_on] at hrun
    rcases hpart : x.run.run (part s) with ⟨_ | _, _⟩
    all_goals
      rw [hpart] at hrun
      cases hrun
  case ok.ok => exact hdone (hx.ok hpart)
  case error.error => exact hfailed (hx.error hpart)

/-- To store to memory leaves the blocks where they are. -/
theorem acts_onStore {x : Access Store α} (hx : Atomic x) : Acts name? (onStore x) := by
  have hheap : Stateful.Acts (fun h h' : Heap => h'.blocks = h.blocks ∧ h'.allocator = h.allocator) Eq
      (x.onPart Heap.store fun store heap => { heap with store }) :=
    hx.onPart (fun _ => ⟨rfl, rfl⟩) fun h => h ▸ rfl
  rw [onStore, onHeap]
  exact acts_on hheap (fun h => .of_eq (.of_eq rfl) h.1 h.2 rfl) fun h => h ▸ .of_heap (.refl _)

/-- The pin table is given back as it was if a handle is not known. -/
theorem acts_onPins {x : Access (PinTable PinnedObject) α} (hx : Atomic x) : Acts name? (onPins x) := by
  rw [onPins]
  exact acts_on hx (fun _ => .of_eq (.of_eq rfl) rfl rfl rfl) fun h => h ▸ .of_heap (.refl _)

/-- A buffer that could be set aside is kept under its name. It has a block, and there is no other change. -/
theorem acts_answerBuffer {size : UInt64} {x : Access Heap Buffer} (hx : Access.SetsAside size x)
    (target : Option String) : Acts name? (onHeap x >>= answerBuffer target) := by
  constructor
  all_goals
    intro s r u hrun
    rw [Stateful.run_bind, onHeap, run_on] at hrun
    rcases hmake : x.run.run s.heap with ⟨_ | b, heap⟩
    all_goals rw [hmake] at hrun
  case ok.error => cases hrun
  case error.ok => cases target <;> cases hrun
  case error.error =>
    obtain ⟨-, rfl⟩ := Prod.mk.inj hrun
    exact ⟨hx.same hmake, rfl, rfl, rfl⟩
  case ok.ok =>
    have hgives := hx.gives hmake
    cases target with
    | none =>
      obtain ⟨-, rfl⟩ := Prod.mk.inj hrun
      exact ⟨.of_eq rfl, fun hs => hs.gives hgives⟩
    | some name =>
      obtain ⟨-, rfl⟩ := Prod.mk.inj hrun
      have hblock : b.block ∈ heap.blocks := hgives.blocks_eq ▸ List.mem_cons_self
      exact ⟨.of_eq rfl, fun hs => (hs.gives hgives).nameBuffer hblock
        (hgives.allocated_eq ▸ UInt64.le_refl _) name⟩

/-- An atomic operation on the bytes of memory either puts others in their place or changes nothing. -/
theorem run_onStore {x : Access Store Unit} (hx : Atomic x) (s : State) :
    (do onStore x
        return Answer.done : Step Answer).run.run s =
      match x.after s.heap.store with
      | .ok store => (.ok .done, { s with heap := { s.heap with store } })
      | .error e => (.error (.memory e), s) := by
  rw [Stateful.run_bind, onStore, onHeap, run_on, Stateful.run_onPart, hx.run_eq, Stateful.after]
  cases x.result s.heap.store <;> rfl

/-! ### Operations on a view -/

/-- A view is found under its name. -/
theorem run_findView (name : String) (s : State) :
    (findView name).run.run s =
      match s.views.get? name with
      | some v => (.ok v, s)
      | none => (.error (.unknownView name), s) := by
  change (match s.views.get? name with
    | some v => (pure v : Step AnyView)
    | none => throw (Failure.unknownView name)).run.run s = _
  cases s.views.get? name <;> rfl

/-- What is done with a view is done with the one that has the name. -/
theorem run_findView_bind {name : String} {s : State} {v : AnyView} (hfound : s.views.get? name = some v)
    (f : AnyView → Step β) : (findView name >>= f).run.run s = (f v).run.run s := by
  rw [Stateful.run_bind, run_findView, hfound]

/-- A way of finding the view of a name changes nothing, and what it finds is that view. -/
def Finds (name : String) (find : Step γ) (view : γ → AnyView) : Prop :=
  ∀ s, (∃ e, find.run.run s = (.error e, s)) ∨
    ∃ c, find.run.run s = (.ok c, s) ∧ s.views.get? name = some (view c)

/-- A view of any kind is what it is found as. -/
theorem finds_findView (name : String) : Finds name (findView name) fun v => v := by
  intro s
  rw [run_findView]
  rcases hfound : s.views.get? name with _ | v
  · exact Or.inl ⟨_, rfl⟩
  · exact Or.inr ⟨v, rfl, rfl⟩

/-- A view of bytes is found only as such. -/
theorem finds_findBytes (name : String) : Finds name (findBytes name) (⟨.byte, ·⟩) := by
  intro s
  rw [findBytes, Stateful.run_bind, run_findView]
  rcases hfound : s.views.get? name with _ | ⟨kind, v⟩
  · exact Or.inl ⟨_, rfl⟩
  · cases kind with
    | byte => exact Or.inr ⟨v, rfl, rfl⟩
    | _ => exact Or.inl ⟨_, rfl⟩

/-- An atomic operation on a view and on memory either changes the two or nothing. -/
theorem run_onView {kind : ElementKind} {name : String} {v : View kind} {s : State}
    (hfound : s.views.get? name = some ⟨kind, v⟩) {x : Access (Focus kind) α} (hx : Atomic x) :
    (onView name v x).run.run s =
      match x.result ⟨s.heap.store, v⟩ with
      | .ok (a, f) => (.ok a, s.withFocus name f)
      | .error e => (.error (.memory e), s) := by
  rw [onView, run_on, hx.run_eq]
  cases x.result ⟨s.heap.store, v⟩ with
  | ok made => rfl
  | error e => exact Prod.ext rfl (s.withFocus_eq_self hfound)

/-- What is done to a view that is found, and what is answered then. -/
theorem run_onView_bind {name : String} {find : Step γ} {view : γ → AnyView} (hfind : Finds name find view)
    {δ : γ → Type} {x : (c : γ) → Access (Focus (view c).kind) (δ c)} (hx : ∀ c, Atomic (x c))
    {f : (c : γ) → δ c → Step β}
    (hf : ∀ c a t, (t.views.get? name).isSome → ∃ b, (f c a).run.run t = (.ok b, t)) (s : State) :
    (∃ e, (find >>= fun c => onView name (view c).view (x c) >>= f c).run.run s = (.error e, s)) ∨
      ∃ c a b w, s.views.get? name = some (view c) ∧
        (x c).result ⟨s.heap.store, (view c).view⟩ = .ok (a, w) ∧
        (find >>= fun c => onView name (view c).view (x c) >>= f c).run.run s = (.ok b, s.withFocus name w) := by
  rw [Stateful.run_bind]
  rcases hfind s with ⟨e, hnone⟩ | ⟨c, hsome, hfound⟩
  · exact Or.inl ⟨e, by rw [hnone]⟩
  · rw [hsome]
    dsimp only
    rw [Stateful.run_bind, run_onView hfound (hx c)]
    rcases hresult : (x c).result ⟨s.heap.store, (view c).view⟩ with e | ⟨a, w⟩
    · exact Or.inl ⟨_, rfl⟩
    · -- the view is still there, so that it can be answered
      have hthere : ((s.withFocus name w).views.get? name).isSome := by
        rw [s.get?_withFocus hfound, Option.isSome_some]
      obtain ⟨b, hanswer⟩ := hf c a _ hthere
      exact Or.inr ⟨c, a, b, w, hfound, hresult, hanswer⟩

section

variable {name : String} {find : Step γ} (view : γ → AnyView) {δ : γ → Type}
  {x : (c : γ) → Access (Focus (view c).kind) (δ c)} {f : (c : γ) → δ c → Step β}

/-- What moves the cursor of a view changes no other view. -/
theorem acts_onView (hfind : Finds name find view) (hx : ∀ c, Atomic (x c))
    (hf : ∀ c a t, (t.views.get? name).isSome → ∃ b, (f c a).run.run t = (.ok b, t)) :
    Acts (some name) (find >>= fun c => onView name (view c).view (x c) >>= f c) := by
  constructor
  all_goals
    intro s r u hu
    rcases run_onView_bind hfind hx hf s with ⟨e, herror⟩ | ⟨c, a, b, w, -, -, hok⟩
  case ok.inl => cases herror.symm.trans hu
  case error.inr => cases hok.symm.trans hu
  case ok.inr =>
    obtain ⟨-, rfl⟩ := Prod.mk.inj (hok.symm.trans hu)
    exact .of_eq (fun other hother => s.get?_withFocus_of_ne (fun h => hother (congrArg some h)) w)
      rfl rfl rfl
  case error.inl =>
    obtain ⟨-, rfl⟩ := Prod.mk.inj (herror.symm.trans hu)
    exact .of_heap (.refl _)

/-- What only stores through a view changes no view at all. -/
theorem acts_onView_of_keeps (hfind : Finds name find view) (hx : ∀ c, Atomic (x c))
    (hkeeps : ∀ {c m a w}, (x c).result ⟨m, (view c).view⟩ = .ok (a, w) → w.view = (view c).view)
    (hf : ∀ c a t, (t.views.get? name).isSome → ∃ b, (f c a).run.run t = (.ok b, t)) :
    Acts name? (find >>= fun c => onView name (view c).view (x c) >>= f c) := by
  have hacts := acts_onView view hfind hx hf
  refine ⟨fun {s a u} hu => ?_, hacts.error⟩
  rcases run_onView_bind hfind hx hf s with ⟨e, herror⟩ | ⟨c, a, b, w, hfound, hresult, hok⟩
  · cases herror.symm.trans hu
  · obtain ⟨-, rfl⟩ := Prod.mk.inj (hok.symm.trans hu)
    have hviews : (s.withFocus name w).views = s.views := by
      rw [State.withFocus, hkeeps hresult]
      exact Table.replace_eq_self hfound
    exact .of_eq (.of_eq hviews) rfl rfl rfl

end

theorem exists_pure (b : β) (t : State) : ∃ c, (pure b : Step β).run.run t = (.ok c, t) := ⟨b, rfl⟩

/-- The view that was worked with can be answered. -/
theorem exists_findView {name : String} {t : State} (hthere : (t.views.get? name).isSome) (g : AnyView → β) :
    ∃ b, (do return g (← findView name) : Step β).run.run t = (.ok b, t) := by
  obtain ⟨v, hfound⟩ := Option.isSome_iff_exists.mp hthere
  exact ⟨g v, run_findView_bind hfound _⟩

/-! ### Buffers and pinned objects -/

/-- A buffer is found under its name. -/
theorem run_findBuffer (name : String) (s : State) :
    (findBuffer name).run.run s =
      match s.buffers.get? name with
      | some b => (.ok b, s)
      | none => (.error (.unknownBuffer name), s) := by
  change (match s.buffers.get? name with
    | some b => (pure b : Step Buffer)
    | none => throw (Failure.unknownBuffer name)).run.run s = _
  cases s.buffers.get? name <;> rfl

/-- A buffer that is cut keeps its block. -/
theorem acts_truncate (h : Handle) (name : String) (length : UInt64) :
    Acts name? (perform h (.truncate name length)) := by
  have hrun (s : State) : (perform h (.truncate name length)).run.run s =
      match s.buffers.get? name with
      | some b => (.ok (.length (b.truncate length).length),
          { s with buffers := s.buffers.insert name (b.truncate length) })
      | none => (.error (.unknownBuffer name), s) := by
    rw [perform, Stateful.run_bind, run_findBuffer]
    cases s.buffers.get? name <;> rfl
  constructor
  all_goals
    intro s r u hu
    rw [hrun] at hu
    rcases hfound : s.buffers.get? name with _ | b
    all_goals
      rw [hfound] at hu
      cases hu
  case error.none => exact .of_heap (.refl _)
  case ok.some =>
    refine ⟨.of_eq rfl, fun hs => ?_⟩
    have hblock : (b.truncate length).block ∈ s.heap.blocks := hs.block_mem (b := b) hfound
    have hlength : b.length ≤ b.allocated := hs.length_le hfound
    exact hs.nameBuffer hblock (UInt64.le_trans (b.length_truncate_le length) hlength) name

/-- A pin that cannot be had leaves the table. -/
theorem acts_pinObject (object : PinnedObject) : Acts name? (pinObject object) := by
  refine Looks.get.thenActs fun s => ?_
  rcases s.pins.pin object with _ | ⟨handle, pins⟩
  · exact (Looks.throw _).acts
  · exact Succeeds.acts (.bind (.modify fun _ => .of_eq (.of_eq rfl) rfl rfl rfl) fun _ => .pure _)

/-! ### Encoding -/

/-- Storage that was set aside to encode into is given back, whatever comes of it. -/
theorem run_encoded (request : Text.EncodeRequest) (s : State) :
    (encoded request).run.run s =
      match request.place.run.run ⟨s.heap, s.events⟩ with
      | (.ok b, w) => (.ok (w.heap.contents b), { s with heap := w.heap.free b, events := w.events })
      | (.error e, w) => (.error (.memory e), { s with heap := w.heap, events := w.events }) := by
  rw [encoded, Stateful.run_bind, onWorkspace, run_on]
  rcases request.place.run.run ⟨s.heap, s.events⟩ with ⟨_ | _, _⟩ <;> rfl

/-- Encoding may store to blocks that it gives back, and leaves all else as it is. -/
theorem spares_encoded (request : Text.EncodeRequest) :
    Stateful.Acts (SameBut fun h h' => h.Tidy → h.Spares h') (SameBut fun h h' => h.Tidy → h.Spares h')
      (encoded request) := by
  constructor
  all_goals
    intro s r u hrun
    rw [run_encoded] at hrun
    rcases hplace : request.place.run.run ⟨s.heap, s.events⟩ with ⟨_ | _, _⟩
    all_goals
      rw [hplace] at hrun
      cases hrun
  case ok.ok =>
    refine ⟨fun ht => ?_, rfl, rfl, rfl⟩
    -- the buffer is given back once its bytes are read
    have hends := Heap.ends_place (w := ⟨s.heap, s.events⟩) ht request
    rw [hplace] at hends
    cases hends with
    | placed holds _ _ => exact holds.free
  case error.error =>
    refine ⟨fun ht => ?_, rfl, rfl, rfl⟩
    have hends := Heap.ends_place (w := ⟨s.heap, s.events⟩) ht request
    rw [hplace] at hends
    cases hends with
    | failed spares _ _ => exact spares
    | refused spares => exact spares

/-- The bytes that were encoded are copied to a buffer, if one can be had. -/
theorem acts_encode (h : Handle) (request : Text.EncodeRequest) (target : Option String) :
    Stateful.Acts (Moves name?) (SameBut fun h h' => h.Tidy → h.Spares h')
      (perform h (.encode request target)) :=
  (spares_encoded request).bind (fun bytes => acts_answerBuffer (Access.setsAside_ofBytes bytes) target)
    (fun hspares hmoves => Moves.trans ⟨.of_eq hspares.views, hspares.tidy⟩ hmoves)
    fun hspares hsame => hspares.trans hsame fun hfirst hrest ht =>
      (hfirst ht).trans hrest.spares

/-! ### All operations -/

section

variable (h : Handle) (name : String)

/-- The cursor of one view moves. -/
theorem acts_setPosition (position : UInt64) :
    Acts (some name) (perform h (.setPosition name position)) := by
  have hperform : perform h (.setPosition name position) = (findView name >>= fun v =>
      onView name v.view (Access.onCursor (Access.setPosition position)) >>= fun _ => do
        return .view (← findView name)) := rfl
  rw [hperform]
  exact acts_onView (fun v => v) (finds_findView name)
    (fun _ => Access.atomic_onCursor (Access.atomic_setPosition _))
    fun _ _ _ hthere => exists_findView hthere _

/-- The cursor of one view goes back to the start. -/
theorem acts_rewind : Acts (some name) (perform h (.rewind name)) := by
  have hperform : perform h (.rewind name) = (findView name >>= fun v =>
      onView name v.view (Access.onCursor (modify View.rewind)) >>= fun _ => do
        return .view (← findView name)) := rfl
  rw [hperform]
  exact acts_onView (fun v => v) (finds_findView name)
    (fun _ => Access.atomic_onCursor (Stateful.total_modify _).atomic)
    fun _ _ _ hthere => exists_findView hthere _

/-- To store an element moves no cursor. -/
theorem acts_put (index : UInt64) (value : Int) : Acts name? (perform h (.put name index value)) := by
  have hperform : perform h (.put name index value) = (findView name >>= fun v =>
      onView name v.view (Access.put index (v.kind.ofInt value)) >>= fun _ => pure .done) := rfl
  rw [hperform]
  exact acts_onView_of_keeps (fun v => v) (finds_findView name) (fun _ => Access.atomic_put ..)
    Access.view_of_put
    fun _ _ _ _ => exists_pure _ _

/-- To read an element moves the cursor of one view. -/
theorem acts_read : Acts (some name) (perform h (.read name)) := by
  have hperform : perform h (.read name) = (findView name >>= fun v =>
      onView name v.view Access.read >>= fun bits => do
        return .elementThen v.kind bits (← findView name).view.position) := rfl
  rw [hperform]
  exact acts_onView (fun v => v) (finds_findView name) (fun _ => Access.atomic_read)
    fun _ _ _ hthere => exists_findView hthere _

theorem acts_write (value : Int) : Acts (some name) (perform h (.write name value)) := by
  have hperform : perform h (.write name value) = (findView name >>= fun v =>
      onView name v.view (Access.write (v.kind.ofInt value)) >>= fun _ => do
        return .position (← findView name).view.position) := rfl
  rw [hperform]
  exact acts_onView (fun v => v) (finds_findView name) (fun _ => Access.atomic_write _)
    fun _ _ _ hthere => exists_findView hthere _

/-- To store a unit moves no cursor. -/
theorem acts_putUnit (index : UInt64) (value : Int) :
    Acts name? (perform h (.putUnit name index value)) := by
  have hperform : perform h (.putUnit name index value) = (findBytes name >>= fun v =>
      onView name v (Access.putUnit index (BitVec.ofInt 16 value)) >>= fun _ => pure .done) := rfl
  rw [hperform]
  exact acts_onView_of_keeps (⟨.byte, ·⟩) (finds_findBytes name) (fun _ => Access.atomic_putUnit ..)
    Access.view_of_putUnit fun _ _ _ _ => exists_pure _ _

end

/-- An operation that fails leaves all but the events as it was, and one that succeeds changes at most one
view, but for the one that uses up a view. -/
theorem acts_perform (h : Handle) {op : Operation} (hop : op.usedUp? = none) :
    Stateful.Acts (Moves op.changedView?) (SameBut op.Leaves) (perform h op) := by
  cases op with
  -- memory by address
  | poke a block => exact (acts_onStore (Stateful.total_modify _).atomic).thenSucceeds fun _ => .pure _
  | peek a count => exact (Looks.bind .store fun _ => .pure _).acts
  | info => exact (Looks.bind .get fun _ => .pure _).acts
  | set a b count => exact (acts_onStore (Access.atomic_set ..)).thenSucceeds fun _ => .pure _
  | copy src dst count => exact (acts_onStore (Access.atomic_copy ..)).thenSucceeds fun _ => .pure _
  | copyOverlapping src dst count =>
    exact (acts_onStore (Access.atomic_copyOverlapping ..)).thenSucceeds fun _ => .pure _
  -- making views
  | view kind a capacity target => exact acts_answerMade target _
  | bufferView buffer kind target =>
    exact (Looks.findBuffer buffer).thenActs fun _ => (Succeeds.answerView target _).acts
  | rebind name a capacity target => cases hop
  | viewToZeroByte a target | viewToZeroUnit a target =>
    exact Looks.store.thenActs fun _ => (Looks.ofExcept _).thenActs fun _ =>
      (Succeeds.answerViewOrNone target _).acts
  -- working with views
  | addresses name index => exact (Looks.bind (.findView name) fun _ => .pure _).acts
  | addressesOfNone index => exact (Looks.pure _).acts
  | decodeNone request => exact (Looks.bind (.ofTraced _) fun _ => .pure _).acts
  | state name => exact (Looks.bind (.findView name) fun _ => .pure _).acts
  | setPosition name position => exact acts_setPosition h name position
  | rewind name => exact acts_rewind h name
  | get name index =>
    exact (Looks.bind (.findView name) fun _ => .bind .store fun _ => .bind (.ofExcept _) fun _ =>
      .pure _).acts
  | put name index value => exact acts_put h name index value
  | read name => exact acts_read h name
  | write name value => exact acts_write h name value
  | toList name => exact (Looks.bind (.findView name) fun _ => .bind .store fun _ => .pure _).acts
  -- byte views
  | getUnit name index =>
    exact (Looks.bind (.findBytes name) fun _ => .bind .store fun _ => .bind (.ofExcept _) fun _ =>
      .pure _).acts
  | putUnit name index value => exact acts_putUnit h name index value
  | bytes name =>
    exact (Looks.bind (.findBytes name) fun _ => .bind .store fun _ => .bind .store fun _ =>
      .pure _).acts
  | hexdump name width =>
    exact (Looks.bind (.findBytes name) fun _ => .bind .store fun _ => .pure _).acts
  | decode name request =>
    exact (Looks.bind (.findBytes name) fun _ => .bind .store fun _ => .bind (.ofTraced _) fun _ =>
      .pure _).acts
  -- buffers
  | allocate size target => exact acts_answerBuffer (Access.setsAside_allocate size) target
  | ofBytes bytes target => exact acts_answerBuffer (Access.setsAside_ofBytes bytes) target
  | encode request target => exact acts_encode h request target
  | clone buffer target =>
    exact (Looks.findBuffer buffer).thenActs fun b => acts_answerBuffer (Access.setsAside_clone b) target
  | bufferState buffer =>
    exact (Looks.bind (.findBuffer buffer) fun _ => .bind .get fun _ => .pure _).acts
  | truncate buffer length => exact acts_truncate h buffer length
  | fill buffer byte =>
    exact (Looks.findBuffer buffer).thenActs fun _ =>
      Succeeds.acts (.bind (.modify fun _ => .of_eq (.of_eq rfl) rfl rfl rfl) fun _ => .bind .get fun _ =>
        .pure _)
  | equal buffer other =>
    exact (Looks.bind (.findBuffer buffer) fun _ => .bind (.findBuffer other) fun _ =>
      .bind .get fun _ => .pure _).acts
  -- pinned objects
  | pin object => exact (acts_pinObject object).thenSucceeds fun _ => .pure _
  | resolve handle type =>
    exact .ite (Looks.pure _).acts (Looks.bind .get fun _ => .pure _).acts
  | repin handle type =>
    refine .ite (Looks.pure _).acts (Looks.get.thenActs fun s => ?_)
    rcases s.pins.resolveAs? type handle with _ | object
    · exact (Looks.pure _).acts
    · exact (acts_pinObject object).thenSucceeds fun _ => .pure _
  | release handle =>
    exact .ite (Looks.pure _).acts ((acts_onPins (Access.atomic_release handle)).thenSucceeds fun _ =>
      .bind (.modify fun _ => .of_eq (.of_eq rfl) rfl rfl rfl) fun _ => .bind .get fun _ => .pure _)

end Step

open Step

/-- A session fills memory as its handle does. -/
theorem step_set (h : Handle) (s : State) (a : Address) (b : UInt8) (count : UInt64) :
    step h s (.set a b count) =
      match h.set s.heap.store a b count with
      | .ok store => (.ok .done, { s with heap := { s.heap with store } })
      | .error e => (.error (.memory e), s) :=
  run_onStore (Access.atomic_set h a b count) s

/-- A session copies as its handle does. -/
theorem step_copy (h : Handle) (s : State) (src dst : Address) (count : UInt64) :
    step h s (.copy src dst count) =
      match h.copy s.heap.store src dst count with
      | .ok store => (.ok .done, { s with heap := { s.heap with store } })
      | .error e => (.error (.memory e), s) :=
  run_onStore (Access.atomic_copy h src dst count) s

theorem step_copyOverlapping (h : Handle) (s : State) (src dst : Address) (count : UInt64) :
    step h s (.copyOverlapping src dst count) =
      match h.copyOverlapping s.heap.store src dst count with
      | .ok store => (.ok .done, { s with heap := { s.heap with store } })
      | .error e => (.error (.memory e), s) :=
  run_onStore (Access.atomic_copyOverlapping h src dst count) s

/-- What happens when a view is bound to other memory: without the view nothing does, and with it the view
is given up before anything can fail. -/
theorem step_rebind (h : Handle) (s : State) (name : String) (a : Address) (capacity : UInt64)
    (target : Option String) :
    step h s (.rebind name a capacity target) =
      match s.views.get? name with
      | none => (.error (.unknownView name), s)
      | some v => (answerMade target (h.rebind v.view a capacity)).run.run
          { s with views := s.views.erase name } := by
  change (findView name >>= _).run.run s = _
  rw [Stateful.run_bind, run_findView]
  cases s.views.get? name <;> rfl

/-- A view stays as it is while others are made, moved and used up. -/
theorem get?_views_step (h : Handle) (s : State) {op : Operation} {name : String}
    (hused : op.usedUp? ≠ some name) (hchanged : op.changedView? ≠ some name) :
    (step h s op).2.views.get? name = s.views.get? name := by
  rcases hop : op.usedUp? with _ | used
  · exact get?_views (acts_perform h hop) hchanged s
  · obtain ⟨a, capacity, target, rfl⟩ := Operation.eq_rebind hop
    have hother : used ≠ name := fun heq => hused (congrArg some heq)
    rw [step_rebind]
    rcases s.views.get? used with _ | v
    · rfl
    · have herase := s.views.get?_erase used name
      rw [if_neg hother] at herase
      exact (get?_views (acts_answerMade target _) hchanged _).trans herase

/-- However an operation ends, blocks still lie apart. -/
theorem tidy_step (h : Handle) {s : State} (hs : s.Tidy) (op : Operation) : (step h s op).2.Tidy := by
  rcases hop : op.usedUp? with _ | used
  · exact tidy (acts_perform h hop) Operation.Leaves.spares hs
  · obtain ⟨a, capacity, target, rfl⟩ := Operation.eq_rebind hop
    rw [step_rebind]
    rcases s.views.get? used with _ | v
    · exact hs
    · have herased : State.Tidy { s with views := s.views.erase used } :=
        ⟨hs.heap, hs.block_mem, hs.length_le⟩
      exact tidy (acts_answerMade target _) (fun hsame _ => hsame.spares) herased

/-- In whatever state a session ends, blocks lie apart. -/
theorem tidy_run (h : Handle) {s : State} (hs : s.Tidy) (ops : List Operation) : (run h s ops).2.Tidy := by
  induction ops generalizing s with
  | nil => exact hs
  | cons op ops ih => exact ih (tidy_step h hs op)

end RawMemory.Session
