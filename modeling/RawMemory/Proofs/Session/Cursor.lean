import RawMemory.Proofs.Cursor
import RawMemory.Proofs.Session.Effects

/-!
# The cursor of a view

However a view was made, and whatever is done with it, it keeps the window that it was made with, and its
cursor stands at an element of the window or just behind the last one (`run_cursor`). Only a successful
move changes where: to an index, to the first element, or by the one element that was read or stored. So
the elements from the cursor on are as many as `View.remaining` says (`AnyView.Coherent`).
-/

namespace RawMemory

namespace AnyView

/-- The view with its cursor at an index. -/
def withPosition (v : AnyView) (position : UInt64) : AnyView := ⟨v.kind, { v.view with position }⟩

/-- The cursor of a view lies in its window or just behind it, so that it divides the window in two. -/
structure Coherent (v : AnyView) : Prop where
  /-- The cursor is not beyond the end. -/
  position_le : v.view.position ≤ v.view.capacity
  /-- The elements before the cursor and those from it on are all elements. -/
  remaining : v.view.position.toNat + v.view.remaining.toNat = v.view.capacity.toNat
  /-- There is an element at the cursor as long as some remain. -/
  hasRemaining : v.view.hasRemaining = true ↔ 0 < v.view.remaining
  /-- The bytes of a byte view may be cut at the cursor, and as many as remain follow it. -/
  remainingBytes : ∀ (bytes : View .byte) (m : Store), v = ⟨.byte, bytes⟩ →
    bytes.position.toNat ≤ (bytes.bytes m).length ∧
      (bytes.remainingBytes m).length = bytes.remaining.toNat

/-- All that has to be known of a cursor is that it is not behind the end. -/
theorem coherent_of_le {v : AnyView} (hle : v.view.position ≤ v.view.capacity) : v.Coherent := by
  have hnat := UInt64.le_iff_toNat_le.mp hle
  have hremaining : v.view.remaining.toNat = v.view.capacity.toNat - v.view.position.toNat :=
    UInt64.toNat_sub_of_le _ _ hle
  refine ⟨hle, by omega, ?_, ?_⟩
  · rw [View.hasRemaining, decide_eq_true_iff, UInt64.lt_iff_toNat_lt, UInt64.lt_iff_toNat_lt,
      hremaining, UInt64.toNat_zero]
    omega
  · rintro bytes m rfl
    -- the bytes of the window are as many as its capacity says, so the cut is within them
    have hlength : (bytes.bytes m).length = bytes.capacity.toNat := Store.length_read ..
    refine ⟨hnat.trans hlength.ge, ?_⟩
    rw [View.remainingBytes, List.length_drop, hlength]
    exact hremaining.symm

end AnyView

/-! ## Views and memory, told by views -/

namespace Access

variable {kind : ElementKind} (v : View kind) (m : Store)

/-- The position is set in the view, and memory is as it was. -/
theorem result_onCursor_setPosition (index : UInt64) :
    (onCursor (setPosition index)).result ⟨m, v⟩ =
      (v.setPosition index).map fun w => ((), ⟨m, w⟩) := by
  rw [onCursor, Stateful.result_onPart, View.setPosition, Stateful.after]
  cases (setPosition index).result v <;> rfl

/-- An element is read from memory, and the cursor moves. -/
theorem result_read : read.result ⟨m, v⟩ = (v.read m).map fun made => (made.1, ⟨m, made.2⟩) := by
  rw [View.read_eq, read, Stateful.result_get_bind, Stateful.result_check_bind]
  cases v.get m v.position <;> rfl

/-- An element is stored to memory, and the cursor moves. -/
theorem result_write (element : kind.Bits) :
    (write element).result ⟨m, v⟩ = (v.write m element).map fun made => ((), ⟨made.1, made.2⟩) := by
  rw [View.write, Stateful.after]
  cases (write element).result ⟨m, v⟩ <;> rfl

end Access

namespace Session

/-! ## Moves of the cursor -/

/-- Where the cursor of the view of a name stands after an operation with its answer, when it was at
`position` before: at the index that was asked for, at the first element, behind the element that was read
or stored, and in all other cases where it was. -/
def Operation.cursorAfter (name : String) (op : Operation) (answer : Except Failure Answer)
    (position : Nat) : Nat :=
  match op, answer with
  | .setPosition moved index, .ok _ => if moved = name then index.toNat else position
  | .rewind moved, .ok _ => if moved = name then 0 else position
  | .read moved, .ok _ | .write moved _, .ok _ => if moved = name then position + 1 else position
  | _, _ => position

/-- Other views keep their cursors. -/
theorem Operation.cursorAfter_of_ne {op : Operation} {name : String} (hop : op.movedView? ≠ some name)
    (answer : Except Failure Answer) (position : Nat) :
    op.cursorAfter name answer position = position := by
  cases op with
  | setPosition moved index | rewind moved | read moved | write moved value =>
    have hne : moved ≠ name := fun heq => hop (congrArg some heq)
    cases answer with
    | error e => rfl
    | ok a => exact if_neg hne
  | _ => rfl

/-- Where the cursor of the view of a name stands after a script with its answers. -/
def cursorAfter (name : String) (answered : List (Operation × Except Failure Answer))
    (position : Nat) : Nat :=
  answered.foldl (fun position entry => entry.1.cursorAfter name entry.2 position) position

section

open Step

variable (h : Handle) {s : State} {name : String} {v : AnyView}

/-- What is done to the view of a name, which is answered as it is then. -/
theorem Step.run_onView_findView (hfound : s.views.get? name = some v) {α : Type}
    {x : Access (Focus v.kind) α} (hx : Stateful.Atomic x) (answer : α → AnyView → Answer) :
    (do let a ← onView name v.view x
        return answer a (← findView name) : Step Answer).run.run s =
      match x.result ⟨s.heap.store, v.view⟩ with
      | .ok (a, f) => (.ok (answer a ⟨v.kind, f.view⟩), s.withFocus name f)
      | .error e => (.error (.memory e), s) := by
  rw [Stateful.run_bind, run_onView hfound hx]
  rcases x.result ⟨s.heap.store, v.view⟩ with e | ⟨a, f⟩
  · rfl
  · exact run_findView_bind (s.get?_withFocus hfound f) _

/-- A position that is refused leaves the session as it is. -/
theorem step_setPosition (hfound : s.views.get? name = some v) (index : UInt64) :
    step h s (.setPosition name index) =
      match v.view.setPosition index with
      | .ok w => (.ok (.view ⟨v.kind, w⟩), s.withFocus name ⟨s.heap.store, w⟩)
      | .error e => (.error (.memory e), s) := by
  have hrun := run_onView_findView hfound (Access.atomic_onCursor (Access.atomic_setPosition index))
    fun _ => .view
  rw [Access.result_onCursor_setPosition] at hrun
  refine (run_findView_bind hfound _).trans (hrun.trans ?_)
  cases v.view.setPosition index <;> rfl

/-- To rewind is never refused. -/
theorem step_rewind (hfound : s.views.get? name = some v) :
    step h s (.rewind name) =
      (.ok (.view ⟨v.kind, v.view.rewind⟩), s.withFocus name ⟨s.heap.store, v.view.rewind⟩) :=
  (run_findView_bind hfound _).trans
    (run_onView_findView hfound (Access.atomic_onCursor (Stateful.total_modify View.rewind).atomic)
      fun _ => .view)

/-- A read answers the element and where the cursor is after it. -/
theorem step_read (hfound : s.views.get? name = some v) :
    step h s (.read name) =
      match v.view.read s.heap.store with
      | .ok (element, w) =>
        (.ok (.elementThen v.kind element w.position), s.withFocus name ⟨s.heap.store, w⟩)
      | .error e => (.error (.memory e), s) := by
  have hrun := run_onView_findView hfound Access.atomic_read
    fun element w => .elementThen v.kind element w.view.position
  rw [Access.result_read] at hrun
  refine (run_findView_bind hfound _).trans (hrun.trans ?_)
  cases v.view.read s.heap.store <;> rfl

/-- A write answers where the cursor is after it. -/
theorem step_write (hfound : s.views.get? name = some v) (value : Int) :
    step h s (.write name value) =
      match v.view.write s.heap.store (v.kind.ofInt value) with
      | .ok (m, w) => (.ok (.position w.position), s.withFocus name ⟨m, w⟩)
      | .error e => (.error (.memory e), s) := by
  have hrun := run_onView_findView hfound (Access.atomic_write (v.kind.ofInt value))
    fun _ w => .position w.view.position
  rw [Access.result_write] at hrun
  refine (run_findView_bind hfound _).trans (hrun.trans ?_)
  cases v.view.write s.heap.store (v.kind.ofInt value) <;> rfl

end

/-- The view of a name is a given one but for its cursor, which stands at the `n`-th element of its window or
just behind the last one. -/
def State.HasViewAt (s : State) (name : String) (v : AnyView) (n : Nat) : Prop :=
  ∃ position ≤ v.view.capacity,
    s.views.get? name = some (v.withPosition position) ∧ position.toNat = n

/-- The operation neither makes a view under a name nor uses up the one that is there. -/
def Operation.Spares (name : String) (op : Operation) : Prop :=
  op.madeView? ≠ some name ∧ op.usedUp? ≠ some name

namespace State.HasViewAt

variable {s : State} {op : Operation} {name : String} {v : AnyView} {n : Nat}

/-- An operation that may move the cursor of a view leaves it in the window. -/
theorem moved (hat : s.HasViewAt name v n) (h : Handle) (hmoved : op.movedView? = some name) :
    (step h s op).2.HasViewAt name v (op.cursorAfter name (step h s op).1 n) := by
  -- an operation that fails leaves the state as it is, and then `hat` is all there is to show
  have ⟨position, hle, hfound, hn⟩ := hat
  cases op with
  | setPosition moved index =>
    obtain rfl := Option.some.inj hmoved
    rw [step_setPosition h hfound]
    rcases hset : (v.withPosition position).view.setPosition index with e | w
    · exact hat
    · obtain ⟨hindex, rfl⟩ := View.eq_of_setPosition hset
      exact ⟨index, hindex, s.get?_withFocus hfound _, (if_pos rfl).symm⟩
  | rewind moved =>
    obtain rfl := Option.some.inj hmoved
    rw [step_rewind h hfound]
    exact ⟨0, UInt64.zero_le, s.get?_withFocus hfound _, (if_pos rfl).symm⟩
  | read moved =>
    obtain rfl := Option.some.inj hmoved
    rw [step_read h hfound]
    rcases hread : (v.withPosition position).view.read s.heap.store with e | ⟨element, w⟩
    · exact hat
    · obtain ⟨hlt, rfl⟩ := View.eq_of_read hread
      obtain ⟨hinside, hnext⟩ := View.next_le hlt
      refine ⟨position + 1, hinside, s.get?_withFocus hfound _, hnext.trans ?_⟩
      exact (congrArg (· + 1) hn).trans (if_pos rfl).symm
  | write moved value =>
    obtain rfl := Option.some.inj hmoved
    rw [step_write h hfound]
    rcases hwrite : (v.withPosition position).view.write s.heap.store
      ((v.withPosition position).kind.ofInt value) with e | ⟨m, w⟩
    · exact hat
    · obtain ⟨hlt, rfl⟩ := View.eq_of_write hwrite
      obtain ⟨hinside, hnext⟩ := View.next_le hlt
      refine ⟨position + 1, hinside, s.get?_withFocus hfound _, hnext.trans ?_⟩
      exact (congrArg (· + 1) hn).trans (if_pos rfl).symm
  | _ => cases hmoved

/-- As long as a view is spared nothing of it changes but where its cursor stands, and it stays in the
window. -/
theorem step (hat : s.HasViewAt name v n) (h : Handle) (hop : op.Spares name) :
    (step h s op).2.HasViewAt name v (op.cursorAfter name (step h s op).1 n) := by
  by_cases hmoved : op.movedView? = some name
  · exact hat.moved h hmoved
  · -- the view is neither moved nor made, so it is none that changes
    have hchanged : op.changedView? ≠ some name := by
      rw [Operation.changedView?]
      split
      · next other hother => exact hother ▸ hmoved
      · exact hop.1
    obtain ⟨position, hle, hfound, hn⟩ := hat
    refine ⟨position, hle, (get?_views_step h s hop.2 hchanged).trans hfound, hn.trans ?_⟩
    exact (Operation.cursorAfter_of_ne hmoved _ _).symm

/-- A script that spares a view moves its cursor as its successful operations say. -/
theorem run {ops : List Operation} (hat : s.HasViewAt name v n) (h : Handle)
    (hops : ∀ op ∈ ops, op.Spares name) :
    (run h s ops).2.HasViewAt name v (cursorAfter name (ops.zip (run h s ops).1) n) := by
  induction ops generalizing s n with
  | nil => exact hat
  | cons op ops ih =>
    obtain ⟨hspared, hrest⟩ := List.forall_mem_cons.mp hops
    -- the script goes on from where the first operation has left the cursor
    exact ih (hat.step h hspared) hrest

end State.HasViewAt

/-! ## Views as they are made -/

/-- A view that could be made is kept as it was made. -/
theorem get?_views_answerMade {kind : ElementKind} {made : Except MemoryError (View kind)} {s : State}
    {name : String} {v : AnyView} (hmade : ∀ w, made = .ok w → w.position = 0)
    (hok : ((Step.answerMade (some name) made).run.run s).1 = .ok (.view v)) :
    ((Step.answerMade (some name) made).run.run s).2.views.get? name = some v ∧
      v.view.position = 0 := by
  cases made with
  | error e => cases hok
  | ok w =>
    obtain rfl := Answer.view.inj (Except.ok.inj hok)
    exact ⟨(s.views.get?_insert name name _).trans (if_pos rfl), hmade w rfl⟩

/-- A view up to a terminator has the name that was given, and starts at its first byte. -/
theorem get?_views_answerViewOrNone {made : Except MemoryError (Option (View .byte))} {s : State}
    {name : String} {v : AnyView} (hmade : ∀ w, made = .ok (some w) → w.position = 0)
    (hok : ((Step.ofExcept made >>= Step.answerViewOrNone (some name)).run.run s).1 = .ok (.view v)) :
    ((Step.ofExcept made >>= Step.answerViewOrNone (some name)).run.run s).2.views.get? name = some v ∧
      v.view.position = 0 := by
  rcases made with e | _ | w
  · cases hok
  · -- no terminator, and no view to answer
    cases hok
  · obtain rfl := Answer.view.inj (Except.ok.inj hok)
    exact ⟨(s.views.get?_insert name name _).trans (if_pos rfl), hmade w rfl⟩

/-- A view of a buffer is made if the buffer is there. -/
theorem step_bufferView (h : Handle) (s : State) (buffer : String) (kind : ElementKind)
    (target : Option String) :
    step h s (.bufferView buffer kind target) =
      match s.buffers.get? buffer with
      | some b => (Step.answerMade target (.ok (b.view kind))).run.run s
      | none => (.error (.unknownBuffer buffer), s) := by
  change ((match s.buffers.get? buffer with
    | some b => (pure b : Step Buffer)
    | none => throw (Failure.unknownBuffer buffer)) >>= _).run.run s = _
  cases s.buffers.get? buffer <;> rfl

/-- A new view is kept as it was answered, with its cursor at the first element. -/
theorem get?_views_made (h : Handle) {s : State} {op : Operation} {name : String} {v : AnyView}
    (hmade : op.madeView? = some name) (hok : (step h s op).1 = .ok (.view v)) :
    (step h s op).2.views.get? name = some v ∧ v.view.position = 0 := by
  cases op with
  | view kind a capacity target =>
    obtain rfl : target = some name := hmade
    exact get?_views_answerMade (fun w hw => Handle.position_of_view hw) hok
  | bufferView buffer kind target =>
    obtain rfl : target = some name := hmade
    rw [step_bufferView] at hok ⊢
    rcases hbuffer : s.buffers.get? buffer with _ | b
    · rw [hbuffer] at hok
      cases hok
    · rw [hbuffer] at hok
      refine get?_views_answerMade (fun w hw => ?_) hok
      obtain rfl := Except.ok.inj hw
      rfl
  | rebind used a capacity target =>
    obtain rfl : target = some name := hmade
    rw [step_rebind] at hok ⊢
    rcases hused : s.views.get? used with _ | old
    · rw [hused] at hok
      cases hok
    · rw [hused] at hok
      exact get?_views_answerMade (fun w hw => Handle.position_of_rebind hw) hok
  | viewToZeroByte a target | viewToZeroUnit a target =>
    obtain rfl : target = some name := hmade
    exact get?_views_answerViewOrNone (fun w hw => Handle.position_of_viewToTerminator hw) hok
  | _ => cases hmade

/-- From the moment it is made, a view keeps its window and its kind as long as it is spared. -/
theorem run_cursor (h : Handle) {s : State} {make : Operation} {name : String} {v : AnyView}
    (hmake : make.madeView? = some name) (hmade : (step h s make).1 = .ok (.view v))
    {ops : List Operation} (hops : ∀ op ∈ ops, op.Spares name) :
    ∃ position,
      (run h (step h s make).2 ops).2.views.get? name = some (v.withPosition position) ∧
      position.toNat = cursorAfter name (ops.zip (run h (step h s make).2 ops).1) 0 ∧
      (v.withPosition position).Coherent := by
  obtain ⟨hfound, hzero⟩ := get?_views_made h hmake hmade
  have hat : (step h s make).2.HasViewAt name v 0 :=
    ⟨v.view.position, hzero ▸ UInt64.zero_le, hfound, by rw [hzero, UInt64.toNat_zero]⟩
  obtain ⟨position, hinside, hview, hposition⟩ := hat.run h hops
  exact ⟨position, hview, hposition, AnyView.coherent_of_le hinside⟩

/-- Of a store, a move beyond the end, a move to the end, a load there and a load from the first element,
those within the three bytes of the view move its cursor, and it ends up at the second one. -/
theorem run_cursor_three :
    let h : Handle := ⟨.libc, true⟩
    let make := Operation.view .byte ⟨0x1000⟩ 3 (some "v")
    let v : AnyView := ⟨.byte, ⟨⟨0x1000⟩, 3, .native, 0⟩⟩
    let ops := [.write "v" 7, .setPosition "v" 4, .setPosition "v" 3, .read "v", .rewind "v", .read "v"]
    let final := run h (step h {} make).2 ops
    (step h {} make).1 = .ok (.view v) ∧
      (final.1[1]? = some (.error (.memory (.outOfBounds 4 3))) ∧
        final.1[3]? = some (.error (.memory (.outOfBounds 3 3)))) ∧
      ∃ position, final.2.views.get? "v" = some (v.withPosition position) ∧ position.toNat = 1 ∧
        (v.withPosition position).Coherent := by
  intro h make v ops final
  have hmade : (step h {} make).1 = .ok (.view v) := rfl
  have hops : ∀ op ∈ ops, op.Spares "v" := by
    simp [ops, Operation.Spares, Operation.madeView?, Operation.usedUp?]
  refine ⟨hmade, ⟨by rfl, by rfl⟩, ?_⟩
  obtain ⟨position, hview, hposition, hcoherent⟩ := run_cursor h rfl hmade hops
  exact ⟨position, hview, hposition.trans (by rfl), hcoherent⟩

end Session

end RawMemory
