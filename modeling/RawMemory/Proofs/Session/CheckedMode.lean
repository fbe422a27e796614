import RawMemory.Proofs.Handle
import RawMemory.Proofs.Session.Comparison

/-!
# Checks only refuse

Checked mode differs from unchecked mode in what it refuses and in nothing else. Each operation of a handle
either is refused with checks or has the same outcome without them (`SameUnlessRefused`), and this goes
from one operation to the next: a session in which checks refuse nothing goes the same way when there are
none (`run_unchecked`).
-/

namespace RawMemory

/-- The errors by which checked mode refuses an operation. -/
def MemoryError.isRefusal : MemoryError → Bool
  | invalidArgument _ | rebindOwned _ => true
  | _ => false

/-- The first of two computations has the outcome of the second, unless it is refused. -/
def SameUnlessRefused {α : Type} (x y : Except MemoryError α) : Prop :=
  x = y ∨ ∃ e, x = .error e ∧ e.isRefusal = true

namespace SameUnlessRefused

variable {α β : Type} {x y : Except MemoryError α}

theorem refl (x : Except MemoryError α) : SameUnlessRefused x x := Or.inl rfl

/-- Two steps are the same unless one of them is refused. -/
theorem bind {f g : α → Except MemoryError β} (hxy : SameUnlessRefused x y)
    (hfg : ∀ a, SameUnlessRefused (f a) (g a)) : SameUnlessRefused (x >>= f) (y >>= g) := by
  rcases hxy with rfl | ⟨e, rfl, he⟩
  · -- the same outcome so far, which an error ends for both
    cases x with
    | ok a => exact hfg a
    | error e => exact refl _
  · exact Or.inr ⟨e, rfl, he⟩

/-- What checked mode accepts, the other mode accepts. -/
theorem ok (hxy : SameUnlessRefused x y) {a : α} (hx : x = .ok a) : y = .ok a := by
  rcases hxy with rfl | ⟨e, hrefused, -⟩
  · exact hx
  · rw [hx] at hrefused
    cases hrefused

/-- What is not refused is the same. -/
theorem eq (hxy : SameUnlessRefused x y) (hx : ∀ e, x = .error e → e.isRefusal = false) : x = y := by
  rcases hxy with hsame | ⟨e, hrefused, he⟩
  · exact hsame
  · rw [hx e hrefused] at he
    cases he

end SameUnlessRefused

namespace Handle

variable (acc : Accessor)

/-- A check refuses something or does nothing. -/
theorem require_sameUnlessRefused (condition : Bool) (cause : ArgumentError) :
    SameUnlessRefused (require ⟨acc, true⟩ condition cause) (require ⟨acc, false⟩ condition cause) := by
  cases condition with
  | true => exact .refl _
  | false => exact Or.inr ⟨.invalidArgument cause, rfl, rfl⟩

/-- The checks of a view are two in a row. -/
theorem checkView_sameUnlessRefused (kind : ElementKind) (a : Address) (capacity : UInt64) :
    SameUnlessRefused (checkView ⟨acc, true⟩ kind a capacity) (checkView ⟨acc, false⟩ kind a capacity) :=
  .bind (require_sameUnlessRefused acc _ _) fun _ => require_sameUnlessRefused acc _ _

/-- A view is made in the same way unless it is refused. -/
theorem view_sameUnlessRefused (kind : ElementKind) (a : Address) (capacity : UInt64) :
    SameUnlessRefused (view ⟨acc, true⟩ kind a capacity) (view ⟨acc, false⟩ kind a capacity) :=
  .bind (checkView_sameUnlessRefused acc _ _ _) fun _ => .refl _

/-- A view is bound to another place in the same way unless that is refused. -/
theorem rebind_sameUnlessRefused {kind : ElementKind} (v : View kind) (a : Address) (capacity : UInt64) :
    SameUnlessRefused (rebind ⟨acc, true⟩ v a capacity) (rebind ⟨acc, false⟩ v a capacity) := by
  rw [rebind, rebind]
  refine .bind (checkView_sameUnlessRefused acc _ _ _) fun _ => ?_
  by_cases howned : v.origin = .owned
  · refine Or.inr ⟨.rebindOwned v.address, ?_, rfl⟩
    simp only [howned, decide_true, Bool.and_true, if_true]
    rfl
  · exact Or.inl (by simp [howned])

/-- The address is checked on entry, and once more when what was found is bound to it. -/
theorem viewToTerminator_sameUnlessRefused (m : Store) (length? : Store → Address → Option Nat)
    (a : Address) :
    SameUnlessRefused (viewToTerminator ⟨acc, true⟩ m length? a)
      (viewToTerminator ⟨acc, false⟩ m length? a) := by
  rw [viewToTerminator, viewToTerminator]
  split
  · exact .refl _
  · refine .bind (require_sameUnlessRefused acc _ _) fun _ => ?_
    dsimp only
    cases length? m (acc.newView .byte a Word.maxSize).rewind.address with
    | none => exact .refl _
    | some length => exact .bind (rebind_sameUnlessRefused acc _ _ _) fun _ => .refl _

/-- Memory is filled in the same way unless that is refused. -/
theorem set_sameUnlessRefused (m : Store) (a : Address) (b : UInt8) (count : UInt64) :
    SameUnlessRefused (set ⟨acc, true⟩ m a b count) (set ⟨acc, false⟩ m a b count) := by
  rw [set_eq, set_eq]
  exact .bind (require_sameUnlessRefused acc _ _) fun _ =>
    .bind (require_sameUnlessRefused acc _ _) fun _ => .refl _

/-- Memory is copied in the same way unless that is refused. -/
theorem copy_sameUnlessRefused (m : Store) (src dst : Address) (count : UInt64) :
    SameUnlessRefused (copy ⟨acc, true⟩ m src dst count) (copy ⟨acc, false⟩ m src dst count) := by
  rw [copy_eq, copy_eq]
  exact .bind (require_sameUnlessRefused acc _ _) fun _ =>
    .bind (require_sameUnlessRefused acc _ _) fun _ =>
      .bind (require_sameUnlessRefused acc _ _) fun _ =>
        .bind (require_sameUnlessRefused acc _ _) fun _ => .refl _

/-- The overlap does not matter where blocks may overlap. -/
theorem copyOverlapping_sameUnlessRefused (m : Store) (src dst : Address) (count : UInt64) :
    SameUnlessRefused (copyOverlapping ⟨acc, true⟩ m src dst count)
      (copyOverlapping ⟨acc, false⟩ m src dst count) := by
  rw [copyOverlapping_eq, copyOverlapping_eq]
  exact .bind (require_sameUnlessRefused acc _ _) fun _ =>
    .bind (require_sameUnlessRefused acc _ _) fun _ =>
      .bind (require_sameUnlessRefused acc _ _) fun _ => .refl _

/-- What a handle of an accessor does with checks it does without them. -/
structure ChecksOnlyRefuse (acc : Accessor) : Prop where
  /-- The same view is made. -/
  view : ∀ kind a capacity v, Handle.view ⟨acc, true⟩ kind a capacity = .ok v →
    Handle.view ⟨acc, false⟩ kind a capacity = .ok v
  /-- A view is bound in the same way. -/
  rebind : ∀ (kind : ElementKind) (v : View kind) a capacity w,
    Handle.rebind ⟨acc, true⟩ v a capacity = .ok w → Handle.rebind ⟨acc, false⟩ v a capacity = .ok w
  /-- The same terminator of one byte is found, or none. -/
  viewToZeroByte : ∀ m a v, Handle.viewToZeroByte ⟨acc, true⟩ m a = .ok v →
    Handle.viewToZeroByte ⟨acc, false⟩ m a = .ok v
  /-- The same terminator of two bytes is found, or none. -/
  viewToZeroUnit : ∀ m a v, Handle.viewToZeroUnit ⟨acc, true⟩ m a = .ok v →
    Handle.viewToZeroUnit ⟨acc, false⟩ m a = .ok v
  /-- The same memory is left when it is filled. -/
  set : ∀ m a b count stored, Handle.set ⟨acc, true⟩ m a b count = .ok stored →
    Handle.set ⟨acc, false⟩ m a b count = .ok stored
  /-- The same memory is left by a copy between disjoint ranges. -/
  copy : ∀ m src dst count stored, Handle.copy ⟨acc, true⟩ m src dst count = .ok stored →
    Handle.copy ⟨acc, false⟩ m src dst count = .ok stored
  /-- The same memory is left by a copy between any ranges. -/
  copyOverlapping : ∀ m src dst count stored,
    Handle.copyOverlapping ⟨acc, true⟩ m src dst count = .ok stored →
    Handle.copyOverlapping ⟨acc, false⟩ m src dst count = .ok stored

/-- Each operation that takes a handle refuses something or does the same. -/
theorem checksOnlyRefuse : ChecksOnlyRefuse acc where
  view kind a capacity _ := (view_sameUnlessRefused acc kind a capacity).ok
  rebind _ v a capacity _ := (rebind_sameUnlessRefused acc v a capacity).ok
  viewToZeroByte m a _ := (viewToTerminator_sameUnlessRefused acc m _ a).ok
  viewToZeroUnit m a _ := (viewToTerminator_sameUnlessRefused acc m _ a).ok
  set m a b count _ := (set_sameUnlessRefused acc m a b count).ok
  copy m src dst count _ := (copy_sameUnlessRefused acc m src dst count).ok
  copyOverlapping m src dst count _ := (copyOverlapping_sameUnlessRefused acc m src dst count).ok

end Handle

namespace Session

variable {acc : Accessor} {s : State} {op : Operation}

/-- Whether an answer says that the operation was refused. -/
def isRefused : Except Failure Answer → Bool
  | .error (.memory e) => e.isRefusal
  | _ => false

/-- An error of the library is the answer of the session. -/
theorem run_ofExcept_error {α : Type} {x : Except MemoryError α} {f : α → Step Answer} {e : MemoryError}
    (hx : x = .error e) : ((Step.ofExcept x >>= f).run.run s).1 = .error (.memory e) := by
  rw [hx]
  rfl

/-- Where an operation is not refused with checks, the handle does the same without them. -/
theorem callsAgree_of_not_refused
    (hop : isRefused (step ⟨acc, true⟩ s op).1 = false) :
    CallsAgree ⟨acc, false⟩ ⟨acc, true⟩ s op := by
  -- an error of the handle is the answer to the operation
  have hcall {α : Type} {x y : Except MemoryError α} {f : α → Step Answer} {t : State}
      (hxy : SameUnlessRefused x y)
      (hstep : step ⟨acc, true⟩ s op = (Step.ofExcept x >>= f).run.run t) : y = x := by
    refine (hxy.eq fun e he => ?_).symm
    rwa [hstep, run_ofExcept_error he] at hop
  cases op with
  | set a b count =>
    refine ((Handle.set_sameUnlessRefused acc _ _ _ _).eq fun e he => ?_).symm
    rwa [step_set, he] at hop
  | copy src dst count =>
    refine ((Handle.copy_sameUnlessRefused acc _ _ _ _).eq fun e he => ?_).symm
    rwa [step_copy, he] at hop
  | copyOverlapping src dst count =>
    refine ((Handle.copyOverlapping_sameUnlessRefused acc _ _ _ _).eq fun e he => ?_).symm
    rwa [step_copyOverlapping, he] at hop
  | view kind a capacity target => exact hcall (Handle.view_sameUnlessRefused acc _ _ _) rfl
  | viewToZeroByte a target | viewToZeroUnit a target =>
    exact hcall (Handle.viewToTerminator_sameUnlessRefused acc _ _ _) rfl
  | rebind name a capacity target =>
    intro v hfound
    have hstep : step ⟨acc, true⟩ s (.rebind name a capacity target) =
        (Step.ofExcept (Handle.rebind ⟨acc, true⟩ v.view a capacity) >>= Step.answerView target).run.run
          { s with views := s.views.erase name } := by
      rw [step_rebind, hfound]
      rfl
    exact hcall (Handle.rebind_sameUnlessRefused acc v.view a capacity) hstep
  | _ => trivial

/-- What succeeds with checks gives the same without them, and a session in which checks refuse nothing goes
the same way without them: the answers are the same, but for the mode in reports, and so is the state in
which it ends. -/
theorem run_unchecked (acc : Accessor) :
    Handle.ChecksOnlyRefuse acc ∧
    ∀ s ops, (∀ answer ∈ (run ⟨acc, true⟩ s ops).1, isRefused answer = false) →
      run ⟨acc, false⟩ s ops =
        (List.zipWith (Operation.mapReport fun report => { report with checked := false }) ops
          (run ⟨acc, true⟩ s ops).1, (run ⟨acc, true⟩ s ops).2) := by
  refine ⟨Handle.checksOnlyRefuse acc, fun s ops hanswers => ?_⟩
  have hcalls : Along ⟨acc, true⟩ (CallsAgree ⟨acc, false⟩ ⟨acc, true⟩) s ops :=
    (along_of_forall_answers hanswers).mono fun _ _ hop => callsAgree_of_not_refused hop
  have haddresses : AddressesAgree ⟨acc, false⟩ ⟨acc, true⟩ := ⟨rfl, fun _ => rfl⟩
  exact run_eq_mapReport haddresses (fun _ => rfl) hcalls

/-- A session goes the same way without checks as with them: memory is filled, bytes are found in front of a
terminator, the view of them is bound to other memory, and a move beyond the end of it fails. -/
theorem run_unchecked_scan :
    let ops := [.set ⟨0x1000⟩ 7 4, .viewToZeroByte ⟨0x1000⟩ (some "v"),
      .rebind "v" ⟨0x1002⟩ 2 (some "w"), .read "w", .setPosition "w" 3, .info]
    let checked := run ⟨.libc, true⟩ {} ops
    let unchecked := run ⟨.libc, false⟩ {} ops
    (∀ answer ∈ checked.1, isRefused answer = false) ∧
      (checked.1[3]? = some (.ok (.elementThen .byte 7 1)) ∧
        checked.1[4]? = some (.error (.memory (.outOfBounds 3 2)))) ∧
      unchecked = (List.zipWith (Operation.mapReport fun report => { report with checked := false }) ops
        checked.1, checked.2) := by
  intro ops checked unchecked
  have hanswers : ∀ answer ∈ checked.1, isRefused answer = false := by decide +kernel
  exact ⟨hanswers, ⟨by decide +kernel, by decide +kernel⟩, (run_unchecked .libc).2 {} ops hanswers⟩

end Session

end RawMemory
