import RawMemory.Proofs.Session.Effects

/-!
# Two handles in the same session

An operation of a session asks its handle for a result at most once. As long as two handles give the same
results (`CallsAgree`), a script leads to the same answers and the same states through both, and only the
reports on the handles themselves tell which of them was used (`run_eq_mapReport`). So two handles are
compared call by call, each in the state in which it is made (`Along`).
-/

namespace RawMemory.Session

variable {h g : Handle} {s : State} {op : Operation} {ops : List Operation}

/-- Two handles give the same result for what an operation asks of its handle, but for the addresses and
the report. -/
def CallsAgree (h g : Handle) (s : State) : Operation → Prop
  | .set a b count => h.set s.heap.store a b count = g.set s.heap.store a b count
  | .copy src dst count => h.copy s.heap.store src dst count = g.copy s.heap.store src dst count
  | .copyOverlapping src dst count =>
    h.copyOverlapping s.heap.store src dst count = g.copyOverlapping s.heap.store src dst count
  | .view kind a capacity _ => h.view kind a capacity = g.view kind a capacity
  | .rebind name a capacity _ =>
    ∀ v, s.views.get? name = some v → h.rebind v.view a capacity = g.rebind v.view a capacity
  | .viewToZeroByte a _ => h.viewToZeroByte s.heap.store a = g.viewToZeroByte s.heap.store a
  | .viewToZeroUnit a _ => h.viewToZeroUnit s.heap.store a = g.viewToZeroUnit s.heap.store a
  | _ => True

/-- The answer with a change in the report, if it is one. -/
def Answer.mapReport (f : Handle.Report → Handle.Report) : Answer → Answer
  | .info report => .info (f report)
  | answer => answer

/-- The answer to an operation with a change in the report on the handle, if this is what was asked for. -/
def Operation.mapReport (f : Handle.Report → Handle.Report) :
    Operation → Except Failure Answer → Except Failure Answer
  | .info, answer => answer.map (Answer.mapReport f)
  | _, answer => answer

/-- Two handles place the elements of a view at the same addresses. -/
structure AddressesAgree (h g : Handle) : Prop where
  /-- Pointers have the same size. -/
  pointerSize_eq : h.accessor.pointerSize = g.accessor.pointerSize
  /-- A view begins at the same address. -/
  addressOf_eq : ∀ {kind : ElementKind} (v : View kind), h.accessor.addressOf v = g.accessor.addressOf v

theorem AddressesAgree.addresses_eq (haddresses : AddressesAgree h g) {kind : ElementKind} (v : View kind)
    (index : UInt64) : h.addresses v index = g.addresses v index := by
  simp only [Handle.addresses, Handle.address, Handle.addressAt, Handle.elementWidth,
    haddresses.pointerSize_eq, haddresses.addressOf_eq]

/-- Where two handles give the same result, an operation does the same through both, unless it asks about the
handle. -/
theorem step_eq_step (haddresses : AddressesAgree h g)
    (hcalls : CallsAgree h g s op) (hop : op ≠ .info) : step h s op = step g s op := by
  have hcall {α : Type} {x y : Except MemoryError α} (hxy : x = y) (f : α → Step Answer) :
      (Step.ofExcept x >>= f).run.run s = (Step.ofExcept y >>= f).run.run s := by rw [hxy]
  cases op with
  | info => exact absurd rfl hop
  | set a b count => rw [step_set, step_set, show h.set _ a b count = _ from hcalls]
  | copy src dst count => rw [step_copy, step_copy, show h.copy _ src dst count = _ from hcalls]
  | copyOverlapping src dst count =>
    rw [step_copyOverlapping, step_copyOverlapping, show h.copyOverlapping _ src dst count = _ from hcalls]
  | view kind a capacity target => exact hcall hcalls _
  | viewToZeroByte a target | viewToZeroUnit a target => exact hcall hcalls _
  | rebind name a capacity target =>
    -- the view is given up in either case, and then bound or not
    rw [step_rebind, step_rebind]
    rcases hfound : s.views.get? name with _ | v
    · rfl
    · dsimp only
      rw [hcalls v hfound]
  | addresses name index =>
    -- the addresses follow from the width of the elements
    change (Step.findView name >>= fun v =>
      pure (Answer.addresses (h.addresses v.view index) (h.addresses v.view index))).run.run s = _
    simp only [haddresses.addresses_eq]
    rfl
  | _ => rfl

/-- Through two handles that give the same results an operation does the same and answers the same, but for
the report. -/
theorem step_eq_mapReport (haddresses : AddressesAgree h g)
    {f : Handle.Report → Handle.Report} (hreport : ∀ pinned, h.report pinned = f (g.report pinned))
    (hcalls : CallsAgree h g s op) :
    step h s op = (op.mapReport f (step g s op).1, (step g s op).2) := by
  by_cases hop : op = .info
  · subst hop
    exact congrArg (fun report => (Except.ok (Answer.info report), s)) (hreport _)
  · -- no other operation answers a report
    have hsame : op.mapReport f (step g s op).1 = (step g s op).1 := by
      cases op with
      | info => exact absurd rfl hop
      | _ => rfl
    rw [step_eq_step haddresses hcalls hop, hsame]

/-- Something holds of each operation of a script in the state in which a handle carries it out. -/
def Along (g : Handle) (P : State → Operation → Prop) : State → List Operation → Prop
  | _, [] => True
  | s, op :: ops => P s op ∧ Along g P (step g s op).2 ops

theorem Along.mono {P Q : State → Operation → Prop} (hPQ : ∀ s op, P s op → Q s op)
    (hops : Along g P s ops) : Along g Q s ops := by
  induction ops generalizing s with
  | nil => trivial
  | cons op ops ih => exact ⟨hPQ s op hops.1, ih hops.2⟩

/-- What holds of all answers holds of each operation where it is carried out. -/
theorem along_of_forall_answers {P : Except Failure Answer → Prop}
    (hanswers : ∀ answer ∈ (run g s ops).1, P answer) :
    Along g (fun s op => P (step g s op).1) s ops := by
  induction ops generalizing s with
  | nil => trivial
  | cons op ops ih =>
    obtain ⟨hfirst, hrest⟩ := List.forall_mem_cons.mp hanswers
    exact ⟨hfirst, ih hrest⟩

/-- A script answers the same through two handles that give the same results all along, but for the reports,
and ends in the same state. -/
theorem run_eq_mapReport (haddresses : AddressesAgree h g)
    {f : Handle.Report → Handle.Report} (hreport : ∀ pinned, h.report pinned = f (g.report pinned))
    (hops : Along g (CallsAgree h g) s ops) :
    run h s ops =
      (List.zipWith (Operation.mapReport f) ops (run g s ops).1, (run g s ops).2) := by
  induction ops generalizing s with
  | nil => rfl
  | cons op ops ih =>
    -- both go on from the same state, for which the handles agree on the rest of the script
    have hstep := step_eq_mapReport haddresses hreport hops.1
    have hrest := ih hops.2
    rw [run, run, hstep]
    dsimp only
    rw [hrest]
    rfl

end RawMemory.Session
