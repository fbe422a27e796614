import RawMemory.Error

/-!
# Operations on state

An operation works on a state and may fail. The state lives on when it fails: whatever was done before the
failure stays done, so it matters whether an operation makes its checks first. `run` tells of the state after
either outcome, and `result` of the state after a success only.
-/

namespace RawMemory

/-- A computation on a state of type `σ` that may fail with an error of type `ε`. -/
abbrev Stateful (ε σ : Type) := ExceptT ε (StateM σ)

/-- An operation on a part of memory, of type `σ`. -/
abbrev Access (σ : Type) := Stateful MemoryError σ

namespace Stateful

variable {ε σ τ α β : Type}

/-- What a computation returns, with the state that it leaves, unless it fails. -/
def result (x : Stateful ε σ α) (s : σ) : Except ε (α × σ) :=
  match x.run.run s with
  | (.ok a, t) => .ok (a, t)
  | (.error e, _) => .error e

/-- The state that a computation leaves, unless it fails. -/
def after (x : Stateful ε σ α) (s : σ) : Except ε σ := (x.result s).map Prod.snd

/-- A computation on a part of a larger state. What it does to the part stays done if it fails. -/
def onPart (part : τ → σ) (put : σ → τ → τ) (x : Stateful ε σ α) : Stateful ε τ α :=
  ExceptT.mk fun t => ((x.run.run (part t)).1, put (x.run.run (part t)).2 t)

/-- The second of two computations starts where the first one ends, unless that one fails. -/
theorem run_bind (x : Stateful ε σ α) (f : α → Stateful ε σ β) (s : σ) :
    (x >>= f).run.run s =
      match x.run.run s with
      | (.ok a, t) => (f a).run.run t
      | (.error e, t) => (.error e, t) := by
  simp only [ExceptT.run_bind, StateT.run_bind]
  rcases x.run.run s with ⟨_ | _, t⟩ <;> rfl

/-- Behind a computation that succeeds the next one starts. -/
theorem run_bind_of_ok {x : Stateful ε σ α} {s t : σ} {a : α} (h : x.run.run s = (.ok a, t))
    (f : α → Stateful ε σ β) : (x >>= f).run.run s = (f a).run.run t := by
  rw [run_bind, h]

/-- A failure is dealt with in the state in which it has left things. -/
theorem run_tryCatch (x : Stateful ε σ α) (deal : ε → Stateful ε σ α) (s : σ) :
    (tryCatch x deal : Stateful ε σ α).run.run s =
      match x.run.run s with
      | (.ok a, t) => (.ok a, t)
      | (.error e, t) => (deal e).run.run t := by
  change (x.run >>= fun outcome : Except ε α => match outcome with
    | .ok a => (pure (.ok a) : StateM σ (Except ε α))
    | .error e => (deal e).run).run s = _
  rw [StateT.run_bind]
  rcases x.run.run s with ⟨_ | _, _⟩ <;> rfl

@[simp] theorem result_pure (a : α) (s : σ) : (pure a : Stateful ε σ α).result s = .ok (a, s) := rfl

@[simp] theorem result_modify (f : σ → σ) (s : σ) :
    (modify f : Stateful ε σ Unit).result s = .ok ((), f s) := rfl

/-- Two computations one after the other succeed if both do, the second one in the state that the first one
leaves. -/
theorem result_bind (x : Stateful ε σ α) (f : α → Stateful ε σ β) (s : σ) :
    (x >>= f).result s = x.result s >>= fun made => (f made.1).result made.2 := by
  rw [result, run_bind, result]
  rcases x.run.run s with ⟨_ | _, t⟩ <;> rfl

/-- To look at the state changes nothing. -/
theorem result_get_bind (f : σ → Stateful ε σ β) (s : σ) :
    ((get : Stateful ε σ σ) >>= f).result s = (f s).result s := result_bind ..

/-- A check that does not look at the state decides whether anything else is done. -/
theorem result_check_bind (x : Except ε α) (f : α → Stateful ε σ β) (s : σ) :
    ((liftM x : Stateful ε σ α) >>= f).result s = x >>= fun a => (f a).result s := by
  rw [result_bind]
  cases x <;> rfl

@[simp] theorem after_modify (f : σ → σ) (s : σ) :
    (modify f : Stateful ε σ Unit).after s = .ok (f s) := rfl

theorem after_bind (x : Stateful ε σ α) (f : α → Stateful ε σ β) (s : σ) :
    (x >>= f).after s = x.result s >>= fun made => (f made.1).after made.2 := by
  rw [after, result_bind]
  cases x.result s <;> rfl

theorem after_get_bind (f : σ → Stateful ε σ β) (s : σ) :
    ((get : Stateful ε σ σ) >>= f).after s = (f s).after s := by
  rw [after, result_get_bind, after]

theorem after_check_bind (x : Except ε α) (f : α → Stateful ε σ β) (s : σ) :
    ((liftM x : Stateful ε σ α) >>= f).after s = x >>= fun a => (f a).after s := by
  rw [after, result_check_bind]
  cases x <;> rfl

/-- What is done to a part of the state is done to that part of it. -/
theorem run_onPart (part : τ → σ) (put : σ → τ → τ) (x : Stateful ε σ α) (t : τ) :
    (x.onPart part put).run.run t = ((x.run.run (part t)).1, put (x.run.run (part t)).2 t) := rfl

theorem result_onPart (part : τ → σ) (put : σ → τ → τ) (x : Stateful ε σ α) (t : τ) :
    (x.onPart part put).result t = (x.result (part t)).map fun made => (made.1, put made.2 t) := by
  rw [result, run_onPart, result]
  rcases x.run.run (part t) with ⟨_ | _, _⟩ <;> rfl

end Stateful

end RawMemory
