import RawMemory.Proofs.Session.Effects

/-!
# Operations that fail

An operation that fails has no effect: memory, the buffers, the pinned objects and the views with their
cursors are as before. This holds of every operation in every state that a session can come to. It rests on
the order in which the operations work: those that store or move the cursor make all their checks before
(`Step.acts_perform`). Encoding is the exception, which may have written and grown its output by then. It
gives back all of its storage, and nobody else's bytes have changed. Binding a view to other memory gives up
the view first.
-/

namespace RawMemory.Session

/-- An operation has left a state as it was, but for the events reported and the view that it uses up. -/
structure Undisturbed (op : Operation) (s t : State) : Prop where
  /-- No buffer was set aside, and none was given back. -/
  blocks : t.heap.blocks = s.heap.blocks
  /-- Storage is asked for in the same place. -/
  allocator : t.heap.allocator = s.heap.allocator
  /-- All bytes of memory are as before, but those in storage that nobody uses if the operation encodes. -/
  store : t.heap.store = s.heap.store ∨
    (∃ request target, op = .encode request target) ∧
      Store.ChangesOnly s.heap.spare s.heap.store t.heap.store
  /-- The bytes of memory in use are as before in any case. -/
  inUse : Set.EqOn t.heap.store.byte s.heap.store.byte s.heap.inUse
  /-- The same objects are pinned under the same handles, and the next handle is the same. -/
  pins : t.pins = s.pins
  /-- Every buffer has its place and its length. -/
  buffers : t.buffers = s.buffers
  /-- Every buffer has its bytes. -/
  contents : ∀ {name b}, s.buffers.get? name = some b → t.heap.contents b = s.heap.contents b
  /-- Every view has its binding and its cursor, unless it is used up. -/
  views : ∀ name, t.views.get? name = if op.usedUp? = some name then none else s.views.get? name

/-- All that an operation has to leave is left when it fails, the views aside. -/
theorem undisturbed_of_leaves {op : Operation} {s t : State} (hs : s.Tidy) (hheap : op.Leaves s.heap t.heap)
    (hpins : t.pins = s.pins) (hbuffers : t.buffers = s.buffers)
    (hviews : ∀ name, t.views.get? name = if op.usedUp? = some name then none else s.views.get? name) :
    Undisturbed op s t := by
  have hspares := hheap.spares hs.heap
  have hstore : t.heap.store = s.heap.store ∨ (∃ request target, op = .encode request target) ∧
      Store.ChangesOnly s.heap.spare s.heap.store t.heap.store := by
    cases op with
    | encode request target => exact Or.inr ⟨⟨request, target, rfl⟩, hspares.changesOnly⟩
    | _ => exact Or.inl (Heap.Same.store_eq hheap)
  exact ⟨hspares.blocks_eq, hspares.allocator_eq, hstore, hspares.eqOn, hpins, hbuffers,
    fun hfound => hspares.contents_eq hs.heap (hs.block_mem hfound) (hs.length_le hfound), hviews⟩

/-- A failed operation on a state in which the blocks lie apart. -/
theorem State.Tidy.undisturbed {s : State} (hs : s.Tidy) (h : Handle) {op : Operation} {e : Failure}
    (hfail : (step h s op).1 = .error e) : Undisturbed op s (step h s op).2 := by
  rcases hop : op.usedUp? with _ | used
  · have hsame := (Step.acts_perform h hop).error (Prod.ext hfail rfl)
    refine undisturbed_of_leaves hs hsame.heap hsame.pins hsame.buffers fun name => ?_
    rw [hop, if_neg (by simp)]
    exact congrArg (Table.get? · name) hsame.views
  · obtain ⟨a, capacity, target, rfl⟩ := Operation.eq_rebind hop
    rw [step_rebind] at hfail ⊢
    rcases hfound : s.views.get? used with _ | v
    · -- there is no such view, so that none is given up
      refine undisturbed_of_leaves hs (.refl _) rfl rfl fun name => ?_
      change s.views.get? name = _
      split
      · next hused => exact Option.some.inj hused ▸ hfound
      · rfl
    · rw [hfound] at hfail
      -- the view is given up before it is known whether it can be bound
      have hsame := (Step.acts_answerMade target (h.rebind v.view a capacity)).error (Prod.ext hfail rfl)
      refine undisturbed_of_leaves hs hsame.heap hsame.pins hsame.buffers fun name => ?_
      calc
        _ = (s.views.erase used).get? name := congrArg (Table.get? · name) hsame.views
        _ = if used = name then none else s.views.get? name := Table.get?_erase ..
        _ = _ := by simp [Operation.usedUp?]

/-- In whatever state a session ends, an operation that fails there leaves it as it was. The session may
start with any memory, objects and views, as long as the allocator keeps its promises. -/
theorem error_undisturbed (h : Handle) {s : State} (hs : s.Tidy) (ops : List Operation) {op : Operation}
    {e : Failure} (hfail : (step h (run h s ops).2 op).1 = .error e) :
    Undisturbed op (run h s ops).2 (step h (run h s ops).2 op).2 :=
  (tidy_run h hs ops).undisturbed h hfail

open Step in
/-- A unit that has lost its other half is met when the character in front of it has been written. -/
theorem step_encode_unpaired (h : Handle) {s : State} {a : Address} (hplace : s.heap.place? 3 = some a)
    (target : Option String) :
    (step h s (.encode (.units "UTF-8" [0x61, 0xD800]) target)).1 =
      .error (.memory (.codec .utf8 .malformed 1)) := by
  have hsize : Text.encodeEstimate .utf8 [0x61, 0xD800] = 3 := by decide
  have hcode : Charset.utf8.encoder.run true 3 [0x61, 0xD800] = ⟨.malformed 1, [0x61], 1⟩ := by cbv
  have hallocate : (Access.allocate (UInt64.ofNatClamp (Text.encodeEstimate .utf8 [0x61, 0xD800]))).run.run
      s.heap = (.ok ⟨a, 3, 3⟩, s.heap.asked.setAside ⟨a, 3⟩) := by
    rw [hsize, Heap.run_allocate, show UInt64.ofNatClamp 3 = 3 from rfl, hplace]
    rfl
  have hunits : ∃ w, (Access.encodeUnits .utf8 [0x61, 0xD800]).run.run ⟨s.heap, s.events⟩ =
      (.error (.codec .utf8 .malformed 1), w) := by
    rw [Access.run_encodeUnits hallocate, hsize, Access.run_encodeFrom, Coder.fill_eq, Heap.room_lend]
    simp only [hcode]
    exact ⟨_, rfl⟩
  obtain ⟨w, hw⟩ := hunits
  change ((encoded (.units "UTF-8" [0x61, 0xD800]) >>= _).run.run s).1 = _
  rw [Stateful.run_bind, run_encoded, show Text.EncodeRequest.place (.units "UTF-8" [0x61, 0xD800]) =
    Access.encodeUnits .utf8 [0x61, 0xD800] from rfl, hw]

/-- In a session with a buffer, a view whose cursor has moved, and a pinned object, binding the view to other
memory is refused and only the view is gone. Encoding a text fails behind its first character, which was
written by then, and no buffer is set aside. -/
theorem undisturbed_rebind_encode :
    let h : Handle := ⟨.libc, true⟩
    let ops := [.ofBytes [1, 2, 3] (some "b"), .bufferView "b" .byte (some "v"), .setPosition "v" 2,
      .pin (.uint32 7)]
    let s := (run h {} ops).2
    let rebinding := Operation.rebind "v" ⟨0x1000⟩ 4 none
    let encoding := Operation.encode (.units "UTF-8" [0x61, 0xD800]) (some "c")
    (State.Tidy {} ∧ (Text.encodeTranscript .utf8 3 [0x61, 0xD800]).output.content = [0x61]) ∧
      ((step h s rebinding).1 = .error (.memory (.rebindOwned ⟨0x20000000⟩)) ∧
        Undisturbed rebinding s (step h s rebinding).2) ∧
      (step h s encoding).1 = .error (.memory (.codec .utf8 .malformed 1)) ∧
        Undisturbed encoding s (step h s encoding).2 := by
  intro h ops s rebinding encoding
  have htidy : State.Tidy {} := State.tidy_of_documented Allocator.documented_slots rfl rfl
  have hrebinding : (step h s rebinding).1 = .error (.memory (.rebindOwned ⟨0x20000000⟩)) := by rfl
  have hplace : s.heap.place? 3 = some ⟨0x20100000⟩ := by decide +kernel
  have hencoding := step_encode_unpaired h hplace (some "c")
  exact ⟨⟨htidy, by cbv⟩, ⟨hrebinding, error_undisturbed h htidy ops hrebinding⟩, hencoding,
    error_undisturbed h htidy ops hencoding⟩

end RawMemory.Session
