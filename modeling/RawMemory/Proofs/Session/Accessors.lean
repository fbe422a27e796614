import RawMemory.Proofs.CLibrary
import RawMemory.Proofs.Handle
import RawMemory.Proofs.Session.Comparison

/-!
# Sessions with either accessor

The built-in accessors carry out the bulk operations by the functions of the C library and without them, and
they bind views to other memory in different ways. No session can tell, as long as it keeps to the contract
of unsafe calls (`run_ofLibrary`): only the report names the accessor. The functions of the C library may be
any that meet their documentation.
-/

namespace RawMemory.Session

variable {c : CLibrary} {memory : Set Address} {checked : Bool} {s : State} {op : Operation}

/-- The ranges of memory that an operation hands to the accessor. -/
def Operation.ranges : Operation → List (Address × UInt64)
  | .set a _ count => [(a, count)]
  | .copy src dst count | .copyOverlapping src dst count => [(src, count), (dst, count)]
  | _ => []

/-- An operation keeps to the contract of unsafe calls. -/
structure Lawful (g : Handle) (memory : Set Address) (s : State) (op : Operation) : Prop where
  /-- What is handed to the accessor lies in memory, unless the operation is refused. -/
  backed : (step g s op).1 = .ok .done → ∀ range ∈ op.ranges, Backed memory range.1 range.2
  /-- Without checks there are no plain copies between ranges that overlap. -/
  disjoint : g.checked = false → ∀ src dst count, op = .copy src dst count →
    Disjoint (src.range count.toNat) (dst.range count.toNat)

/-- The C library has no part in how views are made and bound. -/
theorem documented_ofLibrary (c : CLibrary) : (Accessor.ofLibrary c).Documented :=
  have hlibc := Accessor.documented_ofKind .libc
  ⟨hlibc.addressOf_eq, hlibc.newView_eq, hlibc.bound_eq⟩

/-- Where the contract of unsafe calls is kept, the C library does what is done without it. -/
theorem Lawful.callsAgree (hop : Lawful ⟨.portable, checked⟩ memory s op) (hc : c.Meets memory) :
    CallsAgree ⟨.ofLibrary c, checked⟩ ⟨.portable, checked⟩ s op := by
  have hchecked : (⟨.ofLibrary c, checked⟩ : Handle).checked = (⟨.portable, checked⟩ : Handle).checked :=
    rfl
  have hsize : (Accessor.ofLibrary c).pointerSize = Accessor.portable.pointerSize := rfl
  have hacc : (Accessor.ofLibrary c).Documented := documented_ofLibrary c
  have hportable : Accessor.portable.Documented := Accessor.documented_ofKind .portable
  cases op with
  | set a b count =>
    refine Handle.set_congr hchecked fun stored hset => ?_
    have hbacked := List.forall_mem_singleton.mp (hop.backed (by rw [step_set, hset]))
    exact hc.memset_eq hbacked _ _
  | copy src dst count =>
    refine Handle.copy_congr hchecked fun stored hcopy => ?_
    obtain ⟨hsrc, hrest⟩ := List.forall_mem_cons.mp (hop.backed (by rw [step_copy, hcopy]))
    have hdst := List.forall_mem_singleton.mp hrest
    have hdisjoint : Disjoint (src.range count.toNat) (dst.range count.toNat) := by
      cases checked with
      | false => exact hop.disjoint rfl src dst count rfl
      -- what the contract leaves to the caller is checked here
      | true => exact Handle.disjoint_of_overlap (Handle.overlap_of_copy rfl hcopy)
    exact hc.memcpy_eq hsrc hdst hdisjoint _
  | copyOverlapping src dst count =>
    refine Handle.copyOverlapping_congr hchecked fun stored hmove => ?_
    obtain ⟨hsrc, hrest⟩ := List.forall_mem_cons.mp (hop.backed (by rw [step_copyOverlapping, hmove]))
    have hdst := List.forall_mem_singleton.mp hrest
    exact hc.memmove_eq hsrc hdst _
  | view kind a capacity target => exact Handle.view_congr hchecked hsize hacc hportable _ _ _
  | rebind name a capacity target => exact fun v _ => Handle.rebind_congr hchecked hsize hacc hportable _ _ _
  | viewToZeroByte a target | viewToZeroUnit a target =>
    exact Handle.viewToTerminator_congr hchecked hsize hacc hportable _ _ _
  | _ => trivial

theorem Lawful.of_ranges_eq_nil {g : Handle} (hop : op.ranges = []) : Lawful g memory s op where
  backed _ range hrange := by
    rw [hop] at hrange
    cases hrange
  disjoint _ src dst count hcopy := by
    rw [hcopy] at hop
    cases hop

theorem ofConfig_preferred (kind : AccessorKind) (checked : Bool) :
    Handle.ofConfig ⟨some kind, checked⟩ =
      ⟨.ok ⟨.ofKind kind, checked⟩, [.accessorSelected kind 4096 8]⟩ := by
  cases kind <;> rfl

/-- Either accessor can be had by asking for it, and the events that tell so differ in its name only. A script
that keeps to the contract of unsafe calls does the same with the functions of the C library as without them,
and answers the same, but for the name of the accessor in reports. -/
theorem run_ofLibrary (hc : c.Meets memory) {ops : List Operation}
    (hops : Along ⟨.portable, checked⟩ (Lawful ⟨.portable, checked⟩ memory) s ops) :
    (∀ kind, Handle.ofConfig ⟨some kind, checked⟩ =
      ⟨.ok ⟨.ofKind kind, checked⟩, [.accessorSelected kind 4096 8]⟩) ∧
    run ⟨.ofLibrary c, checked⟩ s ops =
      (List.zipWith (Operation.mapReport fun report => { report with accessor := .libc }) ops
        (run ⟨.portable, checked⟩ s ops).1, (run ⟨.portable, checked⟩ s ops).2) := by
  have haddresses : AddressesAgree ⟨.ofLibrary c, checked⟩ ⟨.portable, checked⟩ := ⟨rfl, fun _ => rfl⟩
  have hcalls : Along ⟨.portable, checked⟩
      (CallsAgree ⟨.ofLibrary c, checked⟩ ⟨.portable, checked⟩) s ops :=
    hops.mono fun _ _ hop => hop.callsAgree hc
  exact ⟨fun kind => ofConfig_preferred kind checked,
    run_eq_mapReport haddresses (fun _ => rfl) hcalls⟩

/-- Without checks a view of a buffer is bound to other memory, which is filled and copied by a library that
copies byte by byte. -/
theorem run_ofLibrary_bytewise :
    let memory := (⟨0x1000⟩ : Address).range 8
    let ops := [.ofBytes [1, 2, 3] (some "b"), .bufferView "b" .byte (some "v"), .setPosition "v" 2,
      .rebind "v" ⟨0x1004⟩ 4 (some "w"), .set ⟨0x1000⟩ 7 4, .copy ⟨0x1000⟩ ⟨0x1004⟩ 4, .read "w", .info]
    let libc := run ⟨.ofLibrary .bytewise, false⟩ {} ops
    let portable := run ⟨.portable, false⟩ {} ops
    (CLibrary.bytewise.Meets memory ∧
        Along ⟨.portable, false⟩ (Lawful ⟨.portable, false⟩ memory) {} ops) ∧
      portable.1[6]? = some (.ok (.elementThen .byte 7 1)) ∧
      libc = (List.zipWith (Operation.mapReport fun report => { report with accessor := .libc }) ops
        portable.1, portable.2) := by
  intro memory ops libc portable
  have hmeets := CLibrary.bytewise_meets memory
  have hfirst : Backed memory ⟨0x1000⟩ 4 := ⟨by decide, Address.range_subset_range le_rfl (by decide)⟩
  have hsecond : Backed memory ⟨0x1004⟩ 4 :=
    ⟨by decide, Address.range_subset_range (by decide) le_rfl⟩
  have hset (s : State) : Lawful ⟨.portable, false⟩ memory s (.set ⟨0x1000⟩ 7 4) :=
    ⟨by simp [Operation.ranges, hfirst], fun _ _ _ _ h => by cases h⟩
  have hcopy (s : State) : Lawful ⟨.portable, false⟩ memory s (.copy ⟨0x1000⟩ ⟨0x1004⟩ 4) := by
    refine ⟨by simp [Operation.ranges, hfirst, hsecond], fun _ src dst count h => ?_⟩
    cases h
    exact Address.disjoint_range (by decide)
  have hops : Along ⟨.portable, false⟩ (Lawful ⟨.portable, false⟩ memory) {} ops :=
    ⟨.of_ranges_eq_nil rfl, .of_ranges_eq_nil rfl, .of_ranges_eq_nil rfl, .of_ranges_eq_nil rfl,
      hset _, hcopy _, .of_ranges_eq_nil rfl, .of_ranges_eq_nil rfl, trivial⟩
  exact ⟨⟨hmeets, hops⟩, by rfl, (run_ofLibrary hmeets hops).2⟩

end RawMemory.Session
