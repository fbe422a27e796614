import RawMemory.Proofs.CLibrary
import RawMemory.Proofs.Session.Effects

/-!
# Copies in checked mode

A plain copy may move its bytes in any order, and in most orders it would read bytes that it has written
before if the two ranges had a byte in common. Checked mode refuses just those copies, so that what is left
in memory does not depend on the order (`Store.copyInOrder_eq_copy`).

* `Store.copyInOrder`: a copy that moves one byte after the other.
* `Handle.overlap_eq_false_iff_disjoint`: the test for overlap refuses no copy without need, and misses none.
* `Session.copy_or_refuse`: in checked mode a copy leaves at the destination what the source was before, and
  all else as it was; or it is refused, and all memory is as it was.
-/

namespace RawMemory

open Store (ChangesOnly)

/-! ## One byte after the other -/

namespace Store

variable {src dst x : Address} {m : Store} {count i : UInt64} {order : List UInt64}

/-- Copy the byte at one distance from the beginning of a range. -/
def copyByte (m : Store) (src dst : Address) (i : UInt64) : Store :=
  ⟨Function.update m.byte (dst + i) (m.byte (src + i))⟩

/-- Copy the bytes at these distances one after the other, each of which is read when its turn has come. -/
def copyInOrder (m : Store) (src dst : Address) (order : List UInt64) : Store :=
  order.foldl (fun m i => m.copyByte src dst i) m

theorem copyInOrder_cons (m : Store) (src dst : Address) (i : UInt64) (order : List UInt64) :
    m.copyInOrder src dst (i :: order) = (m.copyByte src dst i).copyInOrder src dst order := rfl

/-- One byte is copied to its place. -/
theorem byte_copyByte_self (m : Store) (src dst : Address) (i : UInt64) :
    (m.copyByte src dst i).byte (dst + i) = m.byte (src + i) :=
  Function.update_self ..

/-- No other byte changes. -/
theorem byte_copyByte_of_ne (m : Store) (src : Address) (hx : x ≠ dst + i) :
    (m.copyByte src dst i).byte x = m.byte x :=
  Function.update_of_ne hx ..

/-- A run that never reads where it writes leaves at the distances that had their turn what was in memory
before, whichever turn it was. -/
theorem byte_copyInOrder (hapart : ∀ i ∈ order, ∀ j ∈ order, src + j ≠ dst + i) (m : Store) (x : Address) :
    (m.copyInOrder src dst order).byte x =
      if x.distance dst ∈ order then m.byte (src + x.distance dst) else m.byte x := by
  -- the memory that the other bytes are copied in differs from `m` in one byte, and in none of the source
  induction order generalizing m with
  | nil => rfl
  | cons i order ih =>
    have hrest : ∀ i ∈ order, ∀ j ∈ order, src + j ≠ dst + i := fun i hi j hj =>
      hapart i (List.mem_cons_of_mem _ hi) j (List.mem_cons_of_mem _ hj)
    rw [copyInOrder_cons, ih hrest]
    by_cases hx : x.distance dst ∈ order
    · -- this byte has its turn later on
      have hsource := hapart i List.mem_cons_self _ (List.mem_cons_of_mem _ hx)
      rw [if_pos hx, if_pos (List.mem_cons_of_mem _ hx), byte_copyByte_of_ne _ _ hsource]
    · rw [if_neg hx]
      by_cases hi : x.distance dst = i
      · -- this byte has just had its last turn
        obtain rfl : x = dst + i := by rw [← hi, Address.add_distance]
        rw [byte_copyByte_self, hi, if_pos List.mem_cons_self]
      · have hne : x ≠ dst + i := by
          rintro rfl
          exact hi (Address.distance_add dst i)
        rw [if_neg (List.not_mem_cons_of_ne_of_not_mem hi hx), byte_copyByte_of_ne _ _ hne]

/-- Between ranges with no byte in common every order leaves the same. -/
theorem copyInOrder_eq_copy (m : Store) (hsrc : src.val.toNat + count.toNat ≤ 2 ^ 64)
    (hdst : dst.val.toNat + count.toNat ≤ 2 ^ 64)
    (hdisjoint : Disjoint (src.range count.toNat) (dst.range count.toNat))
    (horder : ∀ i, i ∈ order ↔ i < count) : m.copyInOrder src dst order = m.copy src dst count := by
  have hapart : ∀ i ∈ order, ∀ j ∈ order, src + j ≠ dst + i := by
    intro i hi j hj
    have hread := Address.add_mem_range hsrc (UInt64.lt_iff_toNat_lt.mp ((horder j).mp hj))
    have hwritten := Address.add_mem_range hdst (UInt64.lt_iff_toNat_lt.mp ((horder i).mp hi))
    exact hdisjoint.ne_of_mem hread hwritten
  ext x
  rw [byte_copyInOrder hapart, byte_copy]
  simp only [horder]

/-- What the source was before has arrived at the destination, and nothing else has changed. -/
structure Copied (m : Store) (src dst : Address) (count : UInt64) (stored : Store) : Prop where
  /-- Every byte has arrived. -/
  byte : ∀ i, i < count → stored.byte (dst + i) = m.byte (src + i)
  /-- Bytes outside the destination are as they were. -/
  changesOnly : ChangesOnly (dst.range count.toNat) m stored

/-- A block that is copied at once has been copied. -/
theorem copied_copy (m : Store) (src : Address) (hdst : dst.val.toNat + count.toNat ≤ 2 ^ 64) :
    Copied m src dst count (m.copy src dst count) := by
  constructor
  · intro i hi
    rw [byte_copy, Address.distance_add, if_pos hi]
  · exact m.changesOnly_copy src hdst

end Store

/-! ## Overlap -/

/-- The numbers of the addresses of a range, which does not go round the address space. -/
def Address.span (a : Address) (count : UInt64) : Set ℕ :=
  Set.Ico a.val.toNat (a.val.toNat + count.toNat)

namespace Handle

variable {h : Handle} {src dst : Address} {count : UInt64}

/-- The test for overlap is exact. -/
theorem overlap_eq_false_iff_disjoint :
    overlap src dst count = false ↔ Disjoint (src.span count) (dst.span count) := by
  rw [overlap_eq_false_iff, Address.span, Address.span, Set.Ico_disjoint_Ico]
  omega

instance : Decidable (Disjoint (src.span count) (dst.span count)) :=
  decidable_of_iff _ overlap_eq_false_iff_disjoint

/-! ## The gate -/

/-- Blocks may be copied between the two addresses, neither of which is null or negative, and this one is no
larger than an object. -/
def Copyable (src dst : Address) (count : UInt64) : Prop :=
  (1 ≤ src.val.toNat ∧ src.val.toNat ≤ 2 ^ 63 - 1) ∧ (1 ≤ dst.val.toNat ∧ dst.val.toNat ≤ 2 ^ 63 - 1) ∧
    count.toNat ≤ 2 ^ 63 - 1

instance : Decidable (Copyable src dst count) := by
  unfold Copyable
  infer_instance

/-- Why a copy is refused. The overlap is looked at last. -/
def copyRefusal (src dst : Address) (count : UInt64) : ArgumentError :=
  if ¬ src.isPositive then .address .source src
  else if ¬ dst.isPositive then .address .destination dst
  else if Word.maxSize < count then .byteCount count
  else .overlap count src dst

/-- Blocks can be copied just if both addresses are positive and the count is no larger than an object may
be. -/
theorem copyable_iff :
    Copyable src dst count ↔ src.isPositive = true ∧ dst.isPositive = true ∧ count ≤ Word.maxSize := by
  rw [Address.isPositive_iff, Address.isPositive_iff, UInt64.le_iff_toNat_le]
  exact Iff.rfl

/-- Where all else is well, the overlap is the reason. -/
theorem copyRefusal_of_copyable (hcopyable : Copyable src dst count) :
    copyRefusal src dst count = .overlap count src dst := by
  obtain ⟨hsrc, hdst, hcount⟩ := copyable_iff.mp hcopyable
  rw [copyRefusal, if_neg (not_not_intro hsrc), if_neg (not_not_intro hdst), if_neg (UInt64.not_lt.mpr hcount)]

/-- The checks that both kinds of copies have in common. -/
theorem checkBlocks_bind (hchecked : h.checked = true) (src dst : Address) (count : UInt64)
    (rest : Except MemoryError Store) :
    (do h.checkAddress .source src
        h.checkAddress .destination dst
        h.checkByteCount count
        rest) =
      if Copyable src dst count then rest
      else .error (.invalidArgument (copyRefusal src dst count)) := by
  simp only [checkAddress, checkByteCount, require_bind hchecked, decide_eq_true_eq]
  -- the first check that does not hold says why
  by_cases hsrc : src.isPositive = true
  case neg =>
    rw [if_neg hsrc, if_neg fun hall => hsrc (copyable_iff.mp hall).1, copyRefusal, if_pos hsrc]
  by_cases hdst : dst.isPositive = true
  case neg =>
    rw [if_pos hsrc, if_neg hdst, if_neg fun hall => hdst (copyable_iff.mp hall).2.1, copyRefusal,
      if_neg (not_not_intro hsrc), if_pos hdst]
  by_cases hcount : count ≤ Word.maxSize
  case neg =>
    rw [if_pos hsrc, if_pos hdst, if_neg hcount, if_neg fun hall => hcount (copyable_iff.mp hall).2.2,
      copyRefusal, if_neg (not_not_intro hsrc), if_neg (not_not_intro hdst), if_pos (UInt64.not_le.mp hcount)]
  rw [if_pos hsrc, if_pos hdst, if_pos hcount, if_pos (copyable_iff.mpr ⟨hsrc, hdst, hcount⟩)]

/-- In checked mode blocks are moved just if they can be copied. -/
theorem copyOverlapping_of_checked (hchecked : h.checked = true) (m : Store) (src dst : Address)
    (count : UInt64) :
    h.copyOverlapping m src dst count =
      if Copyable src dst count then .ok (h.accessor.move m src dst count)
      else .error (.invalidArgument (copyRefusal src dst count)) := by
  rw [copyOverlapping_eq]
  exact checkBlocks_bind hchecked src dst count _

/-- In checked mode blocks are copied just if they can be and lie apart. -/
theorem copy_of_checked (hchecked : h.checked = true) (m : Store) (src dst : Address) (count : UInt64) :
    h.copy m src dst count =
      if Copyable src dst count ∧ Disjoint (src.span count) (dst.span count) then
        .ok (h.accessor.copy m src dst count)
      else .error (.invalidArgument (copyRefusal src dst count)) := by
  rw [copy_eq, checkBlocks_bind hchecked, require_bind hchecked]
  simp only [Bool.not_eq_true', overlap_eq_false_iff_disjoint, ite_and]
  split
  · next hcopyable =>
    rw [copyRefusal_of_copyable hcopyable]
    rfl
  · rfl

/-- A block that can be copied ends within the address space. -/
theorem Copyable.src_le (hcopyable : Copyable src dst count) : src.val.toNat + count.toNat ≤ 2 ^ 64 := by
  obtain ⟨hsrc, -, hcount⟩ := hcopyable
  omega

theorem Copyable.dst_le (hcopyable : Copyable src dst count) : dst.val.toNat + count.toNat ≤ 2 ^ 64 := by
  obtain ⟨-, hdst, hcount⟩ := hcopyable
  omega

end Handle

open Handle (Copyable copyRefusal)

/-! ## Built-in accessors -/

namespace Accessor

variable {acc : Accessor} {src dst : Address} {count : UInt64}

/-- The accessor is one of the two that come with the library. The one that calls the C library may find there
any functions that are as documented. -/
def IsBuiltIn (acc : Accessor) : Prop :=
  acc = .portable ∨ ∃ c : CLibrary, c.Meets Set.univ ∧ acc = .ofLibrary c

/-- Whichever of the two is selected, it is built in. -/
theorem isBuiltIn_ofKind (kind : AccessorKind) : (ofKind kind).IsBuiltIn := by
  cases kind with
  | portable => exact Or.inl rfl
  | libc =>
    refine Or.inr ⟨⟨Store.fill, Store.copy, Store.copy⟩, ?_, rfl⟩
    constructor
    case memset => exact fun m a b count ha => ⟨m.read_fill a b count, m.changesOnly_fill b ha.1⟩
    case memcpy =>
      exact fun m src dst count _ hdst _ => ⟨m.read_copy src dst count, m.changesOnly_copy src hdst.1⟩
    case memmove =>
      exact fun m src dst count _ hdst => ⟨m.read_copy src dst count, m.changesOnly_copy src hdst.1⟩

/-- All accessors that are built in move blocks as if at once. -/
theorem IsBuiltIn.move_eq (hacc : acc.IsBuiltIn) (hcopyable : Copyable src dst count) (m : Store) :
    acc.move m src dst count = m.copy src dst count := by
  rcases hacc with rfl | ⟨c, hc, rfl⟩
  · rfl
  · exact hc.memmove_eq ⟨hcopyable.src_le, Set.subset_univ _⟩ ⟨hcopyable.dst_le, Set.subset_univ _⟩ m

theorem IsBuiltIn.copy_eq (hacc : acc.IsBuiltIn) (hcopyable : Copyable src dst count)
    (hdisjoint : Disjoint (src.range count.toNat) (dst.range count.toNat)) (m : Store) :
    acc.copy m src dst count = m.copy src dst count := by
  rcases hacc with rfl | ⟨c, hc, rfl⟩
  · rfl
  · exact hc.memcpy_eq ⟨hcopyable.src_le, Set.subset_univ _⟩ ⟨hcopyable.dst_le, Set.subset_univ _⟩
      hdisjoint m

end Accessor

/-! ## Copies in a session -/

namespace Session

/-- In checked mode a plain copy is made between addresses at which blocks may be, unless the two blocks
have a byte in common, and any copy is made for which that is allowed. Either leaves the same, which does
not depend on the order in which a plain copy moves its bytes. Other copies are refused, whatever is in
memory, and leave it as it was. -/
theorem copy_or_refuse {acc : Accessor} (hacc : acc.IsBuiltIn) (m : Store) (src dst : Address)
    (count : UInt64) :
    let h : Handle := ⟨acc, true⟩
    let refused : MemoryError := .invalidArgument (copyRefusal src dst count)
    (h.copy m src dst count =
      if Copyable src dst count ∧ Disjoint (src.span count) (dst.span count) then
        .ok (m.copy src dst count)
      else .error refused) ∧
    (h.copyOverlapping m src dst count =
      if Copyable src dst count then .ok (m.copy src dst count) else .error refused) ∧
    (Copyable src dst count → m.Copied src dst count (m.copy src dst count) ∧
      (Disjoint (src.span count) (dst.span count) →
        ∀ order, (∀ i, i ∈ order ↔ i < count) →
          m.copyInOrder src dst order = m.copy src dst count)) ∧
    ∀ s : State,
      (¬ (Copyable src dst count ∧ Disjoint (src.span count) (dst.span count)) →
        step h s (.copy src dst count) = (.error (.memory refused), s)) ∧
      (¬ Copyable src dst count →
        step h s (.copyOverlapping src dst count) = (.error (.memory refused), s)) := by
  intro h refused
  have hrange (hdisjoint : Disjoint (src.span count) (dst.span count)) :
      Disjoint (src.range count.toNat) (dst.range count.toNat) :=
    Handle.disjoint_of_overlap (Handle.overlap_eq_false_iff_disjoint.mpr hdisjoint)
  refine ⟨?_, ?_, ?_, fun s => ⟨fun hbad => ?_, fun hbad => ?_⟩⟩
  · -- what is accepted is copied by the accessor, and all of them copy alike
    rw [Handle.copy_of_checked rfl]
    apply if_ctx_congr Iff.rfl _ fun _ => rfl
    rintro ⟨hcopyable, hdisjoint⟩
    rw [hacc.copy_eq hcopyable (hrange hdisjoint)]
  · rw [Handle.copyOverlapping_of_checked rfl]
    apply if_ctx_congr Iff.rfl _ fun _ => rfl
    intro hcopyable
    rw [hacc.move_eq hcopyable]
  · intro hcopyable
    refine ⟨m.copied_copy src hcopyable.dst_le, fun hdisjoint order horder => ?_⟩
    exact m.copyInOrder_eq_copy hcopyable.src_le hcopyable.dst_le (hrange hdisjoint) horder
  · rw [step_copy, Handle.copy_of_checked rfl, if_neg hbad]
  · rw [step_copyOverlapping, Handle.copyOverlapping_of_checked rfl, if_neg hbad]

/-- Four bytes are copied to the four behind them by a library that copies byte by byte, and in a wild
order. A copy to one byte less behind them is refused, unless it is said that the blocks may overlap. -/
theorem copy_or_refuse_bytewise :
    let h : Handle := ⟨.ofLibrary .bytewise, true⟩
    let m : Store := Store.zero.write ⟨0x1000⟩ #[1, 2, 3, 4]
    (Accessor.ofLibrary .bytewise).IsBuiltIn ∧
      h.copy m ⟨0x1000⟩ ⟨0x1004⟩ 4 = .ok (m.copy ⟨0x1000⟩ ⟨0x1004⟩ 4) ∧
      m.copyInOrder ⟨0x1000⟩ ⟨0x1004⟩ [2, 0, 3, 1] = m.copy ⟨0x1000⟩ ⟨0x1004⟩ 4 ∧
      step h {} (.copy ⟨0x1000⟩ ⟨0x1003⟩ 4) =
        (.error (.memory (.invalidArgument (.overlap 4 ⟨0x1000⟩ ⟨0x1003⟩))), {}) ∧
      h.copyOverlapping m ⟨0x1000⟩ ⟨0x1003⟩ 4 = .ok (m.copy ⟨0x1000⟩ ⟨0x1003⟩ 4) := by
  intro h m
  have hacc : (Accessor.ofLibrary .bytewise).IsBuiltIn :=
    Or.inr ⟨.bytewise, CLibrary.bytewise_meets _, rfl⟩
  obtain ⟨happart, -, hcopied, -⟩ := copy_or_refuse hacc m ⟨0x1000⟩ ⟨0x1004⟩ 4
  obtain ⟨-, hoverlapping, -, hsession⟩ := copy_or_refuse hacc m ⟨0x1000⟩ ⟨0x1003⟩ 4
  have horder : ∀ i : UInt64, i ∈ ([2, 0, 3, 1] : List UInt64) ↔ i < 4 := by
    intro i
    simp only [List.mem_cons, List.not_mem_nil, or_false, ← UInt64.toNat_inj, UInt64.lt_iff_toNat_lt]
    show (i.toNat = 2 ∨ i.toNat = 0 ∨ i.toNat = 3 ∨ i.toNat = 1) ↔ i.toNat < 4
    omega
  refine ⟨hacc, ?_, ?_, ?_, ?_⟩
  · rw [happart, if_pos (by decide)]
  · exact (hcopied (by decide)).2 (by decide) _ horder
  · exact (hsession {}).1 (by decide)
  · rw [hoverlapping, if_pos (by decide)]

end Session

end RawMemory
