import RawMemory.Proofs.Handle
import RawMemory.Proofs.Heap

/-!
# Looking for a terminator

Bytes are read as cells of one or two bytes each, and a terminator is a cell of zeros. Where memory holds
bytes with such a cell, every handle finds the first one, whatever lies around the bytes
(`Handle.viewToZero_eq`). The bytes of a buffer made from them are held there (`Heap.holds_of_ofBytes`),
wherever the allocator has put it.
-/

namespace RawMemory

/-! ## Bytes in memory -/

/-- Memory holds bytes at an address, both of them such as an object in memory may have. -/
structure Store.Holds (m : Store) (a : Address) (bytes : List UInt8) : Prop where
  /-- The address is neither null nor negative. -/
  isPositive : a.isPositive = true
  /-- There are no more bytes than an object may have. -/
  length_le : bytes.length ≤ Word.maxSize.toNat
  /-- They are in memory. -/
  read_eq : m.read a bytes.length = bytes

/-- What is held ends before addresses become negative. -/
theorem Store.Holds.length_lt {m : Store} {a : Address} {bytes : List UInt8} (h : m.Holds a bytes) :
    bytes.length < 2 ^ 63 := by
  have := h.length_le
  rw [Word.toNat_maxSize] at this
  omega

/-- Each byte is found at its address. -/
theorem Store.Holds.getElem?_eq {m : Store} {a : Address} {bytes : List UInt8}
    (h : m.Holds a bytes) {i : Nat} (hi : i < bytes.length) :
    bytes[i]? = some (m.byte (a + UInt64.ofNat i)) := by
  have hread : (m.read a bytes.length)[i]? = some (m.byte (a + UInt64.ofNat i)) := by
    rw [List.getElem?_eq_getElem (by simpa using hi), Store.getElem_read]
  rwa [h.read_eq] at hread

/-- A view of the first bytes of those that memory holds. -/
theorem Store.Holds.remainingBytes_eq {m : Store} {a : Address} {bytes : List UInt8}
    (h : m.Holds a bytes) {n : Nat} (hn : n ≤ bytes.length) (origin : Origin) :
    (View.mk a (UInt64.ofNat n) origin 0 : View .byte).remainingBytes m = bytes.take n := by
  have hlength := h.length_lt
  have hcapacity : (UInt64.ofNat n).toNat = n := by
    rw [UInt64.toNat_ofNat', Nat.mod_eq_of_lt (by omega)]
  rw [View.remainingBytes, View.bytes, UInt64.toNat_zero, List.drop_zero]
  -- byte by byte: below `n` both are what memory has there, and from `n` on there is none
  refine List.ext_getElem? fun i => ?_
  rw [List.getElem?_take]
  simp only [hcapacity]
  split
  · next hi =>
    rw [h.getElem?_eq (by omega), List.getElem?_eq_getElem (by simpa using hi), Store.getElem_read]
  · next hi => rw [List.getElem?_eq_none (by simpa using hi)]

/-! ## Cells of zeros -/

/-- The cell of an index, of as many bytes as `width` says, is there and has only zeros. -/
def IsZeroCell (width : Nat) (bytes : List UInt8) (k : Nat) : Prop :=
  ∀ j < width, bytes[width * k + j]? = some 0

/-- The first cell of zeros. -/
def IsFirstZeroCell (width : Nat) (bytes : List UInt8) (k : Nat) : Prop :=
  IsZeroCell width bytes k ∧ ∀ j < k, ¬ IsZeroCell width bytes j

/-- A cell of zeros lies within the bytes. -/
theorem IsZeroCell.le_length {width k : Nat} {bytes : List UInt8} (h : IsZeroCell width bytes k)
    (hwidth : 0 < width) : width * k + width ≤ bytes.length := by
  obtain ⟨hlt, -⟩ := List.getElem?_eq_some_iff.mp (h (width - 1) (by omega))
  omega

/-- What comes behind a cell does not matter to it. -/
theorem isZeroCell_append_iff {width k : Nat} {bytes rest : List UInt8}
    (hk : width * k + width ≤ bytes.length) :
    IsZeroCell width (bytes ++ rest) k ↔ IsZeroCell width bytes k := by
  refine forall₂_congr fun j hj => ?_
  rw [List.getElem?_append_left (by omega)]

/-- A cell behind whole cells is found further on. -/
theorem isZeroCell_append_add_iff {width n k : Nat} {bytes rest : List UInt8}
    (hn : bytes.length = width * n) :
    IsZeroCell width (bytes ++ rest) (n + k) ↔ IsZeroCell width rest k := by
  refine forall₂_congr fun j hj => ?_
  rw [Nat.mul_add, ← hn, Nat.add_assoc, List.getElem?_append_right (Nat.le_add_right _ _),
    Nat.add_sub_cancel_left]

/-- Bytes that fall into cells of which none is zero. -/
def NoZeroCell (width : Nat) (bytes : List UInt8) : Prop :=
  ∃ n, bytes.length = width * n ∧ ∀ k < n, ¬ IsZeroCell width bytes k

/-- There is no zero cell in two lists if there is none in either. -/
theorem NoZeroCell.append {width : Nat} {bytes rest : List UInt8} (h : NoZeroCell width bytes)
    (hrest : NoZeroCell width rest) : NoZeroCell width (bytes ++ rest) := by
  obtain ⟨n, hn, hcells⟩ := h
  obtain ⟨l, hl, hrestCells⟩ := hrest
  refine ⟨n + l, by rw [List.length_append, hn, hl, Nat.mul_add], fun k hk => ?_⟩
  -- a cell lies in the first bytes or behind them, since these fall into whole cells
  rcases Nat.lt_or_ge k n with hlt | hge
  · rw [isZeroCell_append_iff]
    · exact hcells k hlt
    · rw [hn, ← Nat.mul_succ]
      exact Nat.mul_le_mul_left width hlt
  · obtain ⟨j, rfl⟩ := Nat.exists_eq_add_of_le hge
    rw [isZeroCell_append_add_iff hn]
    exact hrestCells j (by omega)

/-- Behind cells of which none is zero, a cell of zeros is the first one. -/
theorem NoZeroCell.isFirstZeroCell {width : Nat} {bytes : List UInt8}
    (h : NoZeroCell width bytes) (rest : List UInt8) :
    ∃ n, bytes.length = width * n ∧
      IsFirstZeroCell width (bytes ++ (List.replicate width 0 ++ rest)) n := by
  obtain ⟨n, hn, hcells⟩ := h
  refine ⟨n, hn, ?_, fun k hk => ?_⟩
  · rw [← Nat.add_zero n, isZeroCell_append_add_iff hn]
    intro j hj
    rw [Nat.mul_zero, Nat.zero_add, List.getElem?_append_left (by simpa using hj),
      List.getElem?_replicate_of_lt hj]
  · rw [isZeroCell_append_iff]
    · exact hcells k hk
    · rw [hn, ← Nat.mul_succ]
      exact Nat.mul_le_mul_left width hk

/-- Bytes without a zero have no cell of one that is zero. -/
theorem noZeroCell_one {bytes : List UInt8} (h : 0 ∉ bytes) : NoZeroCell 1 bytes := by
  refine ⟨bytes.length, (Nat.one_mul _).symm, fun k _ hzero => ?_⟩
  exact h (List.mem_of_getElem? (hzero 0 Nat.one_pos))

/-! ## The search for a cell -/

namespace Store

variable {m : Store} {a : Address} {bytes : List UInt8} {width k : Nat}

/-- The cell of an index, counted from an address on, has only zeros. -/
def ZeroCell (m : Store) (a : Address) (width k : Nat) : Prop :=
  ∀ j < width, m.byte (a + UInt64.ofNat (width * k + j)) = 0

instance (m : Store) (a : Address) (width k : Nat) : Decidable (m.ZeroCell a width k) := by
  unfold ZeroCell
  infer_instance

/-- The search for an index finds the least one that passes, if that is below the limit. -/
theorem firstIndex_zero_eq_some_iff {test : Nat → Bool} {limit : Nat} {P : Nat → Prop}
    (htest : ∀ k, test k = true ↔ P k) :
    firstIndex test limit 0 = some k ↔ k < limit ∧ IsLeast {k | P k} k := by
  have hfails (j : Nat) : test j = false ↔ ¬ P j := by rw [← htest, Bool.not_eq_true]
  simp only [firstIndex_eq_some_iff, htest, hfails, Nat.zero_le, true_and, forall_const]
  refine and_congr_right fun _ => and_congr_right fun _ => ?_
  -- no index below passes if and only if none that passes is below
  apply forall_congr'
  intro j
  show (j < k → ¬ P j) ↔ (P j → k ≤ j)
  rw [← not_lt, imp_not_comm]

/-- The search for a zero byte finds the first cell of one byte. -/
theorem zeroByteAfter?_eq_some_iff :
    m.zeroByteAfter? a = some k ↔ k < 2 ^ 64 ∧ IsLeast {k | m.ZeroCell a 1 k} k := by
  apply firstIndex_zero_eq_some_iff
  intro k
  rw [beq_iff_eq]
  constructor
  · intro hzero j hj
    rwa [Nat.one_mul, Nat.lt_one_iff.mp hj]
  · intro hcell
    have hzero := hcell 0 Nat.one_pos
    rwa [Nat.one_mul] at hzero

/-- The search for a zero unit finds the first cell of two bytes. -/
theorem zeroUnitAfter?_eq_some_iff :
    m.zeroUnitAfter? a = some k ↔ k < 2 ^ 63 ∧ IsLeast {k | m.ZeroCell a 2 k} k := by
  apply firstIndex_zero_eq_some_iff
  intro k
  rw [Bool.and_eq_true, beq_iff_eq, beq_iff_eq]
  constructor
  · rintro ⟨hlow, hhigh⟩ j hj
    obtain rfl | rfl : j = 0 ∨ j = 1 := by omega
    · exact hlow
    · exact hhigh
  · intro hcell
    exact ⟨hcell 0 Nat.two_pos, hcell 1 Nat.one_lt_two⟩

/-- The search for a zero byte counts the bytes in front of the first cell. -/
theorem zeroByteAfter?_of_isLeast (hk : IsLeast {k | m.ZeroCell a 1 k} k) (hlt : 1 * k < 2 ^ 64) :
    m.zeroByteAfter? a = some (1 * k) := by
  rw [Nat.one_mul] at hlt ⊢
  exact zeroByteAfter?_eq_some_iff.mpr ⟨hlt, hk⟩

/-- The search for a zero unit counts the units in front of the first cell, each of which has two bytes. -/
theorem zeroUnitAfter?_of_isLeast (hk : IsLeast {k | m.ZeroCell a 2 k} k) (hlt : 2 * k < 2 ^ 64) :
    (m.zeroUnitAfter? a).map (2 * ·) = some (2 * k) := by
  rw [zeroUnitAfter?_eq_some_iff.mpr ⟨by omega, hk⟩, Option.map_some]

/-- Where memory holds bytes, it has zeros where they have a cell of zeros. -/
theorem Holds.isZeroCell_iff (h : m.Holds a bytes) (hk : width * k + width ≤ bytes.length) :
    IsZeroCell width bytes k ↔ m.ZeroCell a width k := by
  refine forall₂_congr fun j hj => ?_
  rw [h.getElem?_eq (by omega), Option.some.injEq]

/-- Where memory holds bytes, their first cell of zeros is the first one in memory. -/
theorem Holds.isLeast (h : m.Holds a bytes) (hwidth : 0 < width) (hk : IsFirstZeroCell width bytes k) :
    IsLeast {k | m.ZeroCell a width k} k := by
  have hle := hk.1.le_length hwidth
  refine ⟨(h.isZeroCell_iff hle).mp hk.1, fun j hj => ?_⟩
  by_contra hlt
  rw [not_le] at hlt
  -- a cell in front of the first one lies within the bytes as well
  have hstop : width * j + width ≤ width * k := by
    rw [← Nat.mul_succ]
    exact Nat.mul_le_mul_left width hlt
  exact hk.2 j hlt ((h.isZeroCell_iff (by omega)).mpr hj)

end Store

/-! ## Views up to a terminator -/

namespace Handle

/-- A view of foreign memory is bound to other memory, whether the view is changed or replaced. -/
theorem rebind_native {h : Handle} (hacc : h.accessor.Documented) {kind : ElementKind} {v : View kind}
    {a : Address} {capacity : UInt64} (hv : v.origin = .native) (hcheck : h.checkView kind a capacity = .ok ()) :
    h.rebind v a capacity = .ok ⟨a, capacity, .native, 0⟩ := by
  rw [rebind_eq hacc, hcheck, hv, decide_eq_false (by simp), Bool.and_false]
  rfl

/-- The search for a terminator gives a view of what precedes it, with every accessor. With checks the address
has to be positive, and the view no larger than an object. -/
theorem viewToTerminator_eq {h : Handle} (hacc : h.accessor.Documented) {m : Store}
    {length? : Store → Address → Option Nat} {a : Address} {n : Nat} (hnull : a ≠ .null)
    (ha : h.checked = true → a.isPositive = true)
    (hlength : length? m a = some n) (hn : h.checked = true → n ≤ Word.maxSize.toNat) :
    h.viewToTerminator m length? a = .ok (some ⟨a, UInt64.ofNat n, .native, 0⟩) := by
  have hcheck : h.checkView .byte a (UInt64.ofNat n) = .ok () := by
    apply h.checkView_eq_ok ha
    intro hchecked
    rw [show (h.elementWidth .byte).toNat = 1 from rfl, Nat.mul_one, UInt64.toNat_ofNat']
    exact (Nat.mod_le _ _).trans (hn hchecked)
  rw [viewToTerminator_of_documented hacc, Address.isNull_eq_false hnull, checkAddress, h.require_eq_ok ha,
    hlength, if_neg Bool.false_ne_true]
  change (h.rebind (.foreign a Word.maxSize) a (UInt64.ofNat n) >>= fun v => .ok (some v)) = _
  rw [rebind_native hacc rfl hcheck]
  rfl

/-- The search for a terminator of one or two bytes. -/
def viewToZero (h : Handle) (width : Nat) (m : Store) (a : Address) :
    Except MemoryError (Option (View .byte)) :=
  if width = 2 then h.viewToZeroUnit m a else h.viewToZeroByte m a

/-- Where memory holds bytes with a cell of zeros, the search finds what precedes the first one. -/
theorem viewToZero_eq {h : Handle} (hacc : h.accessor.Documented) {m : Store} {a : Address}
    {bytes : List UInt8} {width k : Nat}
    (hwidth : width = 1 ∨ width = 2) (hm : m.Holds a bytes)
    (hk : IsFirstZeroCell width bytes k) :
    h.viewToZero width m a = .ok (some ⟨a, UInt64.ofNat (width * k), .native, 0⟩) := by
  have hlength := hm.length_lt
  have hmax := hm.length_le
  have hle := hk.1.le_length (by omega)
  have hleast := hm.isLeast (by omega) hk
  have hnull : a ≠ .null := Address.ne_null_of_isPositive hm.isPositive
  rcases hwidth with rfl | rfl
  · rw [viewToZero, if_neg (by decide), viewToZeroByte]
    apply viewToTerminator_eq hacc hnull (fun _ => hm.isPositive)
    · exact Store.zeroByteAfter?_of_isLeast hleast (by omega)
    · omega
  · rw [viewToZero, if_pos rfl, viewToZeroUnit]
    apply viewToTerminator_eq hacc hnull (fun _ => hm.isPositive)
    · exact Store.zeroUnitAfter?_of_isLeast hleast (by omega)
    · omega

end Handle

/-! ## Bytes in a buffer -/

/-- A buffer made from bytes holds them. -/
theorem Heap.holds_of_ofBytes {h : Heap} (halloc : h.allocator.Documented) {bytes : List UInt8}
    {made : Buffer × Heap} (hmade : h.ofBytes bytes = .ok made) :
    made.2.store.Holds made.1.address bytes := by
  rw [ofBytes, Access.ofBytes, result_allocateWith, allocate_eq] at hmade
  rcases hplace : h.place? (UInt64.ofNatClamp bytes.length) with _ | a
  · rw [hplace] at hmade
    cases hmade
  · rw [hplace] at hmade
    obtain rfl := Except.ok.inj hmade
    have hlength := le_of_place?_ofNatClamp hplace
    exact ⟨halloc.isPositive (place?_of_place? hplace), hlength,
      Store.read_write _ _ (by rw [Word.toNat_maxSize] at hlength; omega)⟩

end RawMemory
