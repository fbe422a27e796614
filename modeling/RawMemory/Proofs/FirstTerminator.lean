import RawMemory.Proofs.Terminator

/-!
# The first terminator in memory

The search for a terminator goes through memory cell by cell from an address on, whether that is even or odd,
and no bound is known to it beforehand. It ends at the first cell of zeros that there is.

* `Handle.Reaches`: there is such a cell within reach of an address.
* `Store.AgreeUpTo.isLeast`: which cell is the first one depends on the bytes up to its end only.
* `Handle.FindsFirst`: what a search finds, what it reads for that, and what it refuses without reading.
* `Handle.viewToZero_findsFirst`: both searches do so, in every mode and with every accessor.
-/

namespace RawMemory

/-! ## The first cell of zeros -/

namespace Store

variable {m n : Store} {a : Address} {width j k : Nat}

/-- Two states of memory have the same bytes from an address on, up to the end of the cell of an index. -/
def AgreeUpTo (m n : Store) (a : Address) (width k : Nat) : Prop :=
  ∀ i < width * k + width, n.byte (a + UInt64.ofNat i) = m.byte (a + UInt64.ofNat i)

theorem AgreeUpTo.refl (m : Store) (a : Address) (width k : Nat) : AgreeUpTo m m a width k := fun _ _ => rfl

/-- Cells that agree are zero together. -/
theorem AgreeUpTo.zeroCell_iff (hagree : AgreeUpTo m n a width k) (hj : j ≤ k) :
    n.ZeroCell a width j ↔ m.ZeroCell a width j := by
  have hstart : width * j ≤ width * k := Nat.mul_le_mul_left width hj
  apply forall₂_congr
  intro i hi
  rw [hagree _ (by omega)]

/-- What lies behind the first cell of zeros does not matter. -/
theorem AgreeUpTo.isLeast (hagree : AgreeUpTo m n a width k)
    (hk : IsLeast {k | m.ZeroCell a width k} k) : IsLeast {k | n.ZeroCell a width k} k := by
  refine ⟨(hagree.zeroCell_iff le_rfl).mpr hk.1, fun j hj => ?_⟩
  by_contra hlt
  rw [not_le] at hlt
  -- a cell in front of it would be one of zeros in either state
  have hle : k ≤ j := hk.2 ((hagree.zeroCell_iff hlt.le).mp hj)
  omega

end Store

/-! ## What a search finds -/

namespace Handle

/-- There is a cell of zeros within reach of an address. With checks the bytes in front of it have to be
such as one object may have, and without them the whole address space is within reach. -/
def Reaches (h : Handle) (m : Store) (a : Address) (width : Nat) : Prop :=
  ∃ k, m.ZeroCell a width k ∧
    width * k ≤ if h.checked then Word.maxSize.toNat else Word.largest.toNat

/-- What comes of the search for a terminator of as many bytes as `width` says. -/
structure FindsFirst (h : Handle) (search : Store → Address → Except MemoryError (Option (View .byte)))
    (width : Nat) : Prop where
  /-- There is no view of the null address. -/
  null : ∀ m, search m .null = .ok none
  /-- In checked mode a negative address is refused, whatever is in memory. -/
  negative : ∀ m a, h.checked = true → a ≠ .null → a.isPositive = false →
    search m a = .error (.invalidArgument (.address .string a))
  /-- From any other address on, a view is found of what precedes the first cell of zeros that can be
  reached. It is found in every state of memory that has the same bytes up to the end of this cell. -/
  found : ∀ m a, a ≠ .null → (h.checked = true → a.isPositive = true) → h.Reaches m a width →
    ∃ k, IsLeast {k | m.ZeroCell a width k} k ∧ (UInt64.ofNat (width * k)).toNat = width * k ∧
      ∀ n, Store.AgreeUpTo m n a width k →
        search n a = .ok (some ⟨a, UInt64.ofNat (width * k), .native, 0⟩)
  /-- In checked mode the view is refused for its size if the first cell of zeros is out of reach. -/
  far : ∀ m a k, h.checked = true → a.isPositive = true → IsLeast {k | m.ZeroCell a width k} k →
    Word.maxSize.toNat < width * k → width * k < 2 ^ 64 →
    search m a = .error (.invalidArgument (.capacity (UInt64.ofNat (width * k)) .byte))

variable {h : Handle} {width : Nat}

/-- A scan that reaches a zero cell reaches the first. -/
theorem Reaches.exists_isLeast {m : Store} {a : Address} (hreaches : h.Reaches m a width) :
    ∃ k, IsLeast {k | m.ZeroCell a width k} k ∧ width * k < 2 ^ 64 ∧
      (h.checked = true → width * k ≤ Word.maxSize.toNat) := by
  obtain ⟨l, hcell, hle⟩ := hreaches
  have hnonempty : {k | m.ZeroCell a width k}.Nonempty := ⟨l, hcell⟩
  -- the first cell is no farther than the one that there is
  have hfirst : width * sInf {k | m.ZeroCell a width k} ≤ width * l :=
    Nat.mul_le_mul_left width (Nat.sInf_le hcell)
  rw [Word.toNat_maxSize, Word.toNat_largest] at hle
  refine ⟨_, ⟨Nat.sInf_mem hnonempty, fun _ => Nat.sInf_le⟩, ?_, fun hchecked => ?_⟩
  · split at hle <;> omega
  · rw [if_pos hchecked] at hle
    rw [Word.toNat_maxSize]
    omega

/-- A search finds a terminator if it counts the bytes in front of the first cell of zeros. -/
theorem findsFirst_of_length? (hacc : h.accessor.Documented) {length? : Store → Address → Option Nat}
    (hlength : ∀ {m a k}, IsLeast {k | Store.ZeroCell m a width k} k → width * k < 2 ^ 64 →
      length? m a = some (width * k)) :
    h.FindsFirst (fun m a => h.viewToTerminator m length? a) width where
  null _ := by
    show h.viewToTerminator _ length? _ = _
    rw [viewToTerminator_of_documented hacc]
    rfl
  negative m a hchecked hnull ha := by
    show h.viewToTerminator m length? a = _
    rw [viewToTerminator, Address.isNull_eq_false hnull, checkAddress, require_of_false hchecked ha]
    rfl
  found m a hnull ha hreaches := by
    obtain ⟨k, hk, hlt, hsize⟩ := hreaches.exists_isLeast
    refine ⟨k, hk, by rw [UInt64.toNat_ofNat', Nat.mod_eq_of_lt hlt], fun n hagree => ?_⟩
    exact viewToTerminator_eq hacc hnull ha (hlength (hagree.isLeast hk) hlt) hsize
  far m a k hchecked ha hk hfar hlt := by
    -- the terminator is found, but the view in front of it would be too large
    have hcheck : h.checkView .byte a (UInt64.ofNat (width * k)) =
        .error (.invalidArgument (.capacity (UInt64.ofNat (width * k)) .byte)) := by
      rw [checkView_eq_error hchecked, if_pos ha]
      rintro ⟨-, hle⟩
      rw [show (h.elementWidth .byte).toNat = 1 from rfl, Nat.mul_one, UInt64.toNat_ofNat',
        Nat.mod_eq_of_lt hlt] at hle
      omega
    have hnull := Address.isNull_eq_false (Address.ne_null_of_isPositive ha)
    show h.viewToTerminator m length? a = _
    rw [viewToTerminator_of_documented hacc, hnull, checkAddress, h.require_eq_ok fun _ => ha, hlength hk hlt,
      if_neg Bool.false_ne_true]
    change (h.rebind (.foreign a Word.maxSize) a _ >>= fun v => .ok (some v)) = _
    rw [rebind_eq hacc, hcheck]
    rfl

/-- Every handle finds the first terminator of either kind, if its accessor makes views as it promises. -/
theorem viewToZero_findsFirst (h : Handle) (hacc : h.accessor.Documented) :
    h.FindsFirst h.viewToZeroByte 1 ∧ h.FindsFirst h.viewToZeroUnit 2 := by
  constructor
  · apply findsFirst_of_length? hacc
    exact Store.zeroByteAfter?_of_isLeast
  · apply findsFirst_of_length? hacc
    exact Store.zeroUnitAfter?_of_isLeast

/-- From an odd address on, two zero bytes are passed over that belong to different units. -/
theorem viewToZero_findsFirst_odd :
    let h : Handle := ⟨.portable, true⟩
    let m : Store := Store.zero.write ⟨0x1001⟩ #[1, 0, 0, 1]
    h.Reaches m ⟨0x1001⟩ 2 ∧
      h.viewToZeroUnit m ⟨0x1001⟩ = .ok (some ⟨⟨0x1001⟩, 4, .native, 0⟩) := by
  intro h m
  have hcells : ∀ k < 3, m.ZeroCell ⟨0x1001⟩ 2 k ↔ k = 2 := by decide
  have hcell : m.ZeroCell ⟨0x1001⟩ 2 2 := (hcells 2 (by decide)).mpr rfl
  have hreaches : h.Reaches m ⟨0x1001⟩ 2 := ⟨2, hcell, by decide⟩
  obtain ⟨k, hk, -, hfound⟩ :=
    (viewToZero_findsFirst h (Accessor.documented_ofKind .portable)).2.found m ⟨0x1001⟩ (by decide)
      (fun _ => by decide) hreaches
  refine ⟨hreaches, ?_⟩
  have hle : k ≤ 2 := hk.2 hcell
  obtain rfl : k = 2 := (hcells k (by omega)).mp hk.1
  exact hfound m (.refl m _ _ _)

end Handle

end RawMemory
