import RawMemory.Proofs.ElementAddress
import RawMemory.Proofs.Handle

/-!
# Views in checked mode

In checked mode two bounds are put on a view: on its address, and on the bytes of all its elements together.
Each of them is half of what 64 bits can count, and it takes both to keep an address that is reckoned from the
view inside 64 bits.

* `View.Admissible`: the two bounds, in numbers that do not wrap.
* `Handle.Reckons`: the addresses of the elements of a view, and the one behind the last, are what the same
  sums are in numbers that do not wrap.
* `Handle.view_and_rebind`: in checked mode a view is made, or bound to other memory, within the two bounds
  and nowhere else, and its addresses are reckoned without wrapping.
-/

namespace RawMemory

/-! ## Views within bounds -/

/-- A view of elements of this kind may start at the address, which is neither null nor negative, and may have
the capacity, with which it is no larger than an object. -/
def View.Admissible (kind : ElementKind) (a : Address) (capacity : UInt64) : Prop :=
  (1 ≤ a.val.toNat ∧ a.val.toNat ≤ 2 ^ 63 - 1) ∧ capacity.toNat * kind.size ≤ 2 ^ 63 - 1

instance (kind : ElementKind) (a : Address) (capacity : UInt64) :
    Decidable (View.Admissible kind a capacity) := by
  unfold View.Admissible
  infer_instance

namespace View.Admissible

variable {kind : ElementKind} {a : Address} {capacity index : UInt64}

theorem iff_isPositive :
    Admissible kind a capacity ↔
      a.isPositive = true ∧ capacity.toNat * kind.size ≤ Word.maxSize.toNat := by
  rw [Address.isPositive_iff]
  exact Iff.rfl

/-- Half of the address space lies below the view, and no more than half of it is left to reckon with. -/
theorem add_lt (h : Admissible kind a capacity) (hi : index ≤ capacity) :
    a.val.toNat + index.toNat * kind.size < 2 ^ 64 := by
  have hoffset : index.toNat * kind.size ≤ capacity.toNat * kind.size :=
    Nat.mul_le_mul_right _ (UInt64.le_iff_toNat_le.mp hi)
  obtain ⟨⟨-, haddress⟩, hsize⟩ := h
  omega

end View.Admissible

namespace Handle

variable {h : Handle} {kind : ElementKind}

/-! ## Addresses that do not wrap -/

/-- The handle and the view reckon with addresses up to the one behind the last element, and no number on the
way is too large for a word. -/
structure Reckons (h : Handle) (v : View kind) : Prop where
  /-- Offsets are words. -/
  offset_lt : ∀ index, index ≤ v.capacity → index.toNat * kind.size < 2 ^ 64
  /-- Addresses are words. -/
  address_lt : ∀ index, index ≤ v.capacity → v.address.val.toNat + index.toNat * kind.size < 2 ^ 64
  /-- The product that an operation of the view takes is the offset. -/
  offset : ∀ index, index ≤ v.capacity →
    (index * UInt64.ofNat kind.size).toNat = index.toNat * kind.size
  /-- The address that the handle tells of is so many bytes behind the first element. -/
  addressAt : ∀ index, index ≤ v.capacity →
    (h.addressAt v index).val.toNat = v.address.val.toNat + index.toNat * kind.size
  /-- It is the address at which the view finds the element. -/
  elementAddress : ∀ index, v.elementAddress index = h.addressAt v index
  /-- It is never null. -/
  ne_null : ∀ index, index ≤ v.capacity → h.addressAt v index ≠ .null
  /-- Elements lie one behind the other. -/
  strictMono : ∀ index next, index < next → next ≤ v.capacity →
    (h.addressAt v index).val < (h.addressAt v next).val

/-- Within the two bounds nothing wraps, if the handle gives to a kind the bytes that an element takes. -/
theorem reckons_of_admissible (hacc : h.accessor.Documented)
    (hwidth : h.elementWidth kind = UInt64.ofNat kind.size) {v : View kind}
    (hv : View.Admissible kind v.address v.capacity) : h.Reckons v := by
  have hoffset : ∀ index, index ≤ v.capacity → index.toNat * kind.size < 2 ^ 64 := by
    intro index hi
    exact lt_of_le_of_lt (Nat.le_add_left _ _) (hv.add_lt hi)
  have haddress : ∀ index, index ≤ v.capacity →
      (h.addressAt v index).val.toNat = v.address.val.toNat + index.toNat * kind.size := by
    intro index hi
    rw [addressAt_eq hacc hwidth]
    exact View.toNat_elementAddress (hv.add_lt hi)
  constructor
  case offset_lt => exact hoffset
  case address_lt => exact fun _ => hv.add_lt
  case offset => exact fun index hi => ElementKind.toNat_offset (hoffset index hi)
  case addressAt => exact haddress
  case elementAddress => exact fun index => (addressAt_eq hacc hwidth v index).symm
  case ne_null =>
    intro index hi hnull
    -- the first element is not at the null address, and the others are not below it
    have hpos := hv.1.1
    have hzero := haddress index hi
    rw [hnull, show Address.null.val.toNat = 0 from rfl] at hzero
    omega
  case strictMono =>
    intro index next hlt hnext
    have hle : index ≤ v.capacity := UInt64.le_of_lt (UInt64.lt_of_lt_of_le hlt hnext)
    rw [UInt64.lt_iff_toNat_lt, haddress index hle, haddress next hnext]
    apply Nat.add_lt_add_left
    exact Nat.mul_lt_mul_of_pos_right (UInt64.lt_iff_toNat_lt.mp hlt) kind.size_pos

/-! ## The gate -/

/-- The check of a view is exact: it lets through the views within the two bounds and no others. -/
theorem checkView_eq (hchecked : h.checked = true)
    (hwidth : h.elementWidth kind = UInt64.ofNat kind.size) (a : Address) (capacity : UInt64) :
    h.checkView kind a capacity =
      if View.Admissible kind a capacity then .ok ()
      else .error (.invalidArgument
        (if a.isPositive then .capacity capacity kind else .address .view a)) := by
  have hsize : (h.elementWidth kind).toNat = kind.size := by rw [hwidth, kind.toNat_ofNat_size]
  have hiff : View.Admissible kind a capacity ↔
      a.isPositive = true ∧ capacity.toNat * (h.elementWidth kind).toNat ≤ Word.maxSize.toNat := by
    rw [hsize]
    exact View.Admissible.iff_isPositive
  split
  · next hadmissible =>
    obtain ⟨ha, hbytes⟩ := hiff.mp hadmissible
    exact h.checkView_eq_ok (fun _ => ha) fun _ => hbytes
  · next hbad =>
    apply checkView_eq_error hchecked
    exact mt hiff.mpr hbad

/-- In checked mode, with pointers of eight bytes and an accessor that keeps its promises, a view is made
within the two bounds and nowhere else. A view is bound to other memory where a view of that memory could be
made, unless it shows owned memory. Either way the view that comes of it does not depend on what was there
before, and its addresses do not wrap. -/
theorem view_and_rebind (hchecked : h.checked = true) (hsize : h.accessor.pointerSize = 8)
    (hacc : h.accessor.Documented) (kind : ElementKind) (a : Address) (capacity : UInt64) :
    let made : View kind := ⟨a, capacity, .native, 0⟩
    let refused : MemoryError :=
      .invalidArgument (if a.isPositive then .capacity capacity kind else .address .view a)
    (h.elementWidth kind).toNat = kind.size ∧
    (h.view kind a capacity =
      if View.Admissible kind a capacity then .ok made else .error refused) ∧
    (∀ v : View kind, h.rebind v a capacity =
      if ¬ View.Admissible kind a capacity then .error refused
      else if v.origin = .owned then .error (.rebindOwned v.address)
      else .ok made) ∧
    (View.Admissible kind a capacity → h.Reckons made) := by
  intro made refused
  have hwidth : h.elementWidth kind = UInt64.ofNat kind.size := elementWidth_eq fun _ => hsize
  -- all checks together ask whether the view is admissible
  have hcheck : h.checkView kind a capacity =
      if View.Admissible kind a capacity then .ok () else .error refused :=
    checkView_eq hchecked hwidth a capacity
  refine ⟨by rw [hwidth, kind.toNat_ofNat_size], ?_, ?_, ?_⟩
  · rw [view_eq hacc, hcheck]
    split <;> rfl
  · intro v
    -- the arguments are looked at before the origin
    rw [rebind_eq hacc, hcheck, hchecked, Bool.true_and]
    by_cases hadmissible : View.Admissible kind a capacity
    · rw [if_pos hadmissible, if_neg (not_not_intro hadmissible)]
      show (if decide (v.origin = .owned) = true then _ else _) = _
      simp only [decide_eq_true_eq]
      rfl
    · rw [if_neg hadmissible, if_pos hadmissible]
      rfl
  · intro hadmissible
    exact reckons_of_admissible hacc hwidth hadmissible

/-- The largest view of pointers, at the highest address where a view may be. With one pointer more it would
be refused, and a view of owned memory stays where it is. -/
theorem view_and_rebind_largest :
    let h : Handle := ⟨.ofKind .portable, true⟩
    let a : Address := ⟨0x7FFFFFFFFFFFFFFF⟩
    let largest : View .pointer := ⟨a, 0x0FFFFFFFFFFFFFFF, .native, 0⟩
    h.view .pointer a 0x0FFFFFFFFFFFFFFF = .ok largest ∧ h.Reckons largest ∧
      h.rebind (⟨⟨0x1000⟩, 2, .owned, 1⟩ : View .pointer) a 0x0FFFFFFFFFFFFFFF =
        .error (.rebindOwned ⟨0x1000⟩) ∧
      h.view .pointer a 0x1000000000000000 =
        .error (.invalidArgument (.capacity 0x1000000000000000 .pointer)) := by
  intro h a largest
  have hacc : h.accessor.Documented := Accessor.documented_ofKind .portable
  obtain ⟨-, hview, hrebind, hreckons⟩ :=
    view_and_rebind (h := h) rfl rfl hacc .pointer a 0x0FFFFFFFFFFFFFFF
  obtain ⟨-, hlarger, -, -⟩ := view_and_rebind (h := h) rfl rfl hacc .pointer a 0x1000000000000000
  have hadmissible : View.Admissible .pointer a 0x0FFFFFFFFFFFFFFF := by decide
  rw [if_pos hadmissible] at hview
  rw [if_neg (by decide)] at hlarger
  refine ⟨hview, hreckons hadmissible, ?_, hlarger⟩
  rw [hrebind, if_neg (not_not_intro hadmissible), if_pos rfl]

end Handle

end RawMemory
