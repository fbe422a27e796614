import Mathlib
import RawMemory.Handle

/-!
# What handles have in common

What a handle does comes after its checks. Without checks all of them pass, and in checked mode the first one
that does not hold decides (`Handle.require_eq_ok`, `require_bind`).

What an accessor does with views is up to the accessor, and `Accessor.Documented` is what it promises. With
such an accessor a view that a handle makes shows foreign memory, and its cursor stands at the first
element. This holds of a view bound to other memory as well: whether the accessor changes the view or puts a
new one in its place makes no difference (`Handle.rebind_eq`).

So two handles that check alike make the same views (`Handle.view_congr`, `rebind_congr` and
`viewToTerminator_congr`), and they leave the same memory where their accessors do what is let through in the
same way (`Handle.set_congr`, `copy_congr` and `copyOverlapping_congr`).
-/

namespace RawMemory

/-- Where two steps succeed, the first does. -/
theorem exists_of_bind_eq_ok {ε α β : Type} {x : Except ε α} {f : α → Except ε β} {b : β}
    (h : x >>= f = .ok b) : ∃ a, x = .ok a ∧ f a = .ok b := by
  cases x with
  | ok a => exact ⟨a, rfl, h⟩
  | error e => cases h

/-- The second of two steps matters only where the first succeeds. -/
theorem bind_congr_of_ok {ε α β : Type} {x : Except ε α} {f g : α → Except ε β}
    (hfg : ∀ a, x = .ok a → f a = g a) : x >>= f = x >>= g := by
  cases x with
  | ok a => exact hfg a rfl
  | error e => rfl

/-! ## Accessors and views -/

namespace Accessor

/-- What an accessor promises of views. Where the cursor stands of a view that is made is left open. -/
structure Documented (acc : Accessor) : Prop where
  /-- The address of a view is the one that it begins at. -/
  addressOf_eq : ∀ {kind : ElementKind} (v : View kind), acc.addressOf v = v.address
  /-- A new view shows so many elements of foreign memory from the address on. -/
  newView_eq : ∀ (kind : ElementKind) (a : Address) (capacity : UInt64),
    (acc.newView kind a capacity).rewind = .foreign a capacity
  /-- So does the view to be used after one was bound. -/
  bound_eq : ∀ {kind : ElementKind} (v : View kind) (a : Address) (capacity : UInt64),
    (acc.bound v a capacity).rewind = .foreign a capacity

/-- The accessors of the library keep the promise, one by changing the view and one by making another. -/
theorem documented_ofKind (kind : AccessorKind) : (ofKind kind).Documented := by
  cases kind <;> exact ⟨fun _ => rfl, fun _ _ _ => rfl, fun _ _ _ => rfl⟩

/-- An accessor that fails in its own way is still one that leaves addresses and views alone. -/
theorem documented_synthetic (pageSize pointerSize : UInt64) (fills copies : Bool) (moves : MoveBehaviour) :
    (synthetic pageSize pointerSize fills copies moves).Documented :=
  ⟨fun _ => rfl, fun _ _ _ => rfl, fun _ _ _ => rfl⟩

end Accessor

namespace Handle

variable {h : Handle} {kind : ElementKind} {a : Address} {capacity : UInt64}

/-! ## Checks -/

/-- Nothing is refused that holds, and without checks nothing at all. -/
theorem require_eq_ok (h : Handle) {condition : Bool} (hc : h.checked = true → condition = true)
    (cause : ArgumentError) : h.require condition cause = .ok () := by
  rw [require]
  cases hchecked : h.checked with
  | false => rfl
  | true =>
    rw [hc hchecked]
    rfl

/-- In checked mode a condition that does not hold is refused. -/
theorem require_of_false (hchecked : h.checked = true) {condition : Bool} (hc : condition = false)
    (cause : ArgumentError) : h.require condition cause = .error (.invalidArgument cause) := by
  rw [require, hchecked, hc]
  rfl

/-- In checked mode the rest is done where a condition holds. -/
theorem require_bind (hchecked : h.checked = true) {α : Type} (condition : Bool) (cause : ArgumentError)
    (f : Unit → Except MemoryError α) :
    (h.require condition cause >>= f) =
      if condition then f () else .error (.invalidArgument cause) := by
  cases condition with
  | true =>
    rw [h.require_eq_ok fun _ => rfl]
    rfl
  | false =>
    rw [require_of_false hchecked rfl]
    rfl

/-- The size of a view is judged by the product as an unbounded number. -/
theorem any_mul?_eq_decide (capacity width : UInt64) :
    (Word.mul? capacity width).any (· ≤ Word.maxSize) =
      decide (capacity.toNat * width.toNat ≤ Word.maxSize.toNat) := by
  have hmax := Word.toNat_maxSize
  rcases hmul : Word.mul? capacity width with _ | size
  · -- a product that is no word is larger than any
    rw [Word.mul?] at hmul
    split at hmul
    · cases hmul
    · rw [Option.any_none, decide_eq_false (by omega)]
  · rw [Word.mul?_eq_some_iff] at hmul
    rw [Option.any_some, ← hmul]
    exact decide_eq_decide.mpr UInt64.le_iff_toNat_le

/-- A view passes that has a positive address and is not too large, or that is not checked. -/
theorem checkView_eq_ok (h : Handle) (ha : h.checked = true → a.isPositive = true)
    (hsize : h.checked = true →
      capacity.toNat * (h.elementWidth kind).toNat ≤ Word.maxSize.toNat) :
    h.checkView kind a capacity = .ok () := by
  rw [checkView, checkAddress, h.require_eq_ok ha]
  apply h.require_eq_ok
  intro hchecked
  rw [any_mul?_eq_decide, decide_eq_true (hsize hchecked)]

/-- In checked mode a view is refused for its address, or else for its size. -/
theorem checkView_eq_error (hchecked : h.checked = true)
    (hbad : ¬ (a.isPositive = true ∧
      capacity.toNat * (h.elementWidth kind).toNat ≤ Word.maxSize.toNat)) :
    h.checkView kind a capacity =
      .error (.invalidArgument (if a.isPositive then .capacity capacity kind else .address .view a)) := by
  rw [checkView, checkAddress]
  cases ha : a.isPositive with
  | false =>
    rw [require_of_false hchecked rfl]
    rfl
  | true =>
    have hsize := mt (And.intro ha) hbad
    rw [h.require_eq_ok fun _ => rfl]
    apply require_of_false hchecked
    rw [any_mul?_eq_decide, decide_eq_false hsize]

/-! ## New views -/

/-- Whatever view an accessor makes, its cursor is put at the first element. -/
theorem position_of_view {v : View kind} (hv : h.view kind a capacity = .ok v) : v.position = 0 := by
  obtain ⟨-, -, hmade⟩ := exists_of_bind_eq_ok hv
  rw [← Except.ok.inj hmade]
  rfl

/-- A view that is bound to another place starts anew. -/
theorem position_of_rebind {v w : View kind} (hw : h.rebind v a capacity = .ok w) : w.position = 0 := by
  obtain ⟨-, -, hrest⟩ := exists_of_bind_eq_ok hw
  split at hrest
  · cases hrest
  · rw [← Except.ok.inj hrest]
    rfl

/-- A view up to a terminator starts at its first byte. -/
theorem position_of_viewToTerminator {m : Store} {length? : Store → Address → Option Nat} {v : View .byte}
    (hv : h.viewToTerminator m length? a = .ok (some v)) : v.position = 0 := by
  rw [viewToTerminator] at hv
  split at hv
  · cases hv
  · obtain ⟨-, -, hrest⟩ := exists_of_bind_eq_ok hv
    dsimp only at hrest
    split at hrest
    · cases hrest
    · obtain ⟨w, hbound, hw⟩ := exists_of_bind_eq_ok hrest
      obtain rfl := Option.some.inj (Except.ok.inj hw)
      exact position_of_rebind hbound

/-! ## Views of foreign memory -/

section

variable (hacc : h.accessor.Documented)

include hacc

/-- A view is made of foreign memory if the checks pass. -/
theorem view_eq (kind : ElementKind) (a : Address) (capacity : UInt64) :
    h.view kind a capacity = h.checkView kind a capacity >>= fun _ => .ok (.foreign a capacity) := by
  rw [view, hacc.newView_eq]
  rfl

/-- Nothing of the view remains when it is bound to other memory, in either way of doing so. -/
theorem rebind_eq (v : View kind) (a : Address) (capacity : UInt64) :
    h.rebind v a capacity = h.checkView kind a capacity >>= fun _ =>
      if h.checked && v.origin = .owned then .error (.rebindOwned v.address)
      else .ok ⟨a, capacity, .native, 0⟩ := by
  rw [rebind, hacc.bound_eq]
  split <;> rfl

/-- The terminator is looked for from the address that was asked for. -/
theorem viewToTerminator_of_documented (m : Store) (length? : Store → Address → Option Nat) (a : Address) :
    h.viewToTerminator m length? a =
      if a.isNull then .ok none
      else h.checkAddress .string a >>= fun _ =>
        match length? m a with
        | none => .ok none
        | some n => h.rebind (.foreign a Word.maxSize) a (UInt64.ofNat n) >>= fun v => .ok (some v) := by
  rw [viewToTerminator, hacc.newView_eq]
  rfl

theorem eq_of_rebind {v w : View kind} (hw : h.rebind v a capacity = .ok w) :
    w = ⟨a, capacity, .native, 0⟩ := by
  rw [rebind_eq hacc] at hw
  obtain ⟨-, -, hrest⟩ := exists_of_bind_eq_ok hw
  split at hrest
  · cases hrest
  · exact (Except.ok.inj hrest).symm

end

/-- In checked mode a copy that is let through is one between ranges that do not overlap. -/
theorem overlap_of_copy {m stored : Store} {src dst : Address} {count : UInt64} (hchecked : h.checked = true)
    (hcopy : h.copy m src dst count = .ok stored) : overlap src dst count = false := by
  rw [copy_eq] at hcopy
  obtain ⟨_, -, hdst⟩ := exists_of_bind_eq_ok hcopy
  obtain ⟨_, -, hcount⟩ := exists_of_bind_eq_ok hdst
  obtain ⟨_, -, hoverlap⟩ := exists_of_bind_eq_ok hcount
  obtain ⟨_, hrequire, -⟩ := exists_of_bind_eq_ok hoverlap
  rw [← Bool.not_eq_true]
  intro hmeet
  -- ranges that meet would have been refused
  rw [require_of_false hchecked (by rw [hmeet, Bool.not_true])] at hrequire
  cases hrequire

/-! ## Handles that check alike -/

section

variable {g : Handle} (hchecked : h.checked = g.checked)
  (hsize : h.accessor.pointerSize = g.accessor.pointerSize)

include hchecked

/-- Whether arguments are checked depends on the mode only. -/
theorem require_congr (condition : Bool) (cause : ArgumentError) :
    h.require condition cause = g.require condition cause := by
  rw [require, require, hchecked]

theorem checkAddress_congr (role : AddressRole) (a : Address) :
    h.checkAddress role a = g.checkAddress role a := require_congr hchecked _ _

theorem checkByteCount_congr (count : UInt64) : h.checkByteCount count = g.checkByteCount count :=
  require_congr hchecked _ _

/-- Memory is filled in the same way if the accessors fill what is not refused in the same way. -/
theorem set_congr {m : Store} {b : UInt8} {count : UInt64}
    (hfill : ∀ stored, g.set m a b count = .ok stored →
      h.accessor.fill m a b count = g.accessor.fill m a b count) :
    h.set m a b count = g.set m a b count := by
  rw [set_eq, set_eq, checkAddress_congr hchecked, checkByteCount_congr hchecked]
  -- the accessors are asked where all checks pass
  refine bind_congr_of_ok fun _ haddress => bind_congr_of_ok fun _ hcount => ?_
  refine congrArg Except.ok (hfill (g.accessor.fill m a b count) ?_)
  rw [set_eq, haddress, hcount]
  rfl

/-- Memory is copied in the same way if the accessors copy what is not refused in the same way. -/
theorem copy_congr {m : Store} {src dst : Address} {count : UInt64}
    (hcopy : ∀ stored, g.copy m src dst count = .ok stored →
      h.accessor.copy m src dst count = g.accessor.copy m src dst count) :
    h.copy m src dst count = g.copy m src dst count := by
  rw [copy_eq, copy_eq, checkAddress_congr hchecked, checkAddress_congr hchecked, checkByteCount_congr hchecked,
    require_congr hchecked]
  refine bind_congr_of_ok fun _ hsrc => bind_congr_of_ok fun _ hdst =>
    bind_congr_of_ok fun _ hcount => bind_congr_of_ok fun _ hoverlap => ?_
  refine congrArg Except.ok (hcopy (g.accessor.copy m src dst count) ?_)
  rw [copy_eq, hsrc, hdst, hcount, hoverlap]
  rfl

/-- Blocks that may overlap are copied in the same way if the accessors do so where nothing is refused. -/
theorem copyOverlapping_congr {m : Store} {src dst : Address} {count : UInt64}
    (hmove : ∀ stored, g.copyOverlapping m src dst count = .ok stored →
      h.accessor.move m src dst count = g.accessor.move m src dst count) :
    h.copyOverlapping m src dst count = g.copyOverlapping m src dst count := by
  rw [copyOverlapping_eq, copyOverlapping_eq, checkAddress_congr hchecked, checkAddress_congr hchecked,
    checkByteCount_congr hchecked]
  refine bind_congr_of_ok fun _ hsrc => bind_congr_of_ok fun _ hdst =>
    bind_congr_of_ok fun _ hcount => ?_
  refine congrArg Except.ok (hmove (g.accessor.move m src dst count) ?_)
  rw [copyOverlapping_eq, hsrc, hdst, hcount]
  rfl

include hsize

/-- A view is checked in the same way if elements have the same width. -/
theorem checkView_congr (kind : ElementKind) (a : Address) (capacity : UInt64) :
    h.checkView kind a capacity = g.checkView kind a capacity := by
  simp only [checkView, checkAddress_congr hchecked, elementWidth, hsize, require_congr hchecked]

variable (hacc : h.accessor.Documented) (gacc : g.accessor.Documented)

include hacc gacc

/-- A view is made in the same way if it is checked in the same way. -/
theorem view_congr (kind : ElementKind) (a : Address) (capacity : UInt64) :
    h.view kind a capacity = g.view kind a capacity := by
  rw [view_eq hacc, view_eq gacc, checkView_congr hchecked hsize]

/-- A view is bound to another place in the same way. -/
theorem rebind_congr (v : View kind) (a : Address) (capacity : UInt64) :
    h.rebind v a capacity = g.rebind v a capacity := by
  rw [rebind_eq hacc, rebind_eq gacc, checkView_congr hchecked hsize, hchecked]

/-- A view up to a terminator is made in the same way, if there is one. -/
theorem viewToTerminator_congr (m : Store) (length? : Store → Address → Option Nat) (a : Address) :
    h.viewToTerminator m length? a = g.viewToTerminator m length? a := by
  rw [viewToTerminator_of_documented hacc, viewToTerminator_of_documented gacc, checkAddress_congr hchecked]
  cases length? m a with
  | none => rfl
  | some length => simp only [rebind_congr hchecked hsize hacc gacc]

end

end Handle

end RawMemory
