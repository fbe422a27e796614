import RawMemory.Proofs.Handle
import RawMemory.Proofs.LittleEndian
import RawMemory.Proofs.Window

/-!
# The address of an element

A handle tells where an element of a view is (`Handle.addressAt`), and the operations of the view find the
element without asking it (`View.elementAddress`). The handle reckons with the bytes that its accessor gives
to a kind, and the view with the bytes that an element takes in memory.

* `Store.ReadsExactly`: the addresses that a function of memory reads, all of them and no others. There is
  only one such set (`Store.ReadsExactly.unique`).
* `Handle.Locates`: the operations of a view go to the bytes that the handle tells of.
* `Handle.locates_iff`: they do so for every kind and every accessor that passes its self-test, but for
  pointers when the accessor gives four bytes to them.
-/

namespace RawMemory

open Store (ChangesOnly)

/-! ## What is read, and nothing else -/

namespace Store

/-- What a function of memory gives tells every byte of some addresses, and depends on no other. -/
def ReadsExactly {β : Type} (s : Set Address) (f : Store → β) : Prop :=
  ∀ m n : Store, f m = f n ↔ Set.EqOn m.byte n.byte s

variable {β γ : Type} {s t : Set Address} {f : Store → β}

/-- A result that can be told from another is read from the same bytes. -/
theorem ReadsExactly.comp (h : ReadsExactly s f) {g : β → γ} (hg : Function.Injective g) :
    ReadsExactly s fun m => g (f m) :=
  fun m n => hg.eq_iff.trans (h m n)

/-- What is read exactly lies in all that is read exactly. -/
theorem ReadsExactly.subset (hs : ReadsExactly s f) (ht : ReadsExactly t f) : s ⊆ t := by
  intro x hx
  by_contra hout
  -- a change of this byte alone is told by `f`, though no byte of `t` has changed
  let changed : Store := ⟨Function.update zero.byte x 1⟩
  have hsame : f changed = f zero := by
    apply (ht changed zero).mpr
    intro y hy
    apply Function.update_of_ne
    rintro rfl
    exact hout hy
  have hbyte : changed.byte x = 0 := (hs changed zero).mp hsame hx
  rw [show changed.byte x = 1 from Function.update_self ..] at hbyte
  exact absurd hbyte (by decide)

/-- A function of memory reads one set of addresses only. -/
theorem ReadsExactly.unique (hs : ReadsExactly s f) (ht : ReadsExactly t f) : s = t :=
  Set.Subset.antisymm (hs.subset ht) (ht.subset hs)

end Store

open Store (ReadsExactly)

/-! ## Where a view finds an element -/

/-- The bytes of an element have been stored to the `width` addresses from `a` on, and nothing else has
changed. -/
def ElementKind.StoredAt (kind : ElementKind) (element : kind.Bits) (a : Address) (width : Nat)
    (m stored : Store) : Prop :=
  stored.read a width = LittleEndian.bytes kind.size element.toNat ∧
    ChangesOnly (a.range width) m stored

namespace View

variable {kind : ElementKind} {v : View kind} {index : UInt64}

/-- An index below the capacity is accepted. -/
theorem get_eq_ok (hi : index.toNat < v.capacity.toNat) (m : Store) :
    v.get m index = .ok (v.load m index) := by
  rw [get, checkIndex_eq_ok_iff.mpr hi]
  rfl

/-- An element is stored little-endian at the address of its index. -/
theorem put_eq_ok (hi : index.toNat < v.capacity.toNat) (m : Store) (element : kind.Bits) :
    v.put m index element = .ok
      (m.write (v.elementAddress index) (LittleEndian.bytes kind.size element.toNat).toArray) := by
  rw [put_eq, checkIndex_eq_ok_iff.mpr hi]
  rfl

/-- To read at the cursor is to read under its index and to move on. -/
theorem read_eq_map (v : View kind) (m : Store) :
    v.read m = (v.get m v.position).map fun element => (element, { v with position := v.position + 1 }) := by
  rw [read_eq]
  cases v.get m v.position <;> rfl

/-- To store at the cursor is to store under its index and to move on. -/
theorem write_eq_map (v : View kind) (m : Store) (element : kind.Bits) :
    v.write m element =
      (v.put m v.position element).map fun stored => (stored, { v with position := v.position + 1 }) := by
  rw [write_eq]
  cases v.put m v.position element <;> rfl

/-- As many bytes as an element has make no number that its bits could not hold. -/
theorem toNat_load (v : View kind) (m : Store) (index : UInt64) :
    (v.load m index).toNat = LittleEndian.value (m.read (v.elementAddress index) kind.size) :=
  LittleEndian.toNat_ofNat_value (by rw [Store.length_read])

/-- An element that is loaded has all the bytes at its address. -/
theorem bytes_load (v : View kind) (m : Store) (index : UInt64) :
    LittleEndian.bytes kind.size (v.load m index).toNat =
      m.read (v.elementAddress index) kind.size := by
  have hbytes := LittleEndian.bytes_value (m.read (v.elementAddress index) kind.size)
  rw [Store.length_read] at hbytes
  rw [toNat_load, hbytes]

/-- Each byte of an element matters to what is loaded. -/
theorem Fits.readsExactly_load (h : v.Fits) (hi : index.toNat < v.capacity.toNat) :
    ReadsExactly (v.element index) fun m => v.load m index := by
  intro m n
  rw [element, ← Store.read_eq_read_iff (h.element_le hi)]
  constructor
  · intro hload
    rw [← bytes_load, show v.load m index = v.load n index from hload, bytes_load]
  · intro hread
    show v.load m index = v.load n index
    rw [load, load, hread]

theorem Fits.readsExactly_get (h : v.Fits) (hi : index.toNat < v.capacity.toNat) :
    ReadsExactly (v.element index) fun m => v.get m index := by
  simp only [get_eq_ok hi]
  apply (h.readsExactly_load hi).comp
  exact fun _ _ => Except.ok.inj

theorem Fits.readsExactly_read (h : v.Fits) (hi : v.position.toNat < v.capacity.toNat) :
    ReadsExactly (v.element v.position) v.read := by
  -- the view after it is the same whatever was read
  let answer (element : kind.Bits) : Except MemoryError (kind.Bits × View kind) :=
    .ok (element, { v with position := v.position + 1 })
  have hanswer : Function.Injective answer :=
    fun _ _ hsame => congrArg Prod.fst (Except.ok.inj hsame)
  have hread : v.read = fun m => answer (v.load m v.position) := by
    ext1 m
    rw [read_eq_map, get_eq_ok hi]
    rfl
  rw [hread]
  exact (h.readsExactly_load hi).comp hanswer

/-- An element is stored in its bytes. -/
theorem Fits.exists_put (h : v.Fits) (hi : index.toNat < v.capacity.toNat) (m : Store)
    (element : kind.Bits) :
    ∃ stored, v.put m index element = .ok stored ∧
      kind.StoredAt element (v.elementAddress index) kind.size m stored := by
  have hlength := LittleEndian.length_bytes kind.size element.toNat
  refine ⟨_, put_eq_ok hi m element, ?_, ?_⟩
  · have hread := m.read_write (v.elementAddress index)
      (hlength.trans_lt (by cases kind <;> decide))
    rwa [hlength] at hread
  · exact m.changesOnly_write (by simp) (h.element_le hi)

end View

/-! ## Where a handle tells of it -/

/-- The self-test lets through pointers of eight bytes, as many as they take in memory, and of four. -/
theorem Accessor.pointerSize_of_selfTest {acc : Accessor} (hpass : acc.selfTest = .ok ()) :
    acc.pointerSize = 4 ∨ acc.pointerSize = 8 := by
  by_contra hother
  rw [not_or] at hother
  have hrefused : acc.selfTest = .error (.pageSize acc.pageSize) ∨
      acc.selfTest = .error (.pointerSize acc.pointerSize) := by
    rw [selfTest]
    split
    · exact Or.inl rfl
    · exact Or.inr rfl
  rw [hpass] at hrefused
  rcases hrefused with hpage | hpointer
  · cases hpage
  · cases hpointer

namespace Handle

variable {h : Handle} {kind : ElementKind} {v : View kind}

/-- The bytes that a handle tells of for the element of an index: from the address of the element on, as many
as the handle gives to its kind. -/
def place (h : Handle) (v : View kind) (index : UInt64) : Set Address :=
  (h.addressAt v index).range (h.elementWidth kind).toNat

/-- Every element of a view is accessed where the handle tells. -/
structure Locates (h : Handle) (v : View kind) : Prop where
  /-- An element is got from all the bytes of its place and from no others. -/
  get : ∀ index, index.toNat < v.capacity.toNat →
    (∀ m, ∃ element, v.get m index = .ok element) ∧
      ReadsExactly (h.place v index) fun m => v.get m index
  /-- An element is put to all the bytes of its place and to no others. -/
  put : ∀ m index element, index.toNat < v.capacity.toNat →
    ∃ stored, v.put m index element = .ok stored ∧
      kind.StoredAt element (h.addressAt v index) (h.elementWidth kind).toNat m stored
  /-- The element at the cursor is read from the bytes at the address of the cursor. -/
  read : v.position.toNat < v.capacity.toNat →
    (∀ m, ∃ element, v.read m = .ok (element, { v with position := v.position + 1 })) ∧
      ReadsExactly ((h.address v).range (h.elementWidth kind).toNat) v.read
  /-- The element at the cursor is written to the bytes at the address of the cursor. -/
  write : ∀ m element, v.position.toNat < v.capacity.toNat →
    ∃ stored, v.write m element = .ok (stored, { v with position := v.position + 1 }) ∧
      kind.StoredAt element (h.address v) (h.elementWidth kind).toNat m stored

/-- If widths and sizes agree, the address that is told is where the element lies. -/
theorem addressAt_eq (hacc : h.accessor.Documented)
    (hwidth : h.elementWidth kind = UInt64.ofNat kind.size) (v : View kind) (index : UInt64) :
    h.addressAt v index = v.elementAddress index := by
  rw [addressAt, hacc.addressOf_eq, hwidth, View.elementAddress]

/-- Where the handle gives to a kind the bytes that an element takes, it tells where elements are. -/
theorem locates_of_elementWidth (hacc : h.accessor.Documented)
    (hwidth : h.elementWidth kind = UInt64.ofNat kind.size) (hv : v.Fits) : h.Locates v := by
  have haddress := addressAt_eq hacc hwidth v
  have hsize : (h.elementWidth kind).toNat = kind.size := by rw [hwidth, kind.toNat_ofNat_size]
  constructor
  case get =>
    intro index hi
    rw [place, haddress, hsize]
    exact ⟨fun m => ⟨_, View.get_eq_ok hi m⟩, hv.readsExactly_get hi⟩
  case put =>
    intro m index element hi
    rw [haddress, hsize]
    exact hv.exists_put hi m element
  case read =>
    intro hi
    rw [address, haddress, hsize]
    refine ⟨fun m => ⟨v.load m v.position, ?_⟩, hv.readsExactly_read hi⟩
    -- to read at the cursor is to get under its position
    rw [View.read_eq_map, View.get_eq_ok hi]
    rfl
  case write =>
    intro m element hi
    rw [address, haddress, hsize]
    obtain ⟨stored, hput, hstored⟩ := hv.exists_put hi m element
    refine ⟨stored, ?_, hstored⟩
    rw [View.write_eq_map, hput]
    rfl

/-- A handle gives to every kind the bytes that an element takes, as far as its accessor does to pointers. -/
theorem elementWidth_eq (hsize : kind = .pointer → h.accessor.pointerSize = 8) :
    h.elementWidth kind = UInt64.ofNat kind.size := by
  cases kind with
  | pointer => exact hsize rfl
  | _ => rfl

/-- After the self-test the width is the size for all kinds but a narrow pointer. -/
theorem elementWidth_of_selfTest (hpass : h.accessor.selfTest = .ok ())
    (hkind : ¬ (kind = .pointer ∧ h.accessor.pointerSize = 4)) :
    h.elementWidth kind = UInt64.ofNat kind.size := by
  apply elementWidth_eq
  intro hpointer
  exact (Accessor.pointerSize_of_selfTest hpass).resolve_left fun hfour => hkind ⟨hpointer, hfour⟩

/-- A view of two pointers. -/
def pointers : View .pointer := ⟨⟨0x10000000⟩, 2, .native, 0⟩

/-- The view lies within the address space. -/
theorem pointers_fits : pointers.Fits := by
  unfold View.Fits
  decide

/-- With pointers of four bytes, the second one lies elsewhere than the handle tells. -/
theorem not_locates_pointers (hacc : h.accessor.Documented) (hsize : h.accessor.pointerSize = 4) :
    ¬ h.Locates pointers := by
  intro hlocates
  have hwidth : h.elementWidth .pointer = 4 := hsize
  have hplace := (hlocates.get 1 (by decide)).2.unique (pointers_fits.readsExactly_get (by decide))
  have hfirst : (⟨0x10000004⟩ : Address) ∈ h.place pointers 1 := by
    rw [place, addressAt, hacc.addressOf_eq, hwidth]
    exact ⟨by decide, by decide⟩
  rw [hplace] at hfirst
  exact absurd hfirst.1 (by decide)

/-- An accessor with pointers of four bytes passes the self-test. In the view that its handle makes of two
pointers, the second one is told to be four bytes behind the first and is accessed eight bytes behind it. -/
theorem not_locates_narrow_pointers :
    let acc := Accessor.synthetic 4096 4 true true .correct
    let h : Handle := ⟨acc, true⟩
    acc.selfTest = .ok () ∧ h.view .pointer ⟨0x10000000⟩ 2 = .ok pointers ∧ pointers.Fits ∧
      (h.addressAt pointers 1 = ⟨0x10000004⟩ ∧ pointers.elementAddress 1 = ⟨0x10000008⟩) ∧
      ¬ h.Locates pointers := by
  intro acc h
  have hacc : acc.Documented := Accessor.documented_synthetic ..
  exact ⟨by decide +kernel, by decide, pointers_fits, by decide, not_locates_pointers hacc rfl⟩

/-- The elements of every view are where a handle tells, if its accessor passes the self-test and tells the
addresses of views: for every kind but pointers, and for pointers unless the accessor gives four bytes to
them. -/
theorem locates_iff (hpass : h.accessor.selfTest = .ok ()) (hacc : h.accessor.Documented) (kind : ElementKind) :
    (∀ v : View kind, v.Fits → h.Locates v) ↔ ¬ (kind = .pointer ∧ h.accessor.pointerSize = 4) := by
  constructor
  · rintro hall ⟨rfl, hsize⟩
    exact not_locates_pointers hacc hsize (hall pointers pointers_fits)
  · intro hkind v hv
    exact locates_of_elementWidth hacc (elementWidth_of_selfTest hpass hkind) hv

/-- The accessor that uses the C library passes the self-test, and pointers are where its handle tells. -/
theorem locates_iff_libc :
    Accessor.libc.selfTest = .ok () ∧ (⟨.libc, true⟩ : Handle).Locates pointers := by
  have hpass : Accessor.libc.selfTest = .ok () := by decide +kernel
  have hall := (locates_iff (h := ⟨.libc, true⟩) hpass (Accessor.documented_ofKind .libc) .pointer).mpr
    (by decide)
  exact ⟨hpass, hall pointers pointers_fits⟩

end Handle

end RawMemory
