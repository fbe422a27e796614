import RawMemory.Address

/-!
# Stores

A store is the whole of memory: a byte at every address. The bulk operations are said by the byte that
they leave at each address, so that a store after an operation is a function of the store before.

`copy` moves a block as if all of it were read before any of it is written, which is right for ranges
that overlap in either direction. `copyForward` moves one byte after the other from the lowest address
on, so that a destination above the source receives its own first bytes again and again.
-/

namespace RawMemory

/-- A byte at every address. -/
@[ext]
structure Store where
  /-- The byte at an address. -/
  byte : Address → UInt8

namespace Store

/-- Memory in which every byte is zero. -/
def zero : Store := ⟨fun _ => 0⟩

/-- The bytes at `count` successive addresses from `a` on. -/
def read (m : Store) (a : Address) (count : Nat) : List UInt8 :=
  (List.range count).map fun i => m.byte (a + UInt64.ofNat i)

/-- Store a block of bytes from `a` on. -/
def write (m : Store) (a : Address) (block : Array UInt8) : Store where
  byte x :=
    match block[(x.distance a).toNat]? with
    | some b => b
    | none => m.byte x

/-- Store the same byte at `count` successive addresses from `a` on. -/
def fill (m : Store) (a : Address) (b : UInt8) (count : UInt64) : Store where
  byte x := if x.distance a < count then b else m.byte x

/-- Copy `count` bytes from `src` on to `dst` on, all of them read before any is written. -/
def copy (m : Store) (src dst : Address) (count : UInt64) : Store where
  byte x := if x.distance dst < count then m.byte (src + x.distance dst) else m.byte x

/-- Copy `count` bytes one after the other from the lowest on. With the destination `d` bytes above the
source, the bytes that arrive repeat with period `d`. -/
def copyForward (m : Store) (src dst : Address) (count : UInt64) : Store where
  byte x :=
    if x.distance dst < count then m.byte (src + x.distance dst % dst.distance src) else m.byte x

/-- The least index from `k` on and below `limit` that passes a test. -/
def firstIndex (test : Nat → Bool) (limit k : Nat) : Option Nat :=
  if k < limit then
    if test k then some k else firstIndex test limit (k + 1)
  else none
termination_by limit - k

/-- How many bytes precede the first zero byte at or above `a`. -/
def zeroByteAfter? (m : Store) (a : Address) : Option Nat :=
  firstIndex (fun k => m.byte (a + UInt64.ofNat k) == 0) 0x10000000000000000 0

/-- How many two-byte units precede the first zero unit, counting units from `a` on. -/
def zeroUnitAfter? (m : Store) (a : Address) : Option Nat :=
  firstIndex (fun k => m.byte (a + UInt64.ofNat (2 * k)) == 0 &&
    m.byte (a + UInt64.ofNat (2 * k + 1)) == 0) 0x8000000000000000 0

@[simp] theorem length_read (m : Store) (a : Address) (count : Nat) :
    (m.read a count).length = count := by
  simp [read]

@[simp] theorem getElem_read (m : Store) (a : Address) (count i : Nat)
    (h : i < (m.read a count).length) : (m.read a count)[i] = m.byte (a + UInt64.ofNat i) := by
  simp [read]

theorem byte_write (m : Store) (a : Address) (block : Array UInt8) (x : Address) :
    (m.write a block).byte x = block[(x.distance a).toNat]?.getD (m.byte x) := by
  simp only [write]
  split <;> simp_all

theorem byte_fill (m : Store) (a : Address) (b : UInt8) (count : UInt64) (x : Address) :
    (m.fill a b count).byte x = if x.distance a < count then b else m.byte x := rfl

theorem byte_copy (m : Store) (src dst : Address) (count : UInt64) (x : Address) :
    (m.copy src dst count).byte x =
      if x.distance dst < count then m.byte (src + x.distance dst) else m.byte x := rfl

theorem firstIndex_eq_some_iff {test : Nat → Bool} {limit k i : Nat} :
    firstIndex test limit k = some i ↔
      k ≤ i ∧ i < limit ∧ test i = true ∧ ∀ j, k ≤ j → j < i → test j = false := by
  fun_induction firstIndex test limit k with
  | case1 k hk ht =>
    -- `k` itself passes, so any other index that is first would be above it
    simp only [Option.some.injEq]
    constructor
    · rintro rfl
      exact ⟨Nat.le_refl _, hk, ht, fun j _ _ => by omega⟩
    · rintro ⟨hki, -, -, hmin⟩
      by_cases h : k = i
      · exact h
      · have := hmin k (Nat.le_refl _) (by omega)
        simp_all
  | case2 k hk ht ih =>
    -- `k` does not pass, so the index is one above it
    rw [ih]
    constructor
    · rintro ⟨hki, hi, hti, hmin⟩
      refine ⟨by omega, hi, hti, fun j hkj hji => ?_⟩
      by_cases h : k = j
      · simpa [h] using ht
      · exact hmin j (by omega) hji
    · rintro ⟨hki, hi, hti, hmin⟩
      have : k ≠ i := by
        rintro rfl
        exact ht hti
      exact ⟨by omega, hi, hti, fun j hkj hji => hmin j (by omega) hji⟩
  | case3 k hk =>
    -- no index is left below the limit
    simp only [reduceCtorEq, false_iff]
    omega

end Store

end RawMemory
