import RawMemory.Proofs.PinTable

/-!
# The search for a handle

A new handle is looked for one word at a time. Each turn takes the word that the counter stands at and
moves the counter on, round to zero behind the last word, and the search ends with the first turn that
finds a word free. Nothing in the turns themselves says that one of them will (`PinTable.Search`).

What bounds them is a count. Successive words are different as long as there are no more than `2 ^ 64` of
them, and a word that is passed over is zero or a handle in use (`PinTable.le_of_taken`). So where any word
is free, the search finds one within two turns more than there are handles in use, wherever the counter
stands and whether or not it goes round (`PinTable.pin_firstFree`).
-/

namespace RawMemory.PinTable

variable {α : Type} {t next rest : PinTable α} {handle : UInt64} {turns passed k : Nat}

/-! ## Turns -/

/-- One turn of the search: the word that the counter stands at, if it can become a handle. The counter
moves on in any case. -/
def turn (t : PinTable α) : Option UInt64 × PinTable α :=
  (if t.isFree t.next then some t.next else none, { t with next := t.next + 1 })

/-- The search that starts with a table takes so many turns. It ends with a handle and the table in which
the counter has passed over it. -/
inductive Search : PinTable α → Nat → UInt64 → PinTable α → Prop
  /-- The last turn finds the handle. -/
  | found {t rest : PinTable α} {handle : UInt64} (h : t.turn = (some handle, rest)) :
    Search t 1 handle rest
  /-- Every other turn finds nothing. -/
  | missed {t next rest : PinTable α} {handle : UInt64} {turns : Nat} (h : t.turn = (none, next))
    (hnext : Search next turns handle rest) : Search t (turns + 1) handle rest

/-- The `k`-th word behind the counter, which goes round behind the last word. -/
def wordAt (t : PinTable α) (k : Nat) : UInt64 := t.next + UInt64.ofNat k

@[simp] theorem wordAt_zero (t : PinTable α) : t.wordAt 0 = t.next := UInt64.add_zero _

/-- Words go round. -/
theorem toNat_wordAt (t : PinTable α) (k : Nat) :
    (t.wordAt k).toNat = (t.next.toNat + k) % 2 ^ 64 := by
  rw [wordAt, UInt64.toNat_add, UInt64.toNat_ofNat', Nat.add_mod_mod]

/-- After a turn the words are those from the next one on. -/
theorem wordAt_succ (t : PinTable α) (k : Nat) :
    ({ t with next := t.next + 1 } : PinTable α).wordAt k = t.wordAt (k + 1) := by
  rw [← UInt64.toNat_inj, toNat_wordAt, toNat_wordAt, UInt64.toNat_add, UInt64.toNat_one]
  omega

/-- A word is free if it is not zero and nothing is pinned under it. -/
theorem isFree_eq_true_iff {word : UInt64} :
    t.isFree word = true ↔ word ≠ 0 ∧ t.live.get? word = none := by
  simp [isFree, Table.contains_iff]

/-- A search ends at the first word that is free, counted from the counter on. -/
theorem search_iff :
    t.Search turns handle rest ↔ ∃ passed, turns = passed + 1 ∧ handle = t.wordAt passed ∧
      rest = { t with next := handle + 1 } ∧ t.isFree handle = true ∧
      ∀ k < passed, t.isFree (t.wordAt k) = false := by
  constructor
  · intro h
    induction h with
    | @found t rest handle h =>
      obtain ⟨hword, rfl⟩ := Prod.mk.inj h
      obtain ⟨hfree, hhandle⟩ := Option.ite_none_right_eq_some.mp hword
      obtain rfl := Option.some.inj hhandle
      exact ⟨0, rfl, (wordAt_zero t).symm, rfl, hfree, by simp⟩
    | @missed t next rest handle turns h _ ih =>
      obtain ⟨hword, rfl⟩ := Prod.mk.inj h
      obtain ⟨passed, rfl, rfl, rfl, hfree, hpassed⟩ := ih
      rw [wordAt_succ] at hfree ⊢
      refine ⟨passed + 1, rfl, rfl, rfl, hfree, fun k hk => ?_⟩
      -- the first word was missed in this turn, the others in later ones
      cases k with
      | zero => simpa using hword
      | succ k =>
        rw [← wordAt_succ]
        exact hpassed k (by omega)
  · rintro ⟨passed, rfl, rfl, rfl, hfree, hpassed⟩
    induction passed generalizing t with
    | zero =>
      rw [wordAt_zero] at hfree ⊢
      exact .found (by rw [turn, if_pos hfree])
    | succ passed ih =>
      have hfirst := hpassed 0 (by omega)
      rw [wordAt_zero] at hfirst
      refine .missed (by rw [turn, hfirst]; rfl) ?_
      rw [← wordAt_succ] at hfree ⊢
      refine ih hfree fun k hk => ?_
      rw [wordAt_succ]
      exact hpassed (k + 1) (by omega)

/-! ## How many turns there are -/

/-- Successive words are different until the counter has gone round once. -/
theorem wordAt_injOn (t : PinTable α) {i j : Nat} (hi : i < 2 ^ 64) (hj : j < 2 ^ 64)
    (h : t.wordAt i = t.wordAt j) : i = j := by
  rw [← UInt64.toNat_inj, toNat_wordAt, toNat_wordAt] at h
  omega

/-- Words that are passed over are zero or handles in use, and so there are few of them. -/
theorem le_of_taken (hk : k ≤ 2 ^ 64) (htaken : ∀ j < k, t.isFree (t.wordAt j) = false) :
    k ≤ t.size + 1 := by
  have hnodup : ((List.range k).map t.wordAt).Nodup := by
    refine List.nodup_range.map_on fun i hi j hj => ?_
    rw [List.mem_range] at hi hj
    exact t.wordAt_injOn (by omega) (by omega)
  -- each word that was passed over is zero or in use, and they are all different
  have hsubset : (List.range k).map t.wordAt ⊆ 0 :: t.live.keys := by
    intro word hword
    obtain ⟨j, hj, rfl⟩ := List.mem_map.mp hword
    have hlive := htaken j (List.mem_range.mp hj)
    rw [← Bool.not_eq_true, isFree_eq_true_iff, not_and_or, not_not] at hlive
    rw [List.mem_cons, Table.mem_keys_iff, Option.isSome_iff_ne_none]
    exact hlive
  have hlength := (List.subperm_of_subset hnodup hsubset).length_le
  rw [List.length_map, List.length_range, List.length_cons, Table.length_keys] at hlength
  exact hlength

/-- Where any word is free, a first one is found soon. -/
theorem exists_first (hfree : ∃ word, t.isFree word = true) :
    ∃ passed < t.size + 2, t.isFree (t.wordAt passed) = true ∧
      ∀ k < passed, t.isFree (t.wordAt k) = false := by
  classical
  obtain ⟨word, hword⟩ := hfree
  -- going round from the counter one comes to the free word
  have hround : t.wordAt (word - t.next).toNat = word := by
    rw [wordAt, UInt64.ofNat_toNat, UInt64.add_comm, UInt64.sub_add_cancel]
  rw [← hround] at hword
  have hex : ∃ k, t.isFree (t.wordAt k) = true := ⟨_, hword⟩
  have hle : Nat.find hex ≤ (word - t.next).toNat := Nat.find_min' hex hword
  have hpassed : ∀ k < Nat.find hex, t.isFree (t.wordAt k) = false := fun k hk =>
    Bool.eq_false_iff.mpr (Nat.find_min hex hk)
  have hlt := (word - t.next).toNat_lt
  exact ⟨Nat.find hex, Nat.lt_succ_of_le (le_of_taken (by omega) hpassed), Nat.find_spec hex, hpassed⟩

/-- The first free word is found if it is near enough. -/
theorem freeHandle?_eq_some (hlt : passed < t.size + 2) (hfree : t.isFree (t.wordAt passed) = true)
    (hpassed : ∀ k < passed, t.isFree (t.wordAt k) = false) :
    t.freeHandle? = some (t.wordAt passed) := by
  have hfind : (List.range (t.size + 2)).find? (t.isFree ∘ t.wordAt) = some passed := by
    rw [List.find?_range_eq_some]
    refine ⟨hfree, List.mem_range.mpr hlt, fun k hk => ?_⟩
    rw [Function.comp_apply, hpassed k hk]
    rfl
  change ((List.range (t.size + 2)).map t.wordAt).find? t.isFree = _
  rw [List.find?_map, hfind, Option.map_some]

/-! ## Keeping an object -/

/-- An object is kept under the first free handle in cyclic order from the counter on, `passed` words
behind it. -/
structure FirstFree (t : PinTable α) (object : α) (passed : Nat) (handle : UInt64)
    (after : PinTable α) : Prop where
  /-- The handle comes so many words behind the counter, which goes round behind the last word. -/
  toNat_handle : handle.toNat = (t.next.toNat + passed) % 2 ^ 64
  /-- All words in front of it are zero or handles in use. -/
  taken : ∀ k < passed, t.wordAt k = 0 ∨ (t.live.get? (t.wordAt k)).isSome
  nonzero : handle ≠ 0
  /-- No object was there before. -/
  unused : t.live.get? handle = none
  /-- The counter stands just behind the handle. -/
  toNat_next : after.next.toNat = (handle.toNat + 1) % 2 ^ 64
  /-- The object is there, and all others are where they were. -/
  get?_live : ∀ other, after.live.get? other = if handle = other then some object else t.live.get? other
  /-- There is one object more. -/
  size_eq : after.size = t.size + 1

/-- The first free word is the handle, and the next search begins behind it. -/
theorem firstFree_of_isFree (object : α) (hfree : t.isFree (t.wordAt passed) = true)
    (hpassed : ∀ k < passed, t.isFree (t.wordAt k) = false) :
    t.FirstFree object passed (t.wordAt passed)
      ⟨t.wordAt passed + 1, t.live.insert (t.wordAt passed) object⟩ := by
  obtain ⟨hnonzero, hunused⟩ := isFree_eq_true_iff.mp hfree
  refine ⟨t.toNat_wordAt passed, fun k hk => ?_, hnonzero, hunused, UInt64.toNat_add _ _,
    fun other => Table.get?_insert .., Table.size_insert hunused object⟩
  have hlive := hpassed k hk
  rwa [← Bool.not_eq_true, isFree_eq_true_iff, not_and_or, not_not, ← ne_eq,
    ← Option.isSome_iff_ne_none] at hlive

/-- Wherever the counter stands and whatever handles are in use, if any nonzero word is not, then an object
is kept under the first such word in cyclic order. The search ends, with nothing else than that, after at
most two turns more than there are handles in use. -/
theorem pin_firstFree (t : PinTable α) (object : α)
    (hfree : ∃ word, word ≠ 0 ∧ t.live.get? word = none) :
    ∃ passed handle after, passed + 1 ≤ t.size + 2 ∧ t.pin object = some (handle, after) ∧
      t.FirstFree object passed handle after ∧
      ∀ turns found rest, t.Search turns found rest ↔
        turns = passed + 1 ∧ found = handle ∧ rest = { t with next := after.next } := by
  obtain ⟨word, hword⟩ := hfree
  obtain ⟨passed, hlt, hfirst, hpassed⟩ := exists_first ⟨word, isFree_eq_true_iff.mpr hword⟩
  refine ⟨passed, _, _, hlt, ?_, firstFree_of_isFree object hfirst hpassed, fun turns found rest => ?_⟩
  · rw [pin, freeHandle?_eq_some hlt hfirst hpassed, Option.map_some]
  · rw [search_iff]
    constructor
    · rintro ⟨other, rfl, rfl, rfl, hother, hbefore⟩
      -- of two first free words neither comes before the other
      obtain rfl : other = passed := by
        rcases Nat.lt_trichotomy other passed with hless | heq | hmore
        · rw [hpassed other hless] at hother
          cases hother
        · exact heq
        · rw [hbefore passed hmore] at hfirst
          cases hfirst
      exact ⟨rfl, rfl, rfl⟩
    · rintro ⟨rfl, rfl, rfl⟩
      exact ⟨passed, rfl, rfl, rfl, hfirst, hpassed⟩

/-- The counter stands at the last word, which is in use like the word one. The search passes over both of
them and over zero in between, so that it takes as many turns as it ever may. -/
theorem pin_firstFree_round :
    ∃ (t after : PinTable PinnedObject) (passed : Nat),
      t.next = 0xFFFFFFFFFFFFFFFF ∧ (t.live.get? 0xFFFFFFFFFFFFFFFF).isSome ∧ (t.live.get? 1).isSome ∧
      t.size = 2 ∧ (∃ word, word ≠ 0 ∧ t.live.get? word = none) ∧
      t.pin (.uint32 9) = some (2, after) ∧ t.FirstFree (.uint32 9) passed 2 after ∧
      t.Search 4 2 { t with next := 3 } := by
  let t : PinTable PinnedObject :=
    ⟨0xFFFFFFFFFFFFFFFF, (({} : Table UInt64 PinnedObject).insert 0xFFFFFFFFFFFFFFFF (.uint32 7)).insert 1
      (.uint32 8)⟩
  have hfree : ∃ word, word ≠ 0 ∧ t.live.get? word = none := ⟨2, by decide, rfl⟩
  obtain ⟨passed, handle, after, hle, hpin, hfirst, hsearch⟩ := pin_firstFree t (.uint32 9) hfree
  have hhandle : t.freeHandle? = some 2 := by decide
  have hvalue : t.pin (.uint32 9) = some (2, ⟨3, t.live.insert 2 (.uint32 9)⟩) := by
    rw [pin, hhandle]
    rfl
  obtain ⟨rfl, rfl⟩ := Prod.mk.inj (Option.some.inj (hpin.symm.trans hvalue))
  -- four words from the last one on there is the word two
  have hround : passed = 3 := by
    have hcounter : t.next.toNat = 2 ^ 64 - 1 := rfl
    have htwo : (2 : UInt64).toNat = 2 := rfl
    have hsize : t.size = 2 := rfl
    have hhandle := hfirst.toNat_handle
    omega
  exact ⟨t, _, passed, rfl, rfl, rfl, rfl, hfree, hpin, hfirst,
    (hsearch _ _ _).mpr ⟨by rw [hround], rfl, rfl⟩⟩

end RawMemory.PinTable
