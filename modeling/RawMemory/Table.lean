/-!
# Tables

A finite map as a list of entries, the newest first. No two entries have the same key: `insert` replaces
what the key had before.
-/

namespace RawMemory

/-- A finite map from `κ` to `α`. -/
structure Table (κ α : Type) where
  /-- The keys with their values, the newest first. -/
  entries : List (κ × α) := []
  /-- Each key has one entry. -/
  distinct : (entries.map Prod.fst).Nodup := by simp

namespace Table

variable {κ α : Type} [DecidableEq κ]

/-- The value under a key. -/
def get? (t : Table κ α) (k : κ) : Option α := (t.entries.find? fun e => e.1 = k).map Prod.snd

/-- Whether there is a value under a key. -/
def contains (t : Table κ α) (k : κ) : Bool := t.entries.any fun e => e.1 = k

/-- The table without the entry of a key. -/
def erase (t : Table κ α) (k : κ) : Table κ α where
  entries := t.entries.filter fun e => ¬ e.1 = k
  distinct := t.distinct.sublist (List.filter_sublist.map _)

/-- The table with a value under a key, whatever was there before. -/
def insert (t : Table κ α) (k : κ) (v : α) : Table κ α where
  entries := (k, v) :: (t.erase k).entries
  distinct := by
    rw [List.map_cons, List.nodup_cons]
    exact ⟨by simp [erase], (t.erase k).distinct⟩

/-- The table with another value under a key that has one. -/
def replace (t : Table κ α) (k : κ) (v : α) : Table κ α where
  entries := t.entries.map fun e => if e.1 = k then (e.1, v) else e
  distinct := by
    have hkeys : (Prod.fst ∘ fun e : κ × α => if e.1 = k then (e.1, v) else e) = Prod.fst := by
      funext e
      dsimp only [Function.comp_apply]
      split <;> rfl
    rw [List.map_map, hkeys]
    exact t.distinct

/-- The keys, the newest first. -/
def keys (t : Table κ α) : List κ := t.entries.map Prod.fst

/-- How many entries there are. -/
def size (t : Table κ α) : Nat := t.entries.length

omit [DecidableEq κ] in
@[simp] theorem size_empty : ({} : Table κ α).size = 0 := rfl

@[simp] theorem get?_empty (k : κ) : ({} : Table κ α).get? k = none := rfl

theorem get?_erase (t : Table κ α) (k l : κ) :
    (t.erase k).get? l = if k = l then none else t.get? l := by
  unfold get? erase
  dsimp only
  generalize t.entries = entries
  induction entries with
  | nil => simp
  | cons e rest ih =>
    by_cases hk : e.1 = k
    · -- the entry goes away, and a key other than `k` is not found at it anyway
      rw [List.filter_cons_of_neg (by simpa using hk), ih]
      split
      · rfl
      · rename_i h
        rw [List.find?_cons_of_neg (by simpa [hk] using h)]
    · -- the entry stays, and is found by its own key only
      rw [List.filter_cons_of_pos (by simpa using hk)]
      by_cases hl : e.1 = l
      · rw [List.find?_cons_of_pos (by simpa using hl), List.find?_cons_of_pos (by simpa using hl),
          if_neg (fun h => hk (hl.trans h.symm))]
      · rw [List.find?_cons_of_neg (by simpa using hl), ih, List.find?_cons_of_neg (by simpa using hl)]

theorem get?_insert (t : Table κ α) (k l : κ) (v : α) :
    (t.insert k v).get? l = if k = l then some v else t.get? l := by
  by_cases h : k = l
  · simp [insert, get?, h]
  · rw [if_neg h, insert, get?, List.find?_cons_of_neg (by simpa using h), ← get?, get?_erase,
      if_neg h]

/-- A key without a value has no entry to be taken away. -/
theorem erase_eq_self {t : Table κ α} {k : κ} (h : t.get? k = none) : t.erase k = t := by
  have hnone : ∀ e ∈ t.entries, ¬ e.1 = k := by simpa [get?] using h
  cases t
  simpa only [erase, Table.mk.injEq, List.filter_eq_self, decide_eq_true_eq] using hnone

theorem get?_replace (t : Table κ α) (k l : κ) (v : α) :
    (t.replace k v).get? l = if k = l then (t.get? l).map fun _ => v else t.get? l := by
  unfold get? replace
  dsimp only
  generalize t.entries = entries
  induction entries with
  | nil => simp
  | cons e rest ih =>
    by_cases hl : e.1 = l
    · -- the entry of `l` is the first one here, and it is changed if `l` is the key
      by_cases hk : k = l
      · subst hk
        simp [hl]
      · simp [hl, hk, Ne.symm hk]
    · by_cases hk : e.1 = k
      · simp only [List.map_cons, hk, if_true] at ih ⊢
        rw [List.find?_cons_of_neg (by simpa [hk] using hl), List.find?_cons_of_neg (by simpa using hl), ih]
      · simp only [List.map_cons, hk, if_false] at ih ⊢
        rw [List.find?_cons_of_neg (by simpa using hl), List.find?_cons_of_neg (by simpa using hl), ih]

/-- To put the value under a key that it has already changes nothing. -/
theorem replace_eq_self {t : Table κ α} {k : κ} {v : α} (h : t.get? k = some v) : t.replace k v = t := by
  obtain ⟨entries, hdistinct⟩ := t
  have hsame : ∀ e ∈ entries, e.1 = k → e.2 = v := by
    intro e he hk
    obtain ⟨found, hfound, rfl⟩ := Option.map_eq_some_iff.mp h
    clear h
    induction entries with
    | nil => cases he
    | cons first rest ih =>
      rw [List.map_cons, List.nodup_cons] at hdistinct
      by_cases hfirst : first.1 = k
      · -- no other entry has the key
        rw [List.find?_cons_of_pos (by simpa using hfirst)] at hfound
        obtain rfl := Option.some.inj hfound
        rcases List.mem_cons.mp he with rfl | hrest
        · rfl
        · exact absurd (List.mem_map_of_mem hrest) (hk.trans hfirst.symm ▸ hdistinct.1)
      · rw [List.find?_cons_of_neg (by simpa using hfirst)] at hfound
        rcases List.mem_cons.mp he with rfl | hrest
        · exact absurd hk hfirst
        · exact ih hdistinct.2 hrest hfound
  simp only [replace, Table.mk.injEq]
  refine (List.map_congr_left fun e he => ?_).trans (List.map_id entries)
  split
  · next hk => rw [← hsame e he hk, id]
  · rfl

theorem contains_iff (t : Table κ α) (k : κ) : t.contains k = (t.get? k).isSome := by
  unfold contains get?
  rw [Option.isSome_map, List.isSome_find?]

/-! ### Sizes -/

omit [DecidableEq κ] in
@[simp] theorem length_keys (t : Table κ α) : t.keys.length = t.size := List.length_map ..

theorem mem_keys_iff (t : Table κ α) (k : κ) : k ∈ t.keys ↔ (t.get? k).isSome := by
  rw [← contains_iff, contains, List.any_eq_true, keys, List.mem_map]
  simp only [decide_eq_true_eq]

theorem keys_erase (t : Table κ α) (k : κ) : (t.erase k).keys = t.keys.erase k := by
  rw [keys, keys, t.distinct.erase_eq_filter, List.filter_map]
  congr 1
  refine List.filter_congr fun e _ => ?_
  by_cases h : e.1 = k <;> simp [h]

theorem size_erase {t : Table κ α} {k : κ} {v : α} (h : t.get? k = some v) :
    (t.erase k).size + 1 = t.size := by
  have hk : k ∈ t.keys := by simp [mem_keys_iff, h]
  have := List.length_pos_of_mem hk
  rw [← length_keys, keys_erase, List.length_erase_of_mem hk, ← length_keys]
  omega

theorem size_insert {t : Table κ α} {k : κ} (h : t.get? k = none) (v : α) :
    (t.insert k v).size = t.size + 1 := by
  have hk : k ∉ t.keys := by simp [mem_keys_iff, h]
  -- no entry has to make room for the new one
  have hkept : (t.erase k).size = t.size := by
    rw [← length_keys, keys_erase, List.erase_of_not_mem hk, length_keys]
  rw [← hkept]
  rfl

end Table

end RawMemory
