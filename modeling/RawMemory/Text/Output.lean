/-!
# Outputs

A coder writes into storage of a fixed size. What it writes goes behind what is written already, and the
items behind that stay as they are. Storage that turns out too small is exchanged for larger storage,
which starts with the items written so far and is zero behind them. At the end the storage is cut to the
items written, its `content`.
-/

namespace RawMemory

/-- Storage of a fixed size, written from the front. -/
structure Output (β : Type) where
  /-- All items of the storage. -/
  storage : Array β
  /-- How many of them are written. -/
  written : Nat
  /-- Nothing is written behind the storage. -/
  written_le : written ≤ storage.size

namespace Output

variable {β : Type}

/-- How many items the storage has. -/
def size (o : Output β) : Nat := o.storage.size

/-- How many items can still be written. -/
def room (o : Output β) : Nat := o.size - o.written

/-- The storage cut to the items written. -/
def content (o : Output β) : List β := o.storage.toList.take o.written

/-- The items of the storage behind those that are written. -/
def behind (o : Output β) : List β := o.storage.toList.drop o.written

/-- Storage of zeros, of which nothing is written. -/
def zeroed [OfNat β 0] (size : Nat) : Output β := ⟨Array.replicate size 0, 0, Nat.zero_le _⟩

/-- Store items one after the other, the first one under an index. Those for which there is no place are left
out. -/
def storeFrom (storage : Array β) (index : Nat) : List β → Array β
  | [] => storage
  | item :: items => storeFrom (storage.setIfInBounds index item) (index + 1) items

@[simp] theorem size_storeFrom (storage : Array β) (index : Nat) (items : List β) :
    (storeFrom storage index items).size = storage.size := by
  induction items generalizing storage index with
  | nil => rfl
  | cons item items ih => rw [storeFrom, ih, Array.size_setIfInBounds]

/-- Write items behind those that are written, as many of them as there is room for. -/
def write (o : Output β) (items : List β) : Output β where
  storage := storeFrom o.storage o.written items
  written := min (o.written + items.length) o.size
  written_le := by
    rw [size_storeFrom]
    exact Nat.min_le_right _ _

/-- Other storage, zero but for the first `keep` items, as far as both storages have so many. -/
def regrown [OfNat β 0] (o : Output β) (size keep : Nat) : Array β :=
  let kept := o.storage.extract 0 (min keep size)
  kept ++ Array.replicate (size - kept.size) 0

theorem size_regrown [OfNat β 0] (o : Output β) (size keep : Nat) : (o.regrown size keep).size = size := by
  simp only [regrown, Array.size_append, Array.size_extract, Array.size_replicate]
  omega

/-- Exchange the storage for one of another size that keeps what is written. -/
def grow [OfNat β 0] (o : Output β) (size : Nat) : Output β where
  storage := o.regrown size o.written
  written := min o.written size
  written_le := by
    rw [size_regrown]
    exact Nat.min_le_right _ _

@[simp] theorem length_content (o : Output β) : o.content.length = o.written := by
  rw [content, List.length_take]
  exact Nat.min_eq_left o.written_le

@[simp] theorem content_zeroed [OfNat β 0] (size : Nat) : (zeroed size : Output β).content = [] := rfl

@[simp] theorem written_zeroed [OfNat β 0] (size : Nat) : (zeroed size : Output β).written = 0 := rfl

@[simp] theorem size_zeroed [OfNat β 0] (size : Nat) : (zeroed size : Output β).size = size :=
  Array.size_replicate

@[simp] theorem size_grow [OfNat β 0] (o : Output β) (size : Nat) : (o.grow size).size = size :=
  size_regrown o size o.written

@[simp] theorem size_write (o : Output β) (items : List β) : (o.write items).size = o.size :=
  size_storeFrom ..

theorem written_write (o : Output β) {items : List β} (h : items.length ≤ o.room) :
    (o.write items).written = o.written + items.length := by
  have hle : o.written ≤ o.size := o.written_le
  rw [room] at h
  exact Nat.min_eq_left (by omega)

/-- There is less room by what was written. -/
theorem room_write (o : Output β) {items : List β} (h : items.length ≤ o.room) :
    (o.write items).room = o.room - items.length := by
  rw [room, size_write, written_write o h, room]
  omega

/-- Items that have a place replace those that were there. -/
theorem toList_storeFrom (storage : Array β) (index : Nat) {items : List β}
    (h : index + items.length ≤ storage.size) :
    (storeFrom storage index items).toList =
      storage.toList.take index ++ items ++ storage.toList.drop (index + items.length) := by
  induction items generalizing storage index with
  | nil => simp [storeFrom]
  | cons item items ih =>
    rw [List.length_cons] at h ⊢
    have hplace : index < storage.toList.length := by
      rw [Array.length_toList]
      omega
    have hfront : (storage.toList.set index item).take (index + 1) =
        storage.toList.take index ++ [item] := by
      rw [List.take_succ_eq_append_getElem (by rwa [List.length_set]), List.take_set_of_le (Nat.le_refl _),
        List.getElem_set_self]
    have hback : (storage.toList.set index item).drop (index + 1 + items.length) =
        storage.toList.drop (index + (items.length + 1)) := by
      rw [List.drop_set_of_lt (by omega), Nat.add_assoc, Nat.add_comm 1]
    rw [storeFrom, ih _ _ (by rw [Array.size_setIfInBounds]; omega), Array.toList_setIfInBounds, hfront, hback,
      List.append_assoc _ [item], List.singleton_append]

theorem toList_storage_write (o : Output β) {items : List β} (h : items.length ≤ o.room) :
    (o.write items).storage.toList =
      o.content ++ items ++ o.storage.toList.drop (o.written + items.length) := by
  have hle : o.written ≤ o.size := o.written_le
  rw [room] at h
  exact toList_storeFrom _ _ (by rw [← size]; omega)

theorem content_write (o : Output β) {items : List β} (h : items.length ≤ o.room) :
    (o.write items).content = o.content ++ items := by
  have hlength : (o.content ++ items).length = o.written + items.length := by
    rw [List.length_append, length_content]
  rw [content, written_write o h, toList_storage_write o h, ← hlength, List.take_left]

/-- What lies behind the items written stays as it is. -/
theorem behind_write (o : Output β) {items : List β} (h : items.length ≤ o.room) :
    (o.write items).behind = o.behind.drop items.length := by
  have hlength : (o.content ++ items).length = o.written + items.length := by
    rw [List.length_append, length_content]
  rw [behind, written_write o h, toList_storage_write o h, ← hlength, List.drop_left, hlength, behind,
    List.drop_drop]

/-- An output is told by what is written in it and what lies behind. -/
theorem eq_of_parts {o p : Output β} (hcontent : o.content = p.content) (hbehind : o.behind = p.behind) :
    o = p := by
  have hwritten : o.written = p.written := by rw [← length_content, hcontent, length_content]
  have hstorage : o.storage.toList = p.storage.toList := by
    rw [← List.take_append_drop o.written o.storage.toList,
      ← List.take_append_drop p.written p.storage.toList, ← content, ← content, ← behind, ← behind, hcontent,
      hbehind]
  cases o
  cases p
  simp_all

@[simp] theorem write_nil (o : Output β) : o.write [] = o :=
  eq_of_parts ((o.content_write (Nat.zero_le _)).trans (List.append_nil _)) (o.behind_write (Nat.zero_le _))

/-- To write items and then others is to write all of them, if there is room for them. -/
theorem write_write (o : Output β) {items more : List β} (h : items.length + more.length ≤ o.room) :
    (o.write items).write more = o.write (items ++ more) := by
  have hitems : items.length ≤ o.room := by omega
  have hmore : more.length ≤ (o.write items).room := by
    rw [room_write o hitems]
    omega
  have hall : (items ++ more).length ≤ o.room := by rwa [List.length_append]
  refine eq_of_parts ?_ ?_
  · rw [content_write _ hmore, content_write o hitems, content_write o hall, List.append_assoc]
  · rw [behind_write _ hmore, behind_write o hitems, behind_write o hall, List.drop_drop, List.length_append]

theorem content_grow [OfNat β 0] (o : Output β) {size : Nat} (h : o.written ≤ size) :
    (o.grow size).content = o.content := by
  have hlength : (o.storage.toList.take o.written).length = o.written := o.length_content
  simp only [content, grow, regrown, Nat.min_eq_left h, Array.toList_append, Array.toList_extract,
    List.extract_eq_take_drop, Nat.sub_zero, List.drop_zero]
  rw [List.take_left' hlength]

theorem written_grow [OfNat β 0] (o : Output β) {size : Nat} (h : o.written ≤ size) :
    (o.grow size).written = o.written := Nat.min_eq_left h

end Output

end RawMemory
