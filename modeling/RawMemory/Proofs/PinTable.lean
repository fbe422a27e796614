import Mathlib
import RawMemory.Pin

/-!
# Histories of a pin table

A table of pinned objects is used by four calls. A history lists the calls made since the table was
empty, each with its answer, and it alone says what the table answers next: a handle is live if it was
issued and has not been given up since (`PinHistory.Live`), and `PinHistory.Explains` reads every answer
off that.

The counter of a table is one more than the number of handles it has issued, as long as there are fewer
than `2 ^ 64 - 1` of them (`PinTable.Follows.next`). So the counter is never zero and never a handle in
use, and the handles are `1, 2, 3, …` in the order of the calls, whatever is given up in between.
-/

namespace RawMemory

/-- A call to a table of objects that have a type in `τ`. -/
inductive PinCall (α τ : Type) where
  /-- Keep an object. -/
  | pin (object : α)
  /-- Ask for the object of a type under a handle. -/
  | resolve (type : τ) (handle : UInt64)
  /-- Give up a handle. -/
  | release (handle : UInt64)
  /-- Ask how many objects are kept. -/
  | size
deriving DecidableEq

/-- The answer to a call. -/
inductive PinAnswer (α : Type) where
  /-- The handle of a new object. -/
  | issued (handle : UInt64)
  /-- The object asked for, if there is one. -/
  | found (object : Option α)
  /-- The object that was under a handle. -/
  | released (object : α)
  /-- There was nothing to give up. -/
  | refused (cause : MemoryError)
  /-- The number of objects. -/
  | count (n : Nat)
deriving DecidableEq

/-- A call with its answer. -/
structure PinEvent (α τ : Type) where
  /-- What was asked. -/
  call : PinCall α τ
  /-- What came back. -/
  answer : PinAnswer α
deriving DecidableEq

variable {α τ : Type}

/-- Whether a call adds an object. -/
def PinCall.isPin : PinCall α τ → Bool
  | pin _ => true
  | resolve .. | release _ | size => false

/-- The handle that an answer issues. -/
def PinAnswer.issued? : PinAnswer α → Option UInt64
  | issued handle => some handle
  | found _ | released _ | refused _ | count _ => none

/-- Whether an answer takes an object away. -/
def PinAnswer.isReleased : PinAnswer α → Bool
  | released _ => true
  | issued _ | found _ | refused _ | count _ => false

/-! ## Histories -/

namespace PinHistory

/-- The handles issued so far, the oldest first. -/
def issued (history : List (PinEvent α τ)) : List UInt64 :=
  history.filterMap fun e => e.answer.issued?

/-- How many objects have been added. -/
def pins (history : List (PinEvent α τ)) : Nat := history.countP fun e => e.call.isPin

/-- How many objects have been taken away. -/
def releases (history : List (PinEvent α τ)) : Nat := history.countP fun e => e.answer.isReleased

/-- A handle was issued for an object, and nobody has given it up since. -/
def Live (history : List (PinEvent α τ)) (handle : UInt64) (object : α) : Prop :=
  ∃ before after, history = before ++ ⟨.pin object, .issued handle⟩ :: after ∧
    ∀ e ∈ after, e.call ≠ .release handle

/-- The answer of an event is the one that the history before it asks for. -/
def Explains (typeOf : α → τ) (before : List (PinEvent α τ)) : PinEvent α τ → Prop
  | ⟨.pin _, .issued handle⟩ => handle ≠ 0 ∧ handle ∉ issued before
  | ⟨.resolve type handle, .found found⟩ =>
    ∀ object, found = some object ↔ Live before handle object ∧ typeOf object = type
  | ⟨.release handle, .released object⟩ => Live before handle object
  | ⟨.release handle, .refused cause⟩ =>
    cause = .invalidPin handle ∧ ∀ object, ¬ Live before handle object
  | ⟨.size, .count n⟩ => n + releases before = pins before
  | _ => False

/-- Handles are issued one after the other. -/
@[simp] theorem issued_append (before after : List (PinEvent α τ)) :
    issued (before ++ after) = issued before ++ issued after := List.filterMap_append ..

@[simp] theorem pins_append (before after : List (PinEvent α τ)) :
    pins (before ++ after) = pins before + pins after := List.countP_append ..

@[simp] theorem releases_append (before after : List (PinEvent α τ)) :
    releases (before ++ after) = releases before + releases after := List.countP_append ..

/-- What one more event does to the live handles. -/
theorem live_append_singleton {history : List (PinEvent α τ)} {event : PinEvent α τ}
    {handle : UInt64} {object : α} :
    Live (history ++ [event]) handle object ↔
      event = ⟨.pin object, .issued handle⟩ ∨
        Live history handle object ∧ event.call ≠ .release handle := by
  constructor
  · rintro ⟨before, after, h, hkept⟩
    -- the event is the one that issues the handle, or it comes after that one
    rcases List.eq_nil_or_concat after with rfl | ⟨middle, last, rfl⟩
    · exact Or.inl (List.append_inj_right' h rfl |> List.singleton_inj.mp)
    · rw [List.concat_eq_append, ← List.cons_append, ← List.append_assoc] at h
      obtain ⟨hhistory, hlast⟩ := List.append_inj' h rfl
      rw [List.singleton_inj] at hlast
      subst hlast
      refine Or.inr ⟨⟨before, middle, hhistory, fun e he => hkept e ?_⟩, hkept event ?_⟩
      · simp [he]
      · simp
  · rintro (rfl | ⟨⟨before, after, rfl, hkept⟩, hevent⟩)
    · exact ⟨history, [], rfl, by simp⟩
    · refine ⟨before, after ++ [event], by simp, ?_⟩
      simpa [or_imp, forall_and] using ⟨hkept, hevent⟩

/-- A handle that is live was issued. -/
theorem Live.mem_issued {history : List (PinEvent α τ)} {handle : UInt64} {object : α}
    (h : Live history handle object) : handle ∈ issued history := by
  obtain ⟨before, after, rfl, -⟩ := h
  simp [issued, PinAnswer.issued?]

end PinHistory

/-! ## Tables -/

namespace PinTable

open PinHistory

/-- Make one call: the answer, and the table after it. -/
def perform [DecidableEq τ] (typeOf : α → τ) (t : PinTable α) :
    PinCall α τ → Option (PinAnswer α × PinTable α)
  | .pin object => (t.pin object).map fun (handle, t) => (.issued handle, t)
  | .resolve type handle => some (.found (t.resolveTyped? typeOf type handle), t)
  | .release handle =>
    match t.release handle with
    | .ok (object, t) => some (.released object, t)
    | .error cause => some (.refused cause, t)
  | .size => some (.count t.size, t)

/-- Make calls one after the other: what happened, and the table after it. -/
def run [DecidableEq τ] (typeOf : α → τ) (t : PinTable α) :
    List (PinCall α τ) → Option (List (PinEvent α τ) × PinTable α)
  | [] => some ([], t)
  | call :: calls => do
    let (answer, t) ← t.perform typeOf call
    let (events, t) ← t.run typeOf calls
    return (⟨call, answer⟩ :: events, t)

/-- A table is in the state that a history leaves behind. -/
structure Follows (t : PinTable α) (history : List (PinEvent α τ)) : Prop where
  /-- The counter has passed over the handles issued, and over zero. -/
  next : t.next.toNat = pins history + 1
  /-- The handles are the successive numbers from one on. -/
  issued : (PinHistory.issued history).map UInt64.toNat = List.range' 1 (pins history)
  /-- The table has the live handles and no others. -/
  live : ∀ handle object, t.live.get? handle = some object ↔ Live history handle object
  /-- The objects that have not been taken away are there. -/
  size : t.live.size + releases history = pins history

variable {t : PinTable α} {history : List (PinEvent α τ)}

/-- If the next handle is free, it is taken. -/
theorem freeHandle?_eq_next (h : t.isFree t.next = true) : t.freeHandle? = some t.next := by
  have hfirst : t.next + UInt64.ofNat 0 = t.next := UInt64.add_zero _
  rw [freeHandle?, candidates, List.range_succ_eq_map, List.map_cons, hfirst]
  exact List.find?_cons_of_pos h

/-- An object is pinned under the next handle if that is free. -/
theorem pin_eq_some (h : t.isFree t.next = true) (object : α) :
    t.pin object = some (t.next, ⟨t.next + 1, t.live.insert t.next object⟩) := by
  rw [pin, freeHandle?_eq_next h]
  rfl

/-- An object is released just if it is found under the handle. -/
theorem release_eq_ok_iff {handle : UInt64} {object : α} {rest : PinTable α} :
    t.release handle = .ok (object, rest) ↔
      t.live.get? handle = some object ∧ rest = { t with live := t.live.erase handle } := by
  rw [release_eq]
  cases t.live.get? handle with
  | none => simp
  | some found =>
    simp only [Except.ok.injEq, Prod.mk.injEq, Option.some.injEq]
    exact and_congr_right fun _ => eq_comm

/-- A handle under which there is nothing is refused. -/
theorem release_eq_error {handle : UInt64} (h : t.live.get? handle = none) :
    t.release handle = .error (.invalidPin handle) := by
  rw [release_eq, h]

/-- An object is resolved just if it is there and of the type. -/
theorem resolveTyped?_eq_some_iff [DecidableEq τ] {typeOf : α → τ} {type : τ} {handle : UInt64}
    {object : α} : t.resolveTyped? typeOf type handle = some object ↔
      t.live.get? handle = some object ∧ typeOf object = type := by
  simp [resolveTyped?, resolve?, Option.filter_eq_some_iff]

namespace Follows

/-- The handles lie between zero and the counter. -/
theorem toNat_bounds (h : t.Follows history) {handle : UInt64}
    (hissued : handle ∈ PinHistory.issued history) :
    0 < handle.toNat ∧ handle.toNat < t.next.toNat := by
  have hrange := List.mem_map_of_mem (f := UInt64.toNat) hissued
  rw [h.issued, List.mem_range'_1] at hrange
  rw [h.next]
  omega

/-- The next handle has not been issued. -/
theorem next_notMem_issued (h : t.Follows history) : t.next ∉ PinHistory.issued history :=
  fun hissued => Nat.lt_irrefl _ (h.toNat_bounds hissued).2

/-- The next handle is not in use. -/
theorem not_live_next (h : t.Follows history) (object : α) : ¬ Live history t.next object :=
  fun hlive => h.next_notMem_issued hlive.mem_issued

/-- There is nothing under a handle just if no object is live under it. -/
theorem get?_eq_none_iff (h : t.Follows history) (handle : UInt64) :
    t.live.get? handle = none ↔ ∀ object, ¬ Live history handle object := by
  rw [Option.eq_none_iff_forall_ne_some]
  exact forall_congr' fun object => not_congr (h.live handle object)

/-- The counter does not come to zero. -/
theorem next_ne_zero (h : t.Follows history) : t.next ≠ 0 := by
  intro hzero
  have hnext := h.next
  rw [hzero] at hnext
  exact Nat.succ_ne_zero _ hnext.symm

/-- The counter can become a handle as it is, so that no other word is looked at. -/
theorem isFree_next (h : t.Follows history) : t.isFree t.next = true := by
  have hnone : t.live.get? t.next = none := (h.get?_eq_none_iff _).mpr h.not_live_next
  simp [isFree, h.next_ne_zero, Table.contains_iff, hnone]

/-! One lemma for each way in which a call may change the table. -/

/-- A new object is live under its handle. -/
theorem pin (h : t.Follows history) (few : pins history + 1 < 2 ^ 64 - 1) (object : α) :
    Follows ⟨t.next + 1, t.live.insert t.next object⟩
      (history ++ [(⟨.pin object, .issued t.next⟩ : PinEvent α τ)]) := by
  constructor
  · -- there are few enough handles that the counter does not go round
    have := h.next
    rw [UInt64.toNat_add, pins_append]
    change _ = pins history + 1 + 1
    simp only [UInt64.reduceToNat]
    omega
  · rw [issued_append, pins_append, List.map_append, h.issued]
    change _ ++ [t.next.toNat] = List.range' 1 (pins history + 1)
    rw [h.next, List.range'_concat, Nat.one_mul, Nat.add_comm 1]
  · intro handle other
    rw [Table.get?_insert, live_append_singleton]
    by_cases heq : t.next = handle
    · -- what was issued for the counter before would have to be live still
      subst heq
      simp [h.not_live_next]
    · simp [h.live, heq]
  · -- the new entry takes the place of none
    rw [Table.size_insert ((h.get?_eq_none_iff _).mpr h.not_live_next), releases_append, pins_append]
    have := h.size
    change t.live.size + 1 + releases history = pins history + 1
    omega

/-- A handle that is released is not live any more. -/
theorem release (h : t.Follows history) {handle : UInt64} {object : α}
    (hfound : t.live.get? handle = some object) :
    Follows { t with live := t.live.erase handle }
      (history ++ [(⟨.release handle, .released object⟩ : PinEvent α τ)]) := by
  have hpins : pins (history ++ [(⟨.release handle, .released object⟩ : PinEvent α τ)]) =
      pins history := pins_append ..
  constructor
  · rw [hpins]
    exact h.next
  · rw [hpins, ← h.issued, issued_append]
    exact congrArg _ (List.append_nil _)
  · intro other found
    rw [Table.get?_erase, live_append_singleton]
    by_cases heq : handle = other
    · simp [heq]
    · simp [heq, h.live]
  · rw [hpins, ← h.size, ← Table.size_erase hfound, releases_append]
    change (t.live.erase handle).size + (releases history + 1) = _
    omega

/-- What neither pins nor releases anything leaves what is live. -/
theorem append (h : t.Follows history) {event : PinEvent α τ} (hpin : event.call.isPin = false)
    (hissued : event.answer.issued? = none) (hreleased : event.answer.isReleased = false)
    (hlive : ∀ handle object, Live history handle object → event.call ≠ .release handle) :
    t.Follows (history ++ [event]) := by
  have hpins : pins (history ++ [event]) = pins history := by simp [pins, hpin]
  constructor
  · rw [hpins, h.next]
  · rw [hpins, ← h.issued]
    simp [PinHistory.issued, hissued]
  · intro handle object
    rw [h.live, live_append_singleton]
    constructor
    · intro hl
      exact Or.inr ⟨hl, hlive handle object hl⟩
    · rintro (rfl | ⟨hl, -⟩)
      · cases hpin
      · exact hl
  · rw [hpins, ← h.size]
    simp [releases, hreleased]

/-- Every call is answered, the history before it explains the answer, and the table goes on to follow
the history. -/
theorem perform [DecidableEq τ] (typeOf : α → τ) (h : t.Follows history) (call : PinCall α τ)
    (few : pins history + (if call.isPin then 1 else 0) < 2 ^ 64 - 1) :
    ∃ answer rest, t.perform typeOf call = some (answer, rest) ∧
      Explains typeOf history ⟨call, answer⟩ ∧ rest.Follows (history ++ [⟨call, answer⟩]) := by
  cases call with
  | pin object =>
    refine ⟨.issued t.next, _, ?_, ⟨h.next_ne_zero, h.next_notMem_issued⟩, h.pin few object⟩
    rw [PinTable.perform, pin_eq_some h.isFree_next]
    rfl
  | resolve type handle =>
    refine ⟨_, t, rfl, fun object => ?_, h.append rfl rfl rfl fun _ _ _ => nofun⟩
    rw [resolveTyped?_eq_some_iff, h.live]
  | release handle =>
    -- the table knows the handle or does not, and so does the history
    rcases hfound : t.live.get? handle with _ | object
    · have hdead := (h.get?_eq_none_iff handle).mp hfound
      refine ⟨.refused (.invalidPin handle), t, ?_, ⟨rfl, hdead⟩, h.append rfl rfl rfl ?_⟩
      · rw [PinTable.perform, release_eq_error hfound]
      · rintro other object hlive heq
        cases heq
        exact hdead object hlive
    · refine ⟨.released object, _, ?_, (h.live _ _).mp hfound, h.release hfound⟩
      rw [PinTable.perform, release_eq_ok_iff.mpr ⟨hfound, rfl⟩]
  | size => exact ⟨_, t, rfl, h.size, h.append rfl rfl rfl fun _ _ _ => nofun⟩

/-- Every list of calls is answered, and the history before each call explains its answer. -/
theorem run [DecidableEq τ] (typeOf : α → τ) (h : t.Follows history) (calls : List (PinCall α τ))
    (few : pins history + calls.countP PinCall.isPin < 2 ^ 64 - 1) :
    ∃ events rest, t.run typeOf calls = some (events, rest) ∧ events.map PinEvent.call = calls ∧
      rest.Follows (history ++ events) ∧ ∀ before event after, events = before ++ event :: after →
        Explains typeOf (history ++ before) event := by
  induction calls generalizing t history with
  | nil => exact ⟨[], t, rfl, rfl, by rwa [List.append_nil], fun before _ _ => by simp⟩
  | cons call calls ih =>
    rw [List.countP_cons] at few
    obtain ⟨answer, next, hperform, hexplains, hnext⟩ := h.perform typeOf call (by omega)
    have hpins : pins (history ++ [(⟨call, answer⟩ : PinEvent α τ)]) =
        pins history + if call.isPin then 1 else 0 := by simp [pins, List.countP_cons]
    obtain ⟨events, rest, hrun, hcalls, hrest, hevents⟩ := ih hnext (by omega)
    refine ⟨⟨call, answer⟩ :: events, rest, ?_, ?_, ?_, ?_⟩
    · simp only [PinTable.run, hperform, hrun, Option.bind_eq_bind, Option.bind_some, pure]
    · rw [List.map_cons, hcalls]
    · rwa [List.append_cons]
    · -- the call has nothing new before it, and all later ones have it before them
      rintro (_ | ⟨first, before⟩) event after hsplit
      · obtain ⟨rfl, -⟩ := List.cons.inj hsplit
        rwa [List.append_nil]
      · obtain ⟨rfl, hrest⟩ := List.cons.inj hsplit
        rw [List.append_cons]
        exact hevents before event after hrest

end Follows

end PinTable

end RawMemory
