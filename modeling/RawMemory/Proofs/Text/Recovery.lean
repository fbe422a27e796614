import Mathlib
import RawMemory.Proofs.Text.Decoding
import RawMemory.Proofs.Text.Utf8.Subpart
import RawMemory.Text.Drive

/-!
# Going on behind what cannot be coded

A caller may put a mark for what cannot be coded, pass over as many items as the coder names, and go on
with the next call (`Coder.Recovers`). That this comes to an end rests on the lengths: each is at least
one and at most what is left (`Coder.Measured`, `Charset.decoder_measured`, `Charset.encoder_measured`).

The cuts between the calls do not show: what a drive has written when it ends comes of one step after the
other, whatever room its calls had (`Coder.replaced`, `Coder.Measured.recovery`). With `U+FFFD` for the mark,
the decoder of UTF-8 so gives the standard text of any bytes (`Decoder.exists_lossy`), and that of UTF-16
the text in which unpaired surrogates are replaced (`Decoder.replaced_utf16`).
-/

namespace RawMemory

/-- How many items a result says cannot be coded. -/
def CoderResult.length? : CoderResult → Option Nat
  | .malformed length | .unmappable length => some length
  | .underflow | .overflow => none

/-- What is neither a flaw nor lack of room is the end of the input. -/
theorem CoderResult.eq_underflow {result : CoderResult} (hlength : result.length? = none)
    (hne : result ≠ .overflow) : result = .underflow := by
  cases result with
  | underflow => rfl
  | overflow => exact absurd rfl hne
  | malformed length => cases hlength
  | unmappable length => cases hlength

/-- A flaw is no lack of room. -/
theorem CoderResult.ne_overflow {result : CoderResult} {n : Nat} (hn : result.length? = some n) :
    result ≠ .overflow := by
  rintro rfl
  cases hn

namespace Coder

variable {α β : Type}

/-! ## Drives that pass over what cannot be coded -/

/-- A drive over the rest of an input that ends where the input does, and what it writes. A call has the
room that belongs to the position of its cursor. -/
inductive Recovers (coder : Coder α β) (mark : List β) (room : Nat → Nat) :
    Cursor α → List β → Prop
  /-- All that is left is coded. -/
  | done {input after : Cursor α} {out : List β}
      (h : coder.answer input (.code (room input.position) true) =
        some (⟨.underflow, out⟩, after)) : Recovers coder mark room input out
  /-- The mark is put for the items that cannot be coded, and the next call is behind them. -/
  | skip {input after : Cursor α} {result : CoderResult} {out later : List β} {n : Nat}
      (h : coder.answer input (.code (room input.position) true) = some (⟨result, out⟩, after))
      (hn : result.length? = some n) (hlater : Recovers coder mark room (after.advance n) later) :
      Recovers coder mark room input (out ++ mark ++ later)

/-- Every call has room for `k` items for each item that its cursor has in front of it. -/
def Ample (k : Nat) (items : List α) (room : Nat → Nat) : Prop :=
  ∀ position, k * (items.length - position) ≤ room position

/-- What comes of driving a coder over an input: whatever drive ends has written it, and every drive ends
that has ample room. -/
structure Recovery (coder : Coder α β) (mark : List β) (k : Nat) (items : List α) (out : List β) :
    Prop where
  sound {room : Nat → Nat} {other : List β}
    (h : coder.Recovers mark room (.ofList items) other) : other = out
  ends {room : Nat → Nat} (h : Ample k items room) : coder.Recovers mark room (.ofList items) out

/-- The lengths that a coder names lie within what is left behind the call. -/
def NamesWhatIsLeft (coder : Coder α β) : Prop :=
  ∀ (input : Cursor α) (call : CoderCall) (answer : CoderAnswer β) (after : Cursor α) (n : Nat),
    coder.answer input call = some (answer, after) → answer.result.length? = some n →
      1 ≤ n ∧ n ≤ after.remaining

/-- A call that has not run out of room has done all that can be done. -/
theorem code_of_answer {coder : Coder α β} {input after : Cursor α} {room : Nat} {atEnd : Bool}
    {answer : CoderAnswer β} (h : coder.answer input (.code room atEnd) = some (answer, after))
    (hne : answer.result ≠ .overflow) :
    answer = ⟨(coder.code atEnd input.rest).result, (coder.code atEnd input.rest).output⟩ ∧
      after = input.advance (coder.code atEnd input.rest).consumed := by
  obtain ⟨rfl, rfl⟩ := Prod.mk.inj (Option.some.inj h)
  rw [coder.run_eq_code atEnd room input.rest hne]
  exact ⟨rfl, rfl⟩

/-! ## What is written, step by step -/

/-- What one step after the other writes when the mark is put in front of each obstacle. -/
def replaced (coder : Coder α β) (mark : List β) : List α → List β
  | [] => []
  | first :: rest =>
    match coder.step true first rest with
    | .emit items extra => items ++ coder.replaced mark (rest.drop extra)
    | .stop obstacle =>
      match obstacle.result.length? with
      | some n => mark ++ coder.replaced mark (rest.drop (n - 1))
      | none => []
termination_by input => input.length
decreasing_by all_goals simp only [List.length_drop, List.length_cons]; omega

/-- What a step writes is kept. -/
theorem replaced_of_emit {coder : Coder α β} {first : α} {rest : List α} {items : List β}
    {extra : Nat} (h : coder.step true first rest = .emit items extra) (mark : List β) :
    coder.replaced mark (first :: rest) = items ++ coder.replaced mark (rest.drop extra) := by
  rw [replaced, h]

/-- Where a step stops at a flaw, the mark is written instead. -/
theorem replaced_of_stop {coder : Coder α β} {first : α} {rest : List α} {obstacle : Obstacle}
    {n : Nat} (h : coder.step true first rest = .stop obstacle)
    (hn : obstacle.result.length? = some n) (mark : List β) :
    coder.replaced mark (first :: rest) = mark ++ coder.replaced mark (rest.drop (n - 1)) := by
  rw [replaced, h]
  simp only [hn]

/-- The steps of a coder stay within the input: what is taken or named in one is left, and at most `k`
items are written for each that is taken. -/
structure Measured (coder : Coder α β) (k : Nat) : Prop where
  emit {atEnd : Bool} {first : α} {rest : List α} {items : List β} {extra : Nat}
    (h : coder.step atEnd first rest = .emit items extra) :
    extra ≤ rest.length ∧ items.length ≤ k * (extra + 1)
  stop {atEnd : Bool} {first : α} {rest : List α} {obstacle : Obstacle} {n : Nat}
    (h : coder.step atEnd first rest = .stop obstacle) (hn : obstacle.result.length? = some n) :
    1 ≤ n ∧ n ≤ rest.length + 1

namespace Measured

variable {coder : Coder α β} {k : Nat}

/-- A call takes no more than there is, and writes `k` items at most for each that it takes. -/
theorem code_le (h : coder.Measured k) (atEnd : Bool) (input : List α) :
    (coder.code atEnd input).consumed ≤ input.length ∧
      (coder.code atEnd input).output.length ≤ k * (coder.code atEnd input).consumed := by
  fun_induction coder.code atEnd input with
  | case1 => exact ⟨le_rfl, le_rfl⟩
  | case2 first rest obstacle hstep => exact ⟨Nat.zero_le _, le_rfl⟩
  | case3 first rest items extra hstep ih =>
    obtain ⟨hextra, hitems⟩ := h.emit hstep
    obtain ⟨hconsumed, houtput⟩ := ih
    rw [List.length_drop] at hconsumed
    simp only [Progress.followedBy, emitted, List.length_append, List.length_cons, Nat.mul_add]
    rw [Nat.mul_add] at hitems
    constructor
    · omega
    · omega

/-- The items that a call names lie behind those that it takes. -/
theorem code_length? (h : coder.Measured k) {atEnd : Bool} {input : List α} {n : Nat}
    (hn : (coder.code atEnd input).result.length? = some n) :
    1 ≤ n ∧ (coder.code atEnd input).consumed + n ≤ input.length := by
  fun_induction coder.code atEnd input with
  | case1 => cases hn
  | case2 first rest obstacle hstep =>
    obtain ⟨hpos, hle⟩ := h.stop hstep hn
    exact ⟨hpos, by simpa using hle⟩
  | case3 first rest items extra hstep ih =>
    obtain ⟨hextra, -⟩ := h.emit hstep
    obtain ⟨hpos, hle⟩ := ih hn
    rw [List.length_drop] at hle
    simp only [Progress.followedBy, emitted, List.length_cons]
    exact ⟨hpos, by omega⟩

/-- A coder that is measured says how much is left at the end. -/
theorem namesWhatIsLeft (h : coder.Measured k) : coder.NamesWhatIsLeft := by
  intro input call answer after n hanswer hn
  cases call with
  | code room atEnd =>
    -- the other calls name no length
    obtain ⟨rfl, rfl⟩ := code_of_answer hanswer (CoderResult.ne_overflow hn)
    obtain ⟨hpos, hle⟩ := h.code_length? hn
    refine ⟨hpos, ?_⟩
    rw [← Cursor.length_rest, Cursor.rest_advance, List.length_drop]
    omega
  | flush room =>
    cases hanswer
    cases hn
  | reset =>
    cases hanswer
    cases hn
  | advance count =>
    obtain ⟨moved, -, hmoved⟩ := Option.map_eq_some_iff.mp hanswer
    cases hmoved
    cases hn

/-- A call does many steps at once, and the obstacle in front of which it stops is passed over next. -/
theorem replaced_eq (h : coder.Measured k) (mark : List β) (input : List α) :
    coder.replaced mark input = (coder.code true input).output ++
      match (coder.code true input).result.length? with
      | some n => mark ++ coder.replaced mark (input.drop ((coder.code true input).consumed + n))
      | none => [] := by
  fun_induction coder.code true input with
  | case1 => rw [replaced]; rfl
  | case2 first rest obstacle hstep =>
    rw [replaced, hstep]
    dsimp only
    split
    · next n hn =>
      obtain ⟨m, rfl⟩ : ∃ m, n = m + 1 := Nat.exists_eq_add_of_le' (h.stop hstep hn).1
      rw [Nat.add_sub_cancel, Nat.zero_add, List.drop_succ_cons, List.nil_append]
    · rfl
  | case3 first rest items extra hstep ih =>
    -- the call goes on behind the step, so what it names lies that much farther on
    rw [replaced_of_emit hstep, ih]
    simp only [Progress.followedBy, emitted, List.append_assoc, List.drop_drop]
    congr 2
    split
    · next n hn =>
      rw [show extra + 1 + (coder.code true (rest.drop extra)).consumed + n =
        extra + ((coder.code true (rest.drop extra)).consumed + n) + 1 by omega,
        List.drop_succ_cons]
    · rfl

/-- What a drive has written when it ends is what the steps write one after the other. -/
theorem eq_replaced (h : coder.Measured k) {mark : List β} {room : Nat → Nat} {input : Cursor α}
    {out : List β} (hout : coder.Recovers mark room input out) :
    out = coder.replaced mark input.rest := by
  induction hout with
  | @done input after out hanswer =>
    obtain ⟨hcode, -⟩ := code_of_answer hanswer CoderResult.noConfusion
    obtain ⟨hresult, rfl⟩ := CoderAnswer.mk.inj hcode
    rw [h.replaced_eq, ← hresult]
    exact (List.append_nil _).symm
  | @skip input after result out later n hanswer hn hlater ih =>
    obtain ⟨hcode, rfl⟩ := code_of_answer hanswer (CoderResult.ne_overflow hn)
    obtain ⟨rfl, rfl⟩ := CoderAnswer.mk.inj hcode
    -- the next call is behind what is taken and what is named
    rw [Cursor.rest_advance, Cursor.rest_advance, List.drop_drop] at ih
    rw [h.replaced_eq, hn, ih, List.append_assoc]

/-- A drive with ample room ends. -/
theorem exists_recovers (h : coder.Measured k) (mark : List β) {room : Nat → Nat} (input : Cursor α)
    (hroom : Ample k input.items room) : ∃ out, coder.Recovers mark room input out := by
  -- by induction on what is left, which becomes less with every call
  induction hremaining : input.remaining using Nat.strongRecOn generalizing input with
  | ind remaining ih =>
    have hle := h.code_le true input.rest
    rw [Cursor.length_rest] at hle
    have hrun : coder.run true (room input.position) input.rest = coder.code true input.rest := by
      refine coder.run_eq_code_of_le true input.rest (hle.2.trans ?_)
      exact (Nat.mul_le_mul_left k hle.1).trans (hroom input.position)
    have hanswer : coder.answer input (.code (room input.position) true) =
        some (⟨(coder.code true input.rest).result, (coder.code true input.rest).output⟩,
          input.advance (coder.code true input.rest).consumed) := by
      rw [← hrun]
      rfl
    cases hlength : (coder.code true input.rest).result.length? with
    | none =>
      rw [CoderResult.eq_underflow hlength (coder.code_result_ne_overflow true input.rest)] at hanswer
      exact ⟨_, .done hanswer⟩
    | some n =>
      -- what is named is not left for the next call
      obtain ⟨hpos, hnamed⟩ := h.code_length? hlength
      set next := (input.advance (coder.code true input.rest).consumed).advance n with hnext
      have hless : next.remaining < remaining := by
        rw [hnext, ← Cursor.length_rest, Cursor.rest_advance, Cursor.rest_advance, List.length_drop,
          List.length_drop]
        rw [Cursor.length_rest] at hnamed ⊢
        omega
      obtain ⟨later, hlater⟩ := ih _ hless next hroom rfl
      exact ⟨_, .skip hanswer hlength hlater⟩

/-- What is written with marks has all that a caller may rely on. -/
theorem recovery (h : coder.Measured k) (mark : List β) (items : List α) :
    coder.Recovery mark k items (coder.replaced mark items) where
  sound hother := h.eq_replaced hother
  ends hroom := by
    obtain ⟨out, hout⟩ := h.exists_recovers mark (.ofList items) hroom
    obtain rfl := h.eq_replaced hout
    exact hout

end Measured

end Coder

/-! ## The lengths that the coders name -/

/-- A step that rewrites a character takes what spells it. -/
theorem Coder.Rewrites.emit_le {α β : Type} {coder : Coder α β} {source : Spelling α}
    {target : Spelling β} (h : coder.Rewrites source target) {k : Nat}
    (hk : ∀ c items out, source c = some items → target c = some out →
      out.length ≤ k * items.length)
    {atEnd : Bool} {first : α} {rest : List α} {out : List β} {extra : Nat}
    (hstep : coder.step atEnd first rest = .emit out extra) :
    extra ≤ rest.length ∧ out.length ≤ k * (extra + 1) := by
  obtain ⟨c, behind, tail, hs, ht, rfl, rfl⟩ := h.emit_iff.mp hstep
  refine ⟨by simp, ?_⟩
  simpa using hk c _ _ hs ht

namespace Decoder

/-- Input that is cut off is named as a whole, if it is named. -/
theorem eq_of_cutOff {atEnd : Bool} {length n : Nat} {obstacle : Obstacle}
    (h : cutOff atEnd length = .stop obstacle) (hn : obstacle.result.length? = some n) :
    n = length := by
  obtain rfl := CoderStep.stop.inj h
  cases atEnd with
  | true => exact (Option.some.inj hn).symm
  | false => cases hn

/-- What the decoder of UTF-8 names is a maximal subpart. -/
theorem exists_maximalSubpart {atEnd : Bool} {first : UInt8} {rest : List UInt8}
    {obstacle : Obstacle} {n : Nat} (h : utf8.step atEnd first rest = .stop obstacle)
    (hn : obstacle.result.length? = some n) :
    ∃ part tail, first :: rest = part ++ tail ∧ n = part.length ∧
      Utf8.MaximalSubpart part tail := by
  rcases utf8_stop_cases h with ⟨hhead, hend⟩ | ⟨length, hhead, rfl, -⟩
  · exact ⟨first :: rest, [], (List.append_nil _).symm, eq_of_cutOff hend hn,
      Utf8.maximalSubpart_of_head_eq_incomplete hhead⟩
  · obtain rfl := Option.some.inj hn
    exact Utf8.maximalSubpart_of_head_eq_malformed hhead

/-- The decoder of UTF-16 names the unit in front, or all that is left where the input ends. -/
theorem utf16_stop_le {order : ByteOrder} {atEnd : Bool} {first : UInt8} {rest : List UInt8}
    {obstacle : Obstacle} {n : Nat} (h : (utf16 order).step atEnd first rest = .stop obstacle)
    (hn : obstacle.result.length? = some n) : 1 ≤ n ∧ n ≤ rest.length + 1 := by
  rcases utf16_stop_cases h with ⟨-, hend⟩ | ⟨rfl, hne, -⟩
  · rw [eq_of_cutOff hend hn]
    omega
  · have hpos := List.length_pos_iff.mpr hne
    obtain rfl := Option.some.inj hn
    omega

end Decoder

namespace Charset

/-- The steps of a decoder stay within the bytes, and write no more units than they take bytes. -/
theorem decoder_measured (charset : Charset) : charset.decoder.Measured 1 where
  emit h := by
    refine charset.decoder_rewrites.emit_le (fun c bytes units hs ht => ?_) h
    obtain rfl := Option.some.inj ht
    rw [Nat.one_mul]
    exact length_ofChar_le hs
  stop {atEnd first rest obstacle n} h hn := by
    cases charset with
    | usAscii =>
      simp only [decoder, Decoder.ascii] at h
      split at h
      · cases h
      · cases h
        obtain rfl := Option.some.inj hn
        omega
    | latin1 => cases h
    | utf8 =>
      -- a maximal subpart is not empty, and stands in front of what is left
      obtain ⟨part, tail, hinput, rfl, hpart⟩ := Decoder.exists_maximalSubpart h hn
      refine ⟨List.length_pos_iff.mpr hpart.ne_nil, ?_⟩
      rw [← List.length_cons, hinput]
      exact (List.prefix_append part tail).length_le
    | utf16le => exact Decoder.utf16_stop_le h hn
    | utf16be => exact Decoder.utf16_stop_le h hn

/-- The steps of an encoder stay within the units, and write four bytes at most for each. -/
theorem encoder_measured (charset : Charset) : charset.encoder.Measured 4 where
  emit h := by
    refine charset.encoder_rewrites.emit_le (fun c units bytes hs ht => ?_) h
    obtain rfl := Option.some.inj hs
    -- no spelling has more than four bytes
    have hbytes := length_spelling_le ht
    have hunits := Utf16.length_ofChar_pos c
    omega
  stop {atEnd first rest obstacle n} h hn := by
    rw [charset.encoder_step] at h
    cases hhead : Utf16.head atEnd first rest with
    | char c extra =>
      obtain ⟨units, tail, -, rfl, rfl⟩ := Utf16.head_eq_char_iff.mp hhead
      rw [hhead] at h
      dsimp only at h
      split at h
      · cases h
      · -- the units of a character that the charset lacks
        cases h
        obtain rfl := Option.some.inj hn
        rw [List.length_append]
        omega
    | incomplete =>
      rw [hhead] at h
      cases h
      cases hn
    | malformed =>
      rw [hhead] at h
      cases h
      obtain rfl := Option.some.inj hn
      omega

end Charset

/-! ## Decoding with replacements -/

namespace Decoder

/-- The decoder of UTF-8 puts one mark for each maximal subpart. -/
theorem exists_lossy (bytes : List UInt8) :
    ∃ text, Utf8.Lossy bytes text ∧
      utf8.replaced [0xFFFD] bytes = text.flatMap Utf16.ofChar := by
  fun_induction Coder.replaced utf8 [0xFFFD] bytes with
  | case1 => exact ⟨[], .nil, rfl⟩
  | case2 first rest units extra hstep ih =>
    obtain ⟨c, behind, tail, hc, hunits, rfl, rfl⟩ := utf8_emit_iff.mp hstep
    rw [List.drop_left] at ih
    obtain ⟨text, htext, hreplaced⟩ := ih
    obtain rfl := Option.some.inj hunits
    refine ⟨c :: text, ?_, ?_⟩
    · rw [← List.cons_append, ← Option.some.inj hc]
      exact .char c htext
    · rw [List.drop_left, hreplaced, List.flatMap_cons]
  | case3 first rest obstacle hstep n hn ih =>
    obtain ⟨part, tail, hinput, rfl, hpart⟩ := exists_maximalSubpart hstep hn
    rcases part with _ | ⟨b, behind⟩
    · exact absurd rfl hpart.ne_nil
    · rw [List.cons_append] at hinput
      obtain ⟨rfl, rfl⟩ := List.cons.inj hinput
      rw [List.length_cons, Nat.add_sub_cancel, List.drop_left] at ih ⊢
      obtain ⟨text, htext, hreplaced⟩ := ih
      refine ⟨'\uFFFD' :: text, .subpart hpart htext, ?_⟩
      rw [hreplaced, List.flatMap_cons]
      rfl
  | case4 first rest obstacle hstep hn =>
    -- at the end of the input the decoder waits for nothing
    obtain ⟨n, rfl⟩ := @Charset.exists_malformed_of_stop .utf8 _ _ _ hstep
    cases hn

/-- In front of a surrogate without a partner the decoder names its two bytes. -/
theorem utf16_step_of_malformed (order : ByteOrder) {first : UInt16} {rest : List UInt16}
    (h : Utf16.head true first rest = .malformed) :
    ∃ a b, order.bytes first = [a, b] ∧
      (utf16 order).step true a (b :: rest.flatMap order.bytes) = .stop (.malformed 2) := by
  obtain ⟨a, b, hbytes, hunit⟩ := order.exists_bytes_eq first
  refine ⟨a, b, hbytes, ?_⟩
  simp only [utf16, hunit]
  unfold Utf16.head at h
  by_cases hhigh : Utf16.isHigh first = true
  · simp only [hhigh, if_true] at h ⊢
    rcases rest with _ | ⟨low, rest⟩
    · rfl
    · -- the unit behind a high surrogate is judged by its bytes
      obtain ⟨third, fourth, hbytes', hunit'⟩ := order.exists_bytes_eq low
      have hlow : Utf16.isLow low = false := by
        by_contra hlow
        simp [hlow] at h
      simp [hbytes', hunit', hlow]
  · have hlow : Utf16.isLow first = true := by
      by_contra hlow
      simp [hhigh, hlow] at h
    simp only [hhigh, hlow, Bool.false_eq_true, if_false, if_true]

/-- The decoder of UTF-16 puts one mark for each unpaired surrogate. -/
theorem replaced_utf16 (order : ByteOrder) (units : List UInt16) :
    (utf16 order).replaced [0xFFFD] (units.flatMap order.bytes) =
      (Utf16.decodeLossy units).flatMap Utf16.ofChar := by
  induction units using Utf16.decodeLossy.induct with
  | case1 => rw [List.flatMap_nil, Coder.replaced, Utf16.decodeLossy]; rfl
  | case2 first rest c n hhead ih =>
    -- the decoder finds the character as well
    obtain ⟨extra, tail, hc, rfl, rfl⟩ := Utf16.head_eq_char_iff.mp hhead
    rw [List.drop_left] at ih
    rw [← List.cons_append, ← hc, Utf16.decodeLossy_ofChar_append, List.flatMap_append,
      List.flatMap_cons, ← ih]
    cases hbytes : (Utf16.ofChar c).flatMap order.bytes with
    | nil =>
      have hlength := order.length_flatMap_bytes (Utf16.ofChar c)
      have hpos := Utf16.length_ofChar_pos c
      rw [hbytes, List.length_nil] at hlength
      omega
    | cons b behind =>
      rw [List.cons_append,
        Coder.replaced_of_emit ((utf16_emit_iff order).mpr ⟨c, behind, _, hbytes, rfl, rfl, rfl⟩),
        List.drop_left]
  | case3 first rest hhead ih => exact absurd hhead (Utf16.head_true_ne_incomplete first rest)
  | case4 first rest hhead ih =>
    obtain ⟨a, b, hbytes, hstep⟩ := utf16_step_of_malformed order hhead
    rw [List.flatMap_cons, hbytes, List.cons_append, List.cons_append, List.nil_append,
      Coder.replaced_of_stop hstep rfl, Utf16.decodeLossy, hhead, List.flatMap_cons, ← ih]
    rfl

end Decoder

namespace Charset

/-- Driving the coders over any input. The decoder of UTF-8 gives the standard text of the bytes, whatever
they are, and the decoder of native UTF-16 gives what `Text.decodeWide` gives, where the bytes are a whole
number of units. No call of any coder names a length of nothing, or one beyond what is left, and every
drive with ample room ends. -/
theorem coders_recover :
    (∀ bytes, ∃ text, Utf8.Lossy bytes text ∧ (∀ other, Utf8.Lossy bytes other → other = text) ∧
      utf8.decoder.Recovery [0xFFFD] 1 bytes (text.flatMap Utf16.ofChar)) ∧
    (∀ bytes, Even bytes.length →
      utf16.decoder.Recovery [0xFFFD] 1 bytes (Utf16.ofString (Text.decodeWide bytes))) ∧
    ∀ charset : Charset,
      (charset.decoder.NamesWhatIsLeft ∧ charset.encoder.NamesWhatIsLeft) ∧
      (∀ mark bytes, ∃ out, charset.decoder.Recovery mark 1 bytes out) ∧
      ∀ mark units, ∃ out, charset.encoder.Recovery mark 4 units out := by
  refine ⟨fun bytes => ?_, fun bytes heven => ?_, fun charset => ⟨?_, fun mark bytes => ?_,
    fun mark units => ?_⟩⟩
  · obtain ⟨text, htext, hreplaced⟩ := Decoder.exists_lossy bytes
    refine ⟨text, htext, fun other hother => htext.unique hother, ?_⟩
    rw [← hreplaced]
    exact utf8.decoder_measured.recovery [0xFFFD] bytes
  · -- the bytes are those of units, of which the decoder leaves none out
    have hreplaced : utf16.decoder.replaced [0xFFFD] bytes =
        Utf16.ofString (Text.decodeWide bytes) := by
      have hdecoded := Decoder.replaced_utf16 .native (Text.unitsOfBytes .native bytes)
      rw [Text.flatMap_unitsOfBytes heven] at hdecoded
      rw [Utf16.ofString, Text.decodeWide, String.toList_ofList]
      exact hdecoded
    rw [← hreplaced]
    exact utf16.decoder_measured.recovery [0xFFFD] bytes
  · exact ⟨charset.decoder_measured.namesWhatIsLeft, charset.encoder_measured.namesWhatIsLeft⟩
  · exact ⟨_, charset.decoder_measured.recovery mark bytes⟩
  · exact ⟨_, charset.encoder_measured.recovery mark units⟩

/-- Characters that break off, bytes that begin none, surrogates in the wrong order and a character that the
charset lacks: each is passed over without what follows. -/
theorem coders_recover_broken :
    (utf8.decoder.Recovers [0xFFFD] (10 - ·)
        (.ofList [0x41, 0xE2, 0x82, 0x42, 0xC0, 0xED, 0xA0, 0x80, 0xF0, 0x9F])
        [0x41, 0xFFFD, 0x42, 0xFFFD, 0xFFFD, 0xFFFD, 0xFFFD, 0xFFFD] ∧
      Utf8.Lossy [0x41, 0xE2, 0x82, 0x42, 0xC0, 0xED, 0xA0, 0x80, 0xF0, 0x9F]
        ['A', '\uFFFD', 'B', '\uFFFD', '\uFFFD', '\uFFFD', '\uFFFD', '\uFFFD']) ∧
    utf16.decoder.Recovers [0xFFFD] (fun _ => 8)
      (.ofList [0x00, 0xDC, 0x3D, 0xD8, 0x00, 0xDE, 0x00, 0xD8])
      [0xFFFD, 0xD83D, 0xDE00, 0xFFFD] ∧
    (usAscii.encoder.answer (.ofList [0x41, 0xD83D, 0xDE00]) (.code 8 false) =
        some (⟨.unmappable 2, [0x41]⟩, ⟨[0x41, 0xD83D, 0xDE00], 1⟩) ∧
      2 ≤ (⟨[0x41, 0xD83D, 0xDE00], 1⟩ : Cursor UInt16).remaining) ∧
    ∃ out, usAscii.encoder.Recovers [0x3F] (fun _ => 12) (.ofList [0x41, 0xD83D, 0xDE00]) out := by
  obtain ⟨hutf8, hutf16, hall⟩ := coders_recover
  refine ⟨?_, ?_, ?_, ?_⟩
  · obtain ⟨text, htext, -, hdrives⟩ :=
      hutf8 [0x41, 0xE2, 0x82, 0x42, 0xC0, 0xED, 0xA0, 0x80, 0xF0, 0x9F]
    have hdrive : utf8.decoder.Recovers [0xFFFD] (10 - ·) _ _ :=
      hdrives.ends fun position => (Nat.one_mul _).le
    have hunits : text.flatMap Utf16.ofChar =
        [0x41, 0xFFFD, 0x42, 0xFFFD, 0xFFFD, 0xFFFD, 0xFFFD, 0xFFFD] :=
      (utf8.decoder_measured.eq_replaced hdrive).trans (by cbv)
    -- the units are those of one text alone
    obtain rfl : text =
        ['A', '\uFFFD', 'B', '\uFFFD', '\uFFFD', '\uFFFD', '\uFFFD', '\uFFFD'] :=
      Utf16.flatMap_ofChar_injective (hunits.trans (by decide))
    rw [hunits] at hdrive
    exact ⟨hdrive, htext⟩
  · have hdrive : utf16.decoder.Recovers [0xFFFD] (fun _ => 8) _ _ :=
      (hutf16 [0x00, 0xDC, 0x3D, 0xD8, 0x00, 0xDE, 0x00, 0xD8] (by decide)).ends
        fun position => by simp
    have hunits : Utf16.ofString (Text.decodeWide [0x00, 0xDC, 0x3D, 0xD8, 0x00, 0xDE, 0x00, 0xD8]) =
        [0xFFFD, 0xD83D, 0xDE00, 0xFFFD] := by cbv
    rwa [hunits] at hdrive
  · have hanswer : usAscii.encoder.answer (.ofList [0x41, 0xD83D, 0xDE00]) (.code 8 false) =
        some (⟨.unmappable 2, [0x41]⟩, ⟨[0x41, 0xD83D, 0xDE00], 1⟩) := by cbv
    exact ⟨hanswer, ((hall usAscii).1.2 _ _ _ _ _ hanswer rfl).2⟩
  · obtain ⟨out, hdrives⟩ := (hall usAscii).2.2 [0x3F] [0x41, 0xD83D, 0xDE00]
    exact ⟨out, hdrives.ends fun position => by simp; omega⟩

end Charset

end RawMemory
