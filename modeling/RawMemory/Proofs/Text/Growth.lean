import Mathlib
import RawMemory.Proofs.Text.Decoding
import RawMemory.Proofs.Text.Estimate

/-!
# Growing outputs

Coding a whole input takes a larger output whenever a call has used one up. `Coder.exchanges` lists these
exchanges with both outputs, of which a transcript names only sizes (`Coder.growths_drain`). Since the size
nearly doubles in each, few of them are enough for all that is written (`Coder.length_exchanges_le`), and how
much that can be follows from the spellings of single characters (`Coder.Rewrites.mul_length_output_le`).

* `Text.encodeUnits_growth`: only UTF-8 takes larger outputs than the first, two at most, and no byte is lost.
* `Text.decode_within_estimate`: decoding has room for every character in its first output.
-/

namespace RawMemory

namespace Coder

variable {α β : Type} {coder : Coder α β} {input : List α}

/-! ## How much a call writes -/

/-- A call stops for want of room only where a single step would need more than there is. -/
theorem room_lt_of_overflow {atEnd : Bool} {room bound : Nat}
    (hbound : ∀ {first rest items extra}, coder.step atEnd first rest = .emit items extra →
      items.length ≤ bound)
    (h : (coder.run atEnd room input).result = .overflow) :
    room < (coder.run atEnd room input).output.length + bound := by
  fun_induction coder.code atEnd input generalizing room with
  | case1 =>
    rw [run_nil] at h
    cases h
  | case2 first rest obstacle hstep =>
    rw [run_of_stop hstep] at h
    exact absurd h (obstacle_result_ne_overflow obstacle)
  | case3 first rest items extra hstep ih =>
    by_cases hroom : items.length ≤ room
    · rw [run_of_emit_of_le hstep hroom] at h ⊢
      -- the first item has room, and it is a later one that has none
      have hlater := ih h
      simp only [Progress.followedBy, emitted, List.length_append]
      omega
    · -- there is no room for the first character
      have hitems := hbound hstep
      rw [run_of_emit hstep, if_neg hroom]
      omega

/-- Where no character is longer in the one spelling than a multiple of its length in the other, nothing is
that is rewritten. -/
theorem Rewrites.mul_length_output_le {source : Spelling α} {target : Spelling β}
    (h : coder.Rewrites source target) {a b : Nat}
    (hchar : ∀ {c items out}, source c = some items → target c = some out →
      a * out.length ≤ b * items.length) (atEnd : Bool) (input : List α) :
    a * (coder.code atEnd input).output.length ≤ b * input.length := by
  fun_induction coder.code atEnd input with
  | case1 => exact Nat.zero_le _
  | case2 first rest obstacle hstep => exact Nat.zero_le _
  | case3 first rest out n hstep ih =>
    -- the step rewrites one character, and the rest of the input lies behind its items
    obtain ⟨c, extra, tail, hs, ht, rfl, rfl⟩ := h.emit_iff.mp hstep
    have hfirst := hchar hs ht
    rw [List.drop_left] at ih ⊢
    simp only [Progress.followedBy, emitted, List.length_append, List.length_cons, Nat.mul_add] at hfirst ⊢
    omega

/-- The places that a call with room for everything passes: what is written there, and what is left. -/
inductive Passes (coder : Coder α β) (atEnd : Bool) (input : List α) : List β → List α → Prop
  | start : Passes coder atEnd input [] input
  | step {written : List β} {first : α} {rest : List α} {items : List β} {extra : Nat}
      (h : Passes coder atEnd input written (first :: rest))
      (hstep : coder.step atEnd first rest = .emit items extra) :
      Passes coder atEnd input (written ++ items) (rest.drop extra)

/-- What is written in the end is what is written anywhere and what can be written from there. -/
theorem Passes.output_eq {atEnd : Bool} {written : List β} {rest : List α}
    (h : coder.Passes atEnd input written rest) :
    (coder.code atEnd input).output = written ++ (coder.code atEnd rest).output := by
  induction h with
  | start => rfl
  | step h hstep ih =>
    rw [ih, code_of_emit hstep, List.append_assoc]
    rfl

/-- The call passes the place where it stops. -/
theorem Passes.exists_left {atEnd : Bool} {written : List β} {rest : List α}
    (h : coder.Passes atEnd input written rest) :
    ∃ left, coder.Passes atEnd input (written ++ (coder.code atEnd rest).output) left := by
  -- along the steps that the call makes from here on
  fun_induction coder.code atEnd rest generalizing written with
  | case1 =>
    rw [List.append_nil]
    exact ⟨[], h⟩
  | case2 first rest obstacle hstep =>
    rw [List.append_nil]
    exact ⟨first :: rest, h⟩
  | case3 first rest items extra hstep ih =>
    obtain ⟨left, hleft⟩ := ih (h.step hstep)
    rw [List.append_assoc] at hleft
    exact ⟨left, hleft⟩

/-- What has been written, and what the next step writes, is part of the whole output. -/
theorem Passes.length_add_le {atEnd : Bool} {written : List β} {first : α} {rest : List α}
    {items : List β} {extra : Nat} (h : coder.Passes atEnd input written (first :: rest))
    (hstep : coder.step atEnd first rest = .emit items extra) :
    written.length + items.length ≤ (coder.code atEnd input).output.length := by
  rw [(h.step hstep).output_eq, List.length_append, List.length_append]
  exact Nat.le_add_right _ _

end Coder

/-! ## Exchanges -/

/-- An output that is used up, and the one that takes its place. -/
structure Exchange (β : Type) where
  /-- The output used up, as the last call has left it. -/
  old : Output β
  /-- The output in which the next call goes on. -/
  new : Output β

namespace Exchange

variable {β : Type}

/-- The exchange of an output into which a last call has written some items. -/
def after [OfNat β 0] (output : Output β) (items : List β) : Exchange β :=
  ⟨output.write items, (output.write items).grow (2 * output.size + 1)⟩

/-- What a transcript says of an exchange. -/
def growth (e : Exchange β) : Growth := ⟨e.new.size, e.old.written⟩

variable [OfNat β 0] (output : Output β) (items : List β)

/-- An output that is full is grown as it is. -/
@[simp] theorem size_old_after : (after output items).old.size = output.size :=
  output.size_write items

/-- A new output has one place more than two of the old. -/
@[simp] theorem size_new_after : (after output items).new.size = 2 * output.size + 1 :=
  (output.write items).size_grow _

/-- What was written is kept. -/
theorem content_new_after : (after output items).new.content = (after output items).old.content := by
  apply Output.content_grow
  -- what is written fits into the old size
  have hle := (output.write items).written_le
  have hsize := output.size_write items
  rw [Output.size] at hsize
  omega

end Exchange

namespace Coder

variable {α β : Type} [OfNat β 0] {coder : Coder α β} {output : Output β} {input : List α}

/-- The exchanges made while an input is coded, the first call of which goes on in `output`. -/
def exchanges (coder : Coder α β) (output : Output β) (input : List α) : List (Exchange β) :=
  let filled := coder.fill true output input
  if filled.result = .overflow then
    let exchange : Exchange β := ⟨filled.output, filled.output.grow (2 * output.size + 1)⟩
    exchange :: coder.exchanges exchange.new (input.drop filled.consumed)
  else []
termination_by (input.length, coder.need true input - output.room)
decreasing_by exact lex_of_overflow (by assumption)

/-- An output that is too small is exchanged, and coding goes on behind what was consumed. -/
theorem exchanges_of_overflow (h : (coder.run true output.room input).result = .overflow) :
    coder.exchanges output input =
      Exchange.after output (coder.run true output.room input).output ::
        coder.exchanges (Exchange.after output (coder.run true output.room input).output).new
          (input.drop (coder.run true output.room input).consumed) := by
  rw [exchanges, fill_eq]
  exact if_pos h

/-- An output that is large enough is not exchanged. -/
theorem exchanges_of_ne_overflow (h : (coder.run true output.room input).result ≠ .overflow) :
    coder.exchanges output input = [] := by
  rw [exchanges, fill_eq]
  exact if_neg h

/-- Each exchange is reported, in order. -/
theorem growths_drainFrom (coder : Coder α β) (output : Output β) (input : List α) (consumed : Nat)
    (growths : Array Growth) :
    (coder.drainFrom output input consumed growths).growths =
      growths.toList ++ (coder.exchanges output input).map Exchange.growth := by
  fun_induction coder.drainFrom output input consumed growths with
  | case1 output input consumed growths filled h size ih =>
    -- the new output has its size as the transcript says
    have hfilled : filled = ⟨_, _, _⟩ := coder.fill_eq true output input
    have hgrowth : (Exchange.after output (coder.run true output.room input).output).growth =
        ⟨size, filled.output.written⟩ := by
      rw [Exchange.growth, Exchange.size_new_after, hfilled]
      rfl
    rw [hfilled] at h
    rw [ih, exchanges_of_overflow h, List.map_cons, hgrowth, Array.toList_push, List.append_assoc, hfilled]
    rfl
  | case2 output input consumed growths filled h =>
    have hfilled : filled = ⟨_, _, _⟩ := coder.fill_eq true output input
    rw [hfilled] at h
    rw [exchanges_of_ne_overflow h, List.map_nil, List.append_nil]

/-- The exchanges are those that a transcript names. -/
theorem growths_drain (coder : Coder α β) (size : Nat) (input : List α) :
    (coder.drain size input).growths =
      (coder.exchanges (.zeroed size) input).map Exchange.growth := by
  rw [drain, growths_drainFrom]
  rfl

/-- What is written in the end does not depend on the first size. -/
theorem content_drain (coder : Coder α β) (size : Nat) (input : List α) :
    (coder.drain size input).output.content = (coder.code true input).output :=
  congrArg Progress.output (coder.progress_drain size input)

/-! ## What an exchange keeps -/

/-- The call before an exchange and the calls behind it write what can be written. -/
theorem content_old_append (h : (coder.run true output.room input).result = .overflow) :
    (Exchange.after output (coder.run true output.room input).output).old.content ++
        (coder.code true (input.drop (coder.run true output.room input).consumed)).output =
      output.content ++ (coder.code true input).output := by
  rw [coder.code_eq_followedBy true output.room input h, Exchange.after,
    Output.content_write _ (coder.length_output_le true output.room input), List.append_assoc]
  rfl

/-- An exchange follows a call that runs out of room. All that is written in the end is what is written before
the call and what can be written from there. -/
theorem exists_of_mem_exchanges {e : Exchange β} (he : e ∈ coder.exchanges output input) :
    ∃ (before : Output β) (rest : List α), (coder.run true before.room rest).result = .overflow ∧
      e = Exchange.after before (coder.run true before.room rest).output ∧
      before.content ++ (coder.code true rest).output =
        output.content ++ (coder.code true input).output := by
  fun_induction coder.exchanges output input with
  | case1 output input filled h exchange ih =>
    have hfilled : filled = ⟨_, _, _⟩ := coder.fill_eq true output input
    have hexchange : exchange = Exchange.after output (coder.run true output.room input).output := by
      have houtput : filled.output = output.write (coder.run true output.room input).output :=
        congrArg Filled.output hfilled
      rw [Exchange.after, ← houtput]
    rw [hfilled] at h
    rcases List.mem_cons.mp he with rfl | he
    · exact ⟨output, input, h, hexchange, rfl⟩
    · -- the later calls go on from what the first exchange keeps
      obtain ⟨before, rest, hover, hafter, htotal⟩ := ih he
      refine ⟨before, rest, hover, hafter, htotal.trans ?_⟩
      rw [hexchange, Exchange.content_new_after, hfilled]
      exact content_old_append h
  | case2 output input filled h => cases he

/-- No exchange loses anything. -/
theorem content_new_of_mem {e : Exchange β} (he : e ∈ coder.exchanges output input) :
    e.new.content = e.old.content := by
  obtain ⟨before, rest, -, rfl, -⟩ := exists_of_mem_exchanges he
  exact Exchange.content_new_after _ _

/-- Each exchange makes the same of the size. -/
theorem size_new_of_mem {e : Exchange β} (he : e ∈ coder.exchanges output input) :
    e.new.size = 2 * e.old.size + 1 := by
  obtain ⟨before, rest, -, rfl, -⟩ := exists_of_mem_exchanges he
  rw [Exchange.size_new_after, Exchange.size_old_after]

/-- What is written when an output is exchanged is still there in the end. -/
theorem content_old_isPrefix {e : Exchange β} (he : e ∈ coder.exchanges output input) :
    e.old.content <+: output.content ++ (coder.code true input).output := by
  obtain ⟨before, rest, hover, rfl, htotal⟩ := exists_of_mem_exchanges he
  rw [← htotal, ← content_old_append hover]
  exact List.prefix_append _ _

/-- An output is exchanged only when less room is left in it than a single step can need. -/
theorem size_old_lt {bound : Nat}
    (hbound : ∀ {first rest items extra}, coder.step true first rest = .emit items extra →
      items.length ≤ bound)
    {e : Exchange β} (he : e ∈ coder.exchanges output input) :
    e.old.size < e.old.written + bound := by
  obtain ⟨before, rest, hover, rfl, -⟩ := exists_of_mem_exchanges he
  have hroom := room_lt_of_overflow hbound hover
  have hwritten := before.written_write (coder.length_output_le true before.room rest)
  rw [Exchange.size_old_after, Exchange.after, hwritten]
  rw [Output.room] at hroom ⊢
  omega

/-! ## How many exchanges there are -/

/-- With one added, the sizes are doubled by each exchange. -/
theorem size_old_getElem? {k : Nat} {e : Exchange β}
    (he : (coder.exchanges output input)[k]? = some e) :
    e.old.size + 1 = 2 ^ k * (output.size + 1) := by
  induction k generalizing output input with
  | zero =>
    by_cases h : (coder.run true output.room input).result = .overflow
    · rw [exchanges_of_overflow h, List.getElem?_cons_zero] at he
      obtain rfl := Option.some.inj he
      rw [Exchange.size_old_after, Nat.pow_zero, Nat.one_mul]
    · rw [exchanges_of_ne_overflow h] at he
      cases he
  | succ k ih =>
    by_cases h : (coder.run true output.room input).result = .overflow
    · rw [exchanges_of_overflow h, List.getElem?_cons_succ] at he
      rw [ih he, Exchange.size_new_after, Nat.pow_succ]
      ring
    · rw [exchanges_of_ne_overflow h] at he
      cases he

/-- So many exchanges are enough for what is written as make the output large enough for it. -/
theorem length_exchanges_le {k : Nat}
    (h : output.written + (coder.code true input).output.length < 2 ^ k * (output.size + 1)) :
    (coder.exchanges output input).length ≤ k := by
  -- each exchange leaves as much to be written in all, and doubles the right side
  induction k generalizing output input with
  | zero =>
    -- all that is written fits into the room left
    have hroom : (coder.code true input).output.length ≤ output.room := by
      rw [Output.room]
      omega
    have hrun := coder.run_eq_code_of_le true input hroom
    rw [exchanges_of_ne_overflow, List.length_nil]
    rw [hrun]
    exact coder.code_result_ne_overflow true input
  | succ k ih =>
    by_cases hover : (coder.run true output.room input).result = .overflow
    · rw [exchanges_of_overflow hover, List.length_cons, Nat.succ_le_succ_iff]
      apply ih
      have htotal := congrArg List.length (content_old_append hover)
      rw [← Exchange.content_new_after, List.length_append, List.length_append, Output.length_content,
        Output.length_content] at htotal
      calc _ = output.written + (coder.code true input).output.length := htotal
        _ < 2 ^ (k + 1) * (output.size + 1) := h
        _ = _ := by rw [Exchange.size_new_after]; ring
    · rw [exchanges_of_ne_overflow hover]
      exact Nat.zero_le _

/-- An output with room for all that is written is the only one. -/
theorem drain_of_le {size : Nat} (h : (coder.code true input).output.length ≤ size) :
    coder.drain size input =
      ⟨(coder.code true input).result, (Output.zeroed size).write (coder.code true input).output,
        (coder.code true input).consumed, []⟩ := by
  have hroom : (Output.zeroed size : Output β).room = size := by
    rw [Output.room, Output.size_zeroed, Output.written_zeroed, Nat.sub_zero]
  -- the first call does all that can be done
  rw [drain, drainFrom_eq, hroom, coder.run_eq_code_of_le true input h]
  dsimp only
  rw [if_neg (coder.code_result_ne_overflow true input), Nat.zero_add]

end Coder

/-! ## Bytes and units of a character -/

namespace Charset

/-- Each unit of a character takes so many bytes at most. -/
theorem length_spelling_le_mul {charset : Charset} {c : Char} {bytes : List UInt8}
    (h : charset.spelling c = some bytes) :
    bytes.length ≤ charset.bytesOfUnit * (Utf16.ofChar c).length := by
  have hpos := Utf16.length_ofChar_pos c
  cases charset with
  | usAscii | latin1 =>
    obtain ⟨b, -, -, rfl⟩ := (oneByte_eq_some_iff (by decide)).mp h
    rw [bytesOfUnit, List.length_singleton]
    omega
  | utf8 =>
    obtain rfl := Option.some.inj h
    rw [String.length_utf8EncodeChar, bytesOfUnit, Utf16.ofChar]
    split
    · next hsmall =>
      -- four bytes are for characters of two units
      have hsize : c.utf8Size ≤ 3 := by
        simp only [Char.utf8Size, UInt32.le_iff_toNat_le, Char.toNat_val, UInt32.toNat_ofNatLT]
        split_ifs <;> omega
      exact hsize
    · exact c.utf8Size_le_four.trans (by simp)
  | utf16le | utf16be =>
    obtain rfl := Option.some.inj h
    rw [ByteOrder.length_flatMap_bytes]
    exact le_rfl

/-- Each unit of a character takes so many bytes at least. -/
theorem mul_length_ofChar_le {charset : Charset} {c : Char} {bytes : List UInt8}
    (h : charset.spelling c = some bytes) :
    charset.leastBytesOfUnit * (Utf16.ofChar c).length ≤ bytes.length := by
  cases charset with
  | usAscii | latin1 | utf8 =>
    rw [leastBytesOfUnit, Nat.one_mul]
    exact length_ofChar_le h
  | utf16le | utf16be =>
    obtain rfl := Option.some.inj h
    rw [ByteOrder.length_flatMap_bytes]
    exact le_rfl

/-- A step of an encoder writes four bytes at most. -/
theorem length_encoder_step_le {charset : Charset} {atEnd : Bool} {first : UInt16}
    {rest : List UInt16} {bytes : List UInt8} {extra : Nat}
    (h : charset.encoder.step atEnd first rest = .emit bytes extra) : bytes.length ≤ 4 := by
  obtain ⟨c, -, -, -, ht, -, -⟩ := charset.encoder_rewrites.emit_iff.mp h
  exact length_spelling_le ht

/-- No more bytes are written than every unit can take. -/
theorem length_encoder_output_le (charset : Charset) (atEnd : Bool) (units : List UInt16) :
    (charset.encoder.code atEnd units).output.length ≤ charset.bytesOfUnit * units.length := by
  rw [← Nat.one_mul (List.length _)]
  apply charset.encoder_rewrites.mul_length_output_le
  intro c units bytes hs ht
  obtain rfl := Option.some.inj hs
  rw [Nat.one_mul]
  exact length_spelling_le_mul ht

/-- No more units are written than bytes can hold. -/
theorem mul_length_decoder_output_le (charset : Charset) (atEnd : Bool) (bytes : List UInt8) :
    charset.leastBytesOfUnit * (charset.decoder.code atEnd bytes).output.length ≤ bytes.length := by
  rw [← Nat.one_mul bytes.length]
  apply charset.decoder_rewrites.mul_length_output_le
  intro c bytes units hs ht
  obtain rfl := Option.some.inj ht
  rw [Nat.one_mul]
  exact mul_length_ofChar_le hs

end Charset

/-! ## Encoding and decoding -/

namespace Text

/-- The estimate is exact but for UTF-8, where two exchanges are enough. -/
theorem length_exchanges_encoder_le (charset : Charset) {units : List UInt16}
    (hunits : units.length ≤ 2 ^ 24) :
    (charset.encoder.exchanges (.zeroed (encodeEstimate charset units)) units).length ≤
      if charset = .utf8 then 2 else 0 := by
  apply Coder.length_exchanges_le
  have houtput := charset.length_encoder_output_le true units
  rw [Output.written_zeroed, Output.size_zeroed, Nat.zero_add]
  split
  · next hutf8 =>
    -- four outputs of the first size have room for three bytes a unit
    have hsize := length_le_encodeEstimate charset hunits
    rw [hutf8, Charset.bytesOfUnit] at houtput
    rw [hutf8] at hsize ⊢
    omega
  · next hutf8 =>
    rw [encodeEstimate_of_ne_utf8 hutf8 hunits]
    omega

/-- Encoding up to `2 ^ 24` units, whether or not they can be encoded. The first output has a byte for each
unit, and two in UTF-16. None is exchanged except in UTF-8, and there two at most. The size grows from `s` to
`2 * s + 1` when at most three bytes are unused, and all bytes written by then stay what they are. -/
theorem encodeUnits_growth (charset : Charset) {units : List UInt16}
    (hunits : units.length ≤ 2 ^ 24) :
    let size := encodeEstimate charset units
    let exchanges := charset.encoder.exchanges (.zeroed size) units
    units.length ≤ size ∧
    (charset = .utf16le ∨ charset = .utf16be → 2 * units.length ≤ size) ∧
    (encodeUnits charset units).events =
      exchanges.map (fun e => .encodeGrew charset e.new.size e.new.written) ∧
    exchanges.length ≤ (if charset = .utf8 then 2 else 0) ∧
    ∀ (k : Nat) (e : Exchange UInt8), exchanges[k]? = some e →
      e.old.size + 1 = 2 ^ k * (size + 1) ∧
      e.new.size = 2 * e.old.size + 1 ∧
      e.old.size ≤ e.old.written + 3 ∧
      e.new.written = e.old.written ∧
      e.new.content = e.old.content ∧
      e.old.content <+: (encodeTranscript charset size units).output.content := by
  intro size exchanges
  have hwritten : ∀ e ∈ exchanges, e.new.written = e.old.written := fun e he => by
    rw [← Output.length_content, Coder.content_new_of_mem he, Output.length_content]
  refine ⟨length_le_encodeEstimate charset hunits, ?_, ?_,
    length_exchanges_encoder_le charset hunits, ?_⟩
  · intro hutf16
    have hne : charset ≠ .utf8 := by
      rintro rfl
      simp at hutf16
    have hsize : size = charset.bytesOfUnit * units.length := encodeEstimate_of_ne_utf8 hne hunits
    rcases hutf16 with rfl | rfl
    · exact hsize.ge
    · exact hsize.ge
  · rw [encodeUnits, encodeTranscript, Coder.growths_drain, List.map_map]
    apply List.map_congr_left
    intro e he
    rw [Function.comp_apply, Exchange.growth, hwritten e he]
  · intro k e hk
    have he : e ∈ exchanges := List.mem_of_getElem? hk
    have hsize := Coder.size_old_getElem? hk
    have hunused := Coder.size_old_lt Charset.length_encoder_step_le he
    rw [Output.size_zeroed] at hsize
    refine ⟨hsize, Coder.size_new_of_mem he, by omega, hwritten e he,
      Coder.content_new_of_mem he, ?_⟩
    -- what is written in the end is what one call with room for everything writes
    rw [encodeTranscript, Coder.content_drain]
    exact Coder.content_old_isPrefix he

/-- Ten characters of three bytes: the first output has eleven bytes, and two larger ones follow. -/
theorem encodeUnits_growth_twice :
    let units : List UInt16 := List.replicate 10 0x65E5
    let size := encodeEstimate .utf8 units
    let exchanges := Charset.utf8.encoder.exchanges (.zeroed size) units
    units.length ≤ 2 ^ 24 ∧ size = 11 ∧
      exchanges.map (fun e => Event.encodeGrew .utf8 e.new.size e.new.written) =
        [.encodeGrew .utf8 23 9, .encodeGrew .utf8 47 21] ∧
      ∀ (k : Nat) (e : Exchange UInt8), exchanges[k]? = some e →
        e.old.size + 1 = 2 ^ k * 12 ∧ e.old.size ≤ e.old.written + 3 ∧ e.new.content = e.old.content := by
  intro units size exchanges
  have hunits : units.length ≤ 2 ^ 24 := by decide
  have hsize : encodeEstimate .utf8 units = 11 := by decide
  have hgrowths : (encodeTranscript .utf8 11 units).growths = [⟨23, 9⟩, ⟨47, 21⟩] := by cbv
  obtain ⟨-, -, hgrew, -, hkept⟩ := encodeUnits_growth .utf8 hunits
  refine ⟨hunits, hsize, ?_, fun k e hk => ?_⟩
  · rw [← hgrew, encodeUnits, hsize]
    dsimp only
    rw [hgrowths]
    rfl
  · obtain ⟨hold, -, hunused, -, hcontent, -⟩ := hkept k e hk
    rw [hsize] at hold
    exact ⟨hold, hunused, hcontent⟩

/-- The estimate for decoding is never too small. -/
theorem length_decoder_output_le_estimate (charset : Charset) {bytes : List UInt8}
    (hbytes : bytes.length ≤ 2 ^ 24) :
    (charset.decoder.code true bytes).output.length ≤ decodeEstimate charset bytes := by
  have houtput := charset.mul_length_decoder_output_le true bytes
  rw [decodeEstimate_eq charset hbytes]
  cases charset with
  | usAscii | latin1 | utf8 | utf16le | utf16be =>
    simp only [Charset.leastBytesOfUnit] at houtput ⊢
    omega

/-- Decoding up to `2 ^ 24` bytes, well formed or not. The first output has a unit for each byte, or for
each two in UTF-16, rounded up. Wherever a character is found on the way to what is written in the end, what
is written so far and the units of the character fit into that. So the call does not run out of room, and
the first output is the only one. -/
theorem decode_within_estimate (charset : Charset) {bytes : List UInt8}
    (hbytes : bytes.length ≤ 2 ^ 24) :
    let size := decodeEstimate charset bytes
    let transcript := decodeTranscript charset size bytes
    size = (match charset with
      | .usAscii | .latin1 | .utf8 => bytes.length
      | .utf16le | .utf16be => (bytes.length + 1) / 2) ∧
    (∀ written first rest units extra, charset.decoder.Passes true bytes written (first :: rest) →
      charset.decoder.step true first rest = .emit units extra →
      written.length + units.length ≤ size) ∧
    (∃ rest, charset.decoder.Passes true bytes transcript.output.content rest) ∧
    (charset.decoder.run true size bytes).result ≠ .overflow ∧
    transcript.growths = [] ∧ transcript.output.size = size ∧
    (decode charset bytes).events = [] := by
  intro size transcript
  have hroom : (charset.decoder.code true bytes).output.length ≤ size :=
    length_decoder_output_le_estimate charset hbytes
  have htranscript := Coder.drain_of_le hroom
  have hgrowths : transcript.growths = [] := congrArg Transcript.growths htranscript
  refine ⟨?_, ?_, ?_, ?_, hgrowths, ?_, ?_⟩
  · have hsize : size = _ := decodeEstimate_eq charset hbytes
    cases charset with
    | usAscii | latin1 | utf8 => exact hsize.trans (Nat.div_one _)
    | utf16le | utf16be => exact hsize
  · -- what is written on the way is part of what is written in the end
    intro written first rest units extra hpasses hstep
    exact (hpasses.length_add_le hstep).trans hroom
  · have hcontent : transcript.output.content = _ := Coder.content_drain _ size bytes
    rw [hcontent]
    exact Coder.Passes.start.exists_left
  · rw [Coder.run_eq_code_of_le _ true bytes hroom]
    exact Coder.code_result_ne_overflow _ true bytes
  · change (charset.decoder.drain size bytes).output.size = size
    rw [htranscript, Output.size_write, Output.size_zeroed]
  · change transcript.growths.map _ = []
    rw [hgrowths, List.map_nil]

/-- A surrogate pair and half a unit, which is malformed: three units would be room enough. -/
theorem decode_within_estimate_odd :
    let bytes : List UInt8 := [0x3D, 0xD8, 0x00, 0xDE, 0x41]
    bytes.length ≤ 2 ^ 24 ∧ decodeEstimate .utf16le bytes = 3 ∧
      (decodeTranscript .utf16le 3 bytes).result = .malformed 1 ∧
      (decodeTranscript .utf16le 3 bytes).growths = [] ∧ (decode .utf16le bytes).events = [] := by
  intro bytes
  have hbytes : bytes.length ≤ 2 ^ 24 := by decide
  have hsize : decodeEstimate .utf16le bytes = 3 := by decide
  obtain ⟨-, -, -, -, hgrowths, -, hevents⟩ := decode_within_estimate .utf16le hbytes
  rw [hsize] at hgrowths
  exact ⟨hbytes, hsize, by cbv, hgrowths, hevents⟩

end Text

end RawMemory
