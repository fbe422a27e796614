import RawMemory.Proofs.Text.Coder
import RawMemory.Text.Drive

/-!
# Driving a coder piece by piece

A caller may cut an input into pieces, hand them to a coder one after the other with whatever earlier
calls have left in front, and offer any room in each call. `Drive` is where such a caller stands, and
`Drive.Reachable` says of what calls a drive may consist.

A coder that rewrites one spelling as another leaves no trace of the cuts in what it writes
(`Drive.Sound`), and if it is `Steady`, which means that it never stops early at the end of a piece, then
none in how the drive ends either. `Drive.Reachable.faithful` is the statement about one call after any
others.
-/

namespace RawMemory

/-- Whether a call with this result has no call behind it: it has met an error, or the end of all
input. -/
def CoderResult.IsFinal (atEnd : Bool) : CoderResult → Prop
  | .underflow => atEnd = true
  | .overflow => False
  | .malformed _ | .unmappable _ => True

/-- Where a caller stands who has an input coded piece by piece. -/
structure Drive (α β : Type) where
  /-- The items handed over so far, piece behind piece. -/
  given : List α := []
  /-- How many of them the coder has taken. -/
  consumed : Nat := 0
  /-- The items that the calls have written, one behind the other. -/
  output : List β := []

/-- One call of a drive. -/
structure DriveCall (α β : Type) where
  /-- The items that are new in this call. There are none where a call is only repeated. -/
  piece : List α
  /-- Whether the caller says that no input follows. -/
  atEnd : Bool
  /-- Where the coder may write. -/
  output : Output β

namespace Drive

variable {α β : Type}

/-- What the coder is given in a call: the items that the calls before have left, and the piece. -/
def input (d : Drive α β) (call : DriveCall α β) : List α := d.given.drop d.consumed ++ call.piece

/-- What a call leaves. It writes into the output that is handed over. -/
def filled (coder : Coder α β) (d : Drive α β) (call : DriveCall α β) : Filled β :=
  coder.fill call.atEnd call.output (d.input call)

/-- What a call does: why it stops, what stands in its output behind what stood there, and what it takes. -/
def progress (coder : Coder α β) (d : Drive α β) (call : DriveCall α β) : Progress β :=
  let filled := d.filled coder call
  ⟨filled.result, filled.output.content.drop call.output.written, filled.consumed⟩

/-- Where the caller stands after a call. -/
def next (coder : Coder α β) (d : Drive α β) (call : DriveCall α β) : Drive α β where
  given := d.given ++ call.piece
  consumed := d.consumed + (d.progress coder call).consumed
  output := d.output ++ (d.progress coder call).output

/-- The call goes on with the cutting of `whole` into pieces, and names the end only at the last one. -/
structure Admits (d : Drive α β) (whole : List α) (call : DriveCall α β) : Prop where
  within : d.given ++ call.piece <+: whole
  complete : call.atEnd = true → d.given ++ call.piece = whole

/-- The drives over an input. Nothing is asked of what the calls answer: they may be repeated after an
overflow, and even after an error, which is then met again. -/
inductive Reachable (coder : Coder α β) (whole : List α) : Drive α β → Prop
  | start : Reachable coder whole {}
  | next {d : Drive α β} {call : DriveCall α β} (h : Reachable coder whole d)
      (hcall : d.Admits whole call) : Reachable coder whole (d.next coder call)

/-- What a call of a drive can be relied on for, after any calls before it. -/
structure Faithful (coder : Coder α β) (source : Spelling α) (target : Spelling β)
    (whole : List α) (d : Drive α β) (call : DriveCall α β) : Prop where
  /-- The call answers what it does, and its cursor stops behind the items that it takes. -/
  answer_eq : coder.answer (.ofList (d.input call)) (.code call.output.room call.atEnd) =
    some (⟨(d.progress coder call).result, (d.progress coder call).output⟩,
      ⟨d.input call, (d.progress coder call).consumed⟩)
  /-- All that is taken is from what was given, and all that is written spells the same text. -/
  total : (d.next coder call).consumed ≤ (d.next coder call).given.length ∧
    Spelling.SameText source target (whole.take (d.next coder call).consumed)
      (d.next coder call).output
  /-- So does what this call takes and writes: no character is split between two calls. -/
  single : Spelling.SameText source target ((d.input call).take (d.progress coder call).consumed)
    (d.progress coder call).output
  /-- What is written goes behind what is written there already, which stays. -/
  content_eq : (d.filled coder call).output.content =
    call.output.content ++ (d.progress coder call).output
  /-- The items behind it stay as they are. -/
  behind_eq : (d.filled coder call).output.storage.toList.drop
      (call.output.written + (d.progress coder call).output.length) =
    call.output.storage.toList.drop (call.output.written + (d.progress coder call).output.length)
  /-- A drive ends as one call on the whole input does, if that has room for what is written. -/
  final : (d.progress coder call).result.IsFinal call.atEnd →
    ∀ room, (d.next coder call).output.length ≤ room →
      coder.run true room whole =
        ⟨(d.progress coder call).result, (d.next coder call).output, (d.next coder call).consumed⟩

end Drive

namespace Coder

variable {α β : Type} {coder : Coder α β} {source : Spelling α} {target : Spelling β}

/-- An obstacle other than the end of the input is none of the end: it is there whatever follows. -/
structure Steady (coder : Coder α β) : Prop where
  stop_append {first : α} {rest : List α} {obstacle : Obstacle}
    (h : coder.step false first rest = .stop obstacle) (hne : obstacle ≠ .incomplete)
    (atEnd : Bool) (more : List α) : coder.step atEnd first (rest ++ more) = .stop obstacle

theorem Obstacle.eq_incomplete_of_result {obstacle : Obstacle}
    (h : obstacle.result = .underflow) : obstacle = .incomplete := by
  cases obstacle with
  | incomplete => rfl
  | malformed length => cases h
  | unmappable length => cases h

/-- In front of the end of a piece a coder halts for want of input alone. -/
theorem Halts.eq_nil_or_incomplete {atEnd : Bool} {rest : List α}
    (h : coder.Halts atEnd rest .underflow) :
    rest = [] ∨ ∃ first tail, rest = first :: tail ∧
      coder.step atEnd first tail = .stop .incomplete := by
  generalize hresult : CoderResult.underflow = result at h
  cases h with
  | nil => exact Or.inl rfl
  | @stop first tail obstacle hstep =>
    rw [Obstacle.eq_incomplete_of_result hresult.symm] at hstep
    exact Or.inr ⟨first, tail, rfl, hstep⟩

/-- Where a coder halts for good, it does so whatever follows. -/
theorem Steady.code_append (hs : coder.Steady) {atEnd : Bool} {rest more : List α}
    {result : CoderResult} (h : coder.Halts atEnd rest result) (hfinal : result.IsFinal atEnd)
    (hmore : atEnd = true → more = []) : coder.code true (rest ++ more) = ⟨result, [], 0⟩ := by
  cases h with
  | nil =>
    -- the end of a piece is for good only if it is the end of all input
    rw [hmore hfinal, List.append_nil, code_nil]
  | @stop first tail obstacle hstep =>
    rw [List.cons_append]
    cases atEnd with
    | true => rw [hmore rfl, List.append_nil, code_of_stop hstep]
    | false =>
      have hne : obstacle ≠ .incomplete := by
        rintro rfl
        cases hfinal
      exact code_of_stop (hs.stop_append hstep hne true more)

/-- A call stops for want of room or halts in front of what it leaves. -/
theorem Rewrites.halts_of_ne_overflow (h : coder.Rewrites source target) {atEnd : Bool} {room : Nat}
    {input : List α} (hne : (coder.run atEnd room input).result ≠ .overflow) :
    coder.Halts atEnd (input.drop (coder.run atEnd room input).consumed)
      (coder.run atEnd room input).result := by
  obtain ⟨items, rest, hinput, hconsumed, -, hstop⟩ := h.exists_taken atEnd room input
  rw [hconsumed]
  nth_rewrite 1 [hinput]
  rw [List.drop_left]
  exact hstop.resolve_left hne

/-- With room for any character a call takes one, unless it stops for another reason. -/
theorem Rewrites.consumed_pos_of_overflow (h : coder.Rewrites source target) {bound : Nat}
    (hbound : ∀ c out, target c = some out → out.length ≤ bound) {atEnd : Bool} {room : Nat}
    {input : List α} (hover : (coder.run atEnd room input).result = .overflow)
    (hroom : bound ≤ room) : 0 < (coder.run atEnd room input).consumed := by
  by_contra hnone
  have hneed := (lt_need_of_overflow hover (by omega)).2
  -- the room that is wanted is that of a character
  have hle : coder.need atEnd input ≤ bound := by
    cases input with
    | nil => exact Nat.zero_le bound
    | cons first rest =>
      cases hstep : coder.step atEnd first rest with
      | emit out extra =>
        obtain ⟨c, -, -, -, ht, -, -⟩ := h.emit_iff.mp hstep
        simpa only [need, hstep] using hbound c out ht
      | stop obstacle => simp only [need, hstep, Nat.zero_le]
  omega

end Coder

namespace Drive

variable {α β : Type} {coder : Coder α β} {source : Spelling α} {target : Spelling β}
  {whole : List α} {d : Drive α β} {call : DriveCall α β}

/-- A call does what a run does that has the room of the output. -/
theorem progress_eq (coder : Coder α β) (d : Drive α β) (call : DriveCall α β) :
    d.progress coder call = coder.run call.atEnd call.output.room (d.input call) := by
  have hroom := coder.length_output_le call.atEnd call.output.room (d.input call)
  rw [progress, filled, coder.fill_eq]
  dsimp only
  rw [call.output.content_write hroom, ← call.output.length_content, List.drop_left]

/-- A call leaves the output with what it writes behind what was there. -/
theorem output_filled (coder : Coder α β) (d : Drive α β) (call : DriveCall α β) :
    (d.filled coder call).output = call.output.write (d.progress coder call).output := by
  rw [progress_eq, filled, coder.fill_eq]

/-- What is taken is from what was given, and what is written spells the same text. -/
structure Sound (source : Spelling α) (target : Spelling β) (d : Drive α β) : Prop where
  consumed_le : d.consumed ≤ d.given.length
  sameText : Spelling.SameText source target (d.given.take d.consumed) d.output

/-- The items taken before a call, those that it takes, and those that it leaves. -/
theorem Sound.exists_taken (h : d.Sound source target) (hr : coder.Rewrites source target)
    (call : DriveCall α β) :
    ∃ before items rest, d.given ++ call.piece = before ++ (items ++ rest) ∧
      d.consumed = before.length ∧ d.input call = items ++ rest ∧
      (d.progress coder call).consumed = items.length ∧
      Spelling.SameText source target before d.output ∧
      Spelling.SameText source target items (d.progress coder call).output ∧
      ((d.progress coder call).result = .overflow ∨
        coder.Halts call.atEnd rest (d.progress coder call).result) := by
  obtain ⟨items, rest, hinput, hconsumed, htext, hstop⟩ :=
    hr.exists_taken call.atEnd call.output.room (d.input call)
  rw [← progress_eq] at hconsumed htext hstop
  refine ⟨d.given.take d.consumed, items, rest, ?_, ?_, hinput, hconsumed, h.sameText, htext,
    hstop⟩
  · rw [← hinput, input, ← List.append_assoc, List.take_append_drop]
  · rw [List.length_take, Nat.min_eq_left h.consumed_le]

/-- One call keeps a drive sound. -/
theorem Sound.next (h : d.Sound source target) (hr : coder.Rewrites source target)
    (call : DriveCall α β) : (d.next coder call).Sound source target := by
  obtain ⟨before, items, rest, hgiven, hbefore, -, hconsumed, htotal, htext, -⟩ :=
    h.exists_taken hr call
  have hnext : (d.next coder call).consumed = (before ++ items).length := by
    rw [List.length_append, ← hbefore, ← hconsumed]
    rfl
  have hgiven' : (d.next coder call).given = (before ++ items) ++ rest := by
    rw [List.append_assoc]
    exact hgiven
  constructor
  · rw [hnext, hgiven']
    exact (List.prefix_append _ _).length_le
  · rw [hnext, hgiven', List.take_left]
    exact htotal.append htext

theorem Reachable.sound (hd : Reachable coder whole d) (hr : coder.Rewrites source target) :
    d.Sound source target := by
  induction hd with
  | start => exact ⟨le_rfl, .nil source target⟩
  | next _ _ ih => exact ih.next hr _

/-- The calls of a drive give what one call on the whole input gives, up to where it goes on. -/
theorem Sound.code_eq (h : d.Sound source target) (hr : coder.Rewrites source target) {more : List α}
    (hmore : d.given ++ more = whole) :
    coder.code true whole =
      Progress.followedBy ⟨.underflow, d.output, d.consumed⟩
        (coder.code true (whole.drop d.consumed)) := by
  obtain ⟨text, hs, ht⟩ := h.sameText
  have hwhole : whole = d.given.take d.consumed ++ whole.drop d.consumed := by
    rw [← hmore, ← List.take_append_of_le_length h.consumed_le, List.take_append_drop]
  have hlength : (d.given.take d.consumed).length = d.consumed := by
    rw [List.length_take, Nat.min_eq_left h.consumed_le]
  conv_lhs => rw [hwhole]
  rw [hr.code_append hs ht, hlength]

/-- A call that wants more input has left nothing, or the beginning of something incomplete. -/
theorem left_of_underflow (hr : coder.Rewrites source target) {d : Drive α β}
    {call : DriveCall α β} (hunder : (d.progress coder call).result = .underflow)
    (hend : call.atEnd = false) :
    (d.input call).drop (d.progress coder call).consumed = [] ∨
      ∃ first tail, (d.input call).drop (d.progress coder call).consumed = first :: tail ∧
        coder.step false first tail = .stop .incomplete := by
  have hne : (d.progress coder call).result ≠ .overflow := by
    rw [hunder]
    simp
  have hhalts : coder.Halts call.atEnd ((d.input call).drop (d.progress coder call).consumed)
      (d.progress coder call).result := by
    rw [progress_eq] at hne ⊢
    exact hr.halts_of_ne_overflow hne
  generalize (d.input call).drop (d.progress coder call).consumed = rest at hhalts ⊢
  rw [hunder, hend] at hhalts
  exact hhalts.eq_nil_or_incomplete

/-- A call of a drive can be relied on, whatever the calls before it were. -/
theorem Reachable.faithful (hd : Reachable coder whole d) (hr : coder.Rewrites source target)
    (hs : coder.Steady) (hcall : d.Admits whole call) :
    d.Faithful coder source target whole call := by
  obtain ⟨more, hmore⟩ := hcall.within
  have hsound := hd.sound hr
  have hnext := hsound.next hr call
  obtain ⟨before, items, rest, hgiven, hbefore, hinput, hconsumed, -, htext, hstop⟩ :=
    hsound.exists_taken hr call
  have hroom : (d.progress coder call).output.length ≤ call.output.room := by
    rw [progress_eq]
    exact coder.length_output_le call.atEnd call.output.room (d.input call)
  refine ⟨?_, ⟨hnext.consumed_le, ?_⟩, ?_, ?_, ?_, ?_⟩
  · -- the cursor has items enough in front of it
    have hle : (d.progress coder call).consumed ≤ (d.input call).length := by
      rw [hconsumed, hinput, List.length_append]
      exact Nat.le_add_right _ _
    have hcursor : (Cursor.ofList (d.input call)).advance (d.progress coder call).consumed =
        ⟨d.input call, (d.progress coder call).consumed⟩ := by
      simp only [Cursor.ofList, Cursor.advance, Nat.zero_add, Nat.min_eq_left hle]
    rw [← hcursor, progress_eq]
    rfl
  · rw [← hmore]
    change Spelling.SameText source target (((d.next coder call).given ++ more).take _) _
    rw [List.take_append_of_le_length hnext.consumed_le]
    exact hnext.sameText
  · rw [hconsumed, hinput, List.take_left]
    exact htext
  · rw [output_filled, call.output.content_write hroom]
  · have hbehind := call.output.behind_write hroom
    rwa [Output.behind, call.output.written_write hroom, Output.behind, List.drop_drop, ← output_filled]
      at hbehind
  · intro hfinal room hlength
    have hne : (d.progress coder call).result ≠ .overflow := by
      intro hover
      rw [hover] at hfinal
      cases hfinal
    -- what the call leaves is followed by what the caller has not handed over
    have hrest : whole.drop (d.next coder call).consumed = rest ++ more := by
      have hcount : (d.next coder call).consumed = (before ++ items).length := by
        rw [List.length_append, ← hbefore, ← hconsumed]
        rfl
      rw [← hmore, hgiven, hcount, ← List.append_assoc, List.append_assoc, List.drop_left]
    have hend : call.atEnd = true → more = [] := by
      intro h
      rw [← hcall.complete h] at hmore
      exact List.append_right_eq_self.mp hmore
    have hcode : coder.code true whole =
        ⟨(d.progress coder call).result, (d.next coder call).output,
          (d.next coder call).consumed⟩ := by
      rw [hnext.code_eq hr hmore, hrest,
        hs.code_append (hstop.resolve_left hne) hfinal hend]
      simp only [Progress.followedBy, List.append_nil, Nat.add_zero]
    rw [← hcode]
    refine coder.run_eq_code_of_le true whole ?_
    rw [hcode]
    exact hlength

end Drive

end RawMemory
