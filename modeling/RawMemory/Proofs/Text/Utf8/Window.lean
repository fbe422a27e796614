import RawMemory.Proofs.Text.Drive.Decoder
import RawMemory.Proofs.Text.Utf8.Subpart

/-!
# The first four bytes

No character of UTF-8 has more than four bytes, so that what a byte list starts with is seen in a window
of its first four. The window may cut a later character, hold several of them, or be well formed up to
some place behind the first one only.

`Starts` says what a list starts with by the bytes of characters alone: a character, all of them; the
beginning of one and nothing more; or malformed bytes, as many as still begin a character, and one at
least. It fits one answer (`Starts.unique`), and does so for the list if for the window
(`Starts.of_take`).

Checks of whole byte strings are known by a documentation that names the place up to which bytes are well
formed, and the length of what is wrong there (`Validator.Documented`). `headBy` asks such a validator
about the window, and about the part of it in front of that place if there is one.

* `starts_head`: what `head` finds as it walks along the ranges.
* `starts_headBy`: what a validator gives.
* `headBy_eq_iff`: both are the same, and are decided by the window.
-/

namespace RawMemory.Utf8

variable {bytes : List UInt8} {c : Char} {m n : Nat} {h h' : Head}

/-! ## What a list starts with -/

/-- The first `n` bytes are malformed. -/
structure Malformed (bytes : List UInt8) (n : Nat) : Prop where
  /-- No character stands in front. -/
  unconvertible (c : Char) : ¬ String.utf8EncodeChar c <+: bytes
  /-- More bytes would not help. -/
  not_isCutOff : ¬ Charset.utf8.IsCutOff bytes
  /-- They are as many as still begin a character, or one byte if the first one begins none. -/
  exists_longest : ∃ part, part <+: bytes ∧ Charset.utf8.IsCutOff part ∧ n = max 1 part.length ∧
    ∀ longer, longer <+: bytes → Charset.utf8.IsCutOff longer → longer.length ≤ part.length

/-- What a byte list starts with. -/
inductive Starts (bytes : List UInt8) : Head → Prop
  /-- All bytes of a character stand in front. -/
  | char {c : Char} {extra : Nat} (hfront : String.utf8EncodeChar c <+: bytes)
    (hextra : (String.utf8EncodeChar c).length = extra + 1) : Starts bytes (.char c extra)
  /-- The list is the beginning of a character, of which bytes are missing. -/
  | incomplete (hcut : Charset.utf8.IsCutOff bytes) : Starts bytes .incomplete
  /-- Neither is the case. -/
  | malformed {n : Nat} (hmalformed : Malformed bytes n) : Starts bytes (.malformed n)

/-- Bytes are cut off just if they begin a character and are not all of it. -/
theorem isCutOff_iff :
    Charset.utf8.IsCutOff bytes ↔
      ∃ c, bytes <+: String.utf8EncodeChar c ∧ bytes ≠ String.utf8EncodeChar c := by
  constructor
  · rintro ⟨c, spelled, hspelled, hfront, hne⟩
    obtain rfl := Option.some.inj hspelled
    exact ⟨c, hfront, hne⟩
  · rintro ⟨c, hfront, hne⟩
    exact ⟨c, _, rfl, hfront, hne⟩

/-- The beginning of a character has no other character in front. -/
theorem not_prefix_of_isCutOff (hcut : Charset.utf8.IsCutOff bytes) (c : Char) :
    ¬ String.utf8EncodeChar c <+: bytes := by
  intro hc
  obtain ⟨d, hfront, hne⟩ := isCutOff_iff.mp hcut
  obtain rfl : d = c := eq_of_prefix (hc.trans hfront) (List.prefix_refl _)
  exact hne (hfront.eq_of_length (Nat.le_antisymm hfront.length_le hc.length_le))

/-- No bytes are malformed in two ways. -/
theorem Malformed.unique (hm : Malformed bytes m) (hn : Malformed bytes n) : n = m := by
  obtain ⟨part, hpart, hcut, rfl, hlongest⟩ := hm.exists_longest
  obtain ⟨other, hother, hcut', rfl, hlongest'⟩ := hn.exists_longest
  have hle := hlongest other hother hcut'
  have hge := hlongest' part hpart hcut
  rw [Nat.le_antisymm hle hge]

/-- A malformed part has one to three bytes. -/
theorem Malformed.bounds (hn : Malformed bytes n) : 1 ≤ n ∧ n ≤ 3 := by
  obtain ⟨part, -, hcut, rfl, -⟩ := hn.exists_longest
  have hlength := hcut.length_le
  omega

/-- A list starts with one thing at most. -/
theorem Starts.unique (hstarts : Starts bytes h) (hstarts' : Starts bytes h') : h' = h := by
  -- a beginning of one kind is none of another
  cases hstarts with
  | char hc hextra =>
    cases hstarts' with
    | char hd hextra' =>
      obtain rfl := eq_of_prefix hc hd
      rw [Nat.succ.inj (hextra'.symm.trans hextra)]
    | incomplete hcut => exact absurd hc (not_prefix_of_isCutOff hcut _)
    | malformed hn => exact absurd hc (hn.unconvertible _)
  | incomplete hcut =>
    cases hstarts' with
    | char hd _ => exact absurd hd (not_prefix_of_isCutOff hcut _)
    | incomplete _ => rfl
    | malformed hn => exact absurd hcut hn.not_isCutOff
  | malformed hm =>
    cases hstarts' with
    | char hd _ => exact absurd hd (hm.unconvertible _)
    | incomplete hcut => exact absurd hcut hm.not_isCutOff
    | malformed hn => rw [hm.unique hn]

/-! ## The window -/

/-- Nothing that is cut off fills the window. -/
theorem isCutOff_take_iff : Charset.utf8.IsCutOff (bytes.take 4) ↔ Charset.utf8.IsCutOff bytes := by
  constructor
  · intro hcut
    have hlength := hcut.length_le
    rw [List.length_take] at hlength
    rwa [List.take_of_length_le (by omega)] at hcut
  · intro hcut
    have hlength := hcut.length_le
    rwa [List.take_of_length_le (by omega)]

/-- A window of four bytes is enough to see four bytes. -/
theorem prefix_take_iff {part : List UInt8} (hlength : part.length ≤ 4) :
    part <+: bytes.take 4 ↔ part <+: bytes := by
  rw [List.prefix_take_iff]
  exact and_iff_left hlength

/-- A window of four bytes is enough to see a character. -/
theorem utf8EncodeChar_prefix_take_iff :
    String.utf8EncodeChar c <+: bytes.take 4 ↔ String.utf8EncodeChar c <+: bytes := by
  refine prefix_take_iff ?_
  rw [String.length_utf8EncodeChar]
  exact c.utf8Size_le_four

/-- What is malformed in a window of four bytes is malformed. -/
theorem Malformed.of_take (hn : Malformed (bytes.take 4) n) : Malformed bytes n := by
  obtain ⟨part, hpart, hcut, rfl, hlongest⟩ := hn.exists_longest
  refine ⟨fun c hc => hn.unconvertible c (utf8EncodeChar_prefix_take_iff.mpr hc),
    fun hcut => hn.not_isCutOff (isCutOff_take_iff.mpr hcut), part,
    hpart.trans (List.take_prefix 4 bytes), hcut, rfl, fun longer hlonger hcut' => ?_⟩
  have hlength := hcut'.length_le
  exact hlongest longer ((prefix_take_iff (by omega)).mpr hlonger) hcut'

/-- What the window starts with is what the list does. -/
theorem Starts.of_take (hstarts : Starts (bytes.take 4) h) : Starts bytes h := by
  cases hstarts with
  | char hc hextra => exact .char (utf8EncodeChar_prefix_take_iff.mp hc) hextra
  | incomplete hcut => exact .incomplete (isCutOff_take_iff.mp hcut)
  | malformed hn => exact .malformed hn.of_take

/-! ## Walking along the ranges -/

/-- A maximal subpart that is not left open is malformed. -/
theorem MaximalSubpart.malformed {part rest : List UInt8} (hpart : MaximalSubpart part rest)
    (hopen : ¬ Charset.utf8.IsCutOff (part ++ rest)) : Malformed (part ++ rest) part.length := by
  refine ⟨hpart.unconvertible, hopen, ?_⟩
  have hpos := List.length_pos_iff.mpr hpart.ne_nil
  have hlongest : ∀ longer, longer <+: part ++ rest → Charset.utf8.IsCutOff longer →
      longer.length ≤ part.length := by
    intro longer hlonger hcut
    obtain ⟨c, hfront, -⟩ := isCutOff_iff.mp hcut
    exact hpart.longest hlonger hfront
  by_cases hcut : Charset.utf8.IsCutOff part
  · exact ⟨part, List.prefix_append part rest, hcut, by omega, hlongest⟩
  · -- a part that begins no character is a single byte, and only the empty list is left in front of it
    have hone : part.length = 1 := by
      rcases hpart.begins with hone | ⟨c, hfront⟩
      · exact hone
      · refine absurd (isCutOff_iff.mpr ⟨c, hfront, fun heq => ?_⟩) hcut
        exact hpart.unconvertible c (heq ▸ List.prefix_append part rest)
    refine ⟨[], List.nil_prefix, Charset.utf8.isCutOff_nil, by simpa using hone,
      fun longer hlonger hcut' => ?_⟩
    have hle := hlongest longer hlonger hcut'
    have hne : longer.length ≠ part.length := fun heq =>
      hcut ((List.prefix_of_prefix_length_le hlonger (List.prefix_append part rest) heq.le).eq_of_length
        heq ▸ hcut')
    rw [List.length_nil]
    omega

/-- A list that is left open is cut off. -/
theorem isCutOff_of_head_eq_incomplete (hhead : head bytes = .incomplete) :
    Charset.utf8.IsCutOff bytes := by
  rcases bytes with _ | ⟨first, rest⟩
  · exact Charset.utf8.isCutOff_nil
  · obtain ⟨c, missing, hne, hc⟩ := exists_char_of_head_eq_incomplete hhead
    exact .of_append c missing (congrArg some hc) hne

/-- What is cut off is left open, for otherwise it would not become a character by more bytes. -/
theorem head_eq_incomplete_of_isCutOff (hcut : Charset.utf8.IsCutOff bytes) :
    head bytes = .incomplete := by
  rcases bytes with _ | ⟨first, rest⟩
  · rfl
  · obtain ⟨c, ⟨missing, hmissing⟩, -⟩ := isCutOff_iff.mp hcut
    by_contra hdecided
    obtain ⟨extra, hchar⟩ := head_of_prefix (List.prefix_refl (String.utf8EncodeChar c))
    rw [← hmissing, List.cons_append, head_append hdecided] at hchar
    obtain ⟨extra, tail, hc, rfl, -⟩ := head_eq_char_iff.mp hchar
    refine not_prefix_of_isCutOff hcut c ?_
    rw [hc, ← List.cons_append]
    exact List.prefix_append _ _

/-- What a list starts with is what one finds on walking along the ranges. -/
theorem starts_head (bytes : List UInt8) : Starts bytes (head bytes) := by
  rcases bytes with _ | ⟨first, rest⟩
  · exact .incomplete Charset.utf8.isCutOff_nil
  · cases hhead : head (first :: rest) with
    | char c n =>
      obtain ⟨extra, tail, hc, rfl, rfl⟩ := head_eq_char_iff.mp hhead
      refine .char ?_ (by rw [hc, List.length_cons])
      rw [hc, ← List.cons_append]
      exact List.prefix_append _ _
    | incomplete => exact .incomplete (isCutOff_of_head_eq_incomplete hhead)
    | malformed n =>
      have hopen : ¬ Charset.utf8.IsCutOff (first :: rest) := by
        intro hcut
        rw [head_eq_incomplete_of_isCutOff hcut] at hhead
        cases hhead
      -- the malformed part is a maximal one that nothing can complete
      obtain ⟨part, tail, heq, rfl, hpart⟩ := maximalSubpart_of_head_eq_malformed hhead
      rw [heq] at hopen ⊢
      exact .malformed (hpart.malformed hopen)

/-! ## Checks of byte strings -/

/-- Where bytes cease to be well formed, and why. -/
structure Flaw where
  /-- How many bytes in front are well formed. -/
  validUpTo : Nat
  /-- How many bytes behind them are malformed, unless the bytes just end too early. -/
  length? : Option Nat

/-- A check of whether bytes are well formed. -/
structure Validator where
  /-- The text of well-formed bytes, or else the flaw. -/
  check : List UInt8 → Except Flaw (List Char)

namespace Validator

/-- What is documented of a check. -/
structure Documented (v : Validator) : Prop where
  /-- A text is found in its bytes, and in no others. -/
  ok_iff {bytes : List UInt8} {text : List Char} :
    v.check bytes = .ok text ↔ text.flatMap String.utf8EncodeChar = bytes
  /-- The bytes up to the flaw are accepted. -/
  valid {bytes : List UInt8} {flaw : Flaw} (h : v.check bytes = .error flaw) :
    ∃ text, v.check (bytes.take flaw.validUpTo) = .ok text
  /-- No more of them are. -/
  maximal {bytes : List UInt8} {flaw : Flaw} (h : v.check bytes = .error flaw) {k : Nat}
    (hk : k ≤ bytes.length) {text : List Char} (hok : v.check (bytes.take k) = .ok text) :
    k ≤ flaw.validUpTo
  /-- The flaw has no length just where the end is reached inside a character. -/
  length?_eq_none_iff {bytes : List UInt8} {flaw : Flaw} (h : v.check bytes = .error flaw) :
    flaw.length? = none ↔ Charset.utf8.IsCutOff (bytes.drop flaw.validUpTo)
  /-- Otherwise its length is that of the bytes that are replaced as one. -/
  length?_eq_some {bytes : List UInt8} {flaw : Flaw} (h : v.check bytes = .error flaw) {n : Nat}
    (hn : flaw.length? = some n) :
    ∃ part rest, bytes.drop flaw.validUpTo = part ++ rest ∧ n = part.length ∧ MaximalSubpart part rest

/-! ### The decoder as a check -/

/-- The decoder, which has to take all bytes and ends where the first flaw is. -/
def decoding : Validator where
  check bytes :=
    let progress := Charset.utf8.decoder.code false bytes
    match progress.result with
    | .malformed n => .error ⟨progress.consumed, some n⟩
    | _ =>
      if progress.consumed = bytes.length then .ok ((Utf16.decode? progress.output).getD [])
      else .error ⟨progress.consumed, none⟩

/-- A flaw is found where coding stops. -/
theorem validUpTo_decoding {flaw : Flaw} (herror : decoding.check bytes = .error flaw) :
    flaw.validUpTo = (Charset.utf8.decoder.code false bytes).consumed := by
  simp only [decoding] at herror
  split at herror
  · rw [← Except.error.inj herror]
  · split at herror
    · cases herror
    · rw [← Except.error.inj herror]

/-- A text that was spelled has no flaw. -/
theorem decoding_flatMap (text : List Char) :
    decoding.check (text.flatMap String.utf8EncodeChar) = .ok text := by
  have hcode := Charset.utf8.decoder_rewrites.code_append
    (Spelling.ofText?_total String.utf8EncodeChar text) (Utf16.ofText?_spelling text) false []
  rw [List.append_nil, Coder.code_nil, Progress.followedBy, List.append_nil, Nat.add_zero] at hcode
  simp only [decoding, hcode, if_true, Utf16.decode?_flatMap_ofChar, Option.getD_some]

/-- The decoder takes a text, and all bytes that are left make a flaw where they begin. -/
theorem decoding_cases (bytes : List UInt8) :
    ∃ (text : List Char) (rest : List UInt8), bytes = text.flatMap String.utf8EncodeChar ++ rest ∧
      ((rest = [] ∧ decoding.check bytes = .ok text) ∨
        ∃ length?, decoding.check bytes =
            .error ⟨(text.flatMap String.utf8EncodeChar).length, length?⟩ ∧
          ((head rest = .incomplete ∧ length? = none) ∨
            ∃ n, head rest = .malformed n ∧ length? = some n)) := by
  obtain ⟨text, items, units, rest, result, hsource, htarget, rfl, hhalts, hcode⟩ :=
    Charset.utf8.decoder_rewrites.exists_text false bytes
  obtain rfl : text.flatMap String.utf8EncodeChar = items :=
    Option.some.inj ((Spelling.ofText?_total _ text).symm.trans hsource)
  refine ⟨text, rest, rfl, ?_⟩
  cases hhalts with
  | nil =>
    rw [List.append_nil]
    exact Or.inl ⟨rfl, decoding_flatMap text⟩
  | @stop first tail obstacle hstep =>
    -- coding has stopped in front of what is cut off, or malformed
    rcases Decoder.utf8_stop_cases hstep with ⟨hhead, hend⟩ | ⟨n, hhead, rfl, -⟩
    · obtain rfl := Decoder.eq_incomplete_of_cutOff hend
      refine Or.inr ⟨none, ?_, Or.inl ⟨hhead, rfl⟩⟩
      simp [decoding, hcode, Obstacle.result]
    · refine Or.inr ⟨some n, ?_, Or.inr ⟨n, hhead, rfl⟩⟩
      simp [decoding, hcode, Obstacle.result]

/-- Decoding as it is modelled keeps the promises of a validator. -/
theorem decoding_documented : decoding.Documented where
  ok_iff {bytes text} := by
    constructor
    · intro hok
      obtain ⟨found, rest, heq, ⟨rfl, hfound⟩ | ⟨length?, herror, -⟩⟩ := decoding_cases bytes
      · rw [hok] at hfound
        rw [Except.ok.inj hfound, heq, List.append_nil]
      · rw [hok] at herror
        cases herror
    · rintro rfl
      exact decoding_flatMap text
  valid {bytes flaw} h := by
    obtain ⟨text, rest, rfl, ⟨-, hok⟩ | ⟨length?, herror, -⟩⟩ := decoding_cases bytes
    · rw [h] at hok
      cases hok
    · rw [h] at herror
      obtain rfl := Except.error.inj herror
      rw [List.take_left]
      exact ⟨text, decoding_flatMap text⟩
  maximal {bytes flaw} h {k} hk {text} hok := by
    -- a text in front is taken at least
    have htext : text.flatMap String.utf8EncodeChar = bytes.take k := by
      obtain ⟨found, rest, heq, ⟨rfl, hfound⟩ | ⟨length?, herror, -⟩⟩ := decoding_cases (bytes.take k)
      · rw [hok] at hfound
        rw [Except.ok.inj hfound, heq, List.append_nil]
      · rw [hok] at herror
        cases herror
    have hle := Charset.utf8.decoder_rewrites.length_le_consumed
      (Spelling.ofText?_total String.utf8EncodeChar text) (Utf16.ofText?_spelling text) false
      (bytes.drop k)
    rw [htext, List.take_append_drop, List.length_take, Nat.min_eq_left hk] at hle
    rwa [validUpTo_decoding h]
  length?_eq_none_iff {bytes flaw} h := by
    obtain ⟨text, rest, rfl, ⟨-, hok⟩ | ⟨length?, herror, hwhy⟩⟩ := decoding_cases bytes
    · rw [h] at hok
      cases hok
    · rw [h] at herror
      obtain rfl := Except.error.inj herror
      rw [List.drop_left]
      rcases hwhy with ⟨hhead, rfl⟩ | ⟨n, hhead, rfl⟩
      · exact iff_of_true rfl (isCutOff_of_head_eq_incomplete hhead)
      · refine iff_of_false nofun fun hcut => ?_
        rw [head_eq_incomplete_of_isCutOff hcut] at hhead
        cases hhead
  length?_eq_some {bytes flaw} h {n} hn := by
    obtain ⟨text, rest, rfl, ⟨-, hok⟩ | ⟨length?, herror, hwhy⟩⟩ := decoding_cases bytes
    · rw [h] at hok
      cases hok
    · rw [h] at herror
      obtain rfl := Except.error.inj herror
      rw [List.drop_left]
      rcases hwhy with ⟨-, rfl⟩ | ⟨m, hhead, rfl⟩
      · cases hn
      · obtain rfl := Option.some.inj hn
        rcases rest with _ | ⟨first, rest⟩
        · cases hhead
        · exact maximalSubpart_of_head_eq_malformed hhead

end Validator

/-- The first character of a text. The empty text may become any other. -/
def headOfText : List Char → Head
  | [] => .incomplete
  | c :: _ => .char c ((String.utf8EncodeChar c).length - 1)

/-- What a list starts with by the word of a validator, which is asked about the first four bytes. If only
some of them are well formed, it is asked about those. -/
def headBy (v : Validator) (bytes : List UInt8) : Head :=
  let window := bytes.take 4
  match v.check window with
  | .ok text => headOfText text
  | .error flaw =>
    if 0 < flaw.validUpTo then
      match v.check (window.take flaw.validUpTo) with
      | .ok text => headOfText text
      | .error _ => headOfText []
    else
      match flaw.length? with
      | none => .incomplete
      | some n => .malformed n

theorem length_utf8EncodeChar_pos (c : Char) : 0 < (String.utf8EncodeChar c).length :=
  List.length_pos_iff.mpr String.utf8EncodeChar_ne_nil

/-- The first character of a text whose bytes stand in front, unless both are empty. -/
theorem starts_headOfText {text : List Char} (hfront : text.flatMap String.utf8EncodeChar <+: bytes)
    (hempty : text = [] → bytes = []) : Starts bytes (headOfText text) := by
  cases text with
  | nil =>
    rw [hempty rfl]
    exact .incomplete Charset.utf8.isCutOff_nil
  | cons c text =>
    have hpos := length_utf8EncodeChar_pos c
    refine .char ?_ (by omega)
    rw [List.flatMap_cons] at hfront
    exact (List.prefix_append _ _).trans hfront

variable {v : Validator}

/-- What a list starts with is what a validator finds in the window. -/
theorem starts_headBy (hv : v.Documented) (bytes : List UInt8) : Starts bytes (headBy v bytes) := by
  apply Starts.of_take
  rw [headBy]
  generalize bytes.take 4 = window
  cases hcheck : v.check window with
  | ok text =>
    -- all of the window is a text, maybe of several characters
    have htext := hv.ok_iff.mp hcheck
    refine starts_headOfText (by rw [htext]) ?_
    rintro rfl
    exact htext.symm
  | error flaw =>
    have hne : window ≠ [] := by
      rintro rfl
      rw [hv.ok_iff.mpr (show ([] : List Char).flatMap String.utf8EncodeChar = [] from rfl)] at hcheck
      cases hcheck
    dsimp only
    split
    · next hpos =>
      -- there is a character in front of the flaw
      obtain ⟨text, hok⟩ := hv.valid hcheck
      rw [hok]
      have htext := hv.ok_iff.mp hok
      refine starts_headOfText (by rw [htext]; exact List.take_prefix _ _) ?_
      rintro rfl
      rcases List.take_eq_nil_iff.mp htext.symm with hzero | hnil
      · omega
      · exact hnil
    · next hzero =>
      -- the flaw is that of the window itself
      have hdrop : window.drop flaw.validUpTo = window := by
        rw [Nat.eq_zero_of_not_pos hzero, List.drop_zero]
      have hnone := hv.length?_eq_none_iff hcheck
      rw [hdrop] at hnone
      cases hlength : flaw.length? with
      | none => exact .incomplete (hnone.mp hlength)
      | some n =>
        obtain ⟨part, rest, heq, rfl, hpart⟩ := hv.length?_eq_some hcheck hlength
        rw [hdrop] at heq
        rw [hlength] at hnone
        rw [heq] at hnone ⊢
        refine .malformed (hpart.malformed fun hcut => ?_)
        cases hnone.mpr hcut

/-- Looking at the first four bytes of any list is enough to tell what it starts with. Where a character
stands in front, that character is found; where the list is the beginning of one, this is said; and all
else is malformed, for as many bytes as begin a character, but one at least and three at most. A validator
that does what is documented finds the same in the window as one finds on walking along the ranges. -/
theorem headBy_eq_iff (hv : v.Documented) (bytes : List UInt8) :
    (∀ h, headBy v bytes = h ↔ Starts bytes h) ∧ head bytes = headBy v bytes ∧
      head (bytes.take 4) = headBy v bytes ∧
      ∀ n, headBy v bytes = .malformed n → 1 ≤ n ∧ n ≤ 3 := by
  have hstarts := starts_headBy hv bytes
  refine ⟨fun h => ⟨?_, fun hh => hh.unique hstarts⟩, hstarts.unique (starts_head bytes),
    hstarts.unique (starts_head (bytes.take 4)).of_take, fun n hn => ?_⟩
  · rintro rfl
    exact hstarts
  · rw [hn] at hstarts
    cases hstarts with
    | malformed hmalformed => exact hmalformed.bounds

/-- The window may end inside the second character, or go on behind the place where the first one breaks
off. A surrogate is refused at its second byte already. -/
theorem headBy_eq_iff_windows :
    Validator.decoding.Documented ∧
      headBy .decoding [0xC2, 0xA2, 0xF0, 0x9F, 0x98] = .char '¢' 1 ∧
      Starts [0xC2, 0xA2, 0xF0, 0x9F, 0x98] (.char '¢' 1) ∧
      headBy .decoding [0xF4, 0x8F, 0xBF, 0x41, 0x42] = .malformed 3 ∧
      headBy .decoding [0xED, 0xA0, 0x80] = .malformed 1 ∧
      headBy .decoding [0xF0, 0x9F, 0x98] = .incomplete ∧
      Charset.utf8.IsCutOff [0xF0, 0x9F, 0x98] := by
  have hv := Validator.decoding_documented
  obtain ⟨hchar, hcharHead, -⟩ := headBy_eq_iff hv [0xC2, 0xA2, 0xF0, 0x9F, 0x98]
  obtain ⟨-, hlongHead, -⟩ := headBy_eq_iff hv [0xF4, 0x8F, 0xBF, 0x41, 0x42]
  obtain ⟨-, hsurrogateHead, -⟩ := headBy_eq_iff hv [0xED, 0xA0, 0x80]
  obtain ⟨hopen, hopenHead, -⟩ := headBy_eq_iff hv [0xF0, 0x9F, 0x98]
  refine ⟨hv, hcharHead.symm, (hchar _).mp hcharHead.symm, hlongHead.symm, hsurrogateHead.symm,
    hopenHead.symm, ?_⟩
  cases (hopen _).mp hopenHead.symm with
  | incomplete hcut => exact hcut

end RawMemory.Utf8
