import Roadstead.ThinkBleed

/-!
# The stream repair agrees with the repair of the whole text

`rest r more` is what a repair in the state `r` still owes when `more` is all that is to come:
the reasoning and the content.  A piece of text moves what is owed to what has been relayed
(`consume_yields`), whatever follows it, and at the end of the stream what is owed is what
`settle` relays (`relay_settle`).  The state after a piece is pinned down by three facts
(`Sound`): an undecided buffer carries no marker, a buffer kept inside a trace is no tag, and
the buffer after a tag is half a line end at most.

A text whose marker comes late can be let go before the marker is complete.  `heldPart` is how
much of a text arrives before its marker is complete, and the results are about texts for
which that fits into what a stream holds.
-/

namespace Roadstead.ThinkBleed

open Text StreamRepair

/-! ### What a frame relays -/

/-- The delta of the first choice of a chunk. -/
def firstDelta : Json → Json.Fields
  | .obj fields =>
      match Json.Fields.get fields "choices" with
      | .arr (.obj choice :: _) => deltaOf choice
      | _ => []
  | _ => []

namespace Frame

/-- The content of a frame. -/
def content (f : Frame) : List Char := pieceOf (firstDelta f.parsed)

/-- The reasoning of a frame, under either key. -/
def reasoning (f : Frame) : List Char :=
  reasoningKeys.flatMap fun key => textOf ((firstDelta f.parsed).get key)

end Frame

/-- Reasoning and content, each a text. -/
abbrev Relayed := List Char × List Char

/-- What frames relay: the concatenated reasoning and the concatenated content. -/
def relay (frames : List Frame) : Relayed :=
  (frames.flatMap Frame.reasoning, frames.flatMap Frame.content)

/-- One after the other. -/
def Relayed.append (a b : Relayed) : Relayed := (a.1 ++ b.1, a.2 ++ b.2)

@[simp] theorem Relayed.append_mk (a b c d : List Char) :
    Relayed.append (a, b) (c, d) = (a ++ c, b ++ d) := rfl

@[simp] theorem Relayed.nil_append (a : Relayed) : Relayed.append ([], []) a = a := rfl

@[simp] theorem Relayed.append_nil (a : Relayed) : Relayed.append a ([], []) = a := by
  simp [Relayed.append]

theorem Relayed.append_assoc (a b c : Relayed) : (a.append b).append c = a.append (b.append c) := by
  simp [Relayed.append]

/-- What a chunk relays: its own content when it is relayed as it came. -/
def relayOut (piece : List Char) (out : Option (List Frame)) : Relayed := out.elim ([], piece) relay

@[simp] theorem relayOut_some (piece : List Char) (frames : List Frame) :
    relayOut piece (some frames) = relay frames := rfl

@[simp] theorem relay_nil : relay [] = ([], []) := rfl

theorem relay_append (frames frames' : List Frame) :
    relay (frames ++ frames') = (relay frames).append (relay frames') := by
  simp [relay, Relayed.append]

/-! ### The repair of a whole text -/

/-- The reasoning and the content of a whole text, the end of the reasoning not stripped. -/
def whole (closeOnly : Bool) (text : List Char) : Relayed :=
  if thinkOpen <+: lstrip text then
    match cut? thinkClose ((lstrip text).drop thinkOpen.length) with
    | none => (lstrip ((lstrip text).drop thinkOpen.length), [])
    | some (trace, rest) => (lstrip trace, afterTag rest)
  else if closeOnly then
    match cut? thinkClose text with
    | some (trace, rest) => (lstrip trace, afterTag rest)
    | none => ([], text)
  else ([], text)

theorem split_eq_none_iff {closeOnly : Bool} {text : List Char} :
    split closeOnly text = none ↔
      ¬thinkOpen <+: lstrip text ∧ (closeOnly = true → cut? thinkClose text = none) := by
  unfold split
  by_cases opens : thinkOpen <+: lstrip text
  · cases found : cut? thinkClose ((lstrip text).drop thinkOpen.length) <;> simp [opens, found]
  · cases closeOnly <;> cases found : cut? thinkClose text <;> simp [opens]

theorem whole_of_split_eq_none {closeOnly : Bool} {text : List Char}
    (none : split closeOnly text = none) : whole closeOnly text = ([], text) := by
  obtain ⟨noOpen, noClose⟩ := split_eq_none_iff.mp none
  rw [whole, if_neg noOpen]
  cases closeOnly with
  | false => rfl
  | true => rw [if_pos rfl, noClose rfl]

theorem whole_of_split_eq_some {closeOnly : Bool} {text : List Char} {parts : Parts}
    (found : split closeOnly text = some parts) :
    parts.answer = (whole closeOnly text).2 ∧ parts.reasoning = rstrip (whole closeOnly text).1 := by
  unfold split at found
  unfold whole
  by_cases opens : thinkOpen <+: lstrip text
  · cases cut : cut? thinkClose ((lstrip text).drop thinkOpen.length) <;>
      · simp only [opens, cut, if_true, Option.some.injEq] at found ⊢
        subst found
        exact ⟨rfl, rfl⟩
  · cases closeOnly with
    | false => simp [opens] at found
    | true =>
        cases cut : cut? thinkClose text with
        | none => simp [opens, cut] at found
        | some p =>
            simp only [opens, cut, if_true, if_false, Option.some.injEq] at found ⊢
            subst found
            exact ⟨rfl, rfl⟩

/-! ### How much of a text is held -/

/-- How much of a text arrives before its marker is complete. -/
def heldPart (closeOnly : Bool) (text : List Char) : ℕ :=
  if thinkOpen <+: lstrip text then
    text.length - (lstrip text).length + (thinkOpen.length - 1)
  else if closeOnly then
    match cut? thinkClose text with
    | some (trace, _) => trace.length + (thinkClose.length - 1)
    | none => 0
  else 0

/-- An opening tag that is not there yet leaves no room before it. -/
theorem length_le_of_open {buf more : List Char} (later : thinkOpen <+: lstrip (buf ++ more))
    (before : ¬thinkOpen <+: lstrip buf) :
    buf.length ≤ (buf ++ more).length - (lstrip (buf ++ more)).length + (thinkOpen.length - 1) := by
  by_cases empty : lstrip buf = []
  · have := (lstrip_suffix more).length_le
    rw [lstrip_append_of_eq_nil empty]
    simp only [List.length_append]
    omega
  · have front := (lstrip_suffix buf).length_le
    rw [lstrip_append_of_ne_nil empty] at later ⊢
    have short : (lstrip buf).length < thinkOpen.length := by
      by_contra long
      exact before (List.prefix_of_prefix_length_le later (List.prefix_append _ more) (not_lt.mp long))
    simp only [List.length_append]
    omega

/-- A closing tag that is not there yet leaves no room before it. -/
theorem length_le_of_close {buf more trace rest : List Char}
    (later : cut? thinkClose (buf ++ more) = some (trace, rest))
    (before : cut? thinkClose buf = none) : buf.length ≤ trace.length + (thinkClose.length - 1) := by
  by_contra long
  have shown : trace ++ thinkClose <+: buf := by
    refine List.prefix_of_prefix_length_le ?_ (List.prefix_append buf more) ?_
    · rw [eq_of_cut? later]
      exact List.prefix_append _ rest
    · have : 0 < thinkClose.length := by decide
      rw [List.length_append]
      omega
  obtain ⟨tail, rfl⟩ := shown
  refine cut?_ne_none_of_starts (List.prefix_append thinkClose tail)
    (cut?_eq_none_of_suffix before ?_)
  rw [List.append_assoc]
  exact List.suffix_append trace _

/-- A text that is about to open a trace has not closed one. -/
theorem cut?_close_of_open {buf more : List Char} (later : thinkOpen <+: lstrip (buf ++ more))
    (before : ¬thinkOpen <+: lstrip buf) : cut? thinkClose buf = none := by
  cases found : cut? thinkClose buf with
  | none => rfl
  | some parts =>
      -- so far there is white space and the beginning of the opening tag, which have no slash
      have whole : List.takeWhile isSpace (buf ++ more) ++ lstrip (buf ++ more) = buf ++ more :=
        List.takeWhile_append_dropWhile
      have lengths := congrArg List.length whole
      rw [List.length_append] at lengths
      have short : buf <+: List.takeWhile isSpace (buf ++ more) ++ thinkOpen := by
        refine List.prefix_of_prefix_length_le (List.prefix_append buf more) ?_ ?_
        · conv_rhs => rw [← whole]
          exact List.prefix_append_right_inj _ |>.mpr later
        · have := length_le_of_open later before
          rw [List.length_append]
          omega
      have slash : '/' ∈ buf := by
        rw [eq_of_cut? found]
        exact List.mem_append_left _ (List.mem_append_right _ (by decide))
      rcases List.mem_append.mp (short.subset slash) with space | tag
      · exact absurd (List.mem_takeWhile_imp space) (by decide)
      · exact absurd tag (by decide)

/-- A beginning of the text that shows no marker is part of what is held, if one comes. -/
theorem length_le_heldPart {closeOnly : Bool} {buf more : List Char}
    (before : split closeOnly buf = none) (later : split closeOnly (buf ++ more) ≠ none) :
    buf.length ≤ heldPart closeOnly (buf ++ more) := by
  obtain ⟨noOpen, noClose⟩ := split_eq_none_iff.mp before
  unfold heldPart
  split
  · rename_i opens
    exact length_le_of_open opens noOpen
  · rename_i other
    rw [Ne, split_eq_none_iff] at later
    cases closeOnly with
    | false => exact absurd ⟨other, by simp⟩ later
    | true =>
        cases found : cut? thinkClose (buf ++ more) with
        | none => exact absurd ⟨other, fun _ => found⟩ later
        | some parts => simpa [found] using length_le_of_close found (noClose rfl)

/-! ### What a repair still owes -/

theorem afterTag_append {text : List Char} (some : text ≠ []) (whole : text ≠ ['\r'])
    (more : List Char) : afterTag (text ++ more) = afterTag text ++ more := by
  cases text with
  | nil => exact absurd rfl some
  | cons c text =>
      by_cases newline : c = '\n'
      · subst newline
        rfl
      · by_cases ret : c = '\r'
        · subst ret
          cases text with
          | nil => exact absurd rfl whole
          | cons d text => by_cases newline : d = '\n' <;> simp [afterTag, newline]
        · simp [afterTag, newline, ret]

variable {r : StreamRepair}

namespace StreamRepair

/-- The white space before a trace is dropped until its first character. -/
def lead (stripLead : Bool) (text : List Char) : List Char :=
  if stripLead then lstrip text else text

/-- What is still to be relayed when `more` is all that is to come. -/
def rest (r : StreamRepair) (more : List Char) : Relayed :=
  match r.phase with
  | .undecided => whole r.holdClose (r.buf ++ more)
  | .inThink =>
      match cut? thinkClose (r.buf ++ more) with
      | some (trace, rest) => (lead r.stripReasoningLead trace, afterTag rest)
      | none => (lead r.stripReasoningLead (r.buf ++ more), [])
  | .answerLead => ([], afterTag (r.buf ++ more))
  | .pass => ([], more)

section Rest

variable {r : StreamRepair} {more : List Char}

theorem rest_undecided (phase : r.phase = .undecided) :
    r.rest more = whole r.holdClose (r.buf ++ more) := by
  simp only [rest, phase]

theorem rest_inThink_closed (phase : r.phase = .inThink) {trace text : List Char}
    (found : cut? thinkClose (r.buf ++ more) = some (trace, text)) :
    r.rest more = (lead r.stripReasoningLead trace, afterTag text) := by
  simp only [rest, phase, found]

theorem rest_inThink_open (phase : r.phase = .inThink)
    (none : cut? thinkClose (r.buf ++ more) = none) :
    r.rest more = (lead r.stripReasoningLead (r.buf ++ more), []) := by
  simp only [rest, phase, none]

theorem rest_answerLead (phase : r.phase = .answerLead) :
    r.rest more = ([], afterTag (r.buf ++ more)) := by
  simp only [rest, phase]

theorem rest_pass (phase : r.phase = .pass) : r.rest more = ([], more) := by
  simp only [rest, phase]

end Rest

/-- What the buffer can be in each phase. -/
structure Sound (r : StreamRepair) : Prop where
  key : r.key ∈ reasoningKeys
  undecided : r.phase = .undecided → split r.holdClose r.buf = none
  inThink : r.phase = .inThink → cut? thinkClose r.buf = none
  answerLead : r.phase = .answerLead → r.buf = [] ∨ r.buf = ['\r']

/-- How much an undecided repair holds. -/
def bound (r : StreamRepair) : ℕ := if r.holdClose then r.limit else prefixHoldChars

/-- The marker, if one comes, is complete before the repair has to decide. -/
def Fits (r : StreamRepair) (more : List Char) : Prop :=
  r.phase = .undecided → heldPart r.holdClose (r.buf ++ more) ≤ r.bound

/-! ### Single frames -/

theorem firstDelta_frame (r : StreamRepair) (delta : Json.Fields) :
    firstDelta (r.frame delta).parsed = delta := by
  simp [frame, firstDelta, deltaOf, Json.Fields.get, Json.Fields.get?_cons, Json.asObj?]

theorem relay_frame_reasoning (key : r.key ∈ reasoningKeys) (text : List Char) :
    relay [r.frame [(r.key, .str (.ofList text))]] = (text, []) := by
  rcases List.mem_pair.mp key with h | h <;>
    simp [relay, Frame.reasoning, Frame.content, firstDelta_frame, pieceOf, reasoningKeys, textOf,
      Json.Fields.get, Json.Fields.get?_cons, h]

theorem relay_content (r : StreamRepair) (text : List Char) :
    relay (r.content text) = ([], text) := by
  unfold content
  split
  · rename_i empty
    rw [empty, relay_nil]
  · simp [relay, Frame.reasoning, Frame.content, firstDelta_frame, pieceOf, reasoningKeys, textOf,
      Json.Fields.get, Json.Fields.get?_cons]

/-! ### The pieces of the state machine -/

theorem reasoning_eq (r : StreamRepair) (text : List Char) :
    r.reasoning text =
      if lead r.stripReasoningLead text = [] then ([], r)
      else
        ([r.frame [(r.key, .str (.ofList (lead r.stripReasoningLead text)))]],
          { r with
            stripReasoningLead := false
            reasoningChars := r.reasoningChars + (lead r.stripReasoningLead text).length }) := rfl

/-- Trace text is relayed, but for the white space before its first character. -/
theorem reasoning_spec (key : r.key ∈ reasoningKeys) (text : List Char) :
    ∃ stripLead chars,
      (r.reasoning text).2 = { r with stripReasoningLead := stripLead, reasoningChars := chars } ∧
      relay (r.reasoning text).1 = (lead r.stripReasoningLead text, []) ∧
      ∀ more, lead r.stripReasoningLead (text ++ more) =
        lead r.stripReasoningLead text ++ lead stripLead more := by
  rw [reasoning_eq]
  by_cases empty : lead r.stripReasoningLead text = []
  · refine ⟨r.stripReasoningLead, r.reasoningChars, ?_, ?_, fun more => ?_⟩
    · rw [if_pos empty]
    · rw [if_pos empty, empty, relay_nil]
    · rw [empty, List.nil_append]
      cases strips : r.stripReasoningLead with
      | true => exact lstrip_append_of_eq_nil (by simpa [lead, strips] using empty) more
      | false =>
          have none : text = [] := by simpa [lead, strips] using empty
          rw [none, List.nil_append]
  · refine ⟨false, r.reasoningChars + (lead r.stripReasoningLead text).length, ?_, ?_, fun more => ?_⟩
    · rw [if_neg empty]
    · rw [if_neg empty]
      exact relay_frame_reasoning key _
    · cases strips : r.stripReasoningLead with
      | true => exact lstrip_append_of_ne_nil (by simpa [lead, strips] using empty) more
      | false => rfl

/-- The text after a tag, and what follows it, lose one newline. -/
theorem answer_spec (key : r.key ∈ reasoningKeys) (text : List Char) :
    (r.answer text).2.Sound ∧ (r.answer text).2.phase ≠ .undecided ∧
      ∀ more, (relay (r.answer text).1).append ((r.answer text).2.rest more) =
        ([], afterTag (text ++ more)) := by
  unfold answer
  split
  · rename_i short
    exact ⟨⟨key, by simp, by simp, fun _ => short⟩, by simp, fun more => rfl⟩
  · rename_i long
    rw [not_or] at long
    refine ⟨⟨key, by simp [release], by simp [release], by simp [release]⟩, by simp [release], ?_⟩
    intro more
    rw [release, relay_content, afterTag_append long.1 long.2]
    rfl

theorem reasoningAnswer_spec (key : r.key ∈ reasoningKeys) (trace text : List Char) :
    (r.reasoningAnswer trace text).2.Sound ∧ (r.reasoningAnswer trace text).2.phase ≠ .undecided ∧
      ∀ more, (relay (r.reasoningAnswer trace text).1).append
        ((r.reasoningAnswer trace text).2.rest more) =
          (lead r.stripReasoningLead trace, afterTag (text ++ more)) := by
  obtain ⟨stripLead, chars, state, relayed, -⟩ := reasoning_spec key trace
  have key' : (r.reasoning trace).2.key ∈ reasoningKeys := by
    rw [state]
    exact key
  obtain ⟨sound, decided, owed⟩ := answer_spec key' text
  refine ⟨sound, decided, fun more => ?_⟩
  show (relay ((r.reasoning trace).1 ++ ((r.reasoning trace).2.answer text).1)).append
    (((r.reasoning trace).2.answer text).2.rest more) = _
  rw [relay_append, relayed, Relayed.append_assoc, owed]
  simp

/-- Inside a trace, all but the beginning of a tag is relayed. -/
theorem think_spec (key : r.key ∈ reasoningKeys) (phase : r.phase = .inThink) (piece : List Char) :
    (r.think piece).2.Sound ∧ (r.think piece).2.phase ≠ .undecided ∧
      ∀ more, r.rest (piece ++ more) =
        (relay (r.think piece).1).append ((r.think piece).2.rest more) := by
  cases found : cut? thinkClose (r.buf ++ piece) with
  | some parts =>
      obtain ⟨trace, text⟩ := parts
      rw [show r.think piece = { r with buf := [] }.reasoningAnswer trace text by
        simp only [think, found]]
      obtain ⟨sound, decided, owed⟩ :=
        reasoningAnswer_spec (r := { r with buf := [] }) key trace text
      refine ⟨sound, decided, fun more => ?_⟩
      have still := cut?_append found more
      rw [List.append_assoc] at still
      rw [owed, rest_inThink_closed phase still]
  | none =>
      set text := r.buf ++ piece with hText
      set keep := partialLen thinkClose text with hKeep
      rw [show r.think piece = { r with buf := text.drop (text.length - keep) }.reasoning
          (text.take (text.length - keep)) by
        simp only [think, ← hText, found, ← hKeep]]
      obtain ⟨stripLead, chars, state, relayed, carried⟩ :=
        reasoning_spec (r := { r with buf := text.drop (text.length - keep) }) key
          (text.take (text.length - keep))
      simp only at relayed carried
      rw [state]
      let next : StreamRepair := { r with
        buf := text.drop (text.length - keep), stripReasoningLead := stripLead, reasoningChars := chars }
      have inside : next.phase = .inThink := phase
      refine ⟨⟨key, by simp [phase], fun _ => ?_, by simp [phase]⟩, by simp [phase], fun more => ?_⟩
      · exact cut?_eq_none_of_suffix found (List.drop_suffix _ text)
      · have later := cut?_append_of_partial found more
        rw [hText, List.append_assoc, ← hText, ← hKeep] at later
        rw [relayed]
        cases cut : cut? thinkClose (text.drop (text.length - keep) ++ more) with
        | some parts =>
            rw [cut] at later
            show r.rest _ = Relayed.append _ (next.rest more)
            rw [rest_inThink_closed phase later, rest_inThink_closed inside cut, carried]
            rfl
        | none =>
            rw [cut] at later
            have whole := carried (text.drop (text.length - keep) ++ more)
            rw [← List.append_assoc, List.take_append_drop, hText, List.append_assoc] at whole
            show r.rest _ = Relayed.append _ (next.rest more)
            rw [rest_inThink_open phase later, rest_inThink_open inside cut, whole]
            rfl

/-- What a piece of content moves from what is owed to what has been relayed; a chunk that is
relayed as it came brings its own content. -/
structure Yields (r : StreamRepair) (piece : List Char) (out : Option (List Frame))
    (next : StreamRepair) : Prop where
  sound : next.Sound
  decided : out = none → next.phase = .pass
  owed : ∀ more, r.Fits (piece ++ more) →
    r.rest (piece ++ more) = (relayOut piece out).append (next.rest more)
  fits : ∀ more, r.Fits (piece ++ more) → next.Fits more

section Consume

variable {r : StreamRepair} (sound : r.Sound) {piece : List Char}

include sound

theorem consume_inThink (phase : r.phase = .inThink) :
    r.Yields piece (r.consume piece).1 (r.consume piece).2 := by
  obtain ⟨next, decided, owed⟩ := think_spec sound.key phase piece
  simp only [consume, phase]
  exact ⟨next, by simp, fun more _ => owed more, fun more _ undecided => absurd undecided decided⟩

theorem consume_answerLead (phase : r.phase = .answerLead) (some : piece ≠ []) :
    r.Yields piece (r.consume piece).1 (r.consume piece).2 := by
  have nonempty : r.buf ++ piece ≠ [] := by simp [some]
  by_cases half : r.buf ++ piece = ['\r']
  · let held : StreamRepair := { r with buf := r.buf ++ piece }
    have waits : held.phase = .answerLead := phase
    have here : r.consume piece = (Option.some [], held) := by simp [consume, phase, half, held]
    rw [here]
    refine ⟨⟨sound.key, by simp [waits], by simp [waits], fun _ => .inr half⟩, by simp, ?_, ?_⟩
    · intro more _
      show r.rest _ = Relayed.append ([], []) (held.rest more)
      rw [rest_answerLead phase, rest_answerLead waits, Relayed.nil_append, ← List.append_assoc]
    · intro more _ undecided
      exact absurd (phase.symm.trans undecided) (by simp)
  · have here : r.consume piece = (Option.some ({ r with buf := [] }.release (r.buf ++ piece)).1,
        ({ r with buf := [] }.release (r.buf ++ piece)).2) := by
      simp [consume, phase, half]
    rw [here]
    refine ⟨⟨sound.key, by simp [release], by simp [release], by simp [release]⟩, by simp, ?_, ?_⟩
    · intro more _
      rw [rest_answerLead phase, ← List.append_assoc, afterTag_append nonempty half, relayOut_some,
        release, relay_content]
      rfl
    · intro more _ undecided
      exact absurd undecided (by simp [release])

/-- The opening tag has been seen. -/
theorem consume_open (phase : r.phase = .undecided) (opens : thinkOpen <+: lstrip (r.buf ++ piece)) :
    r.Yields piece (r.consume piece).1 (r.consume piece).2 := by
  let inside : StreamRepair := { r with
    phase := .inThink, shape := some .openTag, stripReasoningLead := true, buf := [] }
  let body := (lstrip (r.buf ++ piece)).drop thinkOpen.length
  obtain ⟨next, decided, owed⟩ := think_spec (r := inside) sound.key rfl body
  have here : r.consume piece = (some (inside.think body).1, (inside.think body).2) := by
    simp only [consume, phase, if_pos opens]
    rfl
  rw [here]
  refine ⟨next, by simp, fun more _ => ?_, fun more _ undecided => absurd undecided decided⟩
  have ne : lstrip (r.buf ++ piece) ≠ [] := by
    intro empty
    rw [empty] at opens
    exact absurd (List.prefix_nil.mp opens) (by decide)
  have same : lstrip (r.buf ++ (piece ++ more)) = lstrip (r.buf ++ piece) ++ more := by
    rw [← List.append_assoc, lstrip_append_of_ne_nil ne]
  rw [rest_undecided phase, whole, same, if_pos (opens.trans (List.prefix_append _ more)),
    List.drop_append_of_le_length opens.length_le, relayOut_some, ← owed]
  cases cut : cut? thinkClose (body ++ more) with
  | none => exact (rest_inThink_open (r := inside) rfl cut).symm
  | some parts => exact (rest_inThink_closed (r := inside) rfl cut).symm

/-- The closing tag of a trace without an opening tag has been seen. -/
theorem consume_close (phase : r.phase = .undecided) (holds : r.holdClose = true)
    (noOpen : ¬thinkOpen <+: lstrip (r.buf ++ piece)) {trace text : List Char}
    (found : cut? thinkClose (r.buf ++ piece) = some (trace, text)) :
    r.Yields piece (r.consume piece).1 (r.consume piece).2 := by
  let moved : StreamRepair := { r with
    shape := some .closeOnly, stripReasoningLead := true, buf := [] }
  obtain ⟨next, decided, owed⟩ := reasoningAnswer_spec (r := moved) sound.key trace text
  have here : r.consume piece =
      (some (moved.reasoningAnswer trace text).1, (moved.reasoningAnswer trace text).2) := by
    simp [consume, phase, noOpen, holds, found, moved]
  rw [here]
  refine ⟨next, by simp, fun more _ => ?_, fun more _ undecided => absurd undecided decided⟩
  have still := cut?_append found more
  rw [List.append_assoc] at still
  -- the text is too long to become an opening tag
  have never : ¬thinkOpen <+: lstrip (r.buf ++ (piece ++ more)) := by
    intro opens
    rw [← List.append_assoc] at opens
    exact absurd found (by simp [cut?_close_of_open opens noOpen])
  rw [rest_undecided phase, whole, if_neg never, holds, if_pos rfl, still, relayOut_some, owed]
  rfl

/-- The text so far may still be the beginning of a trace. -/
theorem yields_held (phase : r.phase = .undecided)
    (none : split r.holdClose (r.buf ++ piece) = none) :
    r.Yields piece (some []) { r with buf := r.buf ++ piece } := by
  let held : StreamRepair := { r with buf := r.buf ++ piece }
  have waits : held.phase = .undecided := phase
  have longer (more) : held.buf ++ more = r.buf ++ (piece ++ more) := List.append_assoc _ _ _
  refine ⟨⟨sound.key, fun _ => none, by simp [phase], by simp [phase]⟩, by simp, ?_, ?_⟩
  · intro more _
    show r.rest _ = Relayed.append ([], []) (held.rest more)
    rw [rest_undecided phase, rest_undecided waits, longer, Relayed.nil_append]
  · intro more fits _
    show heldPart held.holdClose (held.buf ++ more) ≤ held.bound
    rw [longer]
    exact fits phase

/-- The text is no trace: what was held is let go. -/
theorem yields_decided (phase : r.phase = .undecided)
    (never : ∀ more, r.Fits (piece ++ more) → split r.holdClose (r.buf ++ (piece ++ more)) = none) :
    r.Yields piece (if r.buf ≠ [] then some (r.content (r.buf ++ piece)) else none)
      { r with buf := [], phase := .pass } := by
  refine ⟨⟨sound.key, by simp, by simp, by simp⟩, fun _ => rfl, fun more fits => ?_, ?_⟩
  · have all : relayOut piece (if r.buf ≠ [] then some (r.content (r.buf ++ piece)) else none) =
        ([], r.buf ++ piece) := by
      split
      · exact relay_content r _
      · rename_i empty
        rw [not_not.mp empty]
        rfl
    rw [rest_undecided phase, whole_of_split_eq_none (never more fits), all, rest_pass rfl,
      Relayed.append_mk, List.append_assoc, List.append_nil]
  · intro more _ undecided
    exact absurd undecided (by simp)

omit sound in
/-- The buffer is neither a trace nor short enough to become one. -/
theorem consume_decides (phase : r.phase = .undecided)
    (noOpen : ¬thinkOpen <+: lstrip (r.buf ++ piece))
    (decides : if r.holdClose then
        cut? thinkClose (r.buf ++ piece) = none ∧ ¬(r.buf ++ piece).length ≤ r.limit
      else ¬((lstrip (r.buf ++ piece) = [] ∨ lstrip (r.buf ++ piece) <+: thinkOpen) ∧
        (r.buf ++ piece).length ≤ prefixHoldChars)) :
    r.consume piece =
      (if r.buf ≠ [] then some (r.content (r.buf ++ piece)) else none,
        { r with buf := [], phase := .pass }) := by
  cases holds : r.holdClose with
  | true =>
      rw [holds, if_pos rfl] at decides
      simp only [consume, phase, if_neg noOpen, holds, if_true, decides.1, if_neg decides.2]
      split <;> rfl
  | false =>
      rw [holds, if_neg (by simp)] at decides
      simp only [consume, phase, if_neg noOpen, holds, Bool.false_eq_true, if_false, if_neg decides]
      split <;> rfl

omit sound in
/-- No marker comes any more once the text is longer than what is held. -/
theorem split_eq_none_of_long (phase : r.phase = .undecided)
    (before : split r.holdClose (r.buf ++ piece) = none) (long : r.bound < (r.buf ++ piece).length)
    {more : List Char} (fits : r.Fits (piece ++ more)) :
    split r.holdClose (r.buf ++ (piece ++ more)) = none := by
  by_contra later
  rw [← List.append_assoc] at later
  have held := length_le_heldPart before later
  have room := fits phase
  rw [← List.append_assoc] at room
  omega

/-- A piece of content moves what is owed to what is relayed. -/
theorem consume_yields (active : r.phase ≠ .pass) (some : piece ≠ []) :
    r.Yields piece (r.consume piece).1 (r.consume piece).2 := by
  cases phase : r.phase with
  | pass => exact absurd phase active
  | inThink => exact consume_inThink sound phase
  | answerLead => exact consume_answerLead sound phase some
  | undecided =>
      by_cases opens : thinkOpen <+: lstrip (r.buf ++ piece)
      · exact consume_open sound phase opens
      · cases holds : r.holdClose with
        | true =>
            cases found : cut? thinkClose (r.buf ++ piece) with
            | some parts => exact consume_close sound phase holds opens found
            | none =>
                have before : split r.holdClose (r.buf ++ piece) = none :=
                  split_eq_none_iff.mpr ⟨opens, fun _ => found⟩
                by_cases short : (r.buf ++ piece).length ≤ r.limit
                · have here : r.consume piece = (Option.some [], { r with buf := r.buf ++ piece }) := by
                    simp only [consume, phase, if_neg opens, holds, if_true, found, if_pos short]
                  rw [here]
                  exact yields_held sound phase before
                · rw [consume_decides phase opens (by simpa [holds, found] using short)]
                  refine yields_decided sound phase fun more fits => ?_
                  refine split_eq_none_of_long phase before ?_ fits
                  simpa [bound, holds] using short
        | false =>
            have before : split r.holdClose (r.buf ++ piece) = none :=
              split_eq_none_iff.mpr ⟨opens, by simp [holds]⟩
            by_cases waits : (lstrip (r.buf ++ piece) = [] ∨ lstrip (r.buf ++ piece) <+: thinkOpen) ∧
                (r.buf ++ piece).length ≤ prefixHoldChars
            · have here : r.consume piece = (Option.some [], { r with buf := r.buf ++ piece }) := by
                simp only [consume, phase, if_neg opens, holds, Bool.false_eq_true, if_false,
                  if_pos waits]
              rw [here]
              exact yields_held sound phase before
            · rw [consume_decides phase opens (by simpa [holds] using waits)]
              refine yields_decided sound phase fun more fits => ?_
              by_cases long : r.bound < (r.buf ++ piece).length
              · exact split_eq_none_of_long phase before long fits
              · rw [not_and', not_or] at waits
                obtain ⟨ne, other⟩ := waits (by simpa [bound, holds] using long)
                refine split_eq_none_iff.mpr ⟨fun later => ?_, by simp [holds]⟩
                rw [← List.append_assoc, lstrip_append_of_ne_nil ne] at later
                rcases List.prefix_or_prefix_of_prefix later (List.prefix_append _ more) with h | h
                · exact opens h
                · exact other h

end Consume

/-- At the end of the stream what is owed is relayed. -/
theorem relay_settle (sound : r.Sound) : relay r.settle.1 = r.rest [] := by
  cases phase : r.phase with
  | undecided =>
      rw [rest_undecided phase, List.append_nil, whole_of_split_eq_none (sound.undecided phase)]
      simp only [settle, phase, relay_content]
  | answerLead =>
      rw [rest_answerLead phase, List.append_nil]
      simp only [settle, phase, relay_content]
      rcases sound.answerLead phase with h | h <;> rw [h] <;> rfl
  | inThink =>
      have open_ : cut? thinkClose (r.buf ++ []) = none := by
        rw [List.append_nil]
        exact sound.inThink phase
      rw [rest_inThink_open phase open_, List.append_nil]
      simp only [settle, phase]
      obtain ⟨-, -, -, relayed, -⟩ := reasoning_spec (r := { r with
        shape := if r.shape = some .openTag then some .unclosed else r.shape }) sound.key r.buf
      rw [phase] at relayed
      exact relayed
  | pass =>
      rw [rest_pass phase]
      simp only [settle, phase, relay_nil]

theorem phase_settle (r : StreamRepair) : r.settle.2.phase = .pass := by
  cases phase : r.phase <;> simp [settle, phase]

end StreamRepair

/-! ### Chunks -/

/-- A chunk whose first choice carries content or nothing, and may end the stream. -/
structure ContentChunk where
  fields : Json.Fields
  choice : Json.Fields
  others : List Json
  /-- The bytes it came in. -/
  data : String
  noError : Json.Fields.has fields "error" = false
  choices : Json.Fields.get fields "choices" = .arr (.obj choice :: others)
  index : ((Json.Fields.get? choice "index").getD (.int 0)).eqInt 0 = true
  noReasoning : engineSplits (deltaOf choice) = false
  noToolCalls : (Json.Fields.get (deltaOf choice) "tool_calls").truthy = false

namespace ContentChunk

/-- The chunk as it is fed. -/
def fed (chunk : ContentChunk) : Json × String := (.obj chunk.fields, chunk.data)

/-- The content. -/
def piece (chunk : ContentChunk) : List Char := pieceOf (deltaOf chunk.choice)

/-- The chunk has a finish reason. -/
def finishes (chunk : ContentChunk) : Bool :=
  (Json.Fields.get chunk.choice "finish_reason").truthy

variable (chunk : ContentChunk)

theorem no_reasoning {delta : Json.Fields} (none : engineSplits delta = false) :
    (reasoningKeys.flatMap fun key => textOf (delta.get key)) = [] := by
  rw [engineSplits, List.any_eq_false] at none
  refine List.flatMap_eq_nil_iff.mpr fun key mem => ?_
  simpa using none key mem

/-- A chunk that is relayed as it came brings its own content. -/
theorem relay_original : relay [⟨.obj chunk.fields, some chunk.data⟩] = ([], chunk.piece) := by
  have delta : firstDelta (.obj chunk.fields) = deltaOf chunk.choice := by
    simp only [firstDelta, chunk.choices]
  simp [relay, Frame.reasoning, Frame.content, delta, no_reasoning chunk.noReasoning, piece]

/-- What is left of a chunk without its content relays no text. -/
theorem relay_residual :
    relay [⟨.obj (Json.Fields.set chunk.fields "choices"
      (.arr (.obj (Json.Fields.set chunk.choice "delta"
        (.obj (Json.Fields.erase (deltaOf chunk.choice) "content"))) :: chunk.others))), none⟩] =
      ([], []) := by
  have delta : firstDelta (.obj (Json.Fields.set chunk.fields "choices"
      (.arr (.obj (Json.Fields.set chunk.choice "delta"
        (.obj (Json.Fields.erase (deltaOf chunk.choice) "content"))) :: chunk.others)))) =
      Json.Fields.erase (deltaOf chunk.choice) "content" := by
    simp [firstDelta, deltaOf, Json.asObj?]
  have kept : engineSplits (Json.Fields.erase (deltaOf chunk.choice) "content") =
      engineSplits (deltaOf chunk.choice) := by
    simp [engineSplits, reasoningKeys, Json.Fields.get_erase_of_ne]
  have none : pieceOf (Json.Fields.erase (deltaOf chunk.choice) "content") = [] := by
    simp [pieceOf, Json.Fields.get, textOf]
  simp [relay, Frame.reasoning, Frame.content, delta, none,
    no_reasoning (kept.trans chunk.noReasoning)]

/-- The frame that keeps the fields of a chunk, after the frames of its content. -/
inductive Tail : List Frame → Prop
  | original : chunk.piece = [] → Tail [⟨.obj chunk.fields, some chunk.data⟩]
  | residual : Tail [⟨.obj (Json.Fields.set chunk.fields "choices"
      (.arr (.obj (Json.Fields.set chunk.choice "delta"
        (.obj (Json.Fields.erase (deltaOf chunk.choice) "content"))) :: chunk.others))), none⟩]
  | gone : chunk.piece ≠ [] → chunk.finishes = false → Tail []

theorem Tail.silent {chunk : ContentChunk} {tail : List Frame} (kept : chunk.Tail tail) :
    relay tail = ([], []) := by
  cases kept with
  | original empty => rw [chunk.relay_original, empty]
  | residual => exact chunk.relay_residual
  | gone => rfl

end ContentChunk

namespace StreamRepair

variable {r : StreamRepair} (chunk : ContentChunk)

theorem feed_content (active : r.phase ≠ .pass) :
    r.feed chunk.fed.1 chunk.fed.2 =
      .ok (r.feedChoice chunk.fields chunk.data chunk.choice chunk.others) := by
  simp [feed, ContentChunk.fed, active, chunk.noError, firstChoice, chunk.choices, chunk.index,
    bind, Except.bind]

/-- What a chunk of content does, on the way and at the end. -/
structure Feeds (r : StreamRepair) (piece : List Char) (finishes : Bool) (frames : List Frame)
    (next : StreamRepair) : Prop where
  sound : next.Sound
  onTheWay : finishes = false → ∀ more, r.Fits (piece ++ more) →
    r.rest (piece ++ more) = (relay frames).append (next.rest more) ∧ next.Fits more
  atTheEnd : finishes = true → r.Fits piece → r.rest piece = relay frames

theorem key_settle (r : StreamRepair) (key : r.key ∈ reasoningKeys) : r.settle.2.key = r.key := by
  cases phase : r.phase with
  | inThink =>
      obtain ⟨stripLead, chars, state, -⟩ := reasoning_spec (r := { r with
        shape := if r.shape = some .openTag then some .unclosed else r.shape }) key r.buf
      simp only [settle, phase] at state ⊢
      rw [state]
  | _ => simp [settle, phase]

theorem sound_of_pass (key : r.key ∈ reasoningKeys) (phase : r.phase = .pass) :
    r.Sound := ⟨key, by simp [phase], by simp [phase], by simp [phase]⟩

theorem Sound.settle (sound : r.Sound) : r.settle.2.Sound :=
  sound_of_pass ((key_settle r sound.key).symm ▸ sound.key) (phase_settle r)

/-- What the content of a chunk yields; a chunk without content yields nothing. -/
theorem piece_yields (sound : r.Sound) (active : r.phase ≠ .pass) (piece : List Char) :
    r.Yields piece (if piece = [] then (some [], r) else r.consume piece).1
      (if piece = [] then (some [], r) else r.consume piece).2 := by
  by_cases empty : piece = []
  · rw [if_pos empty]
    exact ⟨sound, by simp, fun more _ => by rw [empty]; rfl, fun more fits => by simpa [empty] using fits⟩
  · rw [if_neg empty]
    exact consume_yields sound active empty

section FeedChoice

variable {next : StreamRepair}

theorem feedChoice_none
    (consumed : (if chunk.piece = [] then (some [], { r with last := chunk.fields })
      else { r with last := chunk.fields }.consume chunk.piece) = (none, next)) :
    r.feedChoice chunk.fields chunk.data chunk.choice chunk.others =
      ([⟨.obj chunk.fields, some chunk.data⟩], next) := by
  unfold ContentChunk.piece at consumed
  simp only [feedChoice, chunk.noReasoning, Bool.false_eq_true, if_false, consumed]

/-- The frames of the content, what is settled at the end, and a frame without text. -/
theorem feedChoice_some {frames : List Frame}
    (consumed : (if chunk.piece = [] then (some [], { r with last := chunk.fields })
      else { r with last := chunk.fields }.consume chunk.piece) = (some frames, next)) :
    ∃ tail, chunk.Tail tail ∧
      r.feedChoice chunk.fields chunk.data chunk.choice chunk.others =
        (frames ++ (if chunk.finishes then next.settle.1 else []) ++ tail,
          if chunk.finishes then next.settle.2 else next) := by
  unfold ContentChunk.piece at consumed
  simp only [feedChoice, chunk.noReasoning, chunk.noToolCalls, Bool.false_eq_true, if_false,
    consumed, false_or]
  by_cases empty : pieceOf (deltaOf chunk.choice) = []
  · refine ⟨[⟨.obj chunk.fields, some chunk.data⟩], .original empty, ?_⟩
    cases ends : chunk.finishes <;> unfold ContentChunk.finishes at ends <;> simp [empty, ends]
  · simp only [if_neg empty]
    cases ends : chunk.finishes <;> unfold ContentChunk.finishes at ends
    · by_cases none : Json.Fields.erase (deltaOf chunk.choice) "content" = []
      · exact ⟨[], .gone empty ends, by simp [ends, none]⟩
      · exact ⟨_, .residual, by simp [ends, none]⟩
    · exact ⟨_, .residual, by simp [ends]⟩

/-- A chunk of content moves what is owed, and the last one leaves nothing owed. -/
theorem feedChoice_feeds (sound : r.Sound) (active : r.phase ≠ .pass) :
    r.Feeds chunk.piece chunk.finishes
      (r.feedChoice chunk.fields chunk.data chunk.choice chunk.others).1
      (r.feedChoice chunk.fields chunk.data chunk.choice chunk.others).2 := by
  let seen : StreamRepair := { r with last := chunk.fields }
  have seenSound : seen.Sound := ⟨sound.key, sound.undecided, sound.inThink, sound.answerLead⟩
  have yields := piece_yields seenSound active chunk.piece
  have same (more) : r.rest more = seen.rest more := rfl
  have whole : seen.Fits (chunk.piece ++ []) ↔ r.Fits chunk.piece := by
    rw [List.append_nil]
    exact Iff.rfl
  generalize consumed : (if chunk.piece = [] then (some [], seen) else seen.consume chunk.piece) =
    result at yields
  obtain ⟨out, next⟩ := result
  dsimp only at yields
  cases out with
  | none =>
      rw [feedChoice_none chunk consumed]
      refine ⟨yields.sound, fun _ more fits => ?_, fun _ fits => ?_⟩
      · rw [same, yields.owed more fits, chunk.relay_original]
        exact ⟨rfl, yields.fits more fits⟩
      · have all := yields.owed [] (whole.mpr fits)
        rw [List.append_nil, rest_pass (yields.decided rfl), Relayed.append_nil] at all
        rw [same, all, chunk.relay_original]
        rfl
  | some frames =>
      obtain ⟨tail, kept, here⟩ := feedChoice_some chunk consumed
      have silent := kept.silent
      rw [here]
      cases chunk.finishes with
      | false =>
          refine ⟨yields.sound, fun _ more fits => ?_, by simp⟩
          rw [same, yields.owed more fits]
          simp only [Bool.false_eq_true, if_false, List.append_nil, relay_append, silent,
            Relayed.append_nil]
          exact ⟨rfl, yields.fits more fits⟩
      | true =>
          refine ⟨yields.sound.settle, by simp, fun _ fits => ?_⟩
          have all := yields.owed [] (whole.mpr fits)
          rw [List.append_nil] at all
          simp only [if_true, relay_append, silent, Relayed.append_nil, relay_settle yields.sound]
          rw [same, all]
          rfl

end FeedChoice

theorem feed_feeds (sound : r.Sound) : ∃ frames next,
    r.feed chunk.fed.1 chunk.fed.2 = .ok (frames, next) ∧
      r.Feeds chunk.piece chunk.finishes frames next := by
  by_cases phase : r.phase = .pass
  · refine ⟨[⟨.obj chunk.fields, some chunk.data⟩], r, by simp [feed, phase, ContentChunk.fed], ?_⟩
    refine ⟨sound, fun _ more _ => ?_, fun _ _ => ?_⟩
    · rw [rest_pass phase, rest_pass phase, chunk.relay_original]
      exact ⟨rfl, fun undecided => absurd (phase.symm.trans undecided) (by simp)⟩
    · rw [rest_pass phase, chunk.relay_original]
  · exact ⟨_, _, feed_content chunk phase, feedChoice_feeds chunk sound phase⟩

/-- The text that chunks bring. -/
def textOfChunks (chunks : List ContentChunk) : List Char := chunks.flatMap ContentChunk.piece

theorem textOfChunks_cons (chunk : ContentChunk) (chunks : List ContentChunk) :
    textOfChunks (chunk :: chunks) = chunk.piece ++ textOfChunks chunks := rfl

/-- Chunks that do not end the stream move what is owed to what is relayed. -/
theorem feedAll_feeds {chunks : List ContentChunk} (sound : r.Sound)
    (going : ∀ chunk ∈ chunks, chunk.finishes = false) : ∃ frames next,
      r.feedAll (chunks.map ContentChunk.fed) = .ok (frames, next) ∧ next.Sound ∧
        ∀ more, r.Fits (textOfChunks chunks ++ more) →
          r.rest (textOfChunks chunks ++ more) = (relay frames).append (next.rest more) ∧
            next.Fits more := by
  induction chunks generalizing r with
  | nil => exact ⟨[], r, rfl, sound, fun more fits => ⟨rfl, fits⟩⟩
  | cons chunk chunks ih =>
      obtain ⟨frames, next, fed, feeds⟩ := feed_feeds chunk sound
      obtain ⟨frames', last, fedAll, lastSound, owed⟩ :=
        ih feeds.sound fun chunk mem => going chunk (List.mem_cons_of_mem _ mem)
      refine ⟨frames ++ frames', last, ?_, lastSound, fun more fits => ?_⟩
      · simp [feedAll, fed, fedAll, bind, Except.bind]
      · rw [textOfChunks_cons, List.append_assoc] at fits ⊢
        obtain ⟨first, fits⟩ := feeds.onTheWay (going chunk List.mem_cons_self) _ fits
        obtain ⟨later, fits⟩ := owed more fits
        exact ⟨by rw [first, later, relay_append, Relayed.append_assoc], fits⟩

theorem feedAll_concat (chunks : List (Json × String)) (chunk : Json × String) :
    r.feedAll (chunks ++ [chunk]) = (do
      let (frames, next) ← r.feedAll chunks
      let (frames', last) ← next.feed chunk.1 chunk.2
      .ok (frames ++ frames', last)) := by
  induction chunks generalizing r with
  | nil => cases h : r.feed chunk.1 chunk.2 <;> simp [feedAll, bind, Except.bind, h]
  | cons first chunks ih =>
      rw [List.cons_append, feedAll, feedAll]
      cases h : r.feed first.1 first.2 with
      | error e => rfl
      | ok p =>
          simp only [bind, Except.bind] at ih ⊢
          rw [ih]
          cases p.2.feedAll chunks with
          | error e => rfl
          | ok q =>
              simp only
              cases q.2.feed chunk.1 chunk.2 with
              | error e => rfl
              | ok last => simp

/-- The frames of a whole stream: what is still held is released by `finish`, unless a finish
chunk has done so. -/
def served (r : StreamRepair) (chunks : List ContentChunk) : Except Unit (List Frame) := do
  let (frames, r) ← r.feedAll (chunks.map ContentChunk.fed)
  if chunks.any ContentChunk.finishes then .ok frames else .ok (frames ++ r.finish.1)

/-- All that a repair owed for the text has been relayed at the end. -/
theorem relay_served {chunks : List ContentChunk} (sound : r.Sound)
    (ends : ∀ chunk ∈ chunks.dropLast, chunk.finishes = false)
    (fits : r.Fits (textOfChunks chunks)) :
    ∃ frames, r.served chunks = .ok frames ∧ relay frames = r.rest (textOfChunks chunks) := by
  by_cases finished : chunks.any ContentChunk.finishes = true
  · obtain ⟨before, last, rfl⟩ : ∃ before last, chunks = before ++ [last] := by
      rcases List.eq_nil_or_concat chunks with rfl | ⟨before, last, rfl⟩
      · simp at finished
      · exact ⟨before, last, List.concat_eq_append ..⟩
    rw [List.dropLast_concat] at ends
    have finishes : last.finishes = true := by
      obtain ⟨chunk, mem, finishes⟩ := List.any_eq_true.mp finished
      rcases List.mem_append.mp mem with mem | mem
      · exact absurd finishes (by simp [ends chunk mem])
      · exact List.mem_singleton.mp mem ▸ finishes
    have text : textOfChunks (before ++ [last]) = textOfChunks before ++ last.piece := by
      simp [textOfChunks]
    rw [text] at fits ⊢
    obtain ⟨frames, next, fedAll, nextSound, owed⟩ := feedAll_feeds sound ends
    obtain ⟨frames', final, fed, feeds⟩ := feed_feeds last nextSound
    obtain ⟨first, fits⟩ := owed _ fits
    refine ⟨frames ++ frames', ?_, ?_⟩
    · rw [served, List.map_append, List.map_singleton, feedAll_concat, fedAll]
      simp [bind, Except.bind, fed, finished]
    · rw [relay_append, first, feeds.atTheEnd finishes fits]
  · have going : ∀ chunk ∈ chunks, chunk.finishes = false := by
      simpa using finished
    obtain ⟨frames, next, fedAll, nextSound, owed⟩ := feedAll_feeds sound going
    obtain ⟨all, -⟩ := owed [] (by simpa using fits)
    refine ⟨frames ++ next.finish.1, ?_, ?_⟩
    · simp [served, fedAll, bind, Except.bind, finished]
    · rw [List.append_nil] at all
      rw [relay_append, all, StreamRepair.finish, relay_settle nextSound]

theorem split_nil (closeOnly : Bool) : split closeOnly [] = none := by
  cases closeOnly <;> decide

theorem sound_new (holdClose : Bool) {key : String} (limit : ℕ) (keyed : key ∈ reasoningKeys) :
    Sound { holdClose := holdClose, key := key, limit := limit } :=
  ⟨keyed, fun _ => split_nil holdClose, by simp, by simp⟩

end StreamRepair

/-- However a text is cut into chunks, the stream relays what `_split` makes of the whole text;
only the end of the reasoning is not stripped. -/
theorem served_eq_split {closeOnly : Bool} {key : String} {limit : ℕ} {chunks : List ContentChunk}
    (keyed : key ∈ reasoningKeys) (ends : ∀ chunk ∈ chunks.dropLast, chunk.finishes = false)
    (held : heldPart closeOnly (textOfChunks chunks) ≤ if closeOnly then limit else prefixHoldChars) :
    ∃ frames,
      served { holdClose := closeOnly, key := key, limit := limit } chunks = .ok frames ∧
      frames.flatMap Frame.content =
        ((split closeOnly (textOfChunks chunks)).map Parts.answer).getD (textOfChunks chunks) ∧
      rstrip (frames.flatMap Frame.reasoning) =
        ((split closeOnly (textOfChunks chunks)).map Parts.reasoning).getD [] := by
  obtain ⟨frames, served, relayed⟩ := relay_served (sound_new closeOnly limit keyed) ends
    (fun _ => held)
  refine ⟨frames, served, ?_⟩
  rw [rest_undecided rfl, List.nil_append] at relayed
  have content : frames.flatMap Frame.content = (whole closeOnly (textOfChunks chunks)).2 :=
    congrArg Prod.snd relayed
  have reasoning : frames.flatMap Frame.reasoning = (whole closeOnly (textOfChunks chunks)).1 :=
    congrArg Prod.fst relayed
  rw [content, reasoning]
  cases found : split closeOnly (textOfChunks chunks) with
  | none =>
      rw [whole_of_split_eq_none found]
      exact ⟨rfl, rfl⟩
  | some parts =>
      obtain ⟨answer, trace⟩ := whole_of_split_eq_some found
      exact ⟨answer.symm, trace.symm⟩

/-- The chunk of an engine. -/
def ContentChunk.ofContent (content : String) (finishReason : Json) : ContentChunk where
  fields := [("choices", .arr [.obj [("index", .int 0), ("delta", .obj [("content", .str content)]),
    ("finish_reason", finishReason)]])]
  choice := [("index", .int 0), ("delta", .obj [("content", .str content)]),
    ("finish_reason", finishReason)]
  others := []
  data := ""
  noError := by simp [Json.Fields.has, Json.Fields.get?]
  choices := by simp [Json.Fields.get, Json.Fields.get?]
  index := by simp [Json.Fields.get?, Json.eqInt]
  noReasoning := by
    simp [engineSplits, reasoningKeys, deltaOf, Json.Fields.get, Json.Fields.get?, Json.asObj?, textOf]
  noToolCalls := by simp [deltaOf, Json.Fields.get, Json.Fields.get?, Json.asObj?, Json.truthy]

/-- Both tags and the line end after them are cut in two. -/
theorem served_eq_split_cut_tags :
    ∃ frames,
      served { holdClose := false, key := "reasoning" }
        [.ofContent " <thi" .null, .ofContent "nk> why</th" .null, .ofContent "ink>\r" .null,
          .ofContent "\nanswer" (.str "stop")] = .ok frames ∧
      frames.flatMap Frame.content = "answer".toList ∧
      rstrip (frames.flatMap Frame.reasoning) = "why".toList := by
  obtain ⟨frames, served, content, reasoning⟩ :=
    @served_eq_split false "reasoning" holdLimitChars
      [.ofContent " <thi" .null, .ofContent "nk> why</th" .null, .ofContent "ink>\r" .null,
        .ofContent "\nanswer" (.str "stop")] (by decide) (by decide) (by decide)
  exact ⟨frames, served, content.trans (by decide), reasoning.trans (by decide)⟩

end Roadstead.ThinkBleed
