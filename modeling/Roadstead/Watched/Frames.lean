import Roadstead.ThinkBleed.Stream
import Roadstead.Watched

/-!
# The chunks of a watched call

What the reassembly of `call_watched` takes from a list of chunks is a function of each chunk by
itself: its text, its reasoning, its finish reason, its usage (`foldl_take`).  The repair of the
stream puts frames in the place of a chunk; `Keeps` says what they have in common with it beside
the text.
-/

namespace Roadstead.Watched

open Json (Fields)
open ThinkBleed ThinkBleed.StreamRepair

/-! ### The reassembly -/

/-- The first choice of a chunk. -/
def choiceOf (parsed : Json) : Fields := choice0 (parsed.asObj?.getD [])

/-- The text of a chunk. -/
def contentOf (parsed : Json) : List Char := pieceOf (deltaOf (choiceOf parsed))

/-- The reasoning of a chunk. -/
def reasoningOf (parsed : Json) : List Char := reasoningText (deltaOf (choiceOf parsed))

/-- The finish reason of a chunk, if it has one. -/
def finish? (parsed : Json) : Option Json :=
  if ((choiceOf parsed).get "finish_reason").truthy then some ((choiceOf parsed).get "finish_reason")
  else none

/-- The usage of a chunk, if it has one. -/
def usage? (parsed : Json) : Option Fields := (parsed.get "usage").asObj?

/-- What a chunk does to a watch while the detector is quiet. -/
def Watch.take (w : Watch) (parsed : Json) : Watch :=
  let w := ((w.header (parsed.asObj?.getD [])).usage (parsed.get "usage")).labels (choiceOf parsed)
  { w with content := w.content ++ contentOf parsed }.think (deltaOf (choiceOf parsed))

theorem think_nil (w : Watch) : w.think (deltaOf []) = w := rfl

/-- Without a choice only the names and the usage are read. -/
theorem take_of_no_choice (w : Watch) {parsed : Json} (none_there : choiceOf parsed = []) :
    w.take parsed = (w.header (parsed.asObj?.getD [])).usage (parsed.get "usage") := by
  have silent : contentOf parsed = [] := by
    rw [contentOf, none_there]
    rfl
  rw [Watch.take, none_there, silent, List.append_nil, think_nil]
  rfl

theorem add_quiet {w : Watch} {detector : Detector} {parsed : Json}
    (quiet : (w.add detector parsed).2.fired = false) :
    (w.add detector parsed).1 = w.take parsed := by
  cases parsed with
  | obj chunk =>
      by_cases listed : ∃ choice others, Fields.get chunk "choices" = .arr (.obj choice :: others)
      · obtain ⟨choice, others, list⟩ := listed
        have first : choiceOf (.obj chunk) = choice := by
          simp only [choiceOf, Json.asObj?, Option.getD_some, choice0, list]
        simp only [Watch.add, list] at quiet ⊢
        split at quiet
        · rename_i fired
          rw [fired] at quiet
          cases quiet
        · rename_i still
          rw [if_neg still]
          simp only [Watch.take, contentOf, first, Json.asObj?, Option.getD_some, Json.get_obj]
      · have none_there : choiceOf (.obj chunk) = [] := by
          simp only [choiceOf, Json.asObj?, Option.getD_some, choice0]
          split
          · exact absurd ⟨_, _, by assumption⟩ listed
          · rfl
        rw [take_of_no_choice w none_there, Watch.add]
        split
        · exact absurd ⟨_, _, by assumption⟩ listed
        · rfl
  | _ =>
      rw [take_of_no_choice w (by rfl)]
      rfl

/-- A quiet detector does not matter. -/
theorem read_quiet {w : Watch} {detector : Detector} {ps : List Json}
    (quiet : (w.read detector ps).2.fired = false) : (w.read detector ps).1 = ps.foldl Watch.take w := by
  induction ps generalizing w detector with
  | nil => rfl
  | cons parsed ps ih =>
      rw [Watch.read] at quiet ⊢
      by_cases fired : (w.add detector parsed).2.fired = true
      · simp only [fired, if_true] at quiet
        cases quiet
      · rw [if_neg fired] at quiet ⊢
        rw [List.foldl_cons, ← add_quiet (Bool.eq_false_iff.mpr fired)]
        exact ih quiet

/-- The usage of chunks, one after the other. -/
def Watch.usages (w : Watch) (us : List Fields) : Watch := us.foldl (fun w usage => w.usage (.obj usage)) w

/-- The four fields that a usage sets. -/
def Watch.counts (w : Watch) : Option Fields × ℕ × ℕ × Option ℕ :=
  (w.lastUsage, w.inputTokens, w.outputTokens, w.cachedTokens)

theorem take_counts (w : Watch) (parsed : Json) :
    (w.take parsed).counts = (w.usages (usage? parsed).toList).counts := by
  have think : ∀ (w : Watch) (delta : Fields), (w.think delta).counts = w.counts := by
    intro w delta
    unfold Watch.think
    split_ifs <;> rfl
  rw [Watch.take, think, usage?]
  cases parsed.get "usage" <;> rfl

theorem usage_counts {w w' : Watch} (same : w.counts = w'.counts) (us : List Fields) :
    (w.usages us).counts = (w'.usages us).counts := by
  induction us generalizing w w' with
  | nil => exact same
  | cons usage us ih =>
      refine ih ?_
      simp only [Watch.counts, Prod.mk.injEq] at same
      obtain ⟨-, input, output, cached⟩ := same
      simp only [Watch.counts, Watch.usage, input, output, cached]

/-- What is read off a list of chunks. -/
theorem foldl_take (ps : List Json) (w : Watch) :
    (ps.foldl Watch.take w).content = w.content ++ ps.flatMap contentOf ∧
      (ps.foldl Watch.take w).reasoning = w.reasoning ++ ps.flatMap reasoningOf ∧
      (ps.foldl Watch.take w).finishReason = (ps.filterMap finish?).getLast?.getD w.finishReason ∧
      (ps.foldl Watch.take w).counts = (w.usages (ps.filterMap usage?)).counts := by
  induction ps generalizing w with
  | nil => exact ⟨(List.append_nil _).symm, (List.append_nil _).symm, rfl, rfl⟩
  | cons parsed ps ih =>
      obtain ⟨content, reasoning, finish, counts⟩ := ih (w.take parsed)
      have think : ∀ (w : Watch) (delta : Fields), (w.think delta).content = w.content ∧
          (w.think delta).reasoning = w.reasoning ++ reasoningText delta ∧
          (w.think delta).finishReason = w.finishReason := by
        intro w delta
        unfold Watch.think reasoningText
        split_ifs with first second
        · exact ⟨rfl, rfl, rfl⟩
        · exact ⟨rfl, rfl, rfl⟩
        · rw [not_not.mp second, List.append_nil]
          exact ⟨rfl, rfl, rfl⟩
      have usage : ∀ (w : Watch) (v : Json), (w.usage v).content = w.content ∧
          (w.usage v).reasoning = w.reasoning ∧ (w.usage v).finishReason = w.finishReason := by
        intro w v
        cases v <;> exact ⟨rfl, rfl, rfl⟩
      obtain ⟨content₁, reasoning₁, finish₁⟩ :=
        usage (w.header (parsed.asObj?.getD [])) (parsed.get "usage")
      rw [List.foldl_cons]
      refine ⟨?_, ?_, ?_, ?_⟩
      · rw [content, List.flatMap_cons, Watch.take, (think _ _).1, ← List.append_assoc]
        simp only [Watch.labels, content₁]
        rfl
      · rw [reasoning, List.flatMap_cons, Watch.take, (think _ _).2.1, ← List.append_assoc]
        simp only [Watch.labels, reasoning₁]
        rfl
      · rw [finish, Watch.take, (think _ _).2.2]
        simp only [Watch.labels, finish₁, List.filterMap_cons, finish?]
        split
        · rw [List.getLast?_cons]
          cases (ps.filterMap finish?).getLast? <;> rfl
        · rfl
      · rw [counts, usage_counts (take_counts w parsed), List.filterMap_cons]
        cases usage? parsed <;> rfl

/-! ### Frames of the repair -/

theorem firstDelta_eq (parsed : Json) : firstDelta parsed = deltaOf (choiceOf parsed) := by
  cases parsed with
  | obj fields =>
      by_cases listed : ∃ choice others, Fields.get fields "choices" = .arr (.obj choice :: others)
      · obtain ⟨choice, others, list⟩ := listed
        simp only [firstDelta, choiceOf, Json.asObj?, Option.getD_some, choice0, list]
      · have no_choice : choice0 fields = [] := by
          unfold choice0
          split
          · exact absurd ⟨_, _, by assumption⟩ listed
          · rfl
        simp only [choiceOf, Json.asObj?, Option.getD_some, no_choice, firstDelta]
        split
        · exact absurd ⟨_, _, by assumption⟩ listed
        · rfl
  | _ => rfl

/-- Reasoning under one key is read alike under either rule. -/
theorem flatMap_reasoning {delta : Fields}
    (one : textOf (delta.get "reasoning") = [] ∨ textOf (delta.get "reasoning_content") = []) :
    (reasoningKeys.flatMap fun key => textOf (delta.get key)) = reasoningText delta := by
  rw [reasoningKeys, List.flatMap_cons, List.flatMap_singleton, reasoningText]
  rcases one with empty | empty
  · rw [empty, if_neg (not_not.mpr rfl), List.nil_append]
  · rw [empty, List.append_nil]
    by_cases first : textOf (delta.get "reasoning") = []
    · rw [first, if_neg (not_not.mpr rfl)]
    · rw [if_pos first]

theorem content_frame (f : ThinkBleed.Frame) : f.content = contentOf f.parsed := by
  rw [Frame.content, firstDelta_eq, contentOf]

/-- A frame that the repair makes up, with one field in its delta. -/
def Synth (f : ThinkBleed.Frame) : Prop :=
  ∃ (r : StreamRepair) (key : String) (value : Json), f = r.frame [(key, value)]

theorem choiceOf_frame (r : StreamRepair) (delta : Fields) :
    choiceOf (r.frame delta).parsed =
      [("index", .int 0), ("delta", .obj delta), ("finish_reason", .null)] := by
  simp only [frame, choiceOf, Json.asObj?, Option.getD_some, choice0, Fields.get_set_self]

theorem Synth.finish {f : ThinkBleed.Frame} (synth : Synth f) : finish? f.parsed = none := by
  obtain ⟨r, key, value, rfl⟩ := synth
  rw [finish?, choiceOf_frame]
  rfl

theorem Synth.usage {f : ThinkBleed.Frame} (synth : Synth f) : usage? f.parsed = none := by
  obtain ⟨r, key, value, rfl⟩ := synth
  have absent : Fields.get? (r.last.filter fun field => field.1 ∉ ["choices", "usage"]) "usage" = none := by
    rw [Fields.get?, Option.map_eq_none_iff, List.find?_eq_none]
    intro field mem
    have other := (List.mem_filter.mp mem).2
    simp only [decide_eq_true_eq, List.mem_cons, not_or] at other
    simpa using other.2.1
  rw [usage?, frame, Json.get_obj, Fields.get_set_of_ne _ (by decide), Fields.get, absent]
  rfl

theorem Synth.logprobs {f : ThinkBleed.Frame} (synth : Synth f) :
    (choiceOf f.parsed).get "logprobs" = .null := by
  obtain ⟨r, key, value, rfl⟩ := synth
  rw [choiceOf_frame]
  rfl

theorem Synth.reasoning {f : ThinkBleed.Frame} (synth : Synth f) : f.reasoning = reasoningOf f.parsed := by
  obtain ⟨r, key, value, rfl⟩ := synth
  rw [Frame.reasoning, reasoningOf, firstDelta_eq]
  have delta : deltaOf (choiceOf (r.frame [(key, value)]).parsed) = [(key, value)] := by
    rw [choiceOf_frame]
    rfl
  rw [delta]
  refine flatMap_reasoning ?_
  by_cases first : key = "reasoning"
  · right
    simp [Fields.get, Fields.get?_cons, first, textOf]
  · left
    rw [Fields.get, Fields.get?_cons, if_neg first]
    rfl

/-- All frames are made up. -/
def AllSynth (frames : List ThinkBleed.Frame) : Prop := ∀ f ∈ frames, Synth f

theorem AllSynth.append {frames frames' : List ThinkBleed.Frame} (first : AllSynth frames)
    (second : AllSynth frames') : AllSynth (frames ++ frames') := by
  intro f mem
  rcases List.mem_append.mp mem with mem | mem
  · exact first f mem
  · exact second f mem

theorem synth_nil : AllSynth [] := nofun

theorem synth_frame (r : StreamRepair) (key : String) (value : Json) :
    AllSynth [r.frame [(key, value)]] := by
  intro f mem
  exact ⟨r, key, value, List.mem_singleton.mp mem⟩

variable {frames : List ThinkBleed.Frame}

section Synth

variable (r : StreamRepair) (text rest : List Char)

theorem synth_content : AllSynth (r.content text) := by
  unfold StreamRepair.content
  split
  · exact synth_nil
  · exact synth_frame _ _ _

theorem synth_reasoning : AllSynth (r.reasoning text).1 := by
  rw [reasoning_eq]
  split
  · exact synth_nil
  · exact synth_frame _ _ _

theorem synth_answer : AllSynth (r.answer text).1 := by
  unfold StreamRepair.answer
  split
  · exact synth_nil
  · exact synth_content _ _

theorem synth_reasoningAnswer : AllSynth (r.reasoningAnswer text rest).1 :=
  (synth_reasoning r text).append (synth_answer _ rest)

theorem synth_think : AllSynth (r.think text).1 := by
  unfold StreamRepair.think
  dsimp only
  split
  · exact synth_reasoningAnswer _ _ _
  · exact synth_reasoning _ _

theorem synth_settle : AllSynth r.settle.1 := by
  unfold StreamRepair.settle
  split
  · exact synth_content _ _
  · exact synth_content _ _
  · exact synth_reasoning _ _
  · exact synth_nil

theorem synth_consume (consumed : (r.consume text).1 = some frames) :
    AllSynth frames := by
  unfold StreamRepair.consume at consumed
  split at consumed
  · cases consumed
    exact synth_think _ _
  · dsimp only at consumed
    have decided : ∀ {next : StreamRepair} {next' : StreamRepair},
        (if r.buf ≠ [] then (some (r.content (r.buf ++ text)), next) else (none, next')).1 = some frames →
        AllSynth frames := by
      intro next next' here
      split at here
      · cases here
        exact synth_content _ _
      · cases here
    split at consumed
    · cases consumed
      exact synth_think _ _
    · split at consumed
      · split at consumed
        · cases consumed
          exact synth_reasoningAnswer _ _ _
        · split at consumed
          · cases consumed
            exact synth_nil
          · exact decided consumed
      · split at consumed
        · cases consumed
          exact synth_nil
        · exact decided consumed
  · dsimp only at consumed
    split at consumed
    · cases consumed
      exact synth_nil
    · cases consumed
      exact synth_content _ _

end Synth

/-! ### Chunks -/

/-- A chunk whose first choice carries reasoning of the engine. -/
structure ReasoningChunk where
  fields : Fields
  choice : Fields
  others : List Json
  data : String
  noError : Fields.has fields "error" = false
  choices : Fields.get fields "choices" = .arr (.obj choice :: others)
  index : ((Fields.get? choice "index").getD (.int 0)).eqInt 0 = true
  splits : engineSplits (deltaOf choice) = true

/-- A chunk without a choice, as the one that brings the usage. -/
structure BareChunk where
  fields : Fields
  data : String
  noError : Fields.has fields "error" = false
  bare : firstChoice fields = .ok none

/-- A chunk of a tool-free reply. -/
inductive Chunk where
  | text (chunk : ContentChunk)
  | reasoning (chunk : ReasoningChunk)
  | bare (chunk : BareChunk)

namespace Chunk

/-- The chunk as it is fed. -/
def fed : Chunk → Json × String
  | .text chunk => chunk.fed
  | .reasoning chunk => (.obj chunk.fields, chunk.data)
  | .bare chunk => (.obj chunk.fields, chunk.data)

def parsed (chunk : Chunk) : Json := chunk.fed.1

def isReasoning : Chunk → Bool
  | .reasoning _ => true
  | _ => false

def isBare : Chunk → Bool
  | .bare _ => true
  | _ => false

def text? : Chunk → Option ContentChunk
  | .text chunk => some chunk
  | _ => none

end Chunk

theorem engineSplits_eq_false {delta : Fields} (none_there : engineSplits delta = false) :
    textOf (delta.get "reasoning") = [] ∧ textOf (delta.get "reasoning_content") = [] := by
  rw [engineSplits, List.any_eq_false] at none_there
  constructor
  · simpa using none_there "reasoning" (by simp [reasoningKeys])
  · simpa using none_there "reasoning_content" (by simp [reasoningKeys])

theorem reasoningText_of_splits {delta : Fields} (none_there : engineSplits delta = false) :
    reasoningText delta = [] := by
  obtain ⟨first, second⟩ := engineSplits_eq_false none_there
  rw [reasoningText, first, second]
  rfl

theorem choiceOf_text (chunk : ContentChunk) : choiceOf (Chunk.text chunk).parsed = chunk.choice := by
  change choice0 chunk.fields = _
  simp only [choice0, chunk.choices]

theorem contentOf_text (chunk : ContentChunk) : contentOf (Chunk.text chunk).parsed = chunk.piece := by
  rw [contentOf, choiceOf_text, ContentChunk.piece]

theorem reasoningOf_text (chunk : ContentChunk) : reasoningOf (Chunk.text chunk).parsed = [] := by
  rw [reasoningOf, choiceOf_text, reasoningText_of_splits chunk.noReasoning]

theorem finish?_text (chunk : ContentChunk) :
    (finish? (Chunk.text chunk).parsed).isSome = chunk.finishes := by
  rw [finish?, choiceOf_text, ContentChunk.finishes]
  split
  · rename_i truthy
    rw [truthy]
    rfl
  · rename_i falsy
    rw [Bool.eq_false_iff.mpr falsy]
    rfl

theorem choiceOf_bare (chunk : BareChunk) : choiceOf (Chunk.bare chunk).parsed = [] := by
  change choice0 chunk.fields = _
  have bare := chunk.bare
  unfold firstChoice at bare
  unfold choice0
  split
  · rename_i list
    rw [list] at bare
    cases bare
  · rfl

theorem contentOf_bare (chunk : BareChunk) : contentOf (Chunk.bare chunk).parsed = [] := by
  rw [contentOf, choiceOf_bare]
  rfl

theorem reasoningOf_bare (chunk : BareChunk) : reasoningOf (Chunk.bare chunk).parsed = [] := by
  rw [reasoningOf, choiceOf_bare]
  rfl

/-- What the frames in the place of a chunk keep of it beside its text.  A chunk that is all text
may lose its usage. -/
structure KeepsOne (parsed : Json) (out : List Json) : Prop where
  finish : out.filterMap finish? = (finish? parsed).toList
  usage : out.filterMap usage? = (usage? parsed).toList ∨
    out.filterMap usage? = [] ∧ contentOf parsed ≠ [] ∧ finish? parsed = none
  logprobs : (choiceOf parsed).get "logprobs" = .null →
    ∀ p ∈ out, (choiceOf p).get "logprobs" = .null

theorem keepsOne_self (parsed : Json) : KeepsOne parsed [parsed] where
  finish := by
    rw [List.filterMap_cons]
    cases finish? parsed <;> rfl
  usage := by
    rw [List.filterMap_cons]
    cases usage? parsed <;> exact .inl rfl
  logprobs none_there p mem := by rwa [List.mem_singleton.mp mem]

theorem AllSynth.filterMap_finish (synth : AllSynth frames) :
    (frames.map Frame.parsed).filterMap finish? = [] := by
  rw [List.filterMap_eq_nil_iff]
  intro p mem
  obtain ⟨f, there, rfl⟩ := List.mem_map.mp mem
  exact (synth f there).finish

theorem AllSynth.filterMap_usage (synth : AllSynth frames) :
    (frames.map Frame.parsed).filterMap usage? = [] := by
  rw [List.filterMap_eq_nil_iff]
  intro p mem
  obtain ⟨f, there, rfl⟩ := List.mem_map.mp mem
  exact (synth f there).usage

theorem AllSynth.logprobs (synth : AllSynth frames) {p : Json}
    (mem : p ∈ frames.map Frame.parsed) : (choiceOf p).get "logprobs" = .null := by
  obtain ⟨f, there, rfl⟩ := List.mem_map.mp mem
  exact (synth f there).logprobs

/-- Made-up frames before the others keep nothing and lose nothing. -/
theorem KeepsOne.after {parsed : Json} {out : List Json} (keeps : KeepsOne parsed out)
    (synth : AllSynth frames) :
    KeepsOne parsed (frames.map Frame.parsed ++ out) where
  finish := by rw [List.filterMap_append, synth.filterMap_finish, List.nil_append, keeps.finish]
  usage := by
    rw [List.filterMap_append, synth.filterMap_usage, List.nil_append]
    exact keeps.usage
  logprobs none_there p mem := by
    rcases List.mem_append.mp mem with mem | mem
    · exact synth.logprobs mem
    · exact keeps.logprobs none_there p mem

/-- The frame that is left of a chunk of content. -/
theorem keeps_tail {chunk : ContentChunk} {tail : List ThinkBleed.Frame} (kept : chunk.Tail tail) :
    KeepsOne (Chunk.text chunk).parsed (tail.map Frame.parsed) ∧
      ∀ f ∈ tail, f.reasoning = reasoningOf f.parsed := by
  have silent : ∀ f ∈ tail, f.reasoning = [] := by
    intro f mem
    have reasoning := congrArg Prod.fst kept.silent
    exact List.flatMap_eq_nil_iff.mp reasoning f mem
  cases kept with
  | original =>
      refine ⟨keepsOne_self _, fun f mem => ?_⟩
      rw [silent f mem, List.mem_singleton.mp mem]
      exact (reasoningOf_text chunk).symm
  | gone some_text still =>
      have going : finish? (Chunk.text chunk).parsed = none := by
        rw [← Option.not_isSome_iff_eq_none, finish?_text, still]
        exact Bool.false_ne_true
      refine ⟨⟨by rw [going]; rfl, .inr ⟨rfl, ?_, going⟩, nofun⟩, nofun⟩
      rwa [contentOf_text]
  | residual =>
      set left := Json.obj (Fields.set chunk.fields "choices" (.arr (.obj (Fields.set chunk.choice "delta"
        (.obj (Fields.erase (deltaOf chunk.choice) "content"))) :: chunk.others))) with left_def
      have choice : choiceOf left =
          Fields.set chunk.choice "delta" (.obj (Fields.erase (deltaOf chunk.choice) "content")) := by
        simp only [left_def, choiceOf, Json.asObj?, Option.getD_some, choice0, Fields.get_set_self]
      have finish : finish? left = finish? (Chunk.text chunk).parsed := by
        rw [finish?, finish?, choice, choiceOf_text, Fields.get_set_of_ne _ (by decide)]
      have usage : usage? left = usage? (Chunk.text chunk).parsed := by
        rw [usage?, usage?, left_def, Json.get_obj, Fields.get_set_of_ne _ (by decide)]
        rfl
      have none_left : reasoningOf left = [] := by
        obtain ⟨first, second⟩ := engineSplits_eq_false chunk.noReasoning
        rw [reasoningOf, choice, deltaOf, Fields.get_set_self, Json.asObj?, Option.getD_some, reasoningText,
          Fields.get_erase_of_ne _ (by decide), Fields.get_erase_of_ne _ (by decide), first, second]
        rfl
      have one := keepsOne_self left
      refine ⟨⟨one.finish.trans (by rw [finish]), .inl ?_, fun none_there => ?_⟩, fun f mem => ?_⟩
      · rw [List.map_singleton, List.filterMap_cons, usage]
        cases usage? (Chunk.text chunk).parsed <;> rfl
      · refine one.logprobs ?_
        rw [choiceOf_text] at none_there
        rw [choice, Fields.get_set_of_ne _ (by decide), none_there]
      · rw [silent f mem, List.mem_singleton.mp mem]
        exact none_left.symm

/-- What the repair makes of one chunk of content. -/
theorem feed_text (chunk : ContentChunk) (r : StreamRepair) :
    ∃ frames next, r.feed (Chunk.text chunk).fed.1 (Chunk.text chunk).fed.2 = .ok (frames, next) ∧
      KeepsOne (Chunk.text chunk).parsed (frames.map Frame.parsed) ∧
      ∀ f ∈ frames, f.reasoning = reasoningOf f.parsed := by
  have original : KeepsOne (Chunk.text chunk).parsed
      (([⟨.obj chunk.fields, some chunk.data⟩] : List ThinkBleed.Frame).map Frame.parsed) ∧
      ∀ f ∈ ([⟨.obj chunk.fields, some chunk.data⟩] : List ThinkBleed.Frame),
        f.reasoning = reasoningOf f.parsed := by
    refine ⟨keepsOne_self _, fun f mem => ?_⟩
    have none_there := congrArg Prod.fst chunk.relay_original
    rw [List.mem_singleton.mp mem]
    exact (List.flatMap_eq_nil_iff.mp none_there _ (List.mem_singleton_self _)).trans
      (reasoningOf_text chunk).symm
  by_cases phase : r.phase = .pass
  · exact ⟨_, r, by simp [StreamRepair.feed, phase, Chunk.fed, ContentChunk.fed], original⟩
  · have fed := feed_content chunk phase
    generalize consumed : (if chunk.piece = [] then (some [], { r with last := chunk.fields })
      else { r with last := chunk.fields }.consume chunk.piece) = result
    obtain ⟨out, next⟩ := result
    cases out with
    | none =>
        rw [feedChoice_none chunk consumed] at fed
        exact ⟨_, _, fed, original⟩
    | some frames =>
        obtain ⟨tail, kept, here⟩ := feedChoice_some chunk consumed
        rw [here] at fed
        have synth : AllSynth (frames ++ if chunk.finishes then next.settle.1 else []) := by
          refine AllSynth.append ?_ ?_
          · split at consumed
            · cases consumed
              exact synth_nil
            · exact synth_consume _ _ (congrArg Prod.fst consumed)
          · split
            · exact synth_settle _
            · exact synth_nil
        obtain ⟨keeps, reasoning⟩ := keeps_tail kept
        refine ⟨_, _, fed, ?_, fun f mem => ?_⟩
        · rw [List.map_append]
          exact keeps.after synth
        · rcases List.mem_append.mp mem with mem | mem
          · exact (synth f mem).reasoning
          · exact reasoning f mem

/-- A chunk without a choice is relayed as it is. -/
theorem feed_bare (chunk : BareChunk) (r : StreamRepair) :
    r.feed (Chunk.bare chunk).fed.1 (Chunk.bare chunk).fed.2 =
      .ok ([⟨.obj chunk.fields, some chunk.data⟩], r) := by
  by_cases phase : r.phase = .pass <;>
    simp [StreamRepair.feed, phase, Chunk.fed, chunk.noError, chunk.bare, bind, Except.bind]

theorem relay_bare (chunk : BareChunk) : relay [⟨.obj chunk.fields, some chunk.data⟩] = ([], []) := by
  have delta : firstDelta (.obj chunk.fields) = [] := by
    rw [firstDelta_eq]
    exact congrArg deltaOf (choiceOf_bare chunk)
  simp [relay, Frame.reasoning, Frame.content, delta, reasoningKeys, Fields.get, textOf, pieceOf]

/-- Lists of chunks and what is put in their places. -/
def Keeps (chunks : List Chunk) (out : List Json) : Prop :=
  ∃ outs, List.Forall₂ KeepsOne (chunks.map Chunk.parsed) outs ∧ out = outs.flatten

theorem Keeps.cons {chunk : Chunk} {chunks : List Chunk} {out out' : List Json}
    (first : KeepsOne chunk.parsed out) (rest : Keeps chunks out') : Keeps (chunk :: chunks) (out ++ out') := by
  obtain ⟨outs, each, rfl⟩ := rest
  exact ⟨out :: outs, .cons first each, rfl⟩

theorem Keeps.append {chunks chunks' : List Chunk} {out out' : List Json}
    (first : Keeps chunks out) (rest : Keeps chunks' out') : Keeps (chunks ++ chunks') (out ++ out') := by
  obtain ⟨outs, each, rfl⟩ := first
  obtain ⟨outs', each', rfl⟩ := rest
  refine ⟨outs ++ outs', ?_, by rw [List.flatten_append]⟩
  rw [List.map_append]
  exact List.rel_append each each'

theorem keeps_self (chunks : List Chunk) : Keeps chunks (chunks.map Chunk.parsed) := by
  induction chunks with
  | nil => exact ⟨[], .nil, rfl⟩
  | cons chunk chunks ih => exact Keeps.cons (keepsOne_self chunk.parsed) ih

/-- No finish reason is lost. -/
theorem Keeps.filterMap_finish {chunks : List Chunk} {out : List Json} (keeps : Keeps chunks out) :
    out.filterMap finish? = (chunks.map Chunk.parsed).filterMap finish? := by
  obtain ⟨outs, each, rfl⟩ := keeps
  generalize chunks.map Chunk.parsed = ps at each
  induction each with
  | nil => rfl
  | @cons parsed out ps outs one _ ih =>
      rw [List.flatten_cons, List.filterMap_append, one.finish, ih, List.filterMap_cons]
      cases finish? parsed <;> rfl

theorem Keeps.logprobs {chunks : List Chunk} {out : List Json} (keeps : Keeps chunks out)
    (none_there : ∀ chunk ∈ chunks, (choiceOf chunk.parsed).get "logprobs" = .null) :
    ∀ p ∈ out, (choiceOf p).get "logprobs" = .null := by
  obtain ⟨outs, each, rfl⟩ := keeps
  have null : ∀ p ∈ chunks.map Chunk.parsed, (choiceOf p).get "logprobs" = .null := by
    intro p mem
    obtain ⟨chunk, there, rfl⟩ := List.mem_map.mp mem
    exact none_there chunk there
  generalize chunks.map Chunk.parsed = ps at each null
  induction each with
  | nil => exact nofun
  | @cons parsed out ps outs one _ ih =>
      intro p mem
      rw [List.flatten_cons] at mem
      rcases List.mem_append.mp mem with mem | mem
      · exact one.logprobs (null parsed (List.mem_cons_self ..)) p mem
      · exact ih (fun p there => null p (List.mem_cons_of_mem _ there)) p mem

/-- The frames of chunks without reasoning have the text of the frames of those with content. -/
theorem feedAll_texts {chunks : List Chunk} (plain : ∀ chunk ∈ chunks, chunk.isReasoning = false)
    (r : StreamRepair) :
    ∃ frames frames' next,
      r.feedAll ((chunks.filterMap Chunk.text?).map ContentChunk.fed) = .ok (frames', next) ∧
      r.feedAll (chunks.map Chunk.fed) = .ok (frames, next) ∧ relay frames = relay frames' ∧
      Keeps chunks (frames.map Frame.parsed) ∧ ∀ f ∈ frames, f.reasoning = reasoningOf f.parsed := by
  induction chunks generalizing r with
  | nil => exact ⟨[], [], r, rfl, rfl, rfl, ⟨[], .nil, rfl⟩, nofun⟩
  | cons chunk chunks ih =>
      have rest : ∀ chunk ∈ chunks, chunk.isReasoning = false :=
        fun chunk mem => plain chunk (List.mem_cons_of_mem _ mem)
      cases chunk with
      | reasoning chunk => cases plain _ (List.mem_cons_self ..)
      | text chunk =>
          obtain ⟨first, next, fed, keeps, single⟩ := feed_text chunk r
          obtain ⟨frames, frames', last, texts, all, same, keepsAll, singles⟩ := ih rest next
          refine ⟨first ++ frames, first ++ frames', last, ?_, ?_, ?_, ?_, ?_⟩
          · rw [List.filterMap_cons_some (show Chunk.text? (.text chunk) = some chunk from rfl),
              List.map_cons]
            change r.feed chunk.fed.1 chunk.fed.2 = _ at fed
            simp only [feedAll, fed, texts, bind, Except.bind]
          · simp only [List.map_cons, feedAll, fed, all, bind, Except.bind]
          · rw [relay_append, relay_append, same]
          · rw [List.map_append]
            exact Keeps.cons keeps keepsAll
          · intro f mem
            rcases List.mem_append.mp mem with mem | mem
            · exact single f mem
            · exact singles f mem
      | bare chunk =>
          obtain ⟨frames, frames', last, texts, all, same, keepsAll, singles⟩ := ih rest r
          refine ⟨⟨.obj chunk.fields, some chunk.data⟩ :: frames, frames', last, texts, ?_, ?_, ?_, ?_⟩
          · simp only [List.map_cons, feedAll, feed_bare, all, bind, Except.bind]
            rfl
          · rw [← List.singleton_append, relay_append, relay_bare, Relayed.nil_append, same]
          · exact Keeps.cons (keepsOne_self (Chunk.bare chunk).parsed) keepsAll
          · intro f mem
            rcases List.mem_cons.mp mem with rfl | mem
            · have none_there := congrArg Prod.fst (relay_bare chunk)
              exact (List.flatMap_eq_nil_iff.mp none_there _ (List.mem_singleton_self _)).trans
                (reasoningOf_bare chunk).symm
            · exact singles f mem

/-- A repair that has passed relays everything as it is. -/
theorem feedAll_pass {r : StreamRepair} (phase : r.phase = .pass) (chunks : List Chunk) :
    ∃ frames, r.feedAll (chunks.map Chunk.fed) = .ok (frames, r) ∧
      frames.map Frame.parsed = chunks.map Chunk.parsed := by
  induction chunks with
  | nil => exact ⟨[], rfl, rfl⟩
  | cons chunk chunks ih =>
      obtain ⟨frames, all, same⟩ := ih
      refine ⟨⟨chunk.parsed, some chunk.fed.2⟩ :: frames, ?_, ?_⟩
      · have fed : r.feed chunk.fed.1 chunk.fed.2 = .ok ([⟨chunk.parsed, some chunk.fed.2⟩], r) := by
          unfold StreamRepair.feed
          simp only [phase, if_true]
          rfl
        simp only [List.map_cons, feedAll, fed, all, bind, Except.bind]
        rfl
      · rw [List.map_cons, List.map_cons, same]

theorem feedAll_append {r : StreamRepair} {chunks chunks' : List (Json × String)}
    {frames frames' : List ThinkBleed.Frame} {next last : StreamRepair}
    (first : r.feedAll chunks = .ok (frames, next))
    (rest : next.feedAll chunks' = .ok (frames', last)) :
    r.feedAll (chunks ++ chunks') = .ok (frames ++ frames', last) := by
  induction chunks generalizing r frames with
  | nil =>
      cases first
      exact rest
  | cons chunk chunks ih =>
      rw [feedAll] at first
      rw [List.cons_append, feedAll]
      cases fed : r.feed chunk.1 chunk.2 with
      | error e => simp [fed, bind, Except.bind] at first
      | ok one =>
          obtain ⟨out, r₁⟩ := one
          simp only [fed, bind, Except.bind] at first ⊢
          cases all : r₁.feedAll chunks with
          | error e => simp [all] at first
          | ok more =>
              obtain ⟨outs, r₂⟩ := more
              simp only [all, Except.ok.injEq, Prod.mk.injEq] at first
              obtain ⟨rfl, rfl⟩ := first
              rw [ih all]
              simp only [List.append_assoc]

/-- A chunk with reasoning releases what is held and ends the repair. -/
theorem feed_reasoning (chunk : ReasoningChunk) (r : StreamRepair) :
    ∃ held next, r.feed (Chunk.reasoning chunk).fed.1 (Chunk.reasoning chunk).fed.2 =
        .ok (held ++ [⟨.obj chunk.fields, some chunk.data⟩], next) ∧ next.phase = .pass ∧
      AllSynth held ∧ (r.Sound → relay held = r.rest []) := by
  by_cases phase : r.phase = .pass
  · refine ⟨[], r, by simp [StreamRepair.feed, phase, Chunk.fed], phase, synth_nil, fun _ => ?_⟩
    rw [rest_pass phase]
    rfl
  · set seen : StreamRepair := { r with last := chunk.fields } with seen_def
    have fed : r.feed (Chunk.reasoning chunk).fed.1 (Chunk.reasoning chunk).fed.2 =
        .ok (r.feedChoice chunk.fields chunk.data chunk.choice chunk.others) := by
      simp [StreamRepair.feed, Chunk.fed, phase, chunk.noError, firstChoice, chunk.choices, chunk.index,
        bind, Except.bind]
    have sound : r.Sound → seen.Sound := fun sound =>
      ⟨sound.key, sound.undecided, sound.inThink, sound.answerLead⟩
    by_cases empty : r.buf = []
    · refine ⟨[], { seen with phase := .pass }, ?_, rfl, synth_nil, fun _ => ?_⟩
      · rw [fed, feedChoice]
        simp [chunk.splits, empty, seen_def]
      · have nothing : r.rest [] = ([], []) := by
          cases kind : r.phase with
          | undecided =>
              rw [rest_undecided kind, empty, List.append_nil, whole_of_split_eq_none (split_nil _)]
          | inThink =>
              rw [rest_inThink_open kind (by rw [empty]; rfl), empty]
              unfold StreamRepair.lead
              split <;> rfl
          | answerLead =>
              rw [rest_answerLead kind, empty]
              rfl
          | pass => exact absurd kind phase
        rw [nothing]
        rfl
    · refine ⟨seen.settle.1, { seen.settle.2 with phase := .pass }, ?_, rfl, synth_settle _, fun h => ?_⟩
      · rw [fed, feedChoice]
        simp [chunk.splits, empty, seen_def]
      · rw [relay_settle (sound h)]
        rfl

end Roadstead.Watched
