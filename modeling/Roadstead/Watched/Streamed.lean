import Roadstead.Watched.Frames

/-!
# What the stream of a watched call yields

The chunks of a reply in any cutting, under the repair of the stream.  `streamed_off` is about an
endpoint that does not reason, `streamed_split` about an engine that sends reasoning apart and
`streamed_plain` about one that does not; in each case the text that a reader takes from what is
yielded is given, and that the chunks keep the rest (`Yields`).
-/

namespace Roadstead.Watched

open Json (Fields)
open ThinkBleed ThinkBleed.StreamRepair

/-! ### Chunks of a reply -/

/-- An earlier usage reports nothing that the last one leaves out. -/
structure Steady (early last : Fields) : Prop where
  prompt : count? (early.get "prompt_tokens") ≠ none → count? (last.get "prompt_tokens") ≠ none
  completion : count? (early.get "completion_tokens") ≠ none →
    count? (last.get "completion_tokens") ≠ none
  cached : extractCachedTokens early ≠ none → extractCachedTokens last ≠ none

/-- The last usage is `usage`, on a chunk that has no text or a finish reason. -/
def Carried (usage : Fields) : List Chunk → Prop
  | [] => False
  | chunk :: chunks =>
      (usage? chunk.parsed = some usage ∧
          (contentOf chunk.parsed = [] ∨ finish? chunk.parsed ≠ none) ∧
          ∀ later ∈ chunks, usage? later.parsed = none) ∨
        (∀ early, usage? chunk.parsed = some early → Steady early usage) ∧ Carried usage chunks

/-- After a finish reason there is no other choice. -/
def EndsOnce : List Chunk → Prop
  | [] => True
  | chunk :: chunks =>
      ((finish? chunk.parsed).isSome = true → ∀ later ∈ chunks, later.isBare = true) ∧ EndsOnce chunks

/-- How much text is held for a marker. -/
def holdBound (closeOnly : Bool) : ℕ := if closeOnly then holdLimitChars else prefixHoldChars

/-- The marker of a text, if it has one, is complete before it has to be released; where the engine
sends reasoning, no marker comes before it. -/
def Timely (closeOnly : Bool) : List Char → List Chunk → Prop
  | text, [] => heldPart closeOnly text ≤ holdBound closeOnly
  | text, chunk :: chunks =>
      (chunk.isReasoning = true → split closeOnly text = none) ∧
        (chunk.isReasoning = false → Timely closeOnly (text ++ contentOf chunk.parsed) chunks)

/-! ### What the stream yields -/

theorem textOfChunks_eq (chunks : List Chunk) (plain : ∀ chunk ∈ chunks, chunk.isReasoning = false) :
    textOfChunks (chunks.filterMap Chunk.text?) = (chunks.map Chunk.parsed).flatMap contentOf := by
  induction chunks with
  | nil => rfl
  | cons chunk chunks ih =>
      have rest := ih fun chunk mem => plain chunk (List.mem_cons_of_mem _ mem)
      rw [List.map_cons, List.flatMap_cons, ← rest]
      cases chunk with
      | text chunk =>
          rw [List.filterMap_cons_some (show Chunk.text? (.text chunk) = some chunk from rfl),
            textOfChunks_cons, contentOf_text]
      | reasoning chunk => cases plain _ (List.mem_cons_self ..)
      | bare chunk =>
          rw [List.filterMap_cons_none (show Chunk.text? (.bare chunk) = none from rfl), contentOf_bare,
            List.nil_append]

/-- Before the last chunk of content none finishes. -/
theorem going_of_ends {chunks : List Chunk} (ends : EndsOnce chunks) :
    ∀ chunk ∈ (chunks.filterMap Chunk.text?).dropLast, chunk.finishes = false := by
  induction chunks with
  | nil => exact nofun
  | cons chunk chunks ih =>
      cases chunk with
      | text chunk =>
          rw [List.filterMap_cons_some (show Chunk.text? (.text chunk) = some chunk from rfl)]
          cases more : chunks.filterMap Chunk.text? with
          | nil => exact nofun
          | cons next rest =>
              rw [List.dropLast_cons_of_ne_nil (List.cons_ne_nil _ _), ← more]
              intro c mem
              rcases List.mem_cons.mp mem with rfl | mem
              · -- a finishing chunk would be followed by bare ones only
                by_contra finished
                have bare := ends.1 (by rw [finish?_text]; simpa using finished)
                have there : next ∈ chunks.filterMap Chunk.text? := more ▸ List.mem_cons_self ..
                obtain ⟨later, later_mem, is_text⟩ := List.mem_filterMap.mp there
                have not_text := bare later later_mem
                cases later with
                | bare => cases is_text
                | _ => cases not_text
              · exact ih ends.2 c mem
      | reasoning chunk | bare chunk => exact ih ends.2

/-- No chunk finishes before a chunk that has a choice. -/
theorem EndsOnce.going {before rest : List Chunk} (ends : EndsOnce (before ++ rest)) {later : Chunk}
    (mem : later ∈ rest) (choice : later.isBare = false) :
    ∀ chunk ∈ before, (finish? chunk.parsed).isSome = false := by
  induction before with
  | nil => exact nofun
  | cons first before ih =>
      intro chunk here
      rcases List.mem_cons.mp here with rfl | here
      · by_contra finished
        have bare := ends.1 (Bool.eq_true_of_not_eq_false finished) later (List.mem_append_right _ mem)
        rw [choice] at bare
        cases bare
      · exact ih ends.2 chunk here

variable {frames : List ThinkBleed.Frame}

/-- A chunk with a finish reason ends the repair. -/
theorem phase_of_finishes {chunk : ContentChunk} {r next : StreamRepair}
    (sound : r.Sound) (fed : r.feed chunk.fed.1 chunk.fed.2 = .ok (frames, next))
    (ends : chunk.finishes = true) : next.phase = .pass := by
  by_cases phase : r.phase = .pass
  · have passed : r.feed chunk.fed.1 chunk.fed.2 = .ok ([⟨.obj chunk.fields, some chunk.data⟩], r) := by
      simp [StreamRepair.feed, phase, ContentChunk.fed]
    rw [passed] at fed
    cases fed
    exact phase
  · rw [feed_content chunk phase] at fed
    have seenSound : StreamRepair.Sound { r with last := chunk.fields } :=
      ⟨sound.key, sound.undecided, sound.inThink, sound.answerLead⟩
    have yields := piece_yields seenSound phase chunk.piece
    generalize consumed : (if chunk.piece = [] then (some [], { r with last := chunk.fields })
      else { r with last := chunk.fields }.consume chunk.piece) = result at yields
    obtain ⟨out, after⟩ := result
    cases out with
    | none =>
        rw [feedChoice_none chunk consumed] at fed
        cases fed
        exact yields.decided rfl
    | some some_frames =>
        obtain ⟨tail, -, here⟩ := feedChoice_some chunk consumed
        rw [here, ends] at fed
        cases fed
        exact phase_settle after

/-- All that the repair owed for the text has been relayed when the stream is over. -/
theorem relay_finished {r next : StreamRepair} {texts : List ContentChunk}
    (sound : r.Sound) (ends : ∀ chunk ∈ texts.dropLast, chunk.finishes = false)
    (fits : r.Fits (textOfChunks texts))
    (fed : r.feedAll (texts.map ContentChunk.fed) = .ok (frames, next)) :
    relay (frames ++ next.finish.1) = r.rest (textOfChunks texts) := by
  obtain ⟨served, done, relayed⟩ := relay_served sound ends fits
  rw [StreamRepair.served, fed] at done
  by_cases finished : texts.any ContentChunk.finishes = true
  · simp only [bind, Except.bind, finished, if_true, Except.ok.injEq] at done
    -- the last chunk finishes, and nothing is held after it
    have passed : next.phase = .pass := by
      obtain ⟨chunk, mem, finishes⟩ := List.any_eq_true.mp finished
      obtain ⟨before, last, rfl⟩ : ∃ before last, texts = before ++ [last] := by
        rcases List.eq_nil_or_concat texts with rfl | ⟨before, last, rfl⟩
        · cases mem
        · exact ⟨before, last, List.concat_eq_append ..⟩
      rw [List.dropLast_concat] at ends
      have is_last : last.finishes = true := by
        rcases List.mem_append.mp mem with mem | mem
        · exact absurd finishes (by simp [ends chunk mem])
        · exact List.mem_singleton.mp mem ▸ finishes
      obtain ⟨out, mid, fedBefore, midSound, -⟩ := feedAll_feeds sound ends
      rw [List.map_append, List.map_singleton, feedAll_concat, fedBefore] at fed
      obtain ⟨out', final, fedLast, -⟩ := feed_feeds last midSound
      simp only [bind, Except.bind, fedLast, Except.ok.injEq, Prod.mk.injEq] at fed
      rw [← fed.2]
      exact phase_of_finishes midSound fedLast is_last
    have nothing : next.finish.1 = [] := by
      simp only [StreamRepair.finish, StreamRepair.settle, passed]
    rw [nothing, List.append_nil, done, relayed]
  · simp only [bind, Except.bind, finished] at done
    cases done
    exact relayed

/-- The text and the reasoning that a reader takes from chunks. -/
def reads (ps : List Json) : Relayed := (ps.flatMap reasoningOf, ps.flatMap contentOf)

theorem reads_append (ps qs : List Json) : reads (ps ++ qs) = (reads ps).append (reads qs) := by
  simp [reads, Relayed.append]

theorem reads_frames (single : ∀ f ∈ frames, f.reasoning = reasoningOf f.parsed) :
    reads (frames.map Frame.parsed) = relay frames := by
  rw [reads, relay, List.flatMap_map, List.flatMap_map]
  congr 1
  · exact (List.flatMap_congr single).symm
  · exact List.flatMap_congr fun f _ => (content_frame f).symm

theorem AllSynth.reads (synth : AllSynth frames) :
    Watched.reads (frames.map Frame.parsed) = relay frames :=
  reads_frames fun f mem => (synth f mem).reasoning

/-- What is put in the place of chunks, with made-up frames at the end. -/
structure Yields (chunks : List Chunk) (ps : List Json) : Prop where
  kept : ∃ out frames, Keeps chunks out ∧ AllSynth frames ∧ ps = out ++ frames.map Frame.parsed

theorem heldPart_eq_zero {closeOnly : Bool} {text : List Char} (unmarked : split closeOnly text = none) :
    heldPart closeOnly text = 0 := by
  obtain ⟨noOpen, noClose⟩ := split_eq_none_iff.mp unmarked
  rw [heldPart, if_neg noOpen]
  cases closeOnly with
  | false => rfl
  | true =>
      rw [if_pos rfl, noClose rfl]

theorem plain_or_splits (chunks : List Chunk) :
    (∀ chunk ∈ chunks, chunk.isReasoning = false) ∨
      ∃ before chunk after, chunks = before ++ .reasoning chunk :: after ∧
        ∀ chunk ∈ before, chunk.isReasoning = false := by
  induction chunks with
  | nil => exact .inl nofun
  | cons first chunks ih =>
      cases first with
      | reasoning chunk => exact .inr ⟨[], chunk, chunks, rfl, nofun⟩
      | _ =>
          rcases ih with plain | ⟨before, chunk, after, rfl, plain⟩
          · refine .inl fun chunk mem => ?_
            rcases List.mem_cons.mp mem with rfl | mem
            · rfl
            · exact plain chunk mem
          · refine .inr ⟨_ :: before, chunk, after, rfl, fun c mem => ?_⟩
            rcases List.mem_cons.mp mem with rfl | mem
            · rfl
            · exact plain c mem

/-- Timeliness at the end of a stream without reasoning, and at its first reasoning. -/
theorem Timely.spec {closeOnly : Bool} {text : List Char} {before rest : List Chunk}
    (timely : Timely closeOnly text (before ++ rest))
    (plain : ∀ chunk ∈ before, chunk.isReasoning = false) :
    Timely closeOnly (text ++ (before.map Chunk.parsed).flatMap contentOf) rest := by
  induction before generalizing text with
  | nil => rwa [List.map_nil, List.flatMap_nil, List.append_nil]
  | cons chunk before ih =>
      rw [List.map_cons, List.flatMap_cons, ← List.append_assoc]
      exact ih (timely.2 (plain chunk (List.mem_cons_self ..)))
        fun c mem => plain c (List.mem_cons_of_mem _ mem)

section Streamed

variable {ep : Endpoint} {payload : Fields}

/-- The repair of a stream on this endpoint. -/
def newRepair (ep : Endpoint) (payload : Fields) : StreamRepair :=
  { holdClose := closeOnlyExpected ep payload true, key := defaultReasoningKey ep }

theorem sound_newRepair : (newRepair ep payload).Sound := by
  refine sound_new _ _ ?_
  unfold defaultReasoningKey
  split <;> simp [reasoningKeys]

theorem bound_newRepair :
    (newRepair ep payload).bound = holdBound (closeOnlyExpected ep payload true) := rfl

theorem streamed_of_feedAll (reasons : ep.reasons = true) {chunks : List (Json × String)}
    {next : StreamRepair}
    (fed : (newRepair ep payload).feedAll chunks = .ok (frames, next)) :
    streamed ep payload chunks = .ok ((frames ++ next.finish.1).map Frame.parsed) := by
  rw [newRepair] at fed
  simp only [streamed, reasons, if_true, fed, bind, Except.bind]

/-- An engine that does not split: the whole text is repaired. -/
theorem streamed_plain (reasons : ep.reasons = true) {chunks : List Chunk}
    (plain : ∀ chunk ∈ chunks, chunk.isReasoning = false) (ends : EndsOnce chunks)
    (timely : Timely (closeOnlyExpected ep payload true) [] chunks) :
    ∃ ps, streamed ep payload (chunks.map Chunk.fed) = .ok ps ∧ Yields chunks ps ∧
      reads ps = whole (closeOnlyExpected ep payload true) ((chunks.map Chunk.parsed).flatMap contentOf) := by
  obtain ⟨frames, frames', next, texts, all, same, keeps, single⟩ :=
    feedAll_texts plain (newRepair ep payload)
  have text := textOfChunks_eq chunks plain
  have held : Timely (closeOnlyExpected ep payload true) ((chunks.map Chunk.parsed).flatMap contentOf) [] := by
    rw [← List.append_nil chunks] at timely
    exact timely.spec plain
  have fits : (newRepair ep payload).Fits (textOfChunks (chunks.filterMap Chunk.text?)) := by
    intro _
    rw [text, bound_newRepair]
    exact held
  have relayed := relay_finished sound_newRepair (going_of_ends ends) fits texts
  have synth : AllSynth next.finish.1 := synth_settle next
  refine ⟨_, streamed_of_feedAll reasons all, ⟨_, _, keeps, synth, List.map_append⟩, ?_⟩
  rw [List.map_append, reads_append, reads_frames single, synth.reads, same, ← relay_append, relayed,
    rest_undecided rfl, text]
  rfl

/-- An engine that splits: nothing is moved. -/
theorem streamed_split (reasons : ep.reasons = true) {before after : List Chunk} {chunk : ReasoningChunk}
    (plain : ∀ chunk ∈ before, chunk.isReasoning = false)
    (ends : EndsOnce (before ++ .reasoning chunk :: after))
    (timely : Timely (closeOnlyExpected ep payload true) [] (before ++ .reasoning chunk :: after)) :
    ∃ ps, streamed ep payload ((before ++ .reasoning chunk :: after).map Chunk.fed) = .ok ps ∧
      Yields (before ++ .reasoning chunk :: after) ps ∧
      reads ps = reads ((before ++ .reasoning chunk :: after).map Chunk.parsed) := by
  obtain ⟨frames, frames', mid, texts, all, same, keeps, single⟩ :=
    feedAll_texts plain (newRepair ep payload)
  have text := textOfChunks_eq before plain
  have unmarked := (timely.spec plain).1 rfl
  rw [List.nil_append] at unmarked
  have going : ∀ chunk ∈ before.filterMap Chunk.text?, chunk.finishes = false := by
    intro c mem
    obtain ⟨here, here_mem, is_text⟩ := List.mem_filterMap.mp mem
    have still := ends.going (List.mem_cons_self ..) (rfl : (Chunk.reasoning chunk).isBare = false) here here_mem
    cases here with
    | text here =>
        cases is_text
        rwa [finish?_text] at still
    | _ => cases is_text
  obtain ⟨out, next', fedTexts, sound, owed⟩ := feedAll_feeds sound_newRepair going
  rw [fedTexts] at texts
  cases texts
  have fits : (newRepair ep payload).Fits (textOfChunks (before.filterMap Chunk.text?) ++ []) := by
    intro _
    rw [List.append_nil, text]
    exact (heldPart_eq_zero unmarked).trans_le (Nat.zero_le _)
  obtain ⟨first, -⟩ := owed [] fits
  obtain ⟨held, passed, fed, phase, synth, released⟩ := feed_reasoning chunk mid
  obtain ⟨others, fedOthers, sameOthers⟩ := feedAll_pass phase after
  have fedRest : mid.feedAll ((Chunk.reasoning chunk :: after).map Chunk.fed) =
      .ok ((held ++ [⟨.obj chunk.fields, some chunk.data⟩]) ++ others, passed) := by
    simp only [List.map_cons, feedAll, fed, fedOthers, bind, Except.bind]
  have fedAll := feedAll_append all fedRest
  rw [← List.map_append] at fedAll
  have nothing : passed.finish.1 = [] := by
    simp only [StreamRepair.finish, StreamRepair.settle, phase]
  have shape : (frames ++ ((held ++ [(⟨.obj chunk.fields, some chunk.data⟩ : ThinkBleed.Frame)]) ++ others) ++
      passed.finish.1).map Frame.parsed = frames.map Frame.parsed ++
        ((held.map Frame.parsed ++ [(Chunk.reasoning chunk).parsed]) ++ after.map Chunk.parsed) := by
    rw [nothing, List.append_nil, List.map_append, List.map_append, List.map_append, sameOthers]
    rfl
  have yielded := streamed_of_feedAll reasons fedAll
  rw [shape] at yielded
  refine ⟨_, yielded, ⟨_, [], ?_, synth_nil, (List.append_nil _).symm⟩, ?_⟩
  · refine keeps.append ?_
    exact Keeps.cons ((keepsOne_self (Chunk.reasoning chunk).parsed).after synth) (keeps_self after)
  · -- up to the reasoning all text has been relayed
    have released := released sound
    rw [rest_undecided rfl] at first
    have front : reads (frames.map Frame.parsed ++ held.map Frame.parsed) =
        reads (before.map Chunk.parsed) := by
      rw [reads_append, reads_frames single, synth.reads, same, released, ← first, List.append_nil]
      have none_there : (before.map Chunk.parsed).flatMap reasoningOf = [] := by
        rw [List.flatMap_eq_nil_iff]
        intro p mem
        obtain ⟨c, c_mem, rfl⟩ := List.mem_map.mp mem
        cases c with
        | text c => exact reasoningOf_text c
        | bare c => exact reasoningOf_bare c
        | reasoning c => cases plain _ c_mem
      have nothing_moved := whole_of_split_eq_none unmarked
      rw [reads, none_there, text]
      exact nothing_moved
    rw [List.map_append, List.map_cons, ← List.append_assoc, ← List.append_assoc, reads_append, reads_append,
      front, List.append_cons, reads_append, reads_append]

/-- An endpoint that does not reason: nothing is inspected. -/
theorem streamed_off (off : ep.reasons = false) (chunks : List Chunk) :
    streamed ep payload (chunks.map Chunk.fed) = .ok (chunks.map Chunk.parsed) := by
  simp only [streamed, off, List.map_map]
  rfl

end Streamed

end Roadstead.Watched
