import Roadstead.Watched.Streamed

/-!
# A watched call answers as a plain one

`watched_eq_called`: for one reply, delivered as a body to `call` and as chunks to
`call_watched`, the two answer alike if the detector stays quiet.  A `Reply` says what it is to be
one reply: the chunks bring the text, the reasoning, the finish reason and the usage of the body,
in any cutting.

Where the endpoint reasons, the body and the stream are repaired by two pieces of code.  They do
the same (`Timely`, and the closing tag alone is believed by both or by neither), up to the white
space at the end of a trace that was moved.  `watched_differs` has a reply for each of the ways in
which the two calls do differ.
-/

namespace Roadstead.Watched

open Json (Fields)
open ThinkBleed ThinkBleed.StreamRepair

/-! ### One reply, twice delivered -/

/-- A tool-free reply of one choice, as a body and as chunks. -/
structure Reply where
  body : Fields
  ch : Fields
  msg : Fields
  usage : Fields
  chunks : List Chunk
  choices : body.get "choices" = .arr [.obj ch]
  message : Fields.get ch "message" = .obj msg
  usageThere : body.get "usage" = .obj usage
  /-- Texts are strings, or null. -/
  texts : ∀ key ∈ ["content", "reasoning", "reasoning_content"],
    msg.get key = .null ∨ ∃ s, msg.get key = .str s
  noTools : (msg.get "tool_calls").truthy = false
  content : (chunks.map Chunk.parsed).flatMap contentOf = textOf (msg.get "content")
  reasoning : (chunks.map Chunk.parsed).flatMap reasoningOf = reasoningText msg
  finish : ((chunks.map Chunk.parsed).filterMap finish?).getLast?.getD .null = Fields.get ch "finish_reason"
  ends : EndsOnce chunks
  carried : Carried usage chunks
  /-- No token probabilities were asked for. -/
  logprobs : Fields.get ch "logprobs" = .null ∧
    ∀ chunk ∈ chunks, (choiceOf chunk.parsed).get "logprobs" = .null

/-! ### Usage -/

theorem filterMap_usage_eq_nil {ps : List Json} {outs : List (List Json)}
    (each : List.Forall₂ KeepsOne ps outs) (none_there : ∀ p ∈ ps, usage? p = none) :
    outs.flatten.filterMap usage? = [] := by
  induction each with
  | nil => rfl
  | @cons parsed out ps outs one _ ih =>
      have here := none_there parsed (List.mem_cons_self ..)
      rw [List.flatten_cons, List.filterMap_append, ih fun p mem => none_there p (List.mem_cons_of_mem _ mem),
        List.append_nil]
      rcases one.usage with kept | ⟨gone, -⟩
      · rw [kept, here]
        rfl
      · exact gone

/-- However the stream is repaired, the last usage is still the last. -/
theorem Carried.spec {usage : Fields} {chunks : List Chunk} (carried : Carried usage chunks)
    {outs : List (List Json)} (each : List.Forall₂ KeepsOne (chunks.map Chunk.parsed) outs) :
    ∃ us, outs.flatten.filterMap usage? = us ++ [usage] ∧ ∀ early ∈ us, Steady early usage := by
  induction chunks generalizing outs with
  | nil => exact carried.elim
  | cons chunk chunks ih =>
      rw [List.map_cons] at each
      cases each with
      | @cons _ out _ outs one each =>
          rw [List.flatten_cons, List.filterMap_append]
          rcases carried with ⟨here, sparse, last⟩ | ⟨early, carried⟩
          · have kept : out.filterMap usage? = [usage] := by
              rcases one.usage with kept | ⟨-, some_text, going⟩
              · rw [kept, here]
                rfl
              · rcases sparse with silent | finished
                · exact absurd silent some_text
                · exact absurd going finished
            have later : outs.flatten.filterMap usage? = [] :=
              filterMap_usage_eq_nil each fun p mem => by
                obtain ⟨later, there, rfl⟩ := List.mem_map.mp mem
                exact last later there
            exact ⟨[], by rw [kept, later]; rfl, nofun⟩
          · obtain ⟨us, rest, steady⟩ := ih carried each
            rcases one.usage with kept | ⟨gone, -⟩
            · refine ⟨(usage? chunk.parsed).toList ++ us, by rw [kept, rest, List.append_assoc], ?_⟩
              intro u mem
              rcases List.mem_append.mp mem with mem | mem
              · exact early u (Option.mem_toList.mp mem)
              · exact steady u mem
            · exact ⟨us, by rw [gone, rest, List.nil_append], steady⟩

/-- Usages that report nothing change nothing. -/
theorem usages_silent (us : List Fields) (w : Watch) :
    ((∀ u ∈ us, count? (u.get "prompt_tokens") = none) → (w.usages us).inputTokens = w.inputTokens) ∧
      ((∀ u ∈ us, count? (u.get "completion_tokens") = none) →
        (w.usages us).outputTokens = w.outputTokens) ∧
      ((∀ u ∈ us, extractCachedTokens u = none) → (w.usages us).cachedTokens = w.cachedTokens) := by
  induction us generalizing w with
  | nil => exact ⟨fun _ => rfl, fun _ => rfl, fun _ => rfl⟩
  | cons u us ih =>
      obtain ⟨input, output, cached⟩ := ih (w.usage (.obj u))
      refine ⟨fun silent => ?_, fun silent => ?_, fun silent => ?_⟩
      · refine (input fun u' mem => silent u' (List.mem_cons_of_mem _ mem)).trans ?_
        change coerceTokenCount (u.get "prompt_tokens") w.inputTokens = _
        rw [coerceTokenCount, silent u (List.mem_cons_self ..)]
        rfl
      · refine (output fun u' mem => silent u' (List.mem_cons_of_mem _ mem)).trans ?_
        change coerceTokenCount (u.get "completion_tokens") w.outputTokens = _
        rw [coerceTokenCount, silent u (List.mem_cons_self ..)]
        rfl
      · refine (cached fun u' mem => silent u' (List.mem_cons_of_mem _ mem)).trans ?_
        rw [Watch.usage, silent u (List.mem_cons_self ..)]
        rfl

/-- Where the last usage is complete, it alone counts. -/
theorem usages_last {w : Watch} (new : w.inputTokens = 0 ∧ w.outputTokens = 0 ∧ w.cachedTokens = none)
    {us : List Fields} {usage : Fields} (steady : ∀ early ∈ us, Steady early usage) :
    (w.usages (us ++ [usage])).counts =
      (some usage, coerceTokenCount (usage.get "prompt_tokens") 0,
        coerceTokenCount (usage.get "completion_tokens") 0, extractCachedTokens usage) := by
  obtain ⟨input, output, cached⟩ := usages_silent us w
  rw [Watch.usages, List.foldl_append, List.foldl_cons, List.foldl_nil, ← Watch.usages]
  simp only [Watch.counts, Watch.usage, coerceTokenCount, Prod.mk.injEq, true_and]
  refine ⟨?_, ?_, ?_⟩
  · cases here : count? (usage.get "prompt_tokens") with
    | some n => rfl
    | none =>
        refine (input fun u mem => ?_).trans new.1
        by_contra reported
        exact (steady u mem).prompt reported here
  · cases here : count? (usage.get "completion_tokens") with
    | some n => rfl
    | none =>
        refine (output fun u mem => ?_).trans new.2.1
        by_contra reported
        exact (steady u mem).completion reported here
  · cases here : extractCachedTokens usage with
    | some n => rfl
    | none =>
        refine (cached fun u mem => ?_).trans new.2.2
        by_contra reported
        exact (steady u mem).cached reported here

/-! ### The reasoning and the text -/

theorem reasoningOf_reasoning (chunk : ReasoningChunk) :
    reasoningOf (Chunk.reasoning chunk).parsed ≠ [] := by
  have choice : choiceOf (Chunk.reasoning chunk).parsed = chunk.choice := by
    change choice0 chunk.fields = _
    simp only [choice0, chunk.choices]
  have splits := chunk.splits
  rw [engineSplits, List.any_eq_true] at splits
  obtain ⟨key, mem, some_text⟩ := splits
  rw [decide_eq_true_eq] at some_text
  rw [reasoningOf, choice, reasoningText]
  by_cases first : textOf ((deltaOf chunk.choice).get "reasoning") = []
  · rw [if_neg (not_not.mpr first)]
    rcases List.mem_cons.mp mem with rfl | mem
    · exact absurd first some_text
    · rwa [List.mem_singleton.mp mem] at some_text
  · rwa [if_pos first]

theorem switchedOff_streamPayload (payload : Fields) :
    thinkingSwitchedOff (streamPayload payload) = thinkingSwitchedOff payload := by
  rw [thinkingSwitchedOff, streamPayload, Fields.get_set_of_ne _ (by decide),
    Fields.get_set_of_ne _ (by decide), ← thinkingSwitchedOff]

theorem closeOnlyExpected_streamPayload (ep : Endpoint) (payload : Fields) :
    closeOnlyExpected ep (streamPayload payload) true = closeOnlyExpected ep payload true := by
  rw [closeOnlyExpected, closeOnlyExpected, switchedOff_streamPayload]

theorem hasText_eq {value : Json} (text : value = .null ∨ ∃ s, value = .str s) :
    ThinkBleed.hasText value = decide (Text.strip (textOf value) ≠ []) := by
  rcases text with rfl | ⟨s, rfl⟩ <;> rfl

theorem defaultReasoningKey_mem (ep : Endpoint) : defaultReasoningKey ep ∈ reasoningKeys := by
  unfold defaultReasoningKey
  split <;> simp [reasoningKeys]

/-- What is written under a reasoning key is read. -/
theorem reasoningText_set {msg : Fields} (none_there : reasoningText msg = []) {key : String}
    (keyed : key ∈ reasoningKeys) (text : List Char) (content : Json) :
    reasoningText ((msg.set key (.str (.ofList text))).set "content" content) = text := by
  have first : textOf (msg.get "reasoning") = [] := by
    by_contra some_text
    rw [reasoningText, if_pos some_text] at none_there
    exact some_text none_there
  have second : textOf (msg.get "reasoning_content") = [] := by
    rwa [reasoningText, if_neg (not_not.mpr first)] at none_there
  rw [reasoningText, Fields.get_set_of_ne _ (show "reasoning" ≠ "content" by decide),
    Fields.get_set_of_ne _ (show "reasoning_content" ≠ "content" by decide)]
  rcases List.mem_cons.mp keyed with rfl | keyed
  · rw [Fields.get_set_self, Fields.get_set_of_ne _ (by decide), second, textOf, String.toList_ofList]
    split
    · rfl
    · rename_i empty
      exact (not_not.mp empty).symm
  · rw [List.mem_singleton.mp keyed, Fields.get_set_self, Fields.get_set_of_ne _ (by decide), first,
      if_neg (not_not.mpr rfl), textOf, String.toList_ofList]

section Reply

variable (r : Reply) (ep : Endpoint) (payload : Fields)

/-- The content of the reply. -/
def Reply.text : List Char := textOf (r.msg.get "content")

/-- A part of the content is moved to the reasoning. -/
def Reply.moved : Prop :=
  ep.reasons = true ∧ reasoningText r.msg = [] ∧
    (split (closeOnlyExpected ep payload false) r.text).isSome = true

instance : Decidable (r.moved ep payload) := inferInstanceAs (Decidable (_ ∧ _ ∧ _))

/-- The reasoning and the text of the reply as the stream has them. -/
def Reply.relayed : Relayed :=
  if ep.reasons = true ∧ reasoningText r.msg = [] then
    whole (closeOnlyExpected ep payload false) r.text
  else (reasoningText r.msg, r.text)

variable {r ep payload}

theorem Reply.reads_chunks : reads (r.chunks.map Chunk.parsed) = (reasoningText r.msg, r.text) := by
  rw [reads, r.reasoning, r.content, Reply.text]

theorem Reply.streamed_relayed
    (timely : ep.reasons = true →
      closeOnlyExpected ep payload true = closeOnlyExpected ep payload false ∧
        Timely (closeOnlyExpected ep payload false) [] r.chunks) :
    ∃ ps, streamed ep (streamPayload payload) (r.chunks.map Chunk.fed) = .ok ps ∧ Yields r.chunks ps ∧
      reads ps = r.relayed ep payload := by
  by_cases reasons : ep.reasons = true
  · obtain ⟨alike, timely⟩ := timely reasons
    have expected := (closeOnlyExpected_streamPayload ep payload).trans alike
    rw [← expected] at timely
    rcases plain_or_splits r.chunks with plain | ⟨before, chunk, after, cut, plain⟩
    · obtain ⟨ps, done, yields, read⟩ := streamed_plain reasons plain r.ends timely
      have none_there : reasoningText r.msg = [] := by
        rw [← r.reasoning, List.flatMap_eq_nil_iff]
        intro p mem
        obtain ⟨c, there, rfl⟩ := List.mem_map.mp mem
        cases c with
        | text c => exact reasoningOf_text c
        | bare c => exact reasoningOf_bare c
        | reasoning c => cases plain _ there
      refine ⟨ps, done, yields, ?_⟩
      rw [read, expected, r.content, Reply.relayed, if_pos ⟨reasons, none_there⟩, Reply.text]
    · have ends := r.ends
      rw [cut] at ends timely
      obtain ⟨ps, done, yields, read⟩ := streamed_split reasons plain ends timely
      rw [← cut] at done yields read
      have some_there : reasoningText r.msg ≠ [] := by
        rw [← r.reasoning]
        intro empty
        refine reasoningOf_reasoning chunk (List.flatMap_eq_nil_iff.mp empty _ ?_)
        rw [cut]
        exact List.mem_map_of_mem (List.mem_append_right _ (List.mem_cons_self ..))
      refine ⟨ps, done, yields, ?_⟩
      rw [read, r.reads_chunks, Reply.relayed, if_neg fun both => some_there both.2]
  · have off := Bool.eq_false_iff.mpr reasons
    refine ⟨_, streamed_off off r.chunks, ⟨_, [], keeps_self r.chunks, synth_nil, (List.append_nil _).symm⟩, ?_⟩
    rw [r.reads_chunks, Reply.relayed, if_neg fun both => reasons both.1]

/-- What a body of the plain call has of the reply. -/
structure Reply.Serves (r : Reply) (ep : Endpoint) (payload body : Fields) : Prop where
  content : textOf ((Watched.message body).get "content") = (r.relayed ep payload).2
  reasoning : reasoningText (Watched.message body) =
    if r.moved ep payload then Text.rstrip (r.relayed ep payload).1 else (r.relayed ep payload).1
  tools : (Watched.message body).get "tool_calls" = r.msg.get "tool_calls"
  finish : (choice0 body).get "finish_reason" = Fields.get r.ch "finish_reason"
  logprobs : (choice0 body).get "logprobs" = .null
  usage : body.get "usage" = .obj r.usage

theorem Reply.choice0_body : choice0 r.body = r.ch := by
  simp only [choice0, r.choices]

theorem Reply.message_body : Watched.message r.body = r.msg := by
  rw [Watched.message, r.choice0_body, r.message]
  rfl

theorem Reply.serves_body (still : ¬r.moved ep payload)
    (relayed : r.relayed ep payload = (reasoningText r.msg, r.text)) : r.Serves ep payload r.body where
  content := by rw [r.message_body, relayed, Reply.text]
  reasoning := by rw [if_neg still, r.message_body, relayed]
  tools := by rw [r.message_body]
  finish := by rw [r.choice0_body]
  logprobs := by rw [r.choice0_body, r.logprobs.1]
  usage := r.usageThere

/-- The plain call repairs a message without reasoning by `_split`, and no other. -/
theorem Reply.repairMessage_eq (sound : reasoningText r.msg = [] ∨ Text.strip (reasoningText r.msg) ≠ [])
    (closeOnly : Bool) (defaultKey : String) :
    repairMessage r.msg closeOnly defaultKey =
      if reasoningText r.msg = [] then
        (split closeOnly r.text).map fun parts =>
          ((r.msg.set ((reasoningKeys.find? fun key => r.msg.has key).getD defaultKey)
            (.str (.ofList parts.reasoning))).set "content" (.str (.ofList parts.answer)), parts)
      else none := by
  have first := r.texts "reasoning" (by simp)
  have second := r.texts "reasoning_content" (by simp)
  have believed : (reasoningKeys.any fun key => ThinkBleed.hasText (r.msg.get key)) =
      decide (reasoningText r.msg ≠ []) := by
    simp only [reasoningKeys, List.any_cons, List.any_nil, Bool.or_false, hasText_eq first, hasText_eq second]
    by_cases empty : reasoningText r.msg = []
    · by_cases some_text : textOf (r.msg.get "reasoning") = []
      · have none_there : textOf (r.msg.get "reasoning_content") = [] := by
          rwa [reasoningText, if_neg (not_not.mpr some_text)] at empty
        rw [empty, some_text, none_there]
        rfl
      · rw [reasoningText, if_pos some_text] at empty
        exact absurd empty some_text
    · have some_text := sound.resolve_left empty
      rw [decide_eq_true empty]
      rw [reasoningText] at some_text
      split at some_text
      · rw [decide_eq_true some_text, Bool.true_or]
      · rw [decide_eq_true some_text, Bool.or_true]
  rcases r.texts "content" (by simp) with null | ⟨s, str⟩
  · simp only [repairMessage, null, Reply.text, textOf, split_nil, Option.map_none, ite_self]
  · simp only [repairMessage, str, Reply.text, textOf, believed]
    by_cases empty : s = ""
    · subst empty
      rw [if_pos rfl, String.toList_empty, split_nil, Option.map_none, ite_self]
    · by_cases none_there : reasoningText r.msg = [] <;> simp [empty, none_there]

/-- The body that the plain call answers with. -/
theorem Reply.serves_call
    (sound : ep.reasons = true → reasoningText r.msg = [] ∨ Text.strip (reasoningText r.msg) ≠ []) :
    r.Serves ep payload
      (if ep.reasons then repairBody r.body (closeOnlyExpected ep payload false) (defaultReasoningKey ep)
        else r.body) := by
  by_cases reasons : ep.reasons = true
  · have repaired := r.repairMessage_eq (sound reasons) (closeOnlyExpected ep payload false)
      (defaultReasoningKey ep)
    rw [if_pos reasons]
    simp only [repairBody, r.choices, r.message, repaired]
    by_cases none_there : reasoningText r.msg = []
    · have relayed : r.relayed ep payload = whole (closeOnlyExpected ep payload false) r.text := by
        rw [Reply.relayed, if_pos ⟨reasons, none_there⟩]
      rw [if_pos none_there]
      cases found : split (closeOnlyExpected ep payload false) r.text with
      | none =>
          refine r.serves_body (fun moved => ?_) ?_
          · have there := moved.2.2
            rw [found] at there
            cases there
          · rw [relayed, whole_of_split_eq_none found, none_there]
      | some parts =>
          obtain ⟨answer, trace⟩ := whole_of_split_eq_some found
          have moved : r.moved ep payload := ⟨reasons, none_there, by rw [found]; rfl⟩
          set key := (reasoningKeys.find? fun key => r.msg.has key).getD (defaultReasoningKey ep) with key_def
          have keyed : key ∈ reasoningKeys := by
            rw [key_def]
            cases here : reasoningKeys.find? fun key => r.msg.has key with
            | none => exact defaultReasoningKey_mem ep
            | some key => exact List.mem_of_find?_eq_some here
          set msg := (r.msg.set key (.str (.ofList parts.reasoning))).set "content"
            (.str (.ofList parts.answer)) with msg_def
          set served := Fields.set r.body "choices" (.arr [.obj (Fields.set r.ch "message" (.obj msg))])
            with served_def
          have choice : choice0 served = Fields.set r.ch "message" (.obj msg) := by
            simp only [choice0, served_def, Fields.get_set_self]
          have message : Watched.message served = msg := by
            rw [Watched.message, choice, Fields.get_set_self]
            rfl
          simp only [Option.map_some]
          refine ⟨?_, ?_, ?_, ?_, ?_, ?_⟩
          · rw [message, msg_def, Fields.get_set_self, textOf, String.toList_ofList, answer, relayed]
          · rw [message, msg_def, reasoningText_set none_there keyed, if_pos moved, trace, relayed]
          · have other : "tool_calls" ≠ key := by
              rintro here
              rw [← here] at keyed
              exact absurd keyed (by decide)
            rw [message, msg_def, Fields.get_set_of_ne _ (by decide), Fields.get_set_of_ne _ other]
          · rw [choice, Fields.get_set_of_ne _ (by decide)]
          · rw [choice, Fields.get_set_of_ne _ (by decide), r.logprobs.1]
          · rw [Fields.get_set_of_ne _ (by decide), r.usageThere]
    · rw [if_neg none_there]
      refine r.serves_body (fun moved => none_there moved.2.1) ?_
      rw [Reply.relayed, if_neg fun both => none_there both.2]
  · rw [if_neg reasons]
    refine r.serves_body (fun moved => reasons moved.1) ?_
    rw [Reply.relayed, if_neg fun both => reasons both.1]

end Reply

/-! ### The agreement -/

/-- The same error; a trace that was moved may have lost white space. -/
def SameError (moved : Prop) : EmptyCompletion → EmptyCompletion → Prop
  | .budgetSpent tokens chars, .budgetSpent tokens' chars' => tokens = tokens' ∧ (¬moved → chars = chars')
  | .nothing tokens finish, .nothing tokens' finish' => tokens = tokens' ∧ finish = finish'
  | _, _ => False

/-- The same response; a trace that was moved may have lost the white space at its end. -/
structure SameResponse (moved : Prop) (called watched : Response) : Prop where
  content : textOf ((message called.body).get "content") = textOf ((message watched.body).get "content")
  reasoning : reasoningText (message called.body) = reasoningText (message watched.body) ∨
    moved ∧ reasoningText (message called.body) = Text.rstrip (reasoningText (message watched.body))
  finish : (choice0 called.body).get "finish_reason" = (choice0 watched.body).get "finish_reason"
  logprobs : (choice0 called.body).get "logprobs" = (choice0 watched.body).get "logprobs"
  usage : called.body.get "usage" = watched.body.get "usage"
  inputTokens : called.inputTokens = watched.inputTokens
  outputTokens : called.outputTokens = watched.outputTokens
  finishReason : called.finishReason = watched.finishReason
  cachedTokens : called.cachedTokens = watched.cachedTokens

/-- A plain call and a watched one end alike. -/
def Agree (moved : Prop) : Except EmptyCompletion Response → Outcome → Prop
  | .ok called, .answered watched => SameResponse moved called watched
  | .error error, .refused error' => SameError moved error error'
  | _, _ => False

/-- Messages of one text are refused alike. -/
theorem sameError_of_texts {moved : Prop} {called watched : Fields} (finishReason : Json) (tokens : ℕ)
    (content : textOf (called.get "content") = textOf (watched.get "content"))
    (tools : (called.get "tool_calls").truthy = (watched.get "tool_calls").truthy)
    (reasoning : reasoningText called = reasoningText watched ∨
      moved ∧ reasoningText called = Text.rstrip (reasoningText watched)) :
    (emptyCompletionError called finishReason tokens = none ∧
        emptyCompletionError watched finishReason tokens = none) ∨
      ∃ error error', emptyCompletionError called finishReason tokens = some error ∧
        emptyCompletionError watched finishReason tokens = some error' ∧ SameError moved error error' := by
  have blank : Text.strip (reasoningText called) = [] ↔ Text.strip (reasoningText watched) = [] := by
    rcases reasoning with same | ⟨-, stripped⟩
    · rw [same]
    · rw [stripped, Text.strip_rstrip_eq_nil_iff]
  simp only [emptyCompletionError, content, tools, ne_eq, blank]
  by_cases answered : ¬Text.strip (textOf (watched.get "content")) = [] ∨
      (watched.get "tool_calls").truthy = true
  · exact .inl ⟨if_pos answered, if_pos answered⟩
  · rw [if_neg answered, if_neg answered]
    by_cases spent : ¬Text.strip (reasoningText watched) = [] ∧ finishReason = .str "length"
    · rw [if_pos spent, if_pos spent]
      refine .inr ⟨_, _, rfl, rfl, rfl, fun still => ?_⟩
      rcases reasoning with same | ⟨moved, -⟩
      · rw [same]
      · exact absurd moved still
    · rw [if_neg spent, if_neg spent]
      exact .inr ⟨_, _, rfl, rfl, rfl, rfl⟩

theorem foldl_logprobs {ps : List Json} (none_there : ∀ p ∈ ps, (choiceOf p).get "logprobs" = .null)
    {w : Watch} (null : w.logprobs = .null) : (ps.foldl Watch.take w).logprobs = .null := by
  induction ps generalizing w with
  | nil => exact null
  | cons parsed ps ih =>
      refine ih (fun p mem => none_there p (List.mem_cons_of_mem _ mem)) ?_
      have think : ∀ (w : Watch) (delta : Fields), (w.think delta).logprobs = w.logprobs := by
        intro w delta
        unfold Watch.think
        split_ifs <;> rfl
      have usage : ∀ (w : Watch) (v : Json), (w.usage v).logprobs = w.logprobs := by
        intro w v
        cases v <;> rfl
      rw [Watch.take, think]
      simp only [Watch.labels, none_there parsed (List.mem_cons_self ..)]
      split
      · rfl
      · rw [usage]
        exact null

theorem foldl_key {ps : List Json} {w : Watch} (keyed : w.reasoningKey ∈ reasoningKeys) :
    (ps.foldl Watch.take w).reasoningKey ∈ reasoningKeys := by
  induction ps generalizing w with
  | nil => exact keyed
  | cons parsed ps ih =>
      refine ih ?_
      have think : ∀ (w : Watch) (delta : Fields), w.reasoningKey ∈ reasoningKeys →
          (w.think delta).reasoningKey ∈ reasoningKeys := by
        intro w delta keyed
        unfold Watch.think
        split_ifs
        · simp [reasoningKeys]
        · simp [reasoningKeys]
        · exact keyed
      have usage : ∀ (w : Watch) (v : Json), (w.usage v).reasoningKey = w.reasoningKey := by
        intro w v
        cases v <;> rfl
      refine think _ _ ?_
      change ((w.header _).usage _).reasoningKey ∈ reasoningKeys
      rwa [usage]

/-- The body that a watch makes. -/
theorem message_assembleBody {w : Watch} (keyed : w.reasoningKey ∈ reasoningKeys) :
    textOf ((message w.assembleBody).get "content") = w.content ∧
      reasoningText (message w.assembleBody) = w.reasoning ∧
      (message w.assembleBody).get "tool_calls" = .null ∧
      (choice0 w.assembleBody).get "finish_reason" = w.finishReason ∧
      (choice0 w.assembleBody).get "logprobs" = w.logprobs := by
  have message : message w.assembleBody = [("role", .str "assistant"), ("content", .str (.ofList w.content))] ++
      if w.reasoning = [] then [] else [(w.reasoningKey, .str (.ofList w.reasoning))] := rfl
  refine ⟨?_, ?_, ?_, rfl, rfl⟩
  · rw [message]
    exact String.toList_ofList
  · rw [message]
    by_cases empty : w.reasoning = []
    · rw [if_pos empty, empty]
      rfl
    · rw [if_neg empty]
      rcases List.mem_cons.mp keyed with key | key
      · rw [key]
        change (if (String.ofList w.reasoning).toList ≠ [] then (String.ofList w.reasoning).toList else _) = _
        rw [String.toList_ofList, if_pos empty]
      · rw [List.mem_singleton.mp key]
        exact String.toList_ofList
  · rw [message]
    by_cases empty : w.reasoning = []
    · rw [if_pos empty]
      rfl
    · rw [if_neg empty]
      rcases List.mem_cons.mp keyed with key | key
      · rw [key]
        rfl
      · rw [List.mem_singleton.mp key]
        rfl

/-- What has been read when the stream is over. -/
structure Reply.Read (r : Reply) (ep : Endpoint) (payload : Fields) (w : Watch) : Prop where
  content : w.content = (r.relayed ep payload).2
  reasoning : w.reasoning = (r.relayed ep payload).1
  finish : w.finishReason = Fields.get r.ch "finish_reason"
  logprobs : w.logprobs = .null
  keyed : w.reasoningKey ∈ reasoningKeys
  counts : w.counts = (some r.usage, coerceTokenCount (r.usage.get "prompt_tokens") 0,
    coerceTokenCount (r.usage.get "completion_tokens") 0, extractCachedTokens r.usage)

theorem Reply.read_yields {r : Reply} {ep : Endpoint} {payload : Fields} {ps : List Json}
    (yields : Yields r.chunks ps) (relayed : reads ps = r.relayed ep payload) (id object created model : Json) :
    r.Read ep payload (ps.foldl Watch.take
      { id := id, object := object, created := created, model := model }) := by
  obtain ⟨out, frames, keeps, synth, rfl⟩ := yields.kept
  have finishes := keeps.filterMap_finish
  have plain := keeps.logprobs r.logprobs.2
  obtain ⟨outs, each, rfl⟩ := keeps
  set ps := outs.flatten ++ frames.map Frame.parsed with ps_def
  obtain ⟨content, reasoning, finish, counts⟩ :=
    foldl_take ps { id := id, object := object, created := created, model := model }
  have finishes : ps.filterMap finish? = (r.chunks.map Chunk.parsed).filterMap finish? := by
    rw [ps_def, List.filterMap_append, synth.filterMap_finish, List.append_nil, finishes]
  have plain : ∀ p ∈ ps, (choiceOf p).get "logprobs" = .null := by
    intro p mem
    rcases List.mem_append.mp mem with mem | mem
    · exact plain p mem
    · exact synth.logprobs mem
  obtain ⟨us, usages, steady⟩ := r.carried.spec each
  have all : ps.filterMap usage? = us ++ [r.usage] := by
    rw [ps_def, List.filterMap_append, synth.filterMap_usage, List.append_nil, usages]
  refine ⟨?_, ?_, ?_, foldl_logprobs plain rfl, foldl_key (by simp [reasoningKeys]), ?_⟩
  · rw [content, List.nil_append, ← relayed, reads]
  · rw [reasoning, List.nil_append, ← relayed, reads]
  · rw [finish, finishes, r.finish]
  · rw [counts, all]
    exact usages_last ⟨rfl, rfl, rfl⟩ steady

/-- A call and a watch that has read the stream end alike. -/
theorem Reply.agree_answer {r : Reply} {ep : Endpoint} {payload : Fields} {w : Watch}
    (read : r.Read ep payload w)
    (sound : ep.reasons = true → reasoningText r.msg = [] ∨ Text.strip (reasoningText r.msg) ≠ []) :
    Agree (r.moved ep payload) (call ep payload r.body) w.answer := by
  have counts := read.counts
  simp only [Watch.counts, Prod.mk.injEq] at counts
  obtain ⟨last, input, output, cached⟩ := counts
  have serves := @Reply.serves_call r ep payload sound
  have usage : usageOf r.body = r.usage := by
    rw [usageOf, r.usageThere]
    rfl
  obtain ⟨content', reasoning', tools', finish', logprobs'⟩ := message_assembleBody read.keyed
  have same_usage : w.assembleBody.get "usage" = .obj r.usage := by
    rw [Watch.assembleBody, last]
    rfl
  set served := if ep.reasons = true then
    repairBody r.body (closeOnlyExpected ep payload false) (defaultReasoningKey ep) else r.body with served_def
  have content : textOf ((Watched.message served).get "content") = textOf ((Watched.message w.assembleBody).get "content") := by
    rw [serves.content, content', read.content]
  have tools : ((Watched.message served).get "tool_calls").truthy = ((Watched.message w.assembleBody).get "tool_calls").truthy := by
    rw [serves.tools, tools', r.noTools]
    rfl
  have reasoning : reasoningText (Watched.message served) = reasoningText (Watched.message w.assembleBody) ∨
      r.moved ep payload ∧ reasoningText (Watched.message served) = Text.rstrip (reasoningText (Watched.message w.assembleBody)) := by
    rw [serves.reasoning, reasoning', read.reasoning]
    by_cases moved : r.moved ep payload
    · rw [if_pos moved]
      exact .inr ⟨moved, rfl⟩
    · rw [if_neg moved]
      exact .inl rfl
  have reported : ¬(w.lastUsage = none ∧ w.content ≠ []) := by
    rw [last]
    rintro ⟨unread, -⟩
    cases unread
  rcases sameError_of_texts (Fields.get r.ch "finish_reason") w.outputTokens content tools reasoning with ⟨none_called, none_watched⟩ | ⟨error, error', some_called, some_watched, same⟩
  · have called : call ep payload r.body = .ok
        { body := served
          inputTokens := w.inputTokens
          outputTokens := w.outputTokens
          finishReason := Fields.get r.ch "finish_reason"
          cachedTokens := w.cachedTokens } := by
      delta call
      simp only [← served_def, serves.finish, usage, ← input, ← output, ← cached, none_called]
    have watched : w.answer = .answered
        { body := w.assembleBody
          inputTokens := w.inputTokens
          outputTokens := w.outputTokens
          finishReason := Fields.get r.ch "finish_reason"
          cachedTokens := w.cachedTokens } := by
      simp only [Watch.answer, if_neg reported, read.finish, none_watched]
    rw [called, watched]
    refine ⟨content, reasoning, ?_, ?_, ?_, rfl, rfl, rfl, rfl⟩
    · rw [serves.finish, finish', read.finish]
    · rw [serves.logprobs, logprobs', read.logprobs]
    · rw [serves.usage, same_usage]
  · have called : call ep payload r.body = .error error := by
      delta call
      simp only [← served_def, serves.finish, usage, ← output, some_called]
    have watched : w.answer = .refused error' := by
      simp only [Watch.answer, if_neg reported, read.finish, some_watched]
    rw [called, watched]
    exact same

/-- **Plain and watched calls agree**: over one reply, in any cutting that leaves the detector quiet,
both give the same content, reasoning, finish reason, usage and cached tokens, or the same error.
On an endpoint that reasons the two repairs have to be asked for the same, and what they look for
has to come in time. -/
theorem watched_eq_called (ep : Endpoint) (payload : Fields) (r : Reply) (requestId : String) (now : ℤ)
    (threshold : ℕ)
    (repaired : ep.reasons = true →
      closeOnlyExpected ep payload true = closeOnlyExpected ep payload false ∧
        Timely (closeOnlyExpected ep payload false) [] r.chunks ∧
        (reasoningText r.msg = [] ∨ Text.strip (reasoningText r.msg) ≠ [])) :
    ∃ outcome, callWatched ep payload requestId now threshold (r.chunks.map Chunk.fed) = .ok outcome ∧
      ((∃ body detector input output, outcome = .aborted body detector input output) ∨
        Agree (r.moved ep payload) (call ep payload r.body) outcome) := by
  obtain ⟨ps, yielded, yields, relayed⟩ := @Reply.streamed_relayed r ep payload fun reasons =>
    ⟨(repaired reasons).1, (repaired reasons).2.1⟩
  set start : Watch :=
    { id := .str ("chatcmpl-" ++ requestId)
      object := .str "chat.completion"
      created := .int now
      model := .str ep.effectiveModelId } with start_def
  set watched := start.read { threshold := threshold } ps with watched_def
  by_cases fired : watched.2.fired = true
  · refine ⟨.aborted watched.1.assembleBody watched.2 watched.1.inputTokens
      (if watched.1.outputTokens = 0 then estimateTokensFromChars watched.1.content.length
        else watched.1.outputTokens), ?_, .inl ⟨_, _, _, _, rfl⟩⟩
    simp only [callWatched, yielded, bind, Except.bind, ← start_def, ← watched_def, fired, if_true]
  · refine ⟨watched.1.answer, ?_, .inr ?_⟩
    · simp only [callWatched, yielded, bind, Except.bind, ← start_def, ← watched_def, if_neg fired]
    · rw [read_quiet (Bool.eq_false_iff.mpr fired)]
      exact Reply.agree_answer (r.read_yields yields relayed _ _ _ _) fun reasons => (repaired reasons).2.2

/-- A reply with the reasoning in its content, and a tag cut in two. -/
def thinkingReply : Reply where
  body := [("choices", .arr [.obj [("message", .obj [("content", .str "<think>plan</think>{}")]),
    ("finish_reason", .str "stop")]]), ("usage", .obj [("prompt_tokens", .int 3), ("completion_tokens", .int 9)])]
  ch := [("message", .obj [("content", .str "<think>plan</think>{}")]), ("finish_reason", .str "stop")]
  msg := [("content", .str "<think>plan</think>{}")]
  usage := [("prompt_tokens", .int 3), ("completion_tokens", .int 9)]
  chunks := [.text (.ofContent "<thi" .null), .text (.ofContent "nk>plan</think>{}" (.str "stop")),
    .bare
      { fields := [("choices", .arr []),
          ("usage", .obj [("prompt_tokens", .int 3), ("completion_tokens", .int 9)])]
        data := ""
        noError := by decide
        bare := by decide +kernel }]
  choices := by decide +kernel
  message := by decide +kernel
  usageThere := by decide +kernel
  texts := by
    intro key mem
    simp only [List.mem_cons, List.not_mem_nil, or_false] at mem
    rcases mem with rfl | rfl | rfl
    · exact .inr ⟨_, rfl⟩
    · exact .inl rfl
    · exact .inl rfl
  noTools := by decide +kernel
  content := by decide +kernel
  reasoning := by decide +kernel
  finish := by decide +kernel
  ends := ⟨by decide +kernel, by decide +kernel, by decide +kernel, trivial⟩
  carried := .inr ⟨nofun, .inr ⟨nofun, .inl ⟨by decide +kernel, .inl (by decide +kernel), nofun⟩⟩⟩
  logprobs := ⟨by decide +kernel, by decide +kernel⟩

theorem watched_eq_called_thinking :
    ∃ outcome, callWatched ⟨true, false, false, true, "qwen"⟩ [] "1" 0 256 (thinkingReply.chunks.map Chunk.fed) =
        .ok outcome ∧
      ((∃ body detector input output, outcome = .aborted body detector input output) ∨
        Agree (thinkingReply.moved ⟨true, false, false, true, "qwen"⟩ [])
          (call ⟨true, false, false, true, "qwen"⟩ [] thinkingReply.body) outcome) :=
  watched_eq_called ⟨true, false, false, true, "qwen"⟩ [] thinkingReply "1" 0 256 fun _ =>
    ⟨by decide, ⟨nofun, fun _ => ⟨nofun, fun _ => ⟨nofun, fun _ => by
      change heldPart _ _ ≤ holdBound _
      decide +kernel⟩⟩⟩, .inl (by decide +kernel)⟩

/-! ### Where they differ -/

/-- The reasoning and the content of a body. -/
def texts (body : Fields) : String × String :=
  (.ofList (reasoningText (message body)), .ofList (textOf ((message body).get "content")))

def called (ep : Endpoint) (choice usage : Fields) : Option Response :=
  (call ep [] [("choices", .arr [.obj choice]), ("usage", .obj usage)]).toOption

def watched (ep : Endpoint) (chunks : List Fields) : Option Response :=
  match callWatched ep [] "1" 0 256 (chunks.map fun chunk => (.obj chunk, "")) with
  | .ok (.answered response) => some response
  | _ => none

/-- A chunk of one choice. -/
def chunkOf (delta : Fields) (finish : Json) (more : Fields) : Fields :=
  ("choices", .arr [.obj [("delta", .obj delta), ("finish_reason", finish)]]) :: more

def stopped (msg : Fields) : Fields := [("message", .obj msg), ("finish_reason", .str "stop")]

/-- Token probabilities. -/
def logprobsOf (tokens : List String) : Json :=
  .obj [("content", .arr (tokens.map fun token => .obj [("token", .str token)]))]

/-- What a plain call and a watched one make of one reply, where they do not agree. -/
theorem watched_differs :
    let reasons : Endpoint := ⟨true, false, false, true, "qwen"⟩
    let usage : Fields := [("completion_tokens", .int 9)]
    let ending : List Fields := [[("usage", .obj usage)]]
    -- the plain call believes a closing tag of a forced reasoner
    ((called ⟨true, false, true, true, "qwen"⟩ (stopped [("content", .str "plan</think>A")]) usage).map
        (fun a => texts a.body) = some ("plan", "A") ∧
      (watched ⟨true, false, true, true, "qwen"⟩
          (chunkOf [("content", .str "plan</think>A")] (.str "stop") [] :: ending)).map
        (fun a => texts a.body) = some ("", "plan</think>A")) ∧
    -- it strips the end of a trace
    ((called reasons (stopped [("content", .str "<think>plan </think>A")]) usage).map
        (fun a => texts a.body) = some ("plan", "A") ∧
      (watched reasons (chunkOf [("content", .str "<think>plan </think>A")] (.str "stop") [] :: ending)).map
        (fun a => texts a.body) = some ("plan ", "A")) ∧
    -- the stream gives up on a tag after too many characters
    ((called reasons (stopped [("content", .str "                 <think>plan</think>A")]) usage).map
        (fun a => texts a.body) = some ("plan", "A") ∧
      (watched reasons (chunkOf [("content", .str "                 ")] .null [] ::
          chunkOf [("content", .str "<think>plan</think>A")] (.str "stop") [] :: ending)).map
        (fun a => texts a.body) = some ("", "                 <think>plan</think>A")) ∧
    -- it takes blank reasoning for reasoning
    ((called reasons (stopped [("reasoning", .str " "), ("content", .str "<think>plan</think>A")]) usage).map
        (fun a => texts a.body) = some ("plan", "A") ∧
      (watched reasons (chunkOf [("reasoning", .str " ")] .null [] ::
          chunkOf [("content", .str "<think>plan</think>A")] (.str "stop") [] :: ending)).map
        (fun a => texts a.body) = some (" ", "<think>plan</think>A")) ∧
    -- it moves a trace that comes before the reasoning
    ((called reasons (stopped [("reasoning", .str "why"), ("content", .str "<think>plan</think>A")]) usage).map
        (fun a => texts a.body) = some ("why", "<think>plan</think>A") ∧
      (watched reasons (chunkOf [("content", .str "<think>plan</think>A")] .null [] ::
          chunkOf [("reasoning", .str "why")] (.str "stop") [] :: ending)).map
        (fun a => texts a.body) = some ("planwhy", "A")) ∧
    -- without a usage of its own, or with one on a chunk that is taken apart, it counts by itself
    ((called reasons (stopped [("content", .str "A")]) usage).map Response.outputTokens = some 9 ∧
      (watched reasons [chunkOf [("content", .str "A")] (.str "stop") []]).map Response.outputTokens = some 1 ∧
      (watched reasons [chunkOf [("content", .str "<think>plan</think>A")] .null [("usage", .obj usage)],
        chunkOf [] (.str "stop") []]).map Response.outputTokens = some 1) ∧
    -- only the last log probabilities are left
    ((called reasons (("logprobs", logprobsOf ["A", "B"]) :: stopped [("content", .str "AB")]) usage).map
        (fun a => (choice0 a.body).get "logprobs") = some (logprobsOf ["A", "B"]) ∧
      (watched reasons
          ([("choices", .arr [.obj [("delta", .obj [("content", .str "A")]), ("logprobs", logprobsOf ["A"])]])] ::
          [("choices", .arr [.obj [("delta", .obj [("content", .str "B")]), ("logprobs", logprobsOf ["B"]),
            ("finish_reason", .str "stop")]])] :: ending)).map
        (fun a => (choice0 a.body).get "logprobs") = some (logprobsOf ["B"])) := by
  decide +kernel

end Roadstead.Watched
