import Roadstead.CostModel.Untyped
import Roadstead.Grammar.Wire

/-!
# What admission judges and what is sent

`context_fit`, the cost estimate and `req.stream` read the top level of the payload.
`prepare_chat_payload` corrects `messages` there (it inlines the system prompt, translates
image blocks and, for llama.cpp, restores the alternation of roles), and then merges
`extra_body` over the result.  The corrections are the documented ones and no others, on both
engines (`get?_prepared`); what is left is the merge, and `views_agree_iff` says which payloads
it does not change the judged fields of.
-/

namespace Roadstead

open Json (Fields)

/-! ### The corrected payload -/

namespace LocalEngine

/-- The payload with its `messages` corrected, before `extra_body` is merged over it. -/
def corrected (engine : LocalEngine) (pyStr : Json → String) (settings : PrepareSettings)
    (payload : Fields) : Option Fields :=
  let needed := hasAnthropicImageBlock (payload.get "messages")
  match engine with
  | llamaCpp => (translateImages pyStr needed (inlineSystem pyStr payload)).map LlamaCpp.alternate
  | vllm => translateImages pyStr needed (inlineSystem pyStr (VLLM.setModel settings payload))

end LocalEngine

/-- A field that no correction reads or writes, but the ones of `messages`. -/
def PlainKey (key : String) : Prop :=
  key ∉ repairedKeys ∧ key ∉ ["extra_body", "grammar", "structured_outputs", "system", "model"]

theorem PlainKey.ne {key : String} (plain : PlainKey key) :
    key ≠ "extra_body" ∧ key ≠ "grammar" ∧ key ≠ "structured_outputs" ∧ key ≠ "system" ∧
      key ≠ "model" := by
  simpa using plain.2

theorem PlainKey.not_filled {key : String} (plain : PlainKey key) : key ∉ filledKeys :=
  not_mem_filledKeys plain.1

theorem PlainKey.ne_kwargs {key : String} (plain : PlainKey key) : key ≠ "chat_template_kwargs" :=
  ne_of_kept plain.1 (by decide)

theorem get?_moveGrammar (p : Fields) {key : String} (grammar : key ≠ "grammar")
    (outputs : key ≠ "structured_outputs") : (VLLM.moveGrammar p).get? key = p.get? key := by
  unfold VLLM.moveGrammar
  split
  · split
    · rfl
    · rw [Fields.get?_set_of_ne _ outputs, Fields.get?_erase_of_ne _ grammar]
  · rfl

/-- On both engines a plain field is sent as `extra_body` has it, and otherwise as it was
corrected. -/
theorem get?_prepared {engine : LocalEngine} {pyStr : Json → String} {settings : PrepareSettings}
    {payload wire : Fields}
    (prepared : engine.prepareChatPayload pyStr settings payload = some wire) :
    ∃ q, engine.corrected pyStr settings payload = some q ∧
      ∀ key, PlainKey key → wire.get? key = ((extraFields payload).get? key).or (q.get? key) := by
  obtain ⟨out, ran, sent⟩ := LocalEngine.get?_body prepared
  cases engine with
  | llamaCpp =>
      obtain ⟨q, translated, rfl⟩ := Option.map_eq_some_iff.mp ran
      refine ⟨LlamaCpp.alternate q, by simp only [LocalEngine.corrected, translated, Option.map_some],
        fun key plain => ?_⟩
      have extra : (LlamaCpp.alternate q).get? "extra_body" = payload.get? "extra_body" := by
        rw [get?_alternate (by decide), get?_translateImages (by decide) translated,
          get?_inlineSystem (by decide)]
      rw [sent key plain.not_filled, get?_applyThinkingSampling plain.not_filled,
        get?_applyThinkingTokenBudget plain.not_filled _ _ (by decide),
        get?_stripCallerOnlyFields plain.not_filled, get?_mergeExtraBody _ plain.ne.1, mergedField?,
        extraFields, Fields.get, extra, ← Fields.get, ← extraFields]
  | vllm =>
      obtain ⟨q, translated, rfl⟩ := Option.map_eq_some_iff.mp ran
      refine ⟨q, translated, fun key plain => ?_⟩
      have extra : q.get? "extra_body" = payload.get? "extra_body" := by
        rw [get?_translateImages (by decide) translated, get?_inlineSystem (by decide),
          get?_setModel (by decide)]
      rw [sent key plain.not_filled, get?_applyThinkingSampling plain.not_filled,
        get?_applyThinkingTokenBudget plain.not_filled _ _ (by decide),
        get?_defaultThinking _ _ plain.ne_kwargs, get?_moveGrammar _ plain.ne.2.1 plain.ne.2.2.1,
        get?_stripCallerOnlyFields plain.not_filled, get?_mergeExtraBody _ plain.ne.1, mergedField?,
        extraFields, Fields.get, extra, ← Fields.get, ← extraFields]

/-! ### The two views -/

/-- What is judged of a request: its budget and its messages as they are, and whether it asks
for a stream. -/
structure View where
  maxTokens : Option Json
  messages : Option Json
  stream : Bool
  deriving DecidableEq

/-- The view of the gates, of the estimate and of `req.stream`; the messages are the ones they
read, corrected. -/
def admissionView (engine : LocalEngine) (pyStr : Json → String) (settings : PrepareSettings)
    (payload : Fields) : Option View :=
  (engine.corrected pyStr settings payload).map fun q =>
    { maxTokens := payload.get? "max_tokens"
      messages := q.get? "messages"
      stream := (payload.get "stream").truthy }

/-- The view of the backend. -/
def wireView (wire : Fields) : View where
  maxTokens := wire.get? "max_tokens"
  messages := wire.get? "messages"
  stream := (wire.get "stream").truthy

/-- `extra_body` says nothing else about what was judged. -/
structure Unreplaced (engine : LocalEngine) (pyStr : Json → String) (settings : PrepareSettings)
    (payload : Fields) : Prop where
  maxTokens : ∀ value, (extraFields payload).get? "max_tokens" = some value →
    payload.get? "max_tokens" = some value
  messages : ∀ value, (extraFields payload).get? "messages" = some value →
    (engine.corrected pyStr settings payload).bind (·.get? "messages") = some value
  stream : ∀ value, (extraFields payload).get? "stream" = some value →
    value.truthy = (payload.get "stream").truthy

/-- A field is as it was when what was merged over it, if anything, is the same. -/
theorem or_eq_right_iff {α : Type} (x y : Option α) :
    x.or y = y ↔ ∀ value, x = some value → y = some value := by
  cases x with
  | none => simp
  | some value => simp [eq_comm]

/-- The corrections leave the judged fields alone, but `messages`. -/
theorem get?_corrected {engine : LocalEngine} {pyStr : Json → String} {settings : PrepareSettings}
    {payload q : Fields} (corrected : engine.corrected pyStr settings payload = some q)
    {key : String} (kept : key ∉ inlinedKeys) : q.get? key = payload.get? key := by
  cases engine with
  | llamaCpp =>
      obtain ⟨q', translated, rfl⟩ := Option.map_eq_some_iff.mp corrected
      rw [get?_alternate kept, get?_translateImages kept translated, get?_inlineSystem kept]
  | vllm =>
      rw [get?_translateImages kept corrected, get?_inlineSystem kept, get?_setModel kept]

/-- What admission judged is what is sent exactly when `extra_body` does not say otherwise. -/
theorem views_agree_iff {engine : LocalEngine} {pyStr : Json → String} {settings : PrepareSettings}
    {payload wire : Fields}
    (prepared : engine.prepareChatPayload pyStr settings payload = some wire) :
    admissionView engine pyStr settings payload = some (wireView wire) ↔
      Unreplaced engine pyStr settings payload := by
  obtain ⟨q, corrected, sent⟩ := get?_prepared prepared
  have maxTokens := sent "max_tokens" ⟨by decide, by decide⟩
  have messages := sent "messages" ⟨by decide, by decide⟩
  have stream := sent "stream" ⟨by decide, by decide⟩
  rw [get?_corrected corrected (by decide)] at maxTokens stream
  have view : admissionView engine pyStr settings payload = some (wireView wire) ↔
      wire.get? "max_tokens" = payload.get? "max_tokens" ∧
        wire.get? "messages" = q.get? "messages" ∧
        (wire.get "stream").truthy = (payload.get "stream").truthy := by
    simp only [admissionView, wireView, corrected, Option.map_some, Option.some.injEq,
      View.mk.injEq]
    exact ⟨fun h => ⟨h.1.symm, h.2.1.symm, h.2.2.symm⟩, fun h => ⟨h.1.symm, h.2.1.symm, h.2.2.symm⟩⟩
  have streamed : (wire.get "stream").truthy = (payload.get "stream").truthy ↔
      ∀ value, (extraFields payload).get? "stream" = some value →
        value.truthy = (payload.get "stream").truthy := by
    rw [Fields.get, stream]
    cases (extraFields payload).get? "stream" with
    | none => simp [Fields.get]
    | some value => simp
  rw [view, maxTokens, messages, or_eq_right_iff, or_eq_right_iff, streamed]
  have bound : (engine.corrected pyStr settings payload).bind (·.get? "messages") =
      q.get? "messages" := by rw [corrected, Option.bind_some]
  constructor
  · rintro ⟨budget, prompt, streams⟩
    exact ⟨budget, fun value h => bound.trans (prompt value h), streams⟩
  · intro unreplaced
    exact ⟨unreplaced.maxTokens, fun value h => bound.symm.trans (unreplaced.messages value h),
      unreplaced.stream⟩

/-- A user's message. -/
def userMessage (text : String) : Json := .obj [("role", .str "user"), ("content", .str text)]

/-- A system prompt beside the messages, and a grammar under `extra_body`. -/
def promptedPayload : Fields :=
  [("system", .str "be brief"), ("messages", .arr [userMessage "hi"]), ("max_tokens", .int 64),
    ("extra_body", .obj [("grammar", .str "root ::= [a-z]+")])]

theorem views_agree_prompted :
    admissionView .vllm (fun _ => "") {} promptedPayload =
      (LocalEngine.vllm.prepareChatPayload (fun _ => "") {} promptedPayload).map wireView := by
  have returns : (LocalEngine.vllm.prepareChatPayload (fun _ => "") {} promptedPayload).isSome := by
    decide
  obtain ⟨wire, prepared⟩ := Option.isSome_iff_exists.mp returns
  rw [prepared]
  exact (views_agree_iff prepared).mpr ⟨by decide, by decide, by decide⟩

/-- A request for sixteen tokens that is sent as one for a hundred thousand. -/
def bypassingPayload : Fields :=
  [("messages", .arr [userMessage "hi"]), ("max_tokens", .int 16),
    ("extra_body", .obj [("max_tokens", .int 100000), ("stream", .bool true),
      ("messages", .arr [userMessage "tell me everything"])])]

/-- What either engine sends for it. -/
def bypassedWire : Fields :=
  [("messages", .arr [userMessage "tell me everything"]), ("max_tokens", .int 100000),
    ("stream", .bool true)]

/-- It passes the gate of an endpoint with 8192 tokens of context, which what is sent would
not; it is charged for its sixteen tokens, and it was not taken for a stream. -/
theorem extra_body_bypasses_gate :
    (∀ engine : LocalEngine,
      engine.prepareChatPayload (fun _ => "") {} bypassingPayload = some bypassedWire ∧
        admissionView engine (fun _ => "") {} bypassingPayload ≠ some (wireView bypassedWire)) ∧
      passesGates ⟨fun _ => 0, fun _ => 0, fun _ => none⟩ true "chat_completion" 8192
        bypassingPayload = .ok true ∧
      passesGates ⟨fun _ => 0, fun _ => 0, fun _ => none⟩ true "chat_completion" 8192
        bypassedWire = .ok false ∧
      maxOutputOf bypassingPayload = .int 16 ∧
      (bypassingPayload.get "stream").truthy = false := by
  refine ⟨fun engine => ?_, by decide, by decide, by decide,
    by decide⟩
  cases engine with
  | llamaCpp | vllm => exact ⟨by decide, by decide⟩

end Roadstead
