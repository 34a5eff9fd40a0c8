import Roadstead.Grammar.Admission
import Roadstead.Providers.FastPath

/-!
# The grammar on the wire

`process_grammar` looks for the grammar of a request at the top of the payload and then in
`extra_body`, and stops at the first one.  `prepare_chat_payload` merges `extra_body` over the
top, and vLLM reads its grammar from `structured_outputs`.  `wire_grammar_validated_iff` says
for which payloads the two agree.

The repairs of a payload write few fields; `get?_prepare` follows a field that none of them
writes (`repairedKeys`) from the payload to the wire.
-/

namespace Roadstead

open Json (Fields)

/-! ### Fields the repairs leave alone -/

/-- The fields of `extra_body`. -/
def extraFields (payload : Fields) : Fields := (payload.get "extra_body").asObj?.getD []

/-- A field of the payload with `extra_body` merged over it. -/
def mergedField? (payload : Fields) (key : String) : Option Json :=
  ((extraFields payload).get? key).or (payload.get? key)

/-- The fields that the repairs before the merge of `extra_body` write or remove. -/
def inlinedKeys : List String := ["system", "messages", "model"]

/-- The fields that the repairs after it write or remove. -/
def repairedKeys : List String :=
  ["call_site", "priority", "chat_template_kwargs", LlamaCpp.reasoningBudgetField,
    VLLM.reasoningBudgetField, "temperature", "top_p"]

/-- Those of them that are not the template arguments. -/
def filledKeys : List String :=
  ["call_site", "priority", LlamaCpp.reasoningBudgetField, VLLM.reasoningBudgetField, "temperature",
    "top_p"]

theorem not_mem_filledKeys {key : String} (kept : key ∉ repairedKeys) : key ∉ filledKeys := by
  simp only [repairedKeys, filledKeys, List.mem_cons, List.not_mem_nil, or_false, not_or] at kept ⊢
  exact ⟨kept.1, kept.2.1, kept.2.2.2⟩

theorem ne_of_kept {key key' : String} {written : List String} (kept : key ∉ written)
    (mem : key' ∈ written) : key ≠ key' := by
  rintro rfl
  exact kept mem

section Inlined

variable {key : String} (kept : key ∉ inlinedKeys)

include kept

theorem get?_setModel (settings : PrepareSettings) (p : Fields) :
    (VLLM.setModel settings p).get? key = p.get? key := by
  unfold VLLM.setModel
  split
  · exact p.get?_set_of_ne (ne_of_kept kept (by decide)) _
  · rfl

theorem get?_inlineSystem (pyStr : Json → String) (p : Fields) :
    (inlineSystem pyStr p).get? key = p.get? key := by
  have erased := p.get?_erase_of_ne (ne_of_kept kept (by decide : "system" ∈ inlinedKeys))
  simp only [inlineSystem]
  split
  · rw [Fields.get?_set_of_ne _ (ne_of_kept kept (by decide)), erased]
  · exact erased

theorem get?_alternate (p : Fields) : (LlamaCpp.alternate p).get? key = p.get? key := by
  unfold LlamaCpp.alternate
  split
  · exact p.get?_set_of_ne (ne_of_kept kept (by decide)) _
  · rfl

theorem get?_translateImages {pyStr : Json → String} {needed : Bool} {p p' : Fields}
    (translated : translateImages pyStr needed p = some p') : p'.get? key = p.get? key := by
  unfold translateImages at translated
  split at translated
  · obtain ⟨messages, -, rfl⟩ := Option.map_eq_some_iff.mp translated
    exact p.get?_set_of_ne (ne_of_kept kept (by decide)) _
  · obtain rfl := Option.some.inj translated
    rfl

end Inlined

section Repaired

variable {key : String} (kept : key ∉ filledKeys)

include kept

theorem get?_stripCallerOnlyFields (p : Fields) :
    (stripCallerOnlyFields p).get? key = p.get? key := by
  have erased := p.get?_erase_of_ne (ne_of_kept kept (by decide : "call_site" ∈ filledKeys))
  simp only [stripCallerOnlyFields]
  split
  · rw [Fields.get?_erase_of_ne _ (ne_of_kept kept (by decide)), erased]
  · exact erased

theorem get?_applyThinkingTokenBudget (p : Fields) (ratio : ℚ) {field : String}
    (filled : field ∈ filledKeys) (absolute : ℤ) :
    (applyThinkingTokenBudget p ratio field absolute).get? key = p.get? key := by
  unfold applyThinkingTokenBudget
  split_ifs
  · rfl
  · rfl
  · split
    · split_ifs
      · split
        · exact p.get?_set_of_ne (ne_of_kept kept filled) _
        · rfl
      · rfl
    · rfl

theorem get?_fillSampling (p : Fields) {field : String} (filled : field ∈ filledKeys)
    (value : ℚ) : (fillSampling p field value).get? key = p.get? key := by
  unfold fillSampling
  split
  · exact p.get?_set_of_ne (ne_of_kept kept filled) _
  · rfl

theorem get?_applyThinkingSampling (p : Fields) (temperature topP : ℚ) :
    (applyThinkingSampling p temperature topP).get? key = p.get? key := by
  unfold applyThinkingSampling
  split_ifs
  · rfl
  · rfl
  · rw [get?_fillSampling kept _ (by decide), get?_fillSampling kept _ (by decide)]

end Repaired

theorem get?_defaultThinking (settings : PrepareSettings) (p : Fields) {key : String}
    (other : key ≠ "chat_template_kwargs") :
    (VLLM.defaultThinking settings p).get? key = p.get? key := by
  unfold VLLM.defaultThinking
  split
  · exact p.get?_set_of_ne other _
  · rfl

/-- A step that leaves `extra_body` and a field alone leaves the merged field alone. -/
theorem mergedField?_congr {p p' : Fields} {key : String}
    (extra : p'.get? "extra_body" = p.get? "extra_body") (same : p'.get? key = p.get? key) :
    mergedField? p' key = mergedField? p key := by
  rw [mergedField?, mergedField?, extraFields, extraFields, Fields.get, Fields.get, extra, same]

theorem get?_mergeExtraBody (p : Fields) {key : String} (ne : key ≠ "extra_body") :
    (mergeExtraBody p).get? key = mergedField? p key := by
  have erased := p.get?_erase_of_ne ne
  unfold mergeExtraBody mergedField? extraFields
  split
  · rename_i extra found
    rw [found, Fields.get?_update, erased]
    rfl
  · rename_i other
    have none_found : (p.get "extra_body").asObj? = none := by
      cases found : (p.get "extra_body").asObj? with
      | none => rfl
      | some extra => exact absurd (Json.asObj?_eq_some.mp found) (other extra)
    rw [none_found, erased]
    rfl

/-! ### The merged payload -/

/-- A grammar is not among what the repairs write. -/
def GrammarKey (key : String) : Prop := key = "grammar" ∨ key = "structured_outputs"

theorem GrammarKey.ne_extraBody {key : String} (grammar : GrammarKey key) : key ≠ "extra_body" := by
  rcases grammar with rfl | rfl <;> decide

theorem GrammarKey.not_inlined {key : String} (grammar : GrammarKey key) : key ∉ inlinedKeys := by
  rcases grammar with rfl | rfl <;> decide

theorem GrammarKey.not_filled {key : String} (grammar : GrammarKey key) : key ∉ filledKeys := by
  rcases grammar with rfl | rfl <;> decide

theorem GrammarKey.ne_kwargs {key : String} (grammar : GrammarKey key) :
    key ≠ "chat_template_kwargs" := by
  rcases grammar with rfl | rfl <;> decide

/-- The way out before the repairs sends the fields that all of them would send, but for those
they fill. -/
theorem LocalEngine.get?_body {engine : LocalEngine} {pyStr : Json → String}
    {settings : PrepareSettings} {payload p : Fields}
    (prepared : engine.prepareChatPayload pyStr settings payload = some p) :
    ∃ out, engine.body pyStr settings payload = some out ∧
      ∀ key ∉ filledKeys, p.get? key = out.get? key := by
  rw [engine.prepareChatPayload_eq] at prepared
  split at prepared
  · next early =>
      obtain rfl := Option.some.inj prepared
      refine ⟨_, body_of_earlyReturn pyStr early, fun key kept => ?_⟩
      rw [get?_applyThinkingTokenBudget kept _ _ (by cases engine <;> decide)]
  · exact ⟨p, prepared, fun _ _ => rfl⟩

/-- llama.cpp gets the merged fields. -/
theorem LlamaCpp.get?_prepareChatPayload {pyStr : Json → String} {settings : PrepareSettings}
    {payload p : Fields} (prepared : LlamaCpp.prepareChatPayload pyStr settings payload = some p)
    {key : String} (grammar : GrammarKey key) : p.get? key = mergedField? payload key := by
  obtain ⟨out, ran, sent⟩ := @LocalEngine.get?_body .llamaCpp _ _ _ _ prepared
  obtain ⟨q, translated, rfl⟩ := Option.map_eq_some_iff.mp ran
  have early : ∀ key ∉ inlinedKeys, (LlamaCpp.alternate q).get? key = payload.get? key := by
    intro key kept
    rw [get?_alternate kept, get?_translateImages kept translated, get?_inlineSystem kept]
  rw [sent key grammar.not_filled, get?_applyThinkingSampling grammar.not_filled,
    get?_applyThinkingTokenBudget grammar.not_filled _ _ (by decide),
    get?_stripCallerOnlyFields grammar.not_filled, get?_mergeExtraBody _ grammar.ne_extraBody]
  exact mergedField?_congr (early _ (by decide)) (early _ grammar.not_inlined)

/-- vLLM gets the merged fields with the grammar moved to where it is read. -/
theorem VLLM.get?_prepareChatPayload {pyStr : Json → String} {settings : PrepareSettings}
    {payload p : Fields} (prepared : VLLM.prepareChatPayload pyStr settings payload = some p) :
    ∃ merged : Fields, (∀ key, GrammarKey key → merged.get? key = mergedField? payload key) ∧
      ∀ key, GrammarKey key → p.get? key = (VLLM.moveGrammar merged).get? key := by
  obtain ⟨out, ran, sent⟩ := @LocalEngine.get?_body .vllm _ _ _ _ prepared
  obtain ⟨q, translated, rfl⟩ := Option.map_eq_some_iff.mp ran
  have early : ∀ key ∉ inlinedKeys, q.get? key = payload.get? key := by
    intro key kept
    rw [get?_translateImages kept translated, get?_inlineSystem kept, get?_setModel kept]
  refine ⟨stripCallerOnlyFields (mergeExtraBody q), ?_, ?_⟩
  · intro key grammar
    rw [get?_stripCallerOnlyFields grammar.not_filled, get?_mergeExtraBody _ grammar.ne_extraBody]
    exact mergedField?_congr (early _ (by decide)) (early _ grammar.not_inlined)
  · intro key grammar
    rw [sent key grammar.not_filled, get?_applyThinkingSampling grammar.not_filled,
      get?_applyThinkingTokenBudget grammar.not_filled _ _ (by decide),
      get?_defaultThinking _ _ grammar.ne_kwargs]

/-! ### The wire -/

namespace LocalEngine

/-- The grammar that the engine reads from the payload it is sent: `descriptor.grammar_field`
names the field, and the one of vLLM is a mapping. -/
def wireGrammar (engine : LocalEngine) (p : Fields) : Option String :=
  match engine with
  | llamaCpp => grammarText (p.get "grammar")
  | vllm => grammarText ((p.get "structured_outputs").get "grammar")

end LocalEngine

/-- The `structured_outputs` of the payload with `extra_body` merged over it. -/
def structuredOutputs (payload : Fields) : Fields :=
  ((mergedField? payload "structured_outputs").bind Json.asObj?).getD []

/-- The grammar that the top or `extra_body` has after the merge. -/
def mergedGrammar (payload : Fields) : Option String :=
  (mergedField? payload "grammar").bind grammarText

theorem grammarText_get (p : Fields) (key : String) :
    grammarText (p.get key) = (p.get? key).bind grammarText := by
  rw [Fields.get]
  cases p.get? key <;> rfl

theorem get_asObj (p : Fields) (key key' : String) :
    (p.get key).get key' = Fields.get (((p.get? key).bind Json.asObj?).getD []) key' := by
  rw [Fields.get]
  cases p.get? key with
  | none => rfl
  | some value => cases value <;> rfl

/-- A grammar moves to `structured_outputs` unless there is one there. -/
theorem wireGrammar_moveGrammar (p : Fields) :
    LocalEngine.wireGrammar .vllm (VLLM.moveGrammar p) =
      if Fields.has (((p.get? "structured_outputs").bind Json.asObj?).getD []) "grammar" then
        grammarText ((p.get "structured_outputs").get "grammar")
      else grammarText (p.get "grammar") := by
  set so := ((p.get? "structured_outputs").bind Json.asObj?).getD [] with so_def
  have so_eq : (p.get "structured_outputs").asObj?.getD [] = so := by
    rw [so_def, Fields.get]
    cases p.get? "structured_outputs" <;> rfl
  have unmoved : LocalEngine.wireGrammar .vllm p = grammarText (Fields.get so "grammar") := by
    rw [LocalEngine.wireGrammar, get_asObj]
  have kept : grammarText ((p.get "structured_outputs").get "grammar") =
      grammarText (Fields.get so "grammar") := by rw [get_asObj]
  -- a mapping without a grammar has none to read
  have absent : Fields.has so "grammar" = false → grammarText (Fields.get so "grammar") = none := by
    intro no_grammar
    have none_there : Fields.get? so "grammar" = none := by simpa [Fields.has] using no_grammar
    rw [Fields.get, none_there]
    rfl
  cases text : grammarText (p.get "grammar") with
  | some g =>
      obtain ⟨found, nonblank⟩ := grammarText_eq_some.mp text
      have stripped : Text.strip g.toList ≠ [] := by simpa [isBlank] using nonblank
      have moved : VLLM.moveGrammar p = (p.erase "grammar").set "structured_outputs"
          (.obj (if Fields.has so "grammar" then so else Fields.set so "grammar" (.str g))) := by
        rw [VLLM.moveGrammar, found]
        simp only [stripped, if_false, so_eq]
      rw [moved, LocalEngine.wireGrammar, Fields.get_set_self, Json.get_obj, kept]
      split
      · rfl
      · rw [Fields.get_set_self, ← text, found]
  | none =>
      have unchanged : VLLM.moveGrammar p = p := by
        unfold VLLM.moveGrammar
        split
        · rename_i g found
          rw [found] at text
          have blank : isBlank g = true := by
            by_contra nonblank
            rw [grammarText_eq_some.mpr ⟨rfl, by simpa using nonblank⟩] at text
            cases text
          rw [if_pos (by simpa [isBlank] using blank)]
        · rfl
      rw [unchanged, unmoved, kept]
      split
      · rfl
      · rename_i no_grammar
        exact absent (by simpa using no_grammar)

/-- What each engine reads, in terms of the payload that `prepare_chat_payload` was given. -/
theorem wireGrammar_prepareChatPayload {engine : LocalEngine} {pyStr : Json → String}
    {settings : PrepareSettings} {payload p : Fields}
    (prepared : engine.prepareChatPayload pyStr settings payload = some p) :
    engine.wireGrammar p =
      if engine = .vllm ∧ Fields.has (structuredOutputs payload) "grammar" = true then
        grammarText (Fields.get (structuredOutputs payload) "grammar")
      else mergedGrammar payload := by
  cases engine with
  | llamaCpp =>
      have same := LlamaCpp.get?_prepareChatPayload prepared (.inl rfl)
      rw [LocalEngine.wireGrammar, grammarText_get, same, if_neg (by simp), mergedGrammar]
  | vllm =>
      obtain ⟨merged, before, after⟩ := VLLM.get?_prepareChatPayload prepared
      have wire : LocalEngine.wireGrammar .vllm p =
          LocalEngine.wireGrammar .vllm (VLLM.moveGrammar merged) := by
        rw [LocalEngine.wireGrammar, LocalEngine.wireGrammar, Fields.get, Fields.get,
          after _ (.inr rfl)]
      rw [wire, wireGrammar_moveGrammar, get_asObj, grammarText_get merged, before _ (.inl rfl),
        before _ (.inr rfl), ← structuredOutputs, ← mergedGrammar]
      simp

/-! ### The payload that admission lets through -/

theorem extraGrammar_eq (payload : Fields) :
    extraGrammar payload = ((extraFields payload).get? "grammar").bind grammarText := by
  unfold extraGrammar extraFields
  split
  · rename_i extra found
    rw [found, grammarText_get]
    rfl
  · rename_i other
    have none_found : (payload.get "extra_body").asObj? = none := by
      cases found : (payload.get "extra_body").asObj? with
      | none => rfl
      | some extra => exact absurd (Json.asObj?_eq_some.mp found) (other extra)
    rw [none_found]
    rfl

theorem mergedGrammar_eq (payload : Fields) :
    mergedGrammar payload =
      if (extraFields payload).has "grammar" then extraGrammar payload
      else grammarText (payload.get "grammar") := by
  rw [mergedGrammar, mergedField?, extraGrammar_eq, grammarText_get, Fields.has]
  cases (extraFields payload).get? "grammar" <;> rfl

theorem structuredOutputs_congr {p p' : Fields}
    (extra : (extraFields p').get? "structured_outputs" = (extraFields p).get? "structured_outputs")
    (top : p'.get? "structured_outputs" = p.get? "structured_outputs") :
    structuredOutputs p' = structuredOutputs p := by
  rw [structuredOutputs, structuredOutputs, mergedField?, mergedField?, extra, top]

theorem extraFields_set_grammar (payload : Fields) (value : Json) :
    extraFields (payload.set "grammar" value) = extraFields payload := by
  rw [extraFields, Fields.get_set_of_ne _ (by decide), extraFields]

section Admitted

variable {auth : GrammarAuthority} {payload : Fields} {g : String}

/-- A grammar that was found at the top is there in its normalized form, and the rest is as it
was. -/
theorem admitted_top (extracted : extractGrammar payload = some (g, .top)) {admitted : Fields}
    (written : admitted = if auth.normalize g = g then payload
      else writeGrammar payload (auth.normalize g) .top) :
    admitted.get "grammar" = .str (auth.normalize g) ∧ extraFields admitted = extraFields payload ∧
      structuredOutputs admitted = structuredOutputs payload := by
  split at written
  · rename_i same
    have found := (grammarText_eq_some.mp (extractGrammar_top extracted)).1
    rw [written, same]
    exact ⟨found, rfl, rfl⟩
  · have extra := extraFields_set_grammar payload (.str (auth.normalize g))
    rw [written, writeGrammar]
    refine ⟨Fields.get_set_self _ _ _, extra, structuredOutputs_congr (by rw [extra]) ?_⟩
    exact Fields.get?_set_of_ne _ (by decide) _

/-- A grammar that was found in `extra_body` is there in its normalized form, and the rest is
as it was. -/
theorem admitted_extraBody (extracted : extractGrammar payload = some (g, .extraBody))
    {admitted : Fields} (written : admitted = if auth.normalize g = g then payload
      else writeGrammar payload (auth.normalize g) .extraBody) :
    (extraFields admitted).get? "grammar" = some (.str (auth.normalize g)) ∧
      structuredOutputs admitted = structuredOutputs payload := by
  obtain ⟨-, in_extra⟩ := extractGrammar_extraBody extracted
  have found : (extraFields payload).get? "grammar" = some (.str g) := by
    rw [extraGrammar_eq] at in_extra
    obtain ⟨value, there, text⟩ := Option.bind_eq_some_iff.mp in_extra
    rw [there, (grammarText_eq_some.mp text).1]
  split at written
  · rename_i same
    rw [written, same]
    exact ⟨found, rfl⟩
  · cases mapping : payload.get "extra_body" with
    | obj extra =>
        have before : extraFields payload = extra := by rw [extraFields, mapping]; rfl
        have after : extraFields admitted =
            Fields.set extra "grammar" (.str (auth.normalize g)) := by
          rw [written, writeGrammar, mapping, extraFields, Fields.get_set_self]
          rfl
        have top : admitted.get? "structured_outputs" = payload.get? "structured_outputs" := by
          rw [written, writeGrammar, mapping]
          exact Fields.get?_set_of_ne _ (by decide) _
        refine ⟨by rw [after, Fields.get?_set_self], structuredOutputs_congr ?_ top⟩
        rw [after, before, Fields.get?_set_of_ne _ (by decide)]
    | _ =>
        rw [extraFields, mapping] at found
        cases found

end Admitted

/-! ### Validated grammars -/

/-- `text` is what `process_grammar` made of the grammar it found, and is valid. -/
def ValidatedGrammar (auth : GrammarAuthority) (payload : Fields) (text : String) : Prop :=
  ∃ g location, extractGrammar payload = some (g, location) ∧ auth.normalize g = text ∧
    auth.validate text = []

/-- A second grammar, in `extra_body`, is the normalized form of the one at the top. -/
def ExtraAgrees (auth : GrammarAuthority) (payload : Fields) : Prop :=
  ∀ top ∈ grammarText (payload.get "grammar"), ∀ extra ∈ extraGrammar payload,
    auth.normalize top = extra

/-- A grammar in the merged `structured_outputs` is the normalized form of the one that
`process_grammar` looks at. -/
def StructuredAgrees (auth : GrammarAuthority) (payload : Fields) : Prop :=
  ∀ text ∈ grammarText (Fields.get (structuredOutputs payload) "grammar"),
    ∃ g location, extractGrammar payload = some (g, location) ∧ auth.normalize g = text

/-- The places that a grammar of this payload can stand in agree, for this engine. -/
def GrammarsAgree (auth : GrammarAuthority) (engine : LocalEngine) (payload : Fields) : Prop :=
  if engine = .vllm ∧ Fields.has (structuredOutputs payload) "grammar" = true then
    StructuredAgrees auth payload
  else ExtraAgrees auth payload

section Validated

variable {auth : GrammarAuthority} {payload admitted : Fields}

/-- `process_grammar` accepted `payload` and made `admitted` of it. -/
def GrammarAdmitted (auth : GrammarAuthority) (payload admitted : Fields) : Prop :=
  extractGrammar payload = none ∧ admitted = payload ∨
    ∃ g location, extractGrammar payload = some (g, location) ∧
      auth.validate (auth.normalize g) = [] ∧
      admitted = if auth.normalize g = g then payload
        else writeGrammar payload (auth.normalize g) location

theorem structuredOutputs_admitted (admission : GrammarAdmitted auth payload admitted) :
    structuredOutputs admitted = structuredOutputs payload := by
  rcases admission with ⟨-, rfl⟩ | ⟨g, location, extracted, -, written⟩
  · rfl
  · cases location with
    | top => exact (admitted_top extracted written).2.2
    | extraBody => exact (admitted_extraBody extracted written).2

/-- The merged grammar is validated when a second one in `extra_body` is the same. -/
theorem mergedGrammar_validated_iff (admission : GrammarAdmitted auth payload admitted) :
    (∀ text, mergedGrammar admitted = some text → ValidatedGrammar auth payload text) ↔
      ExtraAgrees auth payload := by
  rcases admission with ⟨extracted, rfl⟩ | ⟨g, location, extracted, valid, written⟩
  · obtain ⟨no_top, no_extra⟩ := extractGrammar_eq_none extracted
    have no_grammar : mergedGrammar admitted = none := by
      rw [mergedGrammar_eq, no_top, no_extra, ite_self]
    refine ⟨fun _ top found => ?_, fun _ text found => ?_⟩
    · rw [no_top] at found
      cases found
    · rw [no_grammar] at found
      cases found
  · have validated : ∀ text, ValidatedGrammar auth payload text ↔ auth.normalize g = text := by
      intro text
      refine ⟨fun ⟨g', _, extracted', same, _⟩ => ?_, ?_⟩
      · rw [extracted] at extracted'
        cases extracted'
        exact same
      · rintro rfl
        exact ⟨g, location, extracted, rfl, valid⟩
    simp only [validated]
    have own : ∀ text, grammarText (.str (auth.normalize g)) = some text → auth.normalize g = text :=
      fun text found => Json.str.inj (grammarText_eq_some.mp found).1
    cases location with
    | top =>
        obtain ⟨top, extra, -⟩ := admitted_top extracted written
        have here := extractGrammar_top extracted
        rw [mergedGrammar_eq, extraGrammar_eq, extra, top, ← extraGrammar_eq]
        simp only [ExtraAgrees, here, Option.mem_def, Option.some.injEq, forall_eq']
        split
        · rfl
        · rename_i absent
          have no_extra : extraGrammar payload = none := by
            have none_there : (extraFields payload).get? "grammar" = none := by
              simpa [Fields.has] using absent
            rw [extraGrammar_eq, none_there]
            rfl
          simp only [no_extra, reduceCtorEq, false_implies, implies_true, iff_true]
          exact own
    | extraBody =>
        have no_top := (extractGrammar_extraBody extracted).1
        have merged : mergedGrammar admitted = grammarText (.str (auth.normalize g)) := by
          rw [mergedGrammar, mergedField?, (admitted_extraBody extracted written).1]
          rfl
        rw [merged]
        refine ⟨fun _ top found => ?_, fun _ => own⟩
        rw [no_top] at found
        cases found

theorem structuredGrammar_validated_iff (admission : GrammarAdmitted auth payload admitted) :
    (∀ text, grammarText (Fields.get (structuredOutputs admitted) "grammar") = some text →
      ValidatedGrammar auth payload text) ↔ StructuredAgrees auth payload := by
  rw [structuredOutputs_admitted admission]
  refine forall_congr' fun text => forall_congr' fun _ => ?_
  refine ⟨fun ⟨g, location, extracted, same, _⟩ => ⟨g, location, extracted, same⟩, ?_⟩
  rintro ⟨g, location, extracted, rfl⟩
  rcases admission with ⟨none_found, -⟩ | ⟨g', _, extracted', valid, -⟩
  · rw [extracted] at none_found
    cases none_found
  · rw [extracted] at extracted'
    cases extracted'
    exact ⟨g, location, extracted, rfl, valid⟩

end Validated

/-- Whatever requests came before: the engine gets a grammar that was validated for this
request, and none beside it, exactly when the places that name one agree. -/
theorem wire_grammar_validated_iff (auth : GrammarAuthority)
    (injective : Function.Injective auth.hash) (earlier : List (Bool × Fields)) (noStore : Bool)
    (payload admitted : Fields)
    (accepted : (processGrammar auth noStore (grammarMemo auth earlier) payload).2 = .ok admitted)
    (engine : LocalEngine) (pyStr : Json → String) (settings : PrepareSettings) (p : Fields)
    (prepared : engine.prepareChatPayload pyStr settings admitted = some p) :
    (∀ text, engine.wireGrammar p = some text → ValidatedGrammar auth payload text) ↔
      GrammarsAgree auth engine payload := by
  have admission : GrammarAdmitted auth payload admitted :=
    processGrammar_ok injective (grammarMemo_sound auth earlier) accepted
  rw [wireGrammar_prepareChatPayload prepared, structuredOutputs_admitted admission, GrammarsAgree]
  split
  · rw [← structuredGrammar_validated_iff admission, structuredOutputs_admitted admission]
  · exact mergedGrammar_validated_iff admission

section Samples

/-- A grammar authority that knows one broken grammar. -/
def sampleAuthority : GrammarAuthority where
  normalize g := g
  validate g := if g = "root ::= item" then
      [{ code := "undefined_rule", detail := "rule 'item' referenced but never defined"
         rule := some "item" }]
    else []
  hash g := g

/-- A valid grammar at the top and the broken one in `extra_body`. -/
def shadowedPayload : Fields :=
  [("messages", .arr []), ("grammar", .str "root ::= \"a\""),
    ("extra_body", .obj [("grammar", .str "root ::= item")])]

/-- The broken grammar in vLLM's own field. -/
def structuredPayload : Fields :=
  [("messages", .arr []), ("structured_outputs", .obj [("grammar", .str "root ::= item")])]

/-- A grammar in one place. -/
def plainPayload : Fields :=
  [("messages", .arr []), ("extra_body", .obj [("grammar", .str "root ::= \"a\"")])]

/-- Two payloads that are accepted, and whose broken grammar is what the engine reads. -/
theorem wire_grammar_unvalidated :
    (processGrammar sampleAuthority false {} shadowedPayload).2 = .ok shadowedPayload ∧
      ((LocalEngine.prepareChatPayload .llamaCpp (fun _ => "") {} shadowedPayload).bind
        (LocalEngine.wireGrammar .llamaCpp)) = some "root ::= item" ∧
      ((LocalEngine.prepareChatPayload .vllm (fun _ => "") {} shadowedPayload).bind
        (LocalEngine.wireGrammar .vllm)) = some "root ::= item" ∧
      (processGrammar sampleAuthority false {} structuredPayload).2 = .ok structuredPayload ∧
      ((LocalEngine.prepareChatPayload .vllm (fun _ => "") {} structuredPayload).bind
        (LocalEngine.wireGrammar .vllm)) = some "root ::= item" ∧
      ¬ ValidatedGrammar sampleAuthority shadowedPayload "root ::= item" ∧
      ¬ ValidatedGrammar sampleAuthority structuredPayload "root ::= item" := by
  refine ⟨by decide, by decide, by decide, by decide,
    by decide, ?_, ?_⟩
  all_goals
    rintro ⟨g, location, -, -, valid⟩
    simp [sampleAuthority] at valid

/-- A grammar in `extra_body` alone reaches vLLM validated. -/
theorem wire_grammar_validated_extra_body :
    (∀ text, LocalEngine.wireGrammar .vllm
        [("messages", .arr []), ("structured_outputs", .obj [("grammar", .str "root ::= \"a\"")])] =
      some text → ValidatedGrammar sampleAuthority plainPayload text) ↔
      GrammarsAgree sampleAuthority .vllm plainPayload :=
  wire_grammar_validated_iff sampleAuthority (fun _ _ same => same) [(true, shadowedPayload)] false
    plainPayload plainPayload (by decide) .vllm (fun _ => "") {} _ (by decide)

end Samples

end Roadstead
