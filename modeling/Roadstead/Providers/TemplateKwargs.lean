import Roadstead.Providers.Views

/-!
# The template arguments that are sent

`chat_template_kwargs` is sent as `extra_body` has it, and otherwise as the payload has it; vLLM then
writes every declared switch over it, as off, unless it finds a switch that it knows
(`kwargs_prepared`).  A field that no repair touches is only merged (`get?_wire`).
-/

namespace Roadstead

open Json (Fields)

section Merge

theorem get?_extra_mergeExtraBody (p : Fields) :
    (mergeExtraBody p).get? "extra_body" = (extraFields p).get? "extra_body" := by
  have erased := p.get?_erase_self "extra_body"
  unfold mergeExtraBody extraFields
  split
  · next extra found =>
      rw [found, Fields.get?_update, erased, Option.or_none]
      rfl
  · next other =>
      rw [erased]
      cases found : (p.get "extra_body").asObj? with
      | none => rfl
      | some extra => exact absurd (Json.asObj?_eq_some.mp found) (other extra)

/-- A known switch is found by two fields. -/
theorem hasThinkingKwarg_congr {p p' : Fields}
    (kwargs : p.get? "chat_template_kwargs" = p'.get? "chat_template_kwargs")
    (extra : p.get? "extra_body" = p'.get? "extra_body") :
    hasThinkingKwarg p = hasThinkingKwarg p' := by
  simp only [hasThinkingKwarg, templateKwargs, Fields.get, kwargs, extra]

end Merge

/-- A field that no repair touches is sent as it is merged. -/
theorem get?_wire {engine : LocalEngine} {pyStr : Json → String} {settings : PrepareSettings}
    {payload wire : Fields}
    (prepared : engine.prepareChatPayload pyStr settings payload = some wire) {key : String}
    (plain : PlainKey key) (kept : key ∉ inlinedKeys) :
    wire.get? key = mergedField? payload key := by
  obtain ⟨q, corrected, sent⟩ := get?_prepared prepared
  rw [sent key plain, get?_corrected corrected kept, mergedField?]

/-- Whether the declared switches are sent as off. -/
def LocalEngine.switchesOff (engine : LocalEngine) (keys : List String) (payload : Fields) : Bool :=
  decide (engine = .vllm) && !keys.isEmpty && !hasThinkingKwarg (mergeExtraBody payload)

/-- The declared switches written over the template arguments that are merged. -/
def offKwargs (keys : List String) (payload : Fields) : Fields :=
  keys.foldl (fun ck key => Fields.set ck key (.bool false))
    (((mergedField? payload "chat_template_kwargs").getD .null).asObj?.getD [])

/-- The template arguments that are sent. -/
theorem kwargs_prepared {engine : LocalEngine} {pyStr : Json → String} {settings : PrepareSettings}
    {payload wire : Fields}
    (prepared : engine.prepareChatPayload pyStr settings payload = some wire) :
    wire.get? "chat_template_kwargs" =
      if engine.switchesOff settings.thinkingKwargs payload then
        some (.obj (offKwargs settings.thinkingKwargs payload))
      else mergedField? payload "chat_template_kwargs" := by
  obtain ⟨out, ran, sent⟩ := LocalEngine.get?_body prepared
  rw [sent _ (by decide)]
  cases engine with
  | llamaCpp =>
      obtain ⟨q, translated, rfl⟩ := Option.map_eq_some_iff.mp ran
      have same {key : String} (kept : key ∉ inlinedKeys) :
          (LlamaCpp.alternate q).get? key = payload.get? key := by
        rw [get?_alternate kept, get?_translateImages kept translated, get?_inlineSystem kept]
      rw [get?_applyThinkingSampling (by decide), get?_applyThinkingTokenBudget (by decide) _ _
        (by decide), get?_stripCallerOnlyFields (by decide), get?_mergeExtraBody _ (by decide),
        mergedField?_congr (same (by decide)) (same (by decide))]
      rfl
  | vllm =>
      obtain ⟨q, translated, rfl⟩ := Option.map_eq_some_iff.mp ran
      have same {key : String} (kept : key ∉ inlinedKeys) : q.get? key = payload.get? key := by
        rw [get?_translateImages kept translated, get?_inlineSystem kept, get?_setModel kept]
      have extra : extraFields q = extraFields payload := by
        rw [extraFields, extraFields, Fields.get, Fields.get, same (by decide)]
      rw [get?_applyThinkingSampling (by decide),
        get?_applyThinkingTokenBudget (by decide) _ _ (by decide)]
      have kwargs : (VLLM.moveGrammar (stripCallerOnlyFields (mergeExtraBody q))).get?
          "chat_template_kwargs" = mergedField? payload "chat_template_kwargs" := by
        rw [get?_moveGrammar _ (by decide) (by decide), get?_stripCallerOnlyFields (by decide),
          get?_mergeExtraBody _ (by decide), mergedField?_congr (same (by decide)) (same (by decide))]
      have pinned : hasThinkingKwarg (VLLM.moveGrammar (stripCallerOnlyFields (mergeExtraBody q))) =
          hasThinkingKwarg (mergeExtraBody payload) := by
        refine hasThinkingKwarg_congr ?_ ?_
        · rw [kwargs, get?_mergeExtraBody _ (by decide)]
        · rw [get?_moveGrammar _ (by decide) (by decide), get?_stripCallerOnlyFields (by decide),
            get?_extra_mergeExtraBody, get?_extra_mergeExtraBody, extra]
      unfold VLLM.defaultThinking
      rw [pinned, LocalEngine.switchesOff, decide_eq_true rfl, Bool.true_and]
      split
      · rw [Fields.get?_set_self, Fields.get, kwargs]
        rfl
      · exact kwargs

end Roadstead
