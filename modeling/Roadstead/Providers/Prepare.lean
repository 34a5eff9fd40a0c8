import Roadstead.Providers.InPlace
import Roadstead.Providers.FastPath

/-!
# Payload repair as a program

`prepare_chat_payload` of both local providers as it runs on mutable objects: it copies the payload,
writes to the copy, and makes every other object that it gives it.  Each step writes what the step of
`Roadstead.Providers` returns, and keeps a `Draft`, so that a run leaves every object of the caller
as it was (`prepareChatPayload_spec`).  With what `Roadstead.Providers.FastPath` says of the early
return, that settles when the two ways through the function agree (`prepareChatPayload_iff`).
-/

namespace Roadstead.InPlace

open Alternation
open Json (Fields)
open Objects

/-! ### Steps on the copy -/

/-- The fields of a dictionary, read whole. -/
def readFields (p : ℕ) (heap : Heap) : Fields := (heap.read (.ref p)).asObj?.getD []

/-- The messages of the copy. -/
def messageItems (p : ℕ) (heap : Heap) : List Value :=
  ((lookup (heap.fields p) "messages").map heap.items).getD []

/-- The `system` field as the first message. -/
def inlineSystem (pyStr : Json → String) (p : ℕ) (heap : Heap) : Heap :=
  let system := (readFields p heap).get "system"
  let popped := delField p "system" heap
  if system.truthy then
    let message := alloc (.dict [("role", .plain (.str "system")),
      ("content", .plain (.str (formatted pyStr system)))]) popped
    let messages := alloc (.list (.ref message.2 :: messageItems p message.1)) message.1
    setField p "messages" (.ref messages.2) messages.1
  else popped

/-- The image blocks of `messages` translated, if there are any; false where it raises. -/
def translateImages (pyStr : Json → String) (needed : Bool) (p : ℕ) (heap : Heap) : Heap × Bool :=
  if needed then
    let out := translateAnthropicImageBlocks pyStr (lookup (heap.fields p) "messages") heap
    match out.2 with
    | none => (out.1, false)
    | some messages => (setField p "messages" messages out.1, true)
  else (heap, true)

/-- `messages` in strict alternation. -/
def alternate (p : ℕ) (heap : Heap) : Heap :=
  match lookup (heap.fields p) "messages" with
  | some messages =>
      if needsAlternationFix (heap.read messages) then
        let out := normalizeStrictAlternation messages heap
        setField p "messages" out.2 out.1
      else heap
  | none => heap

/-- `p.update(p.pop("extra_body"))`, if that is a dictionary. -/
def mergeExtraBody (p : ℕ) (heap : Heap) : Heap :=
  let extra := heap.dictAt p "extra_body"
  let popped := delField p "extra_body" heap
  match extra with
  | some loc => popped.set p (.dict (overwrite (popped.fields p) (popped.fields loc)))
  | none => popped

/-- `_strip_caller_only_fields`. -/
def stripCallerOnlyFields (p : ℕ) (heap : Heap) : Heap :=
  let popped := delField p "call_site" heap
  let fields := readFields p popped
  if fields.has "priority" && !isValidBackendPriority (fields.get "priority") then
    delField p "priority" popped
  else popped

/-- `_apply_thinking_token_budget`. -/
def applyThinkingTokenBudget (p : ℕ) (ratio : ℚ) (field : String) (absolute : ℤ) (heap : Heap) :
    Heap :=
  let fields := readFields p heap
  if absolute = 0 ∧ ratio ≤ 0 then heap
  else if fields.has field then heap
  else
    match fields.get "chat_template_kwargs" with
    | .obj ck =>
        if (Fields.get ck "thinking").truthy || (Fields.get ck "enable_thinking").truthy then
          match thinkingTokenBudget fields ratio absolute with
          | some budget => setField p field (.plain (.int budget)) heap
          | none => heap
        else heap
    | _ => heap

/-- Write a declared sampling value where the caller gave none. -/
def fillSampling (p : ℕ) (field : String) (value : ℚ) (heap : Heap) : Heap :=
  if 0 ≤ value ∧ (readFields p heap).get field = .null then
    setField p field (.plain (.float (.finite value))) heap
  else heap

/-- `_apply_thinking_sampling`. -/
def applyThinkingSampling (p : ℕ) (temperature topP : ℚ) (heap : Heap) : Heap :=
  if temperature < 0 ∧ topP < 0 then heap
  else if !thinkingIsOn (readFields p heap) then heap
  else fillSampling p "top_p" topP (fillSampling p "temperature" temperature heap)

/-- `p["model"] = model_id`. -/
def setModel (settings : PrepareSettings) (p : ℕ) (heap : Heap) : Heap :=
  match VLLM.servedModel settings with
  | some name => setField p "model" (.plain (.str name)) heap
  | none => heap

/-- A copy of the dictionary under a key, or an empty one where there is none. -/
def copyAt (p : ℕ) (key : String) (heap : Heap) : Heap × ℕ :=
  match heap.dictAt p key with
  | some loc => copy loc heap
  | none => alloc (.dict []) heap

/-- `so.setdefault("grammar", p.pop("grammar"))`. -/
def moveGrammar (p : ℕ) (heap : Heap) : Heap :=
  match (readFields p heap).get "grammar" with
  | .str grammar =>
      if Text.strip grammar.toList = [] then heap
      else
        let so := copyAt p "structured_outputs" heap
        let popped := delField p "grammar" so.1
        let filled :=
          if (lookup (popped.fields so.2) "grammar").isSome then popped
          else setField so.2 "grammar" (.plain (.str grammar)) popped
        setField p "structured_outputs" (.ref so.2) filled
  | _ => heap

/-- The declared thinking switches, off unless the caller pinned one. -/
def defaultThinking (settings : PrepareSettings) (p : ℕ) (heap : Heap) : Heap :=
  if !settings.thinkingKwargs.isEmpty && !hasThinkingKwarg (readFields p heap) then
    let ck := copyAt p "chat_template_kwargs" heap
    let off := settings.thinkingKwargs.foldl
      (fun heap key => setField ck.2 key (.plain (.bool false)) heap) ck.1
    setField p "chat_template_kwargs" (.ref ck.2) off
  else heap


/-! ### The two functions -/

/-- The end of `prepare_chat_payload`, which is the same for both engines. -/
def applyThinking (settings : PrepareSettings) (field : String) (p : ℕ) (heap : Heap) : Heap :=
  applyThinkingSampling p settings.thinkingTemperature settings.thinkingTopP
    (applyThinkingTokenBudget p settings.thinkingBudgetRatio field settings.reasoningBudgetTokens heap)

/-- The repairs on the copy, in the order of the provider; false where one raises. -/
def repair (engine : LocalEngine) (pyStr : Json → String) (settings : PrepareSettings)
    (needed : Bool) (p : ℕ) (heap : Heap) : Heap × Bool :=
  match engine with
  | .llamaCpp =>
      let translated := translateImages pyStr needed p (inlineSystem pyStr p heap)
      if translated.2 then
        let merged := mergeExtraBody p (alternate p translated.1)
        (applyThinking settings engine.reasoningBudgetField p (stripCallerOnlyFields p merged), true)
      else translated
  | .vllm =>
      let translated := translateImages pyStr needed p (inlineSystem pyStr p (setModel settings p heap))
      if translated.2 then
        let stripped := stripCallerOnlyFields p (mergeExtraBody p translated.1)
        let defaulted := defaultThinking settings p (moveGrammar p stripped)
        (applyThinking settings engine.reasoningBudgetField p defaulted, true)
      else translated

/-- `prepare_chat_payload` of either provider. -/
def prepareChatPayload (engine : LocalEngine) (pyStr : Json → String) (settings : PrepareSettings)
    (payload : Value) (heap : Heap) : Heap × Option Value :=
  match heap.dict? payload with
  | none => (heap, some payload)
  | some src =>
      let fields := readFields src heap
      if engine.earlyReturn settings fields then (heap, some payload)
      else
        let p := copy src heap
        let repaired := repair engine pyStr settings (hasAnthropicImageBlock (fields.get "messages"))
          p.2 p.1
        (repaired.1, if repaired.2 then some (.ref p.2) else none)

/-! ### What the steps on the copy give -/

section Steps

variable {base heap heap' : Heap} {p : ℕ} {js : Fields}

theorem readFields_eq (draft : Draft base heap p js) : readFields p heap = js := by
  rw [readFields, draft.denotes.read]
  rfl

theorem fits_of_draft (draft : Draft base heap p js) : Fits (some p) heap := by
  rintro loc ⟨⟩
  exact draft.lt

theorem messageItems_spec (draft : Draft base heap p js) :
    DenotesItems (hide (some p) heap) (messageItems p heap) (listItems (js.get "messages")) := by
  rw [messageItems, Fields.get]
  rcases draft.fields.lookup "messages" with ⟨absent, absent'⟩ | ⟨value, j, there, there', denotes⟩
  · rw [absent, absent']
    exact .nil
  · have shown : Denotes (hide (some p) heap) value j := denotes
    rw [there, there']
    exact denotes_listItems shown

theorem inlineSystem_spec (pyStr : Json → String) (draft : Draft base heap p js) :
    Draft base (inlineSystem pyStr p heap) p (Roadstead.inlineSystem pyStr js) := by
  have popped := draft.delField "system"
  have fits := fits_of_draft popped
  unfold inlineSystem Roadstead.inlineSystem
  rw [readFields_eq draft]
  dsimp only
  split
  · have system : DenotesFields (hide (some p) (delField p "system" heap))
        [("role", .plain (.str "system")), ("content", .plain (.str (formatted pyStr (js.get "system"))))]
        [("role", .str "system"), ("content", .str (formatted pyStr (js.get "system")))] :=
      .cons (.plain trivial) (.cons (.plain trivial) .nil)
    have first := denotes_dict fits system
    have made := popped.alloc (.dict [("role", .plain (.str "system")),
      ("content", .plain (.str (formatted pyStr (js.get "system"))))])
    have listed := denotes_list (fits_of_draft made) (.cons first (messageItems_spec made))
    exact (made.alloc _).setField "messages" listed
  · exact popped

theorem translateImages_spec (pyStr : Json → String) (needed : Bool) (draft : Draft base heap p js) :
    base <+: (translateImages pyStr needed p heap).1 ∧
      (translateImages pyStr needed p heap).2 = (Roadstead.translateImages pyStr needed js).isSome ∧
      ∀ js' ∈ Roadstead.translateImages pyStr needed js,
        Draft base (translateImages pyStr needed p heap).1 p js' := by
  unfold translateImages Roadstead.translateImages
  split
  · have messages : ∀ value ∈ lookup (heap.fields p) "messages",
        Denotes (hide (some p) heap) value (js.get "messages") := by
      intro value mem
      rcases draft.fields.lookup "messages" with ⟨absent, -⟩ | ⟨value', j, there, there', denotes⟩
      · rw [absent] at mem
        cases mem
      · rw [there] at mem
        cases mem
        rw [Fields.get, there']
        exact denotes
    have absent : lookup (heap.fields p) "messages" = none → listItems (js.get "messages") = [] := by
      intro none
      rcases draft.fields.lookup "messages" with ⟨-, absent'⟩ | ⟨value', j, there, -⟩
      · rw [Fields.get, absent']
        rfl
      · rw [there] at none
        cases none
    obtain ⟨le, raised, made⟩ :=
      translateAnthropicImageBlocks_spec pyStr (fits_of_draft draft) messages absent
    have later := draft.later le
    dsimp only
    cases given : (translateAnthropicImageBlocks pyStr (lookup (heap.fields p) "messages") heap).2 with
    | none =>
        rw [given, Option.isSome_none, eq_comm, Option.isSome_eq_false_iff,
          Option.isNone_iff_eq_none] at raised
        rw [raised]
        exact ⟨later.le, rfl, fun _ mem => absurd mem (by simp)⟩
    | some messages =>
        rw [given, Option.isSome_some, eq_comm, Option.isSome_iff_exists] at raised
        obtain ⟨j, raised⟩ := raised
        have written := later.setField "messages" (made messages given j raised)
        rw [raised]
        refine ⟨written.le, rfl, ?_⟩
        rintro _ ⟨⟩
        exact written
  · refine ⟨draft.le, rfl, ?_⟩
    rintro _ ⟨⟩
    exact draft

theorem alternate_spec (draft : Draft base heap p js) :
    Draft base (alternate p heap) p (LlamaCpp.alternate js) := by
  unfold alternate LlamaCpp.alternate
  rw [Fields.get]
  rcases draft.fields.lookup "messages" with ⟨absent, absent'⟩ | ⟨value, j, there, there', denotes⟩
  · rw [absent, absent']
    exact draft
  · have shown : Denotes (hide (some p) heap) value j := denotes
    obtain ⟨le, made⟩ := normalizeStrictAlternation_spec (fits_of_draft draft) shown
    rw [there, there', Option.getD_some]
    dsimp only
    rw [shown.shown.read]
    split
    · exact (draft.later le).setField "messages" made
    · exact draft

theorem mergeExtraBody_spec (draft : Draft base heap p js) :
    Draft base (mergeExtraBody p heap) p (Roadstead.mergeExtraBody js) := by
  have popped := draft.delField "extra_body"
  have same : without p (delField p "extra_body" heap) = without p heap := List.set_set ..
  unfold mergeExtraBody Roadstead.mergeExtraBody
  rw [Heap.dictAt, Fields.get]
  rcases draft.fields.lookup "extra_body" with ⟨absent, absent'⟩ | ⟨value, j, there, there', denotes⟩
  · rw [absent, absent']
    exact popped
  · rw [there, there', Option.getD_some, Option.bind_some]
    have shown : Denotes (hide (some p) heap) value j := denotes
    rcases shown.shown.dict? with ⟨loc, extra, dict, rfl, rfl⟩ | ⟨none, other⟩
    · rw [dict]
      have after : Denotes (hide (some p) (delField p "extra_body" heap)) (.ref loc) (.obj extra) := by
        rw [← same] at denotes
        exact denotes
      exact popped.update (popped.fields.overwrite after.hidden_fields)
    · rw [none]
      cases j with
      | obj extra => exact absurd rfl (other extra)
      | _ => exact popped

theorem stripCallerOnlyFields_spec (draft : Draft base heap p js) :
    Draft base (stripCallerOnlyFields p heap) p (Roadstead.stripCallerOnlyFields js) := by
  have popped := draft.delField "call_site"
  unfold stripCallerOnlyFields Roadstead.stripCallerOnlyFields
  dsimp only
  rw [readFields_eq popped]
  split
  · exact popped.delField "priority"
  · exact popped

theorem applyThinkingTokenBudget_spec (ratio : ℚ) (field : String) (absolute : ℤ)
    (draft : Draft base heap p js) :
    Draft base (applyThinkingTokenBudget p ratio field absolute heap) p
      (Roadstead.applyThinkingTokenBudget js ratio field absolute) := by
  unfold applyThinkingTokenBudget Roadstead.applyThinkingTokenBudget
  rw [readFields_eq draft]
  dsimp only
  split
  · exact draft
  split
  · exact draft
  cases js.get "chat_template_kwargs" with
  | obj ck =>
      dsimp only
      split
      · cases thinkingTokenBudget js ratio absolute with
        | none => exact draft
        | some budget => exact draft.setField field (.plain trivial)
      · exact draft
  | _ => exact draft

theorem fillSampling_spec (field : String) (value : ℚ) (draft : Draft base heap p js) :
    Draft base (fillSampling p field value heap) p (Roadstead.fillSampling js field value) := by
  unfold fillSampling Roadstead.fillSampling
  rw [readFields_eq draft]
  split
  · exact draft.setField field (.plain trivial)
  · exact draft

theorem applyThinkingSampling_spec (temperature topP : ℚ) (draft : Draft base heap p js) :
    Draft base (applyThinkingSampling p temperature topP heap) p
      (Roadstead.applyThinkingSampling js temperature topP) := by
  unfold applyThinkingSampling Roadstead.applyThinkingSampling
  rw [readFields_eq draft]
  split
  · exact draft
  split
  · exact draft
  · exact fillSampling_spec _ _ (fillSampling_spec _ _ draft)

theorem setModel_spec (settings : PrepareSettings) (draft : Draft base heap p js) :
    Draft base (setModel settings p heap) p (VLLM.setModel settings js) := by
  unfold setModel VLLM.setModel
  cases VLLM.servedModel settings with
  | none => exact draft
  | some name => exact draft.setField "model" (.plain trivial)

end Steps

/-- The object that is given to the copy next. -/
theorem without_setField {heap : Heap} {p ck : ℕ} (ne : ck ≠ p) (key : String) (value : Value) :
    without p (setField ck key value heap) = setField ck key value (without p heap) := by
  rw [without, without, setField, setField, Heap.fields, Heap.fields, List.getElem?_set_ne ne.symm,
    List.set_comm _ _ ne]

section Filled

variable {base heap heap' : Heap} {p ck : ℕ} {js : Fields}

/-- Plain values written one after the other. -/
theorem foldl_setField_spec (keys : List String) (j : Json) (atomic : Atomic j)
    (building : Building base heap ck js) :
    Building base (keys.foldl (fun heap key => setField ck key (.plain j) heap) heap) ck
      (keys.foldl (fun ck key => Fields.set ck key j) js) := by
  induction keys generalizing heap js with
  | nil => exact building
  | cons key keys ih => exact ih (building.setField key (.plain atomic))

theorem without_foldl (ne : ck ≠ p) (keys : List String) (value : Value) (heap : Heap) :
    without p (keys.foldl (fun heap key => setField ck key value heap) heap) =
      keys.foldl (fun heap key => setField ck key value heap) (without p heap) := by
  induction keys generalizing heap with
  | nil => rfl
  | cons key keys ih => rw [List.foldl_cons, List.foldl_cons, ih, without_setField ne]

/-- A copy of what stands under a key is built beside the draft. -/
theorem copyAt_spec (key : String) (draft : Draft base heap p js) :
    (copyAt p key heap).2 = heap.length ∧
    Building heap (copyAt p key heap).1 (copyAt p key heap).2 ((js.get key).asObj?.getD []) ∧
      Building (without p heap) (without p (copyAt p key heap).1) (copyAt p key heap).2
        ((js.get key).asObj?.getD []) := by
  have hidden {fields : List (String × Value)} {inner : Fields}
      (all : DenotesFields (hide (some p) heap) fields inner) :
      Building (without p heap) (without p (alloc (.dict fields) heap).1) (alloc (.dict fields) heap).2
        inner :=
    ⟨without_mono (List.prefix_append _ _) draft.lt, by simp [without, alloc], fields,
      getElem?_alloc (fits_of_draft draft) _, all⟩
  unfold copyAt
  rw [Heap.dictAt, Fields.get]
  rcases draft.fields.lookup key with ⟨absent, absent'⟩ | ⟨value, j, there, there', denotes⟩
  · rw [absent, absent']
    exact ⟨rfl, building_alloc .nil, hidden .nil⟩
  · rw [there, there', Option.getD_some, Option.bind_some]
    have shown : Denotes (hide (some p) heap) value j := denotes
    rcases shown.shown.dict? with ⟨loc, inner, dict, rfl, rfl⟩ | ⟨none, other⟩
    · rw [dict]
      exact ⟨rfl, building_copy shown.shown, hidden shown.hidden_fields⟩
    · have empty : j.asObj?.getD [] = [] := by
        cases j with
        | obj inner => exact absurd rfl (other inner)
        | _ => rfl
      rw [none, empty]
      exact ⟨rfl, building_alloc .nil, hidden .nil⟩

theorem defaultThinking_spec (settings : PrepareSettings) (draft : Draft base heap p js) :
    Draft base (defaultThinking settings p heap) p (VLLM.defaultThinking settings js) := by
  unfold defaultThinking VLLM.defaultThinking
  rw [readFields_eq draft]
  split
  · obtain ⟨fresh, plain, hidden⟩ := copyAt_spec "chat_template_kwargs" draft
    have ne : (copyAt p "chat_template_kwargs" heap).2 ≠ p := by
      rw [fresh]
      exact draft.lt.ne'
    have le := (foldl_setField_spec settings.thinkingKwargs (.bool false) trivial plain).le
    have off := (foldl_setField_spec settings.thinkingKwargs (.bool false) trivial hidden).denotes
    rw [← without_foldl ne] at off
    exact (draft.later le).setField "chat_template_kwargs" off
  · exact draft

theorem delField_mono (le : heap <+: heap') (lt : p < heap.length) (key : String) :
    delField p key heap <+: delField p key heap' := by
  obtain ⟨made, rfl⟩ := le
  have same : (heap ++ made).fields p = heap.fields p := by
    rw [Heap.fields, Heap.fields, List.getElem?_append_left lt]
  rw [delField, delField, same, List.set_append_left _ _ lt]
  exact List.prefix_append _ _

/-- A field that is written where there is none. -/
theorem setDefault_spec (ne : ck ≠ p) (building : Building base (without p heap) ck js) (key : String)
    {value : Value} {j : Json} (denotes : Denotes base value j) :
    Building base (without p (if (lookup (heap.fields ck) key).isSome then heap
      else setField ck key value heap)) ck (if js.has key then js else js.set key j) := by
  have same : heap.fields ck = (without p heap).fields ck := by
    rw [Heap.fields, Heap.fields, without, List.getElem?_set_ne ne.symm]
  rw [same, building.denotes.isSome_lookup key]
  split
  · exact building
  · rw [without_setField ne]
    exact building.setField key denotes

theorem moveGrammar_spec (draft : Draft base heap p js) :
    Draft base (moveGrammar p heap) p (VLLM.moveGrammar js) := by
  unfold moveGrammar VLLM.moveGrammar
  rw [readFields_eq draft]
  cases js.get "grammar" with
  | str grammar =>
      dsimp only
      split
      · exact draft
      · obtain ⟨fresh, plain, hidden⟩ := copyAt_spec "structured_outputs" draft
        have ne : (copyAt p "structured_outputs" heap).2 ≠ p := by
          rw [fresh]
          exact draft.lt.ne'
        have popped := delField_mono plain.le draft.lt "grammar"
        have same : without p (delField p "grammar" (copyAt p "structured_outputs" heap).1) =
            without p (copyAt p "structured_outputs" heap).1 := List.set_set ..
        rw [← same] at hidden
        have written : Denotes (without p heap) (.plain (.str grammar)) (.str grammar) :=
          .plain trivial
        have filled := setDefault_spec ne hidden "grammar" written
        refine Draft.setField (Draft.later (draft.delField "grammar") ?_) _ filled.denotes
        -- what is written after that is not the copy of the payload
        split
        · exact popped
        · refine prefix_set popped ?_ _
          rw [delField, List.length_set, fresh]
  | _ => exact draft

end Filled

/-! ### What a run gives -/

section Run

variable {base heap : Heap} {p : ℕ} {js : Fields}

theorem applyThinking_spec (settings : PrepareSettings) (field : String) (draft : Draft base heap p js) :
    Draft base (applyThinking settings field p heap) p
      (Roadstead.applyThinkingSampling (Roadstead.applyThinkingTokenBudget js
        settings.thinkingBudgetRatio field settings.reasoningBudgetTokens)
        settings.thinkingTemperature settings.thinkingTopP) :=
  applyThinkingSampling_spec _ _ (applyThinkingTokenBudget_spec _ _ _ draft)

theorem repair_spec (engine : LocalEngine) (pyStr : Json → String) (settings : PrepareSettings)
    (draft : Draft base heap p js) :
    let run := repair engine pyStr settings (hasAnthropicImageBlock (js.get "messages")) p heap
    base <+: run.1 ∧ run.2 = (engine.body pyStr settings js).isSome ∧
      ∀ js' ∈ engine.body pyStr settings js, Draft base run.1 p js' := by
  cases engine with
  | llamaCpp =>
      have inlined := inlineSystem_spec pyStr draft
      obtain ⟨le, raised, made⟩ :=
        translateImages_spec pyStr (hasAnthropicImageBlock (js.get "messages")) inlined
      simp only [repair, LocalEngine.body, LlamaCpp.body]
      cases given : Roadstead.translateImages pyStr (hasAnthropicImageBlock (js.get "messages"))
          (Roadstead.inlineSystem pyStr js) with
      | none =>
          rw [given, Option.isSome_none] at raised
          rw [if_neg (by rw [raised]; exact Bool.false_ne_true)]
          exact ⟨le, raised, fun _ mem => absurd mem (by simp)⟩
      | some translated =>
          rw [given, Option.isSome_some] at raised
          have merged := mergeExtraBody_spec (alternate_spec (made translated given))
          have thought := applyThinking_spec settings LlamaCpp.reasoningBudgetField
            (stripCallerOnlyFields_spec merged)
          rw [if_pos raised]
          refine ⟨thought.le, rfl, ?_⟩
          rintro _ ⟨⟩
          exact thought
  | vllm =>
      have inlined := inlineSystem_spec pyStr (setModel_spec settings draft)
      obtain ⟨le, raised, made⟩ :=
        translateImages_spec pyStr (hasAnthropicImageBlock (js.get "messages")) inlined
      simp only [repair, LocalEngine.body, VLLM.body]
      cases given : Roadstead.translateImages pyStr (hasAnthropicImageBlock (js.get "messages"))
          (Roadstead.inlineSystem pyStr (VLLM.setModel settings js)) with
      | none =>
          rw [given, Option.isSome_none] at raised
          rw [if_neg (by rw [raised]; exact Bool.false_ne_true)]
          exact ⟨le, raised, fun _ mem => absurd mem (by simp)⟩
      | some translated =>
          rw [given, Option.isSome_some] at raised
          have stripped := stripCallerOnlyFields_spec (mergeExtraBody_spec (made translated given))
          have thought := applyThinking_spec settings VLLM.reasoningBudgetField
            (defaultThinking_spec settings (moveGrammar_spec stripped))
          rw [if_pos raised]
          refine ⟨thought.le, rfl, ?_⟩
          rintro _ ⟨⟩
          exact thought

/-- What the function gives of a payload, which it returns as it is where that is no object. -/
def prepared (engine : LocalEngine) (pyStr : Json → String) (settings : PrepareSettings) (j : Json) :
    Option Json :=
  match j with
  | .obj payload => (engine.prepareChatPayload pyStr settings payload).map .obj
  | j => some j

/-- A run leaves every object that was there, and gives what the function gives. -/
theorem prepareChatPayload_spec (engine : LocalEngine) (pyStr : Json → String)
    (settings : PrepareSettings) {payload : Value} {j : Json} (denotes : Denotes heap payload j) :
    Makes none heap (prepareChatPayload engine pyStr settings payload heap)
      (prepared engine pyStr settings j) := by
  have same : Makes none heap (heap, some payload) (some j) := by
    refine ⟨List.prefix_refl _, rfl, ?_⟩
    rintro _ ⟨⟩ _ ⟨⟩
    exact denotes
  unfold prepareChatPayload
  rcases denotes.dict? with ⟨src, js, dict, rfl, rfl⟩ | ⟨none, other⟩
  · have read : readFields src heap = js := by
      rw [readFields, denotes.read]
      rfl
    rw [dict, prepared, LocalEngine.prepareChatPayload_eq]
    dsimp only
    rw [read]
    split
    · exact same
    · obtain ⟨le, raised, made⟩ := repair_spec engine pyStr settings (draft_copy denotes)
      refine ⟨le, ?_, ?_⟩
      · rw [Option.isSome_map, ← raised]
        split
        · next done => rw [done, Option.isSome_some]
        · next failed => rw [Bool.not_eq_true] at failed; rw [failed, Option.isSome_none]
      · intro value mem j' mem'
        obtain ⟨js', body, rfl⟩ := Option.map_eq_some_iff.mp mem'
        have done := raised
        rw [body, Option.isSome_some] at done
        dsimp only at mem
        rw [if_pos done] at mem
        cases mem
        exact (made js' body).denotes
  · rw [none]
    cases j with
    | obj js => exact absurd rfl (other js)
    | _ => exact same

/-- The two ways through `prepare_chat_payload` agree, and neither touches an object of the caller,
exactly where no negative cap is declared that the early return skips. -/
theorem prepareChatPayload_iff (engine : LocalEngine) (pyStr : Json → String)
    (settings : PrepareSettings) (payload : Fields) :
    ((engine.earlyReturn settings payload = true → engine.Agrees pyStr settings payload) ∧
      ∀ (heap : Heap) (value : Value), Denotes heap value (.obj payload) →
        heap <+: (prepareChatPayload engine pyStr settings value heap).1) ↔
      (engine.earlyReturn settings payload = true →
        ¬Capped engine.reasoningBudgetField settings payload) := by
  rw [and_iff_left fun heap value denotes =>
    (prepareChatPayload_spec engine pyStr settings denotes).le]
  exact forall_congr' fun early => LocalEngine.agrees_iff pyStr early

/-- A payload with thinking on and nothing to repair. -/
def thinkingPayload : Fields :=
  [("messages", .arr [message "user" "a" []]),
    ("chat_template_kwargs", .obj [("thinking", .bool true)]), ("max_tokens", .int 8000)]

/-- With a negative cap the early return skips the cap of the ratio, which the rest would write. -/
theorem negative_cap :
    LocalEngine.earlyReturn .llamaCpp { reasoningBudgetTokens := -1 } thinkingPayload = true ∧
      ¬LocalEngine.Agrees .llamaCpp (fun _ => "") { reasoningBudgetTokens := -1 }
        thinkingPayload := by
  have early : LocalEngine.earlyReturn .llamaCpp { reasoningBudgetTokens := -1 } thinkingPayload =
      true := by decide
  refine ⟨early, ?_⟩
  rw [LocalEngine.agrees_iff _ early, not_not]
  exact ⟨by decide, by decide, ⟨_, rfl, by decide⟩, ⟨8000, rfl, by decide⟩⟩

end Run

end Roadstead.InPlace
