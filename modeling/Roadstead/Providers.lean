import Roadstead.Lib.Json
import Roadstead.Lib.Text

/-!
# Payload repair of the local providers

`providers/payload.py` and the `prepare_chat_payload` of `providers/llamacpp.py` and
`providers/vllm.py`.  The definitions follow the source; nothing is proved here.

A payload is the fields of a mapping, and a step that mutates it gives the new fields.
`messages` is absent, null or a list of mappings, as the payload-shape gate of
`Lifecycle.submit` has it.  How Python prints a value that is not a string is a parameter
`pyStr`.  `none` is the `AttributeError` of an image block whose `source` is no mapping.
Rounding of `max_tokens * ratio` is left out.
-/

namespace Roadstead

open Json (Fields)

/-- What `prepare_chat_payload` is called with, beside the payload. -/
structure PrepareSettings where
  modelId : Option String := none
  thinkingBudgetRatio : ℚ := 0
  thinkingKwargs : List String := []
  reasoningBudgetTokens : ℤ := 0
  thinkingTemperature : ℚ := -1
  thinkingTopP : ℚ := -1

/-! ### Messages -/

/-- The items of a value that is a list; none of any other value. -/
def listItems (value : Json) : List Json := value.asArr?.getD []

/-- `isinstance(block, dict) and block.get("type") == "image"`. -/
def isImageBlock (block : Json) : Bool := decide (block.get "type" = .str "image")

/-- `_has_anthropic_image_block`. -/
def hasAnthropicImageBlock (messages : Json) : Bool :=
  (listItems messages).any fun msg => (listItems (msg.get "content")).any isImageBlock

/-- An f-string's rendering of a value. -/
def formatted (pyStr : Json → String) (value : Json) : String := value.asStr?.getD (pyStr value)

/-- The URL of an image block with this `source`. -/
def imageUrl (pyStr : Json → String) (source : Fields) : Json :=
  if source.get "type" = .str "base64" then
    .str ("data:" ++ formatted pyStr ((source.get? "media_type").getD (.str "image/jpeg")) ++
      ";base64," ++ formatted pyStr ((source.get? "data").getD (.str "")))
  else (source.get? "url").getD (.str "")

/-- One block of `_translate_anthropic_image_blocks`. -/
def translateBlock (pyStr : Json → String) (block : Json) : Option Json :=
  if isImageBlock block then
    let source := block.get "source"
    let fields := if source.truthy then source.asObj? else some []
    fields.map fun source =>
      .obj [("type", .str "image_url"), ("image_url", .obj [("url", imageUrl pyStr source)])]
  else some block

/-- One message of `_translate_anthropic_image_blocks`. -/
def translateMessage (pyStr : Json → String) (msg : Json) : Option Json :=
  match msg, msg.get "content" with
  | .obj fields, .arr blocks =>
      (blocks.mapM (translateBlock pyStr)).map fun content => .obj (Fields.set fields "content" (.arr content))
  | _, _ => some msg

/-- `_translate_anthropic_image_blocks`. -/
def translateAnthropicImageBlocks (pyStr : Json → String) (messages : Json) : Option Json :=
  ((listItems messages).mapM (translateMessage pyStr)).map .arr

/-- `_has_consecutive_role`. -/
def hasConsecutiveRole (messages : Json) (role : String) : Bool :=
  let isRole := (listItems messages).map fun msg => decide (msg.get "role" = .str role)
  (isRole.zip isRole.tail).any fun pair => pair.1 && pair.2

/-- `_first_nonsystem_is_assistant`. -/
def firstNonsystemIsAssistant (messages : Json) : Bool :=
  match (listItems messages).find? fun msg => decide (msg.get "role" ≠ .str "system") with
  | some msg => decide (msg.get "role" = .str "assistant")
  | none => false

/-- `_needs_alternation_fix`. -/
def needsAlternationFix (messages : Json) : Bool :=
  hasConsecutiveRole messages "system" || hasConsecutiveRole messages "user" ||
    hasConsecutiveRole messages "assistant" || firstNonsystemIsAssistant messages

/-- One turn of the first loop of `_normalize_strict_alternation`; `out` is reversed. -/
def coalesce (out : List Json) (msg : Json) : List Json :=
  let role := msg.get "role"
  match out, msg.get "content" with
  | .obj prev :: rest, .str content =>
      match Fields.get prev "content" with
      | .str before =>
          if role ≠ .null ∧ role ≠ .str "tool" ∧ Fields.get prev "role" = role then
            .obj (Fields.set prev "content" (.str (before ++ "\n\n" ++ content))) :: rest
          else msg :: out
      | _ => msg :: out
  | _, _ => msg :: out

/-- `_normalize_strict_alternation`. -/
def normalizeStrictAlternation (messages : Json) : Json :=
  let out := ((listItems messages).foldl coalesce []).reverse
  let isRole (role : String) (msg : Json) : Bool := decide (msg.get "role" = .str role)
  let lead := (out.take 1).filter (isRole "system")
  let rest := if lead.isEmpty then out else out.drop 1
  .arr (lead ++ rest.dropWhile (isRole "assistant"))

/-- The `system` field as the first message. -/
def inlineSystem (pyStr : Json → String) (payload : Fields) : Fields :=
  let system := payload.get "system"
  let p := payload.erase "system"
  if system.truthy then
    p.set "messages" (.arr
      (.obj [("role", .str "system"), ("content", .str (formatted pyStr system))] ::
        listItems (p.get "messages")))
  else p

/-- `p.update(p.pop("extra_body"))`, if that is a mapping. -/
def mergeExtraBody (payload : Fields) : Fields :=
  let p := payload.erase "extra_body"
  match payload.get "extra_body" with
  | .obj extra => p.update extra
  | _ => p

/-! ### Thinking -/

/-- `_THINKING_KWARG_NAMES`. -/
def thinkingKwargNames : List String := ["thinking", "enable_thinking"]

/-- The `chat_template_kwargs` of the payload and of its `extra_body`, where they are mappings. -/
def templateKwargs (payload : Fields) : List Fields :=
  [payload.get "chat_template_kwargs", (payload.get "extra_body").get "chat_template_kwargs"].filterMap
    Json.asObj?

/-- `_has_thinking_kwarg`. -/
def hasThinkingKwarg (payload : Fields) : Bool :=
  (templateKwargs payload).any fun ck => thinkingKwargNames.any fun name => ck.has name

/-- `_thinking_is_on`. -/
def thinkingIsOn (payload : Fields) : Bool :=
  (templateKwargs payload).any fun ck =>
    thinkingKwargNames.any fun name => decide (ck.get name = .bool true)

/-- Write a declared sampling value where the caller gave none. -/
def fillSampling (p : Fields) (field : String) (value : ℚ) : Fields :=
  if 0 ≤ value ∧ p.get field = .null then p.set field (.float (.finite value)) else p

/-- `_apply_thinking_sampling`. -/
def applyThinkingSampling (p : Fields) (temperature topP : ℚ) : Fields :=
  if temperature < 0 ∧ topP < 0 then p
  else if !thinkingIsOn p then p
  else fillSampling (fillSampling p "temperature" temperature) "top_p" topP

/-- `isinstance(value, int)`: a Boolean is one. -/
def intValue? : Json → Option ℤ
  | .int n => some n
  | .bool b => some (if b then 1 else 0)
  | _ => none

/-- `_THINKING_BUDGET_FLOOR`. -/
def thinkingBudgetFloor : ℤ := 2000

/-- `_THINKING_BUDGET_CEILING`. -/
def thinkingBudgetCeiling : ℤ := 16000

/-- `_THINKING_BUDGET_MIN_MAX_TOKENS`. -/
def thinkingBudgetMinMaxTokens : ℤ := 3000

/-- `_TOOL_TURN_ANSWER_RESERVE`. -/
def toolTurnAnswerReserve : ℤ := 1024

/-- The cap that `_apply_thinking_token_budget` writes for a turn with thinking on, if any. -/
def thinkingTokenBudget (p : Fields) (ratio : ℚ) (absolute : ℤ) : Option ℤ :=
  let maxTokens := intValue? (p.get "max_tokens")
  if listItems (p.get "tools") ≠ [] then
    -- a cut on a tool turn leaves the reserve, whatever the endpoint declares
    match maxTokens with
    | some mt => if mt ≤ 0 ∨ mt - toolTurnAnswerReserve < thinkingBudgetFloor then none
        else some (mt - toolTurnAnswerReserve)
    | none => none
  else if 0 < absolute then
    match maxTokens with
    | some mt => if 0 < mt ∧ mt ≤ absolute then none else some absolute
    | none => some absolute
  else
    match maxTokens with
    | some mt =>
        let budget := max thinkingBudgetFloor (min ((mt : ℚ) * ratio).floor thinkingBudgetCeiling)
        if mt < thinkingBudgetMinMaxTokens ∨ mt ≤ budget then none else some budget
    | none => none

/-- `_apply_thinking_token_budget`, for an engine that names the cap `field`. -/
def applyThinkingTokenBudget (p : Fields) (ratio : ℚ) (field : String) (absolute : ℤ) : Fields :=
  if absolute = 0 ∧ ratio ≤ 0 then p
  else if p.has field then p
  else
    match p.get "chat_template_kwargs" with
    | .obj ck =>
        if (Fields.get ck "thinking").truthy || (Fields.get ck "enable_thinking").truthy then
          match thinkingTokenBudget p ratio absolute with
          | some budget => p.set field (.int budget)
          | none => p
        else p
    | _ => p

/-! ### Fields of the caller -/

/-- `_is_valid_backend_priority`. -/
def isValidBackendPriority : Json → Bool
  | .int _ => true
  | _ => false

/-- `_needs_caller_field_strip`. -/
def needsCallerFieldStrip (payload : Fields) : Bool :=
  payload.has "call_site" ||
    (payload.has "priority" && !isValidBackendPriority (payload.get "priority"))

/-- `_strip_caller_only_fields`. -/
def stripCallerOnlyFields (payload : Fields) : Fields :=
  let p := payload.erase "call_site"
  if p.has "priority" && !isValidBackendPriority (p.get "priority") then p.erase "priority" else p

/-- The declarations of the endpoint that bar the short way out of either provider. -/
def PrepareSettings.declared (settings : PrepareSettings) : Bool :=
  decide (0 < settings.thinkingBudgetRatio) || decide (0 < settings.reasoningBudgetTokens) ||
    decide (0 ≤ settings.thinkingTemperature) || decide (0 ≤ settings.thinkingTopP)

/-- The image blocks of `messages` translated, if there are any. -/
def translateImages (pyStr : Json → String) (needed : Bool) (p : Fields) : Option Fields :=
  if needed then
    (translateAnthropicImageBlocks pyStr (p.get "messages")).map fun messages => p.set "messages" messages
  else some p

/-! ### llama.cpp -/

namespace LlamaCpp

/-- `descriptor.reasoning_budget_field`. -/
def reasoningBudgetField : String := "reasoning_budget_tokens"

/-- `messages` in strict alternation. -/
def alternate (p : Fields) : Fields :=
  if needsAlternationFix (p.get "messages") then
    p.set "messages" (normalizeStrictAlternation (p.get "messages"))
  else p

/-- `LlamaCppProvider.prepare_chat_payload`. -/
def prepareChatPayload (pyStr : Json → String) (settings : PrepareSettings) (payload : Fields) :
    Option Fields :=
  let needsVisionXlate := hasAnthropicImageBlock (payload.get "messages")
  let needsAlternation := needsAlternationFix (payload.get "messages")
  if !payload.has "system" && !payload.has "extra_body" && !needsVisionXlate && !needsAlternation &&
      !needsCallerFieldStrip payload && !settings.declared then
    some payload
  else
    (translateImages pyStr needsVisionXlate (inlineSystem pyStr payload)).map fun p =>
      let p := mergeExtraBody (alternate p)
      let p := stripCallerOnlyFields p
      let p := applyThinkingTokenBudget p settings.thinkingBudgetRatio reasoningBudgetField
        settings.reasoningBudgetTokens
      applyThinkingSampling p settings.thinkingTemperature settings.thinkingTopP

end LlamaCpp

/-! ### vLLM -/

namespace VLLM

/-- `descriptor.reasoning_budget_field`. -/
def reasoningBudgetField : String := "thinking_token_budget"

/-- The served model id, if one is known; the empty one is not. -/
def servedModel (settings : PrepareSettings) : Option String :=
  settings.modelId.filter fun name => decide (name ≠ "")

/-- `p["model"] = model_id`. -/
def setModel (settings : PrepareSettings) (payload : Fields) : Fields :=
  match servedModel settings with
  | some name => payload.set "model" (.str name)
  | none => payload

/-- `so.setdefault("grammar", p.pop("grammar"))`. -/
def moveGrammar (p : Fields) : Fields :=
  match p.get "grammar" with
  | .str grammar =>
      if Text.strip grammar.toList = [] then p
      else
        let so := (p.get "structured_outputs").asObj?.getD []
        let so := if Fields.has so "grammar" then so else Fields.set so "grammar" (.str grammar)
        (p.erase "grammar").set "structured_outputs" (.obj so)
  | _ => p

/-- The declared thinking switches, off unless the caller pinned one. -/
def defaultThinking (settings : PrepareSettings) (p : Fields) : Fields :=
  if !settings.thinkingKwargs.isEmpty && !hasThinkingKwarg p then
    let ck := (p.get "chat_template_kwargs").asObj?.getD []
    p.set "chat_template_kwargs"
      (.obj (settings.thinkingKwargs.foldl (fun ck key => Fields.set ck key (.bool false)) ck))
  else p

/-- `VLLMProvider.prepare_chat_payload`. -/
def prepareChatPayload (pyStr : Json → String) (settings : PrepareSettings) (payload : Fields) :
    Option Fields :=
  let needsModelSet := (servedModel settings).any fun name => decide (payload.get "model" ≠ .str name)
  let needsThinkingDefault := !settings.thinkingKwargs.isEmpty && !hasThinkingKwarg payload
  let needsVisionXlate := hasAnthropicImageBlock (payload.get "messages")
  if !payload.has "system" && !payload.has "extra_body" && !payload.has "grammar" && !needsModelSet &&
      !needsThinkingDefault && !needsVisionXlate && !needsCallerFieldStrip payload &&
      !settings.declared then
    some payload
  else
    (translateImages pyStr needsVisionXlate (inlineSystem pyStr (setModel settings payload))).map
      fun p =>
        let p := stripCallerOnlyFields (mergeExtraBody p)
        let p := defaultThinking settings (moveGrammar p)
        let p := applyThinkingTokenBudget p settings.thinkingBudgetRatio reasoningBudgetField
          settings.reasoningBudgetTokens
        applyThinkingSampling p settings.thinkingTemperature settings.thinkingTopP

end VLLM

/-- The two local engines. -/
inductive LocalEngine where
  | llamaCpp
  | vllm
  deriving DecidableEq

namespace LocalEngine

/-- The provider's `prepare_chat_payload`. -/
def prepareChatPayload : LocalEngine → (Json → String) → PrepareSettings → Fields → Option Fields
  | llamaCpp => LlamaCpp.prepareChatPayload
  | vllm => VLLM.prepareChatPayload

end LocalEngine

end Roadstead
