import Mathlib.Data.List.Dedup
import Roadstead.ThinkingSwitch

/-!
# The reasoning effort of a request

The admission corrections of `correction.py` that move, drop or inject a reasoning effort, in the
order in which `handle_submit` runs them: `canonicalize_thinking_switch`,
`apply_forced_reasoning_budget`, `apply_thinking` and `apply_reasoning_effort_map`, with
`fold_caller_effort` and `_resolve_reasoning_effort_map`.  The definitions follow the source; nothing
is proved here.

The corrections are those of a chat completion; `chat` says whether the request is one.  An unknown
endpoint is one that declares nothing.  A correction that mutates the payload gives the new payload.
-/

namespace Roadstead.ReasoningEffort

open Json (Fields)
open ThinkingSwitch (Declaration putBack renameThinkingSwitch)

/-- What an endpoint declares of its reasoning (`EndpointConfig`). -/
structure Endpoint where
  switch : Declaration
  reasoningEffort : String := ""
  thinkingEffort : String := ""
  /-- The items of `reasoning_effort_map`; YAML may give a key that is no string. -/
  effortMap : List (Json × Json) := []
  forcesReasoning : Bool := false
  forcedReasoningBudget : ℤ := 0
  thinkingReasoningBudget : ℤ := 0

/-- The settings of the process. -/
structure Settings where
  thinkingEnabled : Bool := true
  forcedReasoningBudget : ℤ := 1536
  thinkingReasoningBudget : ℤ := 8000

/-! ### The effort of the caller -/

/-- `value.strip()`. -/
def stripped (value : String) : String := String.ofList (Text.strip value.toList)

/-- The effort that a value states: a string that is not blank, without the white space around
it. -/
def rung : Json → Option String
  | .str s => if stripped s = "" then none else some (stripped s)
  | _ => none

/-- `EFFORT_ABSENT`, `EFFORT_FOLDED`, `EFFORT_OFF` and `EFFORT_LEFT`. -/
inductive Outcome where
  | absent
  | folded
  | off
  | left
  deriving DecidableEq

/-- `ck.setdefault(key, value)` for each of `keys`. -/
def setDefaults (keys : List String) (value : Json) (ck : Fields) : Fields :=
  keys.foldl (fun ck key => if ck.has key then ck else ck.set key value) ck

/-- The `values` of `fold_caller_effort`. -/
def callerEfforts (payload : Fields) : List String :=
  ([payload.get "reasoning_effort", (payload.get "reasoning").get "effort"].filterMap rung).dedup

/-- `reasoning_effort` is removed if it is a string. -/
def withoutTop (payload : Fields) : Fields :=
  if (payload.get "reasoning_effort").asStr?.isSome then payload.erase "reasoning_effort" else payload

/-- `reasoning.effort` is removed if it is a string, and `reasoning` if nothing is left of it. -/
def withoutReasoning (payload : Fields) : Fields :=
  match payload.get "reasoning" with
  | .obj obj => if (Fields.get obj "effort").asStr?.isSome then
      putBack payload "reasoning" (Fields.erase obj "effort") else payload
  | _ => payload

/-- The payload without the aliases of the effort. -/
def withoutAliases (payload : Fields) : Fields := withoutReasoning (withoutTop payload)

/-- `fold_caller_effort`: the payload, the template arguments and the outcome. -/
def foldCallerEffort (payload ck : Fields) (switchKeys : List String) : Fields × Fields × Outcome :=
  if ck.has "reasoning_effort" then (payload, ck, .left)
  else
    match callerEfforts payload with
    | [] => (payload, ck, .absent)
    | [effort] =>
        if effort = "none" then
          (withoutAliases payload, setDefaults switchKeys (.bool false) ck, .off)
        else (withoutAliases payload, ck.set "reasoning_effort" (.str effort), .folded)
    | _ => (payload, ck, .left)

/-- The declared default, where the outcome leaves room for it. -/
def injectDefault (declared : String) (ck : Fields) (outcome : Outcome) : Fields :=
  if outcome = .absent ∨ outcome = .off then ck.set "reasoning_effort" (.str declared) else ck

/-- The template arguments of a payload, none if they are no mapping. -/
def kwargs (payload : Fields) : Fields := (payload.get "chat_template_kwargs").asObj?.getD []

/-! ### The corrections -/

/-- `canonicalize_thinking_switch`. -/
def canonicalizeThinkingSwitch (chat : Bool) (ep : Endpoint) (payload : Fields) : Fields :=
  if chat then (renameThinkingSwitch ep.switch.keys payload).1 else payload

/-- The effort of `apply_forced_reasoning_budget`. -/
def forcedEffort (ep : Endpoint) (payload : Fields) : Fields :=
  if ep.reasoningEffort ≠ "" ∧ ep.switch.keys ≠ [] then
    let folded := foldCallerEffort payload (kwargs payload) ep.switch.keys
    let ck := setDefaults ep.switch.keys (.bool true) folded.2.1
    folded.1.set "chat_template_kwargs" (.obj (injectDefault ep.reasoningEffort ck folded.2.2))
  else payload

/-- `apply_forced_reasoning_budget`. -/
def applyForcedReasoningBudget (settings : Settings) (chat : Bool) (ep : Endpoint)
    (payload : Fields) : Fields :=
  if !chat || !ep.forcesReasoning then payload
  else
    let p := forcedEffort ep payload
    match intValue? (p.get "max_tokens") with
    | some cur =>
        if 0 < cur then
          p.set "max_tokens" (.int (cur + if 0 < ep.forcedReasoningBudget then
            ep.forcedReasoningBudget else settings.forcedReasoningBudget))
        else p
    | none => p

/-- What the caller asks of thinking. -/
def wanted (payload : Fields) : Json :=
  if (payload.get "thinking").truthy then payload.get "thinking"
  else (payload.get "extra_body").get "thinking"

/-- The payload without the control field. -/
def withoutThinking (payload : Fields) : Fields :=
  (match payload.get "extra_body" with
    | .obj eb => payload.set "extra_body" (.obj (Fields.erase eb "thinking"))
    | _ => payload).erase "thinking"

/-- The headroom of a request that opts into thinking. -/
def headroom (settings : Settings) (ep : Endpoint) (want : Json) : ℤ :=
  let budget := if 0 < ep.thinkingReasoningBudget then ep.thinkingReasoningBudget
    else settings.thinkingReasoningBudget
  match want with
  | .int n => if 0 < n then min n budget else budget
  | _ => budget

/-- The default effort of an opt-in. -/
def Endpoint.optInEffort (ep : Endpoint) : String :=
  if ep.reasoningEffort ≠ "" then ep.reasoningEffort else ep.thinkingEffort

/-- Whether `apply_thinking` switches thinking on. -/
def optsIn (settings : Settings) (chat : Bool) (ep : Endpoint) (payload : Fields) : Bool :=
  (wanted payload).truthy && chat && settings.thinkingEnabled &&
    (decide (ep.switch.keys ≠ []) || decide (ep.thinkingEffort ≠ ""))

/-- The switch and the effort of `apply_thinking`. -/
def switchOn (ep : Endpoint) (payload : Fields) : Fields :=
  let ck := ep.switch.keys.foldl (fun ck key => Fields.set ck key (.bool true)) (kwargs payload)
  if ep.optInEffort ≠ "" then
    let folded := foldCallerEffort payload ck []
    folded.1.set "chat_template_kwargs" (.obj (injectDefault ep.optInEffort folded.2.1 folded.2.2))
  else payload.set "chat_template_kwargs" (.obj ck)

/-- `apply_thinking`, but for the register of the requests whose answers it finalizes. -/
def applyThinking (settings : Settings) (chat : Bool) (ep : Endpoint) (payload : Fields) : Fields :=
  let p := withoutThinking payload
  if !optsIn settings chat ep payload then p
  else
    let p := switchOn ep p
    let cur := (intValue? (p.get "max_tokens")).filter fun cur => decide (0 < cur)
    p.set "max_tokens" (.int (cur.getD 800 + headroom settings ep (wanted payload)))

/-! ### The map -/

section Map

-- `str.lower`; nothing is assumed about it
variable (lower : String → String)

/-- `_resolve_reasoning_effort_map`. -/
def resolveReasoningEffortMap (value : Json) (effortMap : List (Json × Json)) : Option Json :=
  match value with
  | .str requested =>
      (effortMap.find? fun entry => match entry.1 with
        | .str key => decide (lower (stripped key) = lower (stripped requested))
        | _ => false).map Prod.snd
  | _ => none

/-- `_remap_one_effort_field`, but for its tally. -/
def remapOneEffortField (effortMap : List (Json × Json)) (container : Fields) : Fields :=
  match resolveReasoningEffortMap lower (container.get "reasoning_effort") effortMap with
  | some mapped => container.set "reasoning_effort" mapped
  | none => container.erase "reasoning_effort"

/-- The map on the template arguments, which are copied. -/
def remapKwargs (effortMap : List (Json × Json)) (payload : Fields) : Fields :=
  match payload.get "chat_template_kwargs" with
  | .obj ck =>
      if (Fields.get ck "reasoning_effort").asStr?.isSome then
        payload.set "chat_template_kwargs" (.obj (remapOneEffortField lower effortMap ck))
      else payload
  | _ => payload

/-- `apply_reasoning_effort_map`. -/
def applyReasoningEffortMap (chat : Bool) (ep : Endpoint) (payload : Fields) : Fields :=
  if !chat || ep.effortMap.isEmpty then payload
  else
    let p := remapKwargs lower ep.effortMap payload
    if (p.get "reasoning_effort").asStr?.isSome then remapOneEffortField lower ep.effortMap p else p

/-- The corrections of a reasoning effort, in the order of `handle_submit`. -/
def admitted (settings : Settings) (chat : Bool) (ep : Endpoint) (payload : Fields) : Fields :=
  applyReasoningEffortMap lower chat ep (applyThinking settings chat ep
    (applyForcedReasoningBudget settings chat ep (canonicalizeThinkingSwitch chat ep payload)))

end Map

end Roadstead.ReasoningEffort
