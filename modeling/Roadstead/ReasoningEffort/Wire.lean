import Roadstead.ReasoningEffort.Fold
import Roadstead.Providers.TemplateKwargs
import Roadstead.ThinkingSwitch.Renamed

/-!
# Efforts and switches on the wire

After admission the backend writes the switch as the endpoint reads it (`_canonical_switch`), and the
provider builds the payload that is sent: it merges `extra_body` over the top level, and vLLM writes
the declared switches, as off, where it finds none.  `apply_reasoning_effort_map` reads the top level
only, and there neither `reasoning` nor what is no string, so that an effort may be sent that it does
not judge (`map_admits_iff`).
-/

namespace Roadstead.ReasoningEffort

open Json (Fields)
open ThinkingSwitch

/-! ### Where an effort stands -/

/-- The spots of a container at which an effort may stand. -/
def effortSpots : List Spot := [.field "reasoning_effort", .kwarg "reasoning_effort",
  .reasoning "effort"]

/-- The field of the container in which a spot is. -/
def outer : Spot → String
  | .field key => key
  | .kwarg _ => "chat_template_kwargs"
  | .reasoning _ => "reasoning"

/-- What stands at a spot, from the field it is in. -/
def readSpot : Spot → Option Json → Option Json
  | .field _, value => value
  | .kwarg key, value => inside value key
  | .reasoning key, value => inside value key

theorem value?_eq_readSpot (container : Fields) (spot : Spot) :
    spot.value? container = readSpot spot (container.get? (outer spot)) := by
  cases spot <;> rfl

/-- A value that states an effort, a word or not: null does not, and a Boolean is a switch. -/
def statesEffort : Json → Bool
  | .null | .bool _ => false
  | _ => true

theorem effortSpot_cases {spot : Spot} (mem : spot ∈ effortSpots) :
    spot = .field "reasoning_effort" ∨ spot = .kwarg "reasoning_effort" ∨
      spot = .reasoning "effort" := by
  simpa [effortSpots] using mem

theorem goes_of_effortSpot {spot : Spot} (mem : spot ∈ effortSpots) (value : Json) :
    spot.goes value = isNoneEffort value := by
  rcases effortSpot_cases mem with rfl | rfl | rfl
  · rfl
  · rfl
  · rfl

/-- The renaming of the switch writes Booleans only, and so no effort. -/
theorem effort_renamed {declared : List String} {container out : Fields}
    (renamed : Renamed declared container out) {spot : Spot} (mem : spot ∈ effortSpots)
    {value : Json} (states : statesEffort value = true) :
    spot.value? out = some value ↔ spot.value? container = some value := by
  rcases effortSpot_cases mem with rfl | rfl | rfl
  · rw [Spot.value?, Spot.value?, renamed.others (by decide) (by decide)]
  · rw [Spot.value?, Spot.value?]
    rcases obj_or_noObject container "chat_template_kwargs" with ⟨ck, found⟩ | plain
    · obtain ⟨ck', found', kwargs⟩ := renamed.kwargs found
      rw [found, found', inside, inside]
      by_cases declares : "reasoning_effort" ∈ declared
      · cases there : ck.get? "reasoning_effort" with
        | some sent => rw [kwargs.sent declares (by rw [there]; rfl), there]
        | none =>
            rw [kwargs.missing value declares there]
            refine iff_of_false ?_ fun there => Option.some_ne_none _ there.symm
            rintro ⟨b, rfl, -⟩
            cases states
      · rw [kwargs.others (by decide) declares]
    · rw [renamed.plain plain]
  · rw [Spot.value?, Spot.value?, renamed.others (by decide) (by decide)]

/-! ### The switch as the endpoint reads it -/

section CanonicalSwitch

variable {d : Declaration} {payload payload' : Fields}

theorem canonicalSwitch_of_none (none : d.none = true) :
    canonicalSwitch d payload = (stripThinkingSwitch payload).1 := by
  rw [canonicalSwitch, if_pos none]

theorem canonicalSwitch_of_keys (keys : d.keys ≠ []) :
    canonicalSwitch d payload = (renameThinkingSwitch d.keys payload).1 := by
  rw [canonicalSwitch, if_neg fun none => keys (d.exclusive none)]

theorem canonicalSwitch_of_undeclared (none : d.none = false) (keys : d.keys = []) :
    canonicalSwitch d payload = payload := by
  rw [canonicalSwitch, none, keys]
  rfl

/-- What the switch of an endpoint is: none, keys, or not declared. -/
theorem switch_cases (d : Declaration) :
    d.none = true ∨ d.keys ≠ [] ∨ (d.none = false ∧ d.keys = []) := by
  by_cases none : d.none = true
  · exact .inl none
  · by_cases keys : d.keys = []
    · exact .inr (.inr ⟨Bool.eq_false_iff.mpr none, keys⟩)
    · exact .inr (.inl keys)

/-- The `extra_body` is rewritten by itself. -/
theorem get?_extra_canonicalSwitch
    (same : payload.get? "extra_body" = payload'.get? "extra_body") :
    (canonicalSwitch d payload).get? "extra_body" =
      (canonicalSwitch d payload').get? "extra_body" := by
  rcases switch_cases d with none | keys | ⟨none, keys⟩
  · rw [canonicalSwitch_of_none none, canonicalSwitch_of_none none, stripThinkingSwitch,
      stripThinkingSwitch, get?_extra_bothContainers settles_stripContainer,
      get?_extra_bothContainers settles_stripContainer, same]
  · rw [canonicalSwitch_of_keys keys, canonicalSwitch_of_keys keys, renameThinkingSwitch_of_ne keys,
      renameThinkingSwitch_of_ne keys, get?_extra_bothContainers (settles_renameContainer d.keys),
      get?_extra_bothContainers (settles_renameContainer d.keys), same]
  · rw [canonicalSwitch_of_undeclared none keys, canonicalSwitch_of_undeclared none keys, same]

/-- An effort at the top level is left, but `none` where there is no switch. -/
theorem effort_canonicalSwitch {spot : Spot} (mem : spot ∈ effortSpots) {value : Json}
    (states : statesEffort value = true) :
    spot.value? (canonicalSwitch d payload) = some value ↔
      spot.value? payload = some value ∧ ¬(d.none = true ∧ isNoneEffort value = true) := by
  rcases switch_cases d with none | keys | ⟨none, keys⟩
  · have kept : spot ∉ objects := by
      rcases effortSpot_cases mem with rfl | rfl | rfl <;> decide
    rw [canonicalSwitch_of_none none, (bothStripped payload).top.value? kept,
      Option.filter_eq_some_iff, goes_of_effortSpot mem]
    simp [none]
  · have switched : ¬d.none = true := fun none => keys (d.exclusive none)
    rw [canonicalSwitch_of_keys keys, effort_renamed (bothRenamed keys payload).top mem states]
    simp [switched]
  · rw [canonicalSwitch_of_undeclared none keys]
    simp [none]

/-- A known switch under a key of the top level depends on the known switches there alone. -/
theorem switch_canonicalSwitch (keys : d.keys ≠ [])
    (objects : NoObject payload "chat_template_kwargs" ↔ NoObject payload' "chat_template_kwargs")
    (same : ∀ name ∈ thinkingKwargNames, inside (payload.get? "chat_template_kwargs") name =
      inside (payload'.get? "chat_template_kwargs") name) {name : String}
    (known : name ∈ thinkingKwargNames) :
    inside ((canonicalSwitch d payload).get? "chat_template_kwargs") name =
      inside ((canonicalSwitch d payload').get? "chat_template_kwargs") name := by
  rw [canonicalSwitch_of_keys keys, canonicalSwitch_of_keys keys]
  have renamed := (bothRenamed keys payload).top
  have renamed' := (bothRenamed keys payload').top
  rcases obj_or_noObject payload "chat_template_kwargs" with ⟨ck, found⟩ | plain
  · rcases obj_or_noObject payload' "chat_template_kwargs" with ⟨ck', found'⟩ | plain
    · obtain ⟨out, there, kwargs⟩ := renamed.kwargs found
      obtain ⟨out', there', kwargs'⟩ := renamed'.kwargs found'
      simp only [found, found', inside] at same
      rw [there, there', inside, inside]
      by_cases declares : name ∈ d.keys
      · cases sent : ck.get? name with
        | some value =>
            have sent' := (same name known).symm.trans sent
            rw [kwargs.sent declares (by rw [sent]; rfl), kwargs'.sent declares (by rw [sent']; rfl),
              sent, sent']
        | none =>
            have sent' := (same name known).symm.trans sent
            have agrees (b : Bool) : Agrees d.keys ck b ↔ Agrees d.keys ck' b := by
              refine and_congr ?_ ?_
              · refine exists_congr fun key => and_congr_right fun foreign => ?_
                rw [same key foreign.1]
              · refine forall_congr' fun key => forall_congr' fun value =>
                  forall_congr' fun foreign => ?_
                rw [same key foreign.1]
            refine Option.ext fun value => ?_
            rw [kwargs.missing value declares sent, kwargs'.missing value declares sent']
            simp only [agrees]
      · rw [kwargs.foreign ⟨known, declares⟩, kwargs'.foreign ⟨known, declares⟩]
    · exact absurd found (objects.mpr plain ck)
  · rw [renamed.plain plain, renamed'.plain (objects.mp plain), same name known]

end CanonicalSwitch

/-! ### What is sent -/

/-- What the backend sends of a payload that has passed admission. -/
def dispatched (engine : LocalEngine) (pyStr : Json → String) (settings : PrepareSettings)
    (ep : Endpoint) (payload : Fields) : Option Fields :=
  engine.prepareChatPayload pyStr { settings with thinkingKwargs := ep.switch.keys }
    (canonicalSwitch ep.switch payload)

/-- The `extra_body` that is merged. -/
def merged (ep : Endpoint) (payload : Fields) : Fields :=
  extraFields (canonicalSwitch ep.switch payload)

/-- vLLM sends the declared switches as off, and the spot is one of them. -/
def Overwritten (engine : LocalEngine) (ep : Endpoint) (payload : Fields) (spot : Spot) : Prop :=
  (∃ key ∈ ep.switch.keys, spot = .kwarg key) ∧
    engine.switchesOff ep.switch.keys (canonicalSwitch ep.switch payload) = true

section Sent

variable {engine : LocalEngine} {pyStr : Json → String} {settings : PrepareSettings}
  {ep : Endpoint} {payload wire : Fields}

theorem inside_asObj (value : Option Json) (key : String) :
    Fields.get? ((value.getD .null).asObj?.getD []) key = inside value key := by
  cases value with
  | none => rfl
  | some j => cases j <;> rfl

/-- A spot of what is merged: as `extra_body` has its field, or else as the top level has it. -/
def mergedSpot (ep : Endpoint) (payload : Fields) (spot : Spot) : Option Json :=
  if (merged ep payload).has (outer spot) then spot.value? (merged ep payload)
  else spot.value? (canonicalSwitch ep.switch payload)

theorem readSpot_mergedField (spot : Spot) :
    readSpot spot (mergedField? (canonicalSwitch ep.switch payload) (outer spot)) =
      mergedSpot ep payload spot := by
  rw [mergedSpot, mergedField?, ← merged, Fields.has, value?_eq_readSpot, value?_eq_readSpot]
  cases Fields.get? (merged ep payload) (outer spot) with
  | none => rw [Option.none_or, Option.isSome_none, if_neg Bool.false_ne_true]
  | some value => rw [Option.some_or, Option.isSome_some, if_pos rfl]

theorem value?_dispatched (sent : dispatched engine pyStr settings ep payload = some wire)
    {spot : Spot} (plain : PlainKey (outer spot)) (kept : outer spot ∉ inlinedKeys) :
    spot.value? wire = mergedSpot ep payload spot := by
  rw [← readSpot_mergedField, value?_eq_readSpot, get?_wire sent plain kept]

/-- A template argument that is overwritten is off. -/
theorem kwarg_dispatched (sent : dispatched engine pyStr settings ep payload = some wire)
    (key : String) : (Overwritten engine ep payload (.kwarg key) →
        (Spot.kwarg key).value? wire = some (.bool false)) ∧
      (¬Overwritten engine ep payload (.kwarg key) →
        (Spot.kwarg key).value? wire = mergedSpot ep payload (.kwarg key)) := by
  rw [← readSpot_mergedField, Spot.value?, kwargs_prepared sent]
  constructor
  · rintro ⟨⟨_, declares, same⟩, off⟩
    cases same
    rw [if_pos off, inside, offKwargs, get?_foldl_set, if_pos declares]
  · intro kept
    by_cases off : engine.switchesOff ep.switch.keys (canonicalSwitch ep.switch payload) = true
    · have undeclared : key ∉ ep.switch.keys := fun declares => kept ⟨⟨key, declares, rfl⟩, off⟩
      rw [if_pos off, inside, offKwargs, get?_foldl_set, if_neg undeclared, inside_asObj]
      rfl
    · rw [if_neg off]
      rfl

/-- The known switches of an object. -/
theorem any_has_iff (value : Option Json) :
    ((value.getD .null).asObj?.toList.any fun ck => thinkingKwargNames.any fun name =>
      Fields.has ck name) = true ↔
      ∃ name ∈ thinkingKwargNames, (inside value name).isSome = true := by
  cases value with
  | none => simp [inside, Json.asObj?]
  | some j => cases j <;> simp [inside, Json.asObj?, Fields.has]

theorem hasThinkingKwarg_iff (p : Fields) :
    hasThinkingKwarg p = true ↔ ∃ name ∈ thinkingKwargNames,
      (inside (p.get? "chat_template_kwargs") name).isSome = true ∨
        (inside ((p.get "extra_body").get? "chat_template_kwargs") name).isSome = true := by
  have split (a b : Json) : [a, b].filterMap Json.asObj? = a.asObj?.toList ++ b.asObj?.toList := by
    rw [List.filterMap_cons, List.filterMap_cons, List.filterMap_nil]
    cases a.asObj? <;> cases b.asObj? <;> rfl
  rw [hasThinkingKwarg, templateKwargs, split, List.any_append, Bool.or_eq_true, Fields.get,
    any_has_iff, Json.get, any_has_iff]
  constructor
  · rintro (⟨name, known, here⟩ | ⟨name, known, here⟩)
    · exact ⟨name, known, .inl here⟩
    · exact ⟨name, known, .inr here⟩
  · rintro ⟨name, known, here | here⟩
    · exact .inl ⟨name, known, here⟩
    · exact .inr ⟨name, known, here⟩

/-- A known switch in an `extra_body` of the `extra_body`, which is not merged. -/
def nestedSwitch (ep : Endpoint) (payload : Fields) (name : String) : Option Json :=
  inside (((merged ep payload).get "extra_body").get? "chat_template_kwargs") name

/-- The declared switches are sent as off by vLLM, where it finds no known one. -/
theorem switchesOff_iff :
    engine.switchesOff ep.switch.keys (canonicalSwitch ep.switch payload) = true ↔
      engine = .vllm ∧ ep.switch.keys ≠ [] ∧ ∀ name ∈ thinkingKwargNames,
        mergedSpot ep payload (.kwarg name) = none ∧ nestedSwitch ep payload name = none := by
  have pinned : hasThinkingKwarg (mergeExtraBody (canonicalSwitch ep.switch payload)) = false ↔
      ∀ name ∈ thinkingKwargNames,
        mergedSpot ep payload (.kwarg name) = none ∧ nestedSwitch ep payload name = none := by
    rw [← Bool.not_eq_true, hasThinkingKwarg_iff, get?_mergeExtraBody _ (by decide), Fields.get,
      get?_extra_mergeExtraBody, ← Fields.get]
    simp only [not_exists, not_and, not_or, Bool.not_eq_true, Option.isSome_eq_false_iff,
      Option.isNone_iff_eq_none, ← readSpot_mergedField]
    rfl
  rw [LocalEngine.switchesOff, Bool.and_eq_true, Bool.and_eq_true, decide_eq_true_eq,
    Bool.not_eq_true', Bool.not_eq_true', List.isEmpty_eq_false_iff, pinned, and_assoc]

/-- The efforts that are sent. -/
theorem effort_dispatched_iff (sent : dispatched engine pyStr settings ep payload = some wire)
    {spot : Spot} (mem : spot ∈ effortSpots) {value : Json} (states : statesEffort value = true) :
    spot.value? wire = some value ↔
      ¬Overwritten engine ep payload spot ∧ mergedSpot ep payload spot = some value := by
  rcases effortSpot_cases mem with rfl | rfl | rfl
  · have kept : ¬Overwritten engine ep payload (.field "reasoning_effort") := by
      rintro ⟨⟨_, -, same⟩, -⟩
      cases same
    rw [value?_dispatched sent ⟨by decide, by decide⟩ (by decide)]
    exact ⟨fun there => ⟨kept, there⟩, fun both => both.2⟩
  · have kwarg := kwarg_dispatched sent "reasoning_effort"
    by_cases off : Overwritten engine ep payload (.kwarg "reasoning_effort")
    · rw [kwarg.1 off]
      refine iff_of_false ?_ fun both => both.1 off
      intro same
      rw [← Option.some.inj same] at states
      cases states
    · rw [kwarg.2 off]
      exact ⟨fun there => ⟨off, there⟩, fun both => both.2⟩
  · have kept : ¬Overwritten engine ep payload (.reasoning "effort") := by
      rintro ⟨⟨_, -, same⟩, -⟩
      cases same
    rw [value?_dispatched sent ⟨by decide, by decide⟩ (by decide)]
    exact ⟨fun there => ⟨kept, there⟩, fun both => both.2⟩

end Sent

/-! ### The map -/

section Map

variable {lower : String → String} {engine : LocalEngine} {pyStr : Json → String}
  {settings : PrepareSettings} {ep : Endpoint} {payload wire : Fields}

/-- A value of the map. -/
def Admitted (ep : Endpoint) (value : Json) : Prop := value ∈ ep.effortMap.map Prod.snd

/-- What the map makes of a value at a spot that it reads: of a string only, and only if there is a
map. -/
def mapped (lower : String → String) (ep : Endpoint) (value : Option Json) : Option Json :=
  if ep.effortMap ≠ [] ∧ (value.bind Json.asStr?).isSome then
    resolveReasoningEffortMap lower (value.getD .null) ep.effortMap
  else value

/-- What `apply_reasoning_effort_map` makes of a payload. -/
structure Mapped (lower : String → String) (ep : Endpoint) (payload out : Fields) : Prop where
  top : out.get? "reasoning_effort" = mapped lower ep (payload.get? "reasoning_effort")
  kwarg : inside (out.get? "chat_template_kwargs") "reasoning_effort" =
    mapped lower ep (inside (payload.get? "chat_template_kwargs") "reasoning_effort")
  kwargs {key : String} : key ≠ "reasoning_effort" →
    inside (out.get? "chat_template_kwargs") key = inside (payload.get? "chat_template_kwargs") key
  objects : NoObject out "chat_template_kwargs" ↔ NoObject payload "chat_template_kwargs"
  others {key : String} : key ≠ "reasoning_effort" → key ≠ "chat_template_kwargs" →
    out.get? key = payload.get? key

theorem resolve_mem {requested value : Json}
    (resolved : resolveReasoningEffortMap lower requested ep.effortMap = some value) :
    Admitted ep value := by
  unfold resolveReasoningEffortMap at resolved
  split at resolved
  · obtain ⟨entry, found, rfl⟩ := Option.map_eq_some_iff.mp resolved
    exact List.mem_map_of_mem (List.mem_of_find?_eq_some found)
  · cases resolved

theorem get?_remap_self (container : Fields) :
    (remapOneEffortField lower ep.effortMap container).get? "reasoning_effort" =
      resolveReasoningEffortMap lower (container.get "reasoning_effort") ep.effortMap := by
  unfold remapOneEffortField
  split
  · next value resolved => rw [Fields.get?_set_self, resolved]
  · next resolved => rw [Fields.get?_erase_self, resolved]

theorem get?_remap_of_ne (container : Fields) {key : String} (other : key ≠ "reasoning_effort") :
    (remapOneEffortField lower ep.effortMap container).get? key = container.get? key := by
  unfold remapOneEffortField
  split
  · exact Fields.get?_set_of_ne _ other _
  · exact Fields.get?_erase_of_ne _ other

theorem mapped_of_not_str {value : Option Json} (word : ¬(value.bind Json.asStr?).isSome = true) :
    mapped lower ep value = value := by
  rw [mapped, if_neg fun both => word both.2]

theorem isSome_asStr_get (fields : Fields) (key : String) :
    (fields.get key).asStr?.isSome = ((fields.get? key).bind Json.asStr?).isSome := by
  rw [Fields.get]
  cases fields.get? key <;> rfl

/-- One field is remapped if it is a string. -/
theorem get?_remapped (declared : ep.effortMap ≠ []) (container : Fields) :
    (if (container.get "reasoning_effort").asStr?.isSome then
      remapOneEffortField lower ep.effortMap container else container).get? "reasoning_effort" =
        mapped lower ep (container.get? "reasoning_effort") := by
  rw [isSome_asStr_get]
  split
  · next word =>
      rw [get?_remap_self, mapped, if_pos ⟨declared, word⟩, Fields.get]
  · next other => rw [mapped_of_not_str other]

theorem get?_remapped_of_ne (container : Fields) {key : String} (other : key ≠ "reasoning_effort") :
    (if (container.get "reasoning_effort").asStr?.isSome then
      remapOneEffortField lower ep.effortMap container else container).get? key =
        container.get? key := by
  split
  · exact get?_remap_of_ne container other
  · rfl

theorem get?_remapKwargs_of_ne (effortMap : List (Json × Json)) {key : String}
    (other : key ≠ "chat_template_kwargs") :
    (remapKwargs lower effortMap payload).get? key = payload.get? key := by
  unfold remapKwargs
  split
  · split
    · exact Fields.get?_set_of_ne _ other _
    · rfl
  · rfl

theorem remapKwargs_of_obj {effortMap : List (Json × Json)} {ck : Fields}
    (found : payload.get? "chat_template_kwargs" = some (.obj ck)) :
    (remapKwargs lower effortMap payload).get? "chat_template_kwargs" =
      some (.obj (if (ck.get "reasoning_effort").asStr?.isSome then
        remapOneEffortField lower effortMap ck else ck)) := by
  rw [remapKwargs, get_eq_obj_iff.mpr found]
  simp only
  split
  · exact Fields.get?_set_self ..
  · exact found

theorem remapKwargs_of_noObject {effortMap : List (Json × Json)}
    (plain : NoObject payload "chat_template_kwargs") :
    remapKwargs lower effortMap payload = payload := by
  unfold remapKwargs
  split
  · next ck found => exact absurd (get_eq_obj_iff.mp found) (plain ck)
  · rfl

theorem mapped_applyReasoningEffortMap (lower : String → String) (ep : Endpoint)
    (payload : Fields) : Mapped lower ep payload (applyReasoningEffortMap lower true ep payload) := by
  by_cases declared : ep.effortMap = []
  · have same : applyReasoningEffortMap lower true ep payload = payload := by
      rw [applyReasoningEffortMap, declared]
      rfl
    rw [same]
    have whole (value : Option Json) : mapped lower ep value = value := by
      rw [mapped, if_neg fun both => both.1 declared]
    exact ⟨(whole _).symm, (whole _).symm, fun _ => rfl, Iff.rfl, fun _ _ => rfl⟩
  · have step : applyReasoningEffortMap lower true ep payload =
        if ((remapKwargs lower ep.effortMap payload).get "reasoning_effort").asStr?.isSome then
          remapOneEffortField lower ep.effortMap (remapKwargs lower ep.effortMap payload)
        else remapKwargs lower ep.effortMap payload := by
      rw [applyReasoningEffortMap, List.isEmpty_eq_false_iff.mpr declared]
      rfl
    have kwargs : (applyReasoningEffortMap lower true ep payload).get? "chat_template_kwargs" =
        (remapKwargs lower ep.effortMap payload).get? "chat_template_kwargs" := by
      rw [step, get?_remapped_of_ne _ (by decide)]
    constructor
    case top => rw [step, get?_remapped declared, get?_remapKwargs_of_ne _ (by decide)]
    case kwarg =>
      rw [kwargs]
      rcases obj_or_noObject payload "chat_template_kwargs" with ⟨ck, found⟩ | plain
      · rw [remapKwargs_of_obj found, found, inside, inside, get?_remapped declared]
      · rw [remapKwargs_of_noObject plain, inside_of_noObject plain]
        exact (mapped_of_not_str (by simp)).symm
    case kwargs =>
      intro key other
      rw [kwargs]
      rcases obj_or_noObject payload "chat_template_kwargs" with ⟨ck, found⟩ | plain
      · rw [remapKwargs_of_obj found, found, inside, inside, get?_remapped_of_ne _ other]
      · rw [remapKwargs_of_noObject plain]
    case objects =>
      simp only [NoObject, kwargs]
      rcases obj_or_noObject payload "chat_template_kwargs" with ⟨ck, found⟩ | plain
      · rw [remapKwargs_of_obj found, found]
        exact iff_of_false (fun none => none _ rfl) fun none => none _ rfl
      · rw [remapKwargs_of_noObject plain]
    case others =>
      intro key top other
      rw [step, get?_remapped_of_ne _ top, get?_remapKwargs_of_ne _ other]

/-- The map leaves what is merged over it, and which switches are off. -/
theorem Mapped.merged {out : Fields} (mapped : Mapped lower ep payload out) :
    merged ep out = merged ep payload := by
  rw [ReasoningEffort.merged, ReasoningEffort.merged, extraFields, extraFields, Fields.get,
    Fields.get, get?_extra_canonicalSwitch (mapped.others (by decide) (by decide))]

theorem Mapped.overwritten_iff {out : Fields} (mapped : Mapped lower ep payload out) (spot : Spot) :
    Overwritten engine ep out spot ↔ Overwritten engine ep payload spot := by
  rw [Overwritten, Overwritten, switchesOff_iff, switchesOff_iff]
  refine and_congr_right fun _ => and_congr_right fun _ => and_congr_right fun keys =>
    forall_congr' fun name => forall_congr' fun known => ?_
  have top : inside ((canonicalSwitch ep.switch out).get? "chat_template_kwargs") name =
      inside ((canonicalSwitch ep.switch payload).get? "chat_template_kwargs") name :=
    switch_canonicalSwitch keys mapped.objects (fun name known => mapped.kwargs fun same =>
      absurd (same ▸ known) (by decide)) known
  rw [mergedSpot, mergedSpot, nestedSwitch, nestedSwitch, mapped.merged, Spot.value?, Spot.value?,
    Spot.value?, top]

/-- Every effort that the map does not read is one of its values: an effort in `extra_body`, an
effort under `reasoning` that `extra_body` does not replace, and a value that is no string.  Two
others are not sent: `none` where there is no switch, and what vLLM overwrites. -/
def Admissible (engine : LocalEngine) (ep : Endpoint) (payload : Fields) : Prop :=
  ∀ spot ∈ effortSpots, ¬Overwritten engine ep payload spot → ∀ value, statesEffort value = true →
    if (merged ep payload).has (outer spot) then
      spot.value? (merged ep payload) = some value → Admitted ep value
    else spot.value? payload = some value → Admitted ep value ∨
      (ep.switch.none = true ∧ isNoneEffort value = true) ∨
      (spot ≠ .reasoning "effort" ∧ value.asStr?.isSome = true)

/-- At a spot that the map reads, what is left is what the map gives or no string. -/
theorem admitted_mapped_iff (declared : ep.effortMap ≠ []) (value : Option Json) :
    (∀ j, statesEffort j = true → mapped lower ep value = some j ∧
        ¬(ep.switch.none = true ∧ isNoneEffort j = true) → Admitted ep j) ↔
      ∀ j, statesEffort j = true → value = some j → Admitted ep j ∨
        (ep.switch.none = true ∧ isNoneEffort j = true) ∨ j.asStr?.isSome = true := by
  constructor
  · intro all j states there
    by_cases word : j.asStr?.isSome = true
    · exact .inr (.inr word)
    · by_cases off : ep.switch.none = true ∧ isNoneEffort j = true
      · exact .inr (.inl off)
      · refine .inl (all j states ⟨?_, off⟩)
        rw [mapped_of_not_str (by rwa [there]), there]
  · rintro all j states ⟨there, on⟩
    by_cases word : (value.bind Json.asStr?).isSome = true
    · rw [mapped, if_pos ⟨declared, word⟩] at there
      exact resolve_mem there
    · rw [mapped_of_not_str word] at there
      rcases all j states there with admitted | off | str
      · exact admitted
      · exact absurd off on
      · rw [there, Option.bind_some] at word
        exact absurd str word

/-- **No accidental effort.**  On both engines, every effort that is sent is one of the values of the
declared map exactly if the ones that the map does not read are. -/
theorem map_admits_iff (declared : ep.effortMap ≠ [])
    (sent : dispatched engine pyStr settings ep (applyReasoningEffortMap lower true ep payload) =
      some wire) :
    (∀ spot ∈ effortSpots, ∀ value, statesEffort value = true → spot.value? wire = some value →
        Admitted ep value) ↔ Admissible engine ep payload := by
  have read := mapped_applyReasoningEffortMap lower ep payload
  refine forall_congr' fun spot => forall_congr' fun mem => ?_
  have reached : (∀ value, statesEffort value = true → spot.value? wire = some value →
      Admitted ep value) ↔ (¬Overwritten engine ep payload spot → ∀ value,
        statesEffort value = true → mergedSpot ep (applyReasoningEffortMap lower true ep payload) spot =
          some value → Admitted ep value) := by
    rw [← read.overwritten_iff spot]
    constructor
    · intro all kept value states there
      exact all value states ((effort_dispatched_iff sent mem states).mpr ⟨kept, there⟩)
    · intro all value states there
      obtain ⟨kept, merged⟩ := (effort_dispatched_iff sent mem states).mp there
      exact all kept value states merged
  rw [reached]
  refine forall_congr' fun kept => ?_
  rw [mergedSpot, read.merged]
  by_cases replaced : (merged ep payload).has (outer spot) = true
  · simp only [replaced, if_true]
  · simp only [replaced, Bool.false_eq_true, if_false]
    have canonical : (∀ value, statesEffort value = true →
        spot.value? (canonicalSwitch ep.switch (applyReasoningEffortMap lower true ep payload)) =
          some value → Admitted ep value) ↔ ∀ value, statesEffort value = true →
        spot.value? (applyReasoningEffortMap lower true ep payload) = some value ∧
          ¬(ep.switch.none = true ∧ isNoneEffort value = true) → Admitted ep value :=
      forall_congr' fun value => forall_congr' fun states => by
        rw [effort_canonicalSwitch mem states]
    rw [canonical]
    rcases effortSpot_cases mem with rfl | rfl | rfl
    · have spot : (Spot.field "reasoning_effort").value?
          (applyReasoningEffortMap lower true ep payload) =
            mapped lower ep ((Spot.field "reasoning_effort").value? payload) := read.top
      rw [spot, admitted_mapped_iff declared]
      simp
    · have spot : (Spot.kwarg "reasoning_effort").value?
          (applyReasoningEffortMap lower true ep payload) =
            mapped lower ep ((Spot.kwarg "reasoning_effort").value? payload) := read.kwarg
      rw [spot, admitted_mapped_iff declared]
      simp
    · have spot : (Spot.reasoning "effort").value? (applyReasoningEffortMap lower true ep payload) =
          (Spot.reasoning "effort").value? payload := by
        rw [Spot.value?, Spot.value?, read.others (by decide) (by decide)]
      rw [spot]
      refine forall_congr' fun value => forall_congr' fun _ => ?_
      constructor
      · intro all there
        by_cases off : ep.switch.none = true ∧ isNoneEffort value = true
        · exact .inr (.inl off)
        · exact .inl (all ⟨there, off⟩)
      · rintro all ⟨there, on⟩
        rcases all there with admitted | off | other
        · exact admitted
        · exact absurd off on
        · exact absurd rfl other.1

end Map

/-- An endpoint without a switch whose template knows two efforts. -/
def gatedEndpoint : Endpoint where
  switch := ⟨[], true, fun _ => rfl⟩
  effortMap := [(.str "low", .str "low"), (.str "medium", .str "high"), (.str "high", .str "high")]

/-- An effort that the map reads. -/
def plainEffort : Fields := [("reasoning_effort", .str "medium ")]

theorem admissible_plainEffort : Admissible .vllm gatedEndpoint plainEffort := by
  intro spot mem _ value _
  have whole : merged gatedEndpoint plainEffort = [] := rfl
  rw [whole, Fields.has, Fields.get?_nil, Option.isSome_none, if_neg Bool.false_ne_true]
  intro there
  rcases effortSpot_cases mem with rfl | rfl | rfl
  · refine .inr (.inr ⟨by decide, ?_⟩)
    rw [← Option.some.inj there]
    rfl
  · cases there
  · cases there

theorem map_admits_plainEffort : ∃ wire,
    dispatched .vllm (fun _ => "") {} gatedEndpoint
        (applyReasoningEffortMap id true gatedEndpoint plainEffort) = some wire ∧
      ∀ spot ∈ effortSpots, ∀ value, statesEffort value = true → spot.value? wire = some value →
        Admitted gatedEndpoint value := by
  have returns : (dispatched .vllm (fun _ => "") {} gatedEndpoint
      (applyReasoningEffortMap id true gatedEndpoint plainEffort)).isSome := by
    decide
  obtain ⟨wire, sent⟩ := Option.isSome_iff_exists.mp returns
  exact ⟨wire, sent, (map_admits_iff (by decide) sent).mpr admissible_plainEffort⟩

/-- An effort in `extra_body` that the map does not know. -/
def hiddenEffort : Fields := [("extra_body", .obj [("reasoning_effort", .str "max")])]

/-- It is sent by both engines. -/
theorem extra_effort_unmapped :
    let sent (engine : LocalEngine) :=
      (dispatched engine (fun _ => "") {} gatedEndpoint
        (admitted id {} true gatedEndpoint hiddenEffort)).bind
          (Spot.field "reasoning_effort").value?
    (sent .llamaCpp = some (.str "max") ∧ sent .vllm = some (.str "max")) ∧
      statesEffort (.str "max") = true ∧ ¬Admitted gatedEndpoint (.str "max") := by
  intro sent
  have unknown : Json.str "max" ∉ gatedEndpoint.effortMap.map Prod.snd := by decide
  refine ⟨⟨?_, ?_⟩, rfl, unknown⟩
  · show sent .llamaCpp = _
    decide
  · show sent .vllm = _
    decide

end Roadstead.ReasoningEffort
