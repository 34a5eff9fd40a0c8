import Roadstead.ReasoningEffort.Wire

/-!
# An opt-in into thinking, on the wire

`apply_thinking` writes every declared switch, as on, into the template arguments of the top level.
It reaches the wire if the template arguments of `extra_body`, which replace these, carry it too, and
if vLLM finds a switch that it knows (`Carried`, `optIn_sent_iff`).
-/

namespace Roadstead.ReasoningEffort

open Json (Fields)
open ThinkingSwitch

/-! ### What the opt-in writes -/

section SwitchOn

variable {settings : Settings} {ep : Endpoint} {payload : Fields}

/-- Only an effort moves into the template arguments, and only if there is none. -/
theorem get?_foldCallerEffort (payload : Fields) {ck : Fields} {key : String}
    (there : (ck.get? key).isSome = true) :
    (foldCallerEffort payload ck []).2.1.get? key = ck.get? key ∧
      (key = "reasoning_effort" → (foldCallerEffort payload ck []).2.2 = .left) := by
  rcases foldCallerEffort_cases payload ck [] with ⟨-, folded⟩ | ⟨absent, room⟩
  · rw [folded]
    exact ⟨rfl, fun _ => rfl⟩
  · have other : key ≠ "reasoning_effort" := by
      rintro rfl
      rw [absent] at there
      cases there
    refine ⟨?_, fun same => absurd same other⟩
    rcases room with ⟨-, folded⟩ | ⟨-, folded⟩ | ⟨r, -, -, folded⟩ | ⟨-, folded⟩
    · rw [folded]
    · rw [folded]
      rfl
    · rw [folded]
      exact Fields.get?_set_of_ne _ other _
    · rw [folded]

/-- Every declared switch is on. -/
theorem switchOn_spec (payload : Fields) : ∃ ck : Fields,
    (switchOn ep payload).get? "chat_template_kwargs" = some (.obj ck) ∧
      ∀ key ∈ ep.switch.keys, ck.get? key = some (.bool true) := by
  have on (key : String) (declares : key ∈ ep.switch.keys) :
      Fields.get? (ep.switch.keys.foldl (fun ck key => Fields.set ck key (.bool true))
        (kwargs payload)) key = some (.bool true) := by
    rw [get?_foldl_set, if_pos declares]
  unfold switchOn
  by_cases declared : ep.optInEffort ≠ ""
  · simp only [declared, ne_eq, not_false_eq_true, if_true]
    refine ⟨_, Fields.get?_set_self .., fun key declares => ?_⟩
    have folded := get?_foldCallerEffort payload
      (show (Fields.get? _ key).isSome = true from by rw [on key declares]; rfl)
    rw [get?_injectDefault folded.2, folded.1, on key declares]
  · rw [if_neg declared]
    exact ⟨_, Fields.get?_set_self .., on⟩

theorem get?_switchOn_of_other (payload : Fields) {key : String} (top : key ≠ "reasoning_effort")
    (reasoning : key ≠ "reasoning") (args : key ≠ "chat_template_kwargs") :
    (switchOn ep payload).get? key = payload.get? key := by
  unfold switchOn
  split
  · rw [Fields.get?_set_of_ne _ args, get?_fst_foldCallerEffort _ _ _ top reasoning]
  · exact Fields.get?_set_of_ne _ args _

theorem get?_applyThinking (settings : Settings) (chat : Bool) (ep : Endpoint) (payload : Fields)
    {key : String} (budget : key ≠ "max_tokens") :
    (applyThinking settings chat ep payload).get? key =
      (if optsIn settings chat ep payload = true then switchOn ep (withoutThinking payload)
        else withoutThinking payload).get? key := by
  unfold applyThinking
  cases optsIn settings chat ep payload with
  | false => rfl
  | true => exact Fields.get?_set_of_ne _ budget _

/-- The control field alone is removed from the `extra_body`. -/
theorem get?_extraFields_applyThinking (settings : Settings) (chat : Bool) (ep : Endpoint)
    (payload : Fields) {key : String} (other : key ≠ "thinking") :
    (extraFields (applyThinking settings chat ep payload)).get? key =
      (extraFields payload).get? key := by
  have extra : (applyThinking settings chat ep payload).get? "extra_body" =
      (withoutThinking payload).get? "extra_body" := by
    rw [get?_applyThinking _ _ _ _ (by decide)]
    split
    · exact get?_switchOn_of_other _ (by decide) (by decide) (by decide)
    · rfl
  rw [extraFields, Fields.get, extra, ← Fields.get, withoutThinking,
    Fields.get_erase_of_ne _ (by decide), extraFields]
  cases found : payload.get "extra_body" with
  | obj eb =>
      simp only [Fields.get_set_self]
      exact Fields.get?_erase_of_ne _ other
  | _ => simp only [found]

theorem kwargs_applyThinking (on : optsIn settings true ep payload = true) : ∃ ck : Fields,
    (applyThinking settings true ep payload).get? "chat_template_kwargs" = some (.obj ck) ∧
      ∀ key ∈ ep.switch.keys, ck.get? key = some (.bool true) := by
  rw [get?_applyThinking _ _ _ _ (by decide), if_pos on]
  exact switchOn_spec _

end SwitchOn

/-! ### What is merged -/

section Merged

variable {ep : Endpoint} {payload : Fields}

/-- The `extra_body` that is merged is renamed, but for its own `extra_body`. -/
theorem merged_renamed (keys : ep.switch.keys ≠ []) (payload : Fields) :
    Renamed ep.switch.keys (extraFields payload) (merged ep payload) ∧
      (merged ep payload).get? "extra_body" = (extraFields payload).get? "extra_body" := by
  have both := bothRenamed keys payload
  rw [merged, canonicalSwitch_of_keys keys]
  rcases obj_or_noObject payload "extra_body" with ⟨eb, found⟩ | plain
  · obtain ⟨eb', found', renamed, nested⟩ := both.extra found
    rw [extraFields, extraFields, get_eq_obj_iff.mpr found, get_eq_obj_iff.mpr found']
    exact ⟨renamed, nested⟩
  · have empty {p : Fields} (plain : NoObject p "extra_body") : extraFields p = [] := by
      rw [extraFields, Fields.get]
      cases found : p.get? "extra_body" with
      | none => rfl
      | some j => cases j with
        | obj eb => exact absurd found (plain eb)
        | _ => rfl
    have plain' : NoObject (renameThinkingSwitch ep.switch.keys payload).1 "extra_body" := by
      intro eb found
      rw [both.plain plain] at found
      exact plain eb found
    rw [empty plain, empty plain']
    exact ⟨⟨fun there => absurd there (by simp), fun _ => rfl, fun _ _ => rfl⟩, rfl⟩

/-- A known switch that is not declared is not merged. -/
theorem mergedSpot_of_foreign (keys : ep.switch.keys ≠ []) {name : String}
    (foreign : Foreign ep.switch.keys name) : mergedSpot ep payload (.kwarg name) = none := by
  have gone {container out : Fields} (renamed : Renamed ep.switch.keys container out) :
      (Spot.kwarg name).value? out = none := by
    rw [Spot.value?]
    rcases obj_or_noObject container "chat_template_kwargs" with ⟨ck, found⟩ | plain
    · obtain ⟨ck', found', kwargs⟩ := renamed.kwargs found
      rw [found', inside, kwargs.foreign foreign]
    · rw [renamed.plain plain, inside_of_noObject plain]
  rw [mergedSpot]
  split
  · exact gone (merged_renamed keys payload).1
  · rw [canonicalSwitch_of_keys keys]
    exact gone (bothRenamed keys payload).top

/-- A declared switch of the template arguments that replace others is on if it was sent so, or if it
was not sent and every foreign one is on. -/
theorem renamed_on_iff {declared : List String} {ck ck' : Fields}
    (kwargs : RenamedKwargs declared ck ck') {key : String} (declares : key ∈ declared) :
    ck'.get? key = some (.bool true) ↔
      ck.get? key = some (.bool true) ∨ (ck.get? key = none ∧ Agrees declared ck true) := by
  cases sent : ck.get? key with
  | some value =>
      rw [kwargs.sent declares (by rw [sent]; rfl), sent]
      simp
  | none =>
      rw [kwargs.missing _ declares sent]
      constructor
      · rintro ⟨b, same, agrees⟩
        rw [Json.bool.injEq] at same
        exact .inr ⟨rfl, same ▸ agrees⟩
      · rintro (same | ⟨-, agrees⟩)
        · cases same
        · exact ⟨true, rfl, agrees⟩

end Merged

/-! ### The opt-in on the wire -/

/-- What the `extra_body` of a request has to leave of an opt-in.  Its template arguments, if it has
any, carry every declared switch as on, or a foreign one in place of a missing one; and vLLM finds a
switch that it knows, declared or in an `extra_body` of the `extra_body`. -/
structure Carried (engine : LocalEngine) (ep : Endpoint) (payload : Fields) : Prop where
  on (value : Json) : (extraFields payload).get? "chat_template_kwargs" = some value →
    ∃ ck : Fields, value = .obj ck ∧ ∀ key ∈ ep.switch.keys,
      ck.get? key = some (.bool true) ∨ (ck.get? key = none ∧ Agrees ep.switch.keys ck true)
  known : engine = .vllm → (∃ key ∈ ep.switch.keys, key ∈ thinkingKwargNames) ∨
    ∃ name ∈ thinkingKwargNames, (inside (((extraFields payload).get "extra_body").get?
      "chat_template_kwargs") name).isSome = true

section OptIn

variable {lower : String → String} {engine : LocalEngine} {pyStr : Json → String}
  {prepare : PrepareSettings} {settings : Settings} {ep : Endpoint} {payload wire : Fields}

/-- The switches of the top level stay on until they are merged. -/
theorem top_on (declared : ep.switch.keys ≠ []) (on : optsIn settings true ep payload = true)
    {key : String} (declares : key ∈ ep.switch.keys) :
    (Spot.kwarg key).value? (canonicalSwitch ep.switch
      (applyReasoningEffortMap lower true ep (applyThinking settings true ep payload))) =
        some (.bool true) := by
  obtain ⟨ck, there, switched⟩ := kwargs_applyThinking on
  have read := mapped_applyReasoningEffortMap lower ep (applyThinking settings true ep payload)
  have kept : inside ((applyReasoningEffortMap lower true ep
      (applyThinking settings true ep payload)).get? "chat_template_kwargs") key =
        some (.bool true) := by
    by_cases effort : key = "reasoning_effort"
    · have value := switched key declares
      rw [effort] at value ⊢
      rw [read.kwarg, there, inside, value]
      exact mapped_of_not_str Bool.false_ne_true
    · rw [read.kwargs effort, there, inside, switched key declares]
  rw [canonicalSwitch_of_keys declared, Spot.value?]
  rcases obj_or_noObject (applyReasoningEffortMap lower true ep
    (applyThinking settings true ep payload)) "chat_template_kwargs" with ⟨ck', found⟩ | plain
  · obtain ⟨ck'', found', kwargs⟩ := (bothRenamed declared _).top.kwargs found
    rw [found, inside] at kept
    rw [found', inside, kwargs.sent declares (by rw [kept]; rfl), kept]
  · rw [inside_of_noObject plain] at kept
    cases kept

/-- What is merged carries every declared switch as on exactly if `extra_body` leaves them so. -/
theorem merged_on_iff (lower : String → String) (declared : ep.switch.keys ≠ [])
    (on : optsIn settings true ep payload = true) :
    (∀ key ∈ ep.switch.keys, mergedSpot ep (applyReasoningEffortMap lower true ep
      (applyThinking settings true ep payload)) (.kwarg key) = some (.bool true)) ↔
    ∀ value, (extraFields payload).get? "chat_template_kwargs" = some value →
      ∃ ck : Fields, value = .obj ck ∧ ∀ key ∈ ep.switch.keys,
        ck.get? key = some (.bool true) ∨ (ck.get? key = none ∧ Agrees ep.switch.keys ck true) := by
  have read := mapped_applyReasoningEffortMap lower ep (applyThinking settings true ep payload)
  have renamed := (merged_renamed declared (applyThinking settings true ep payload)).1
  have extra : (extraFields (applyThinking settings true ep payload)).get? "chat_template_kwargs" =
      (extraFields payload).get? "chat_template_kwargs" :=
    get?_extraFields_applyThinking _ _ _ _ (by decide)
  rw [← extra]
  rcases obj_or_noObject (extraFields (applyThinking settings true ep payload))
    "chat_template_kwargs" with ⟨ck, found⟩ | plain
  · obtain ⟨ck', found', kwargs⟩ := renamed.kwargs found
    have spot (key : String) : mergedSpot ep (applyReasoningEffortMap lower true ep
        (applyThinking settings true ep payload)) (.kwarg key) = ck'.get? key := by
      rw [mergedSpot, read.merged, outer, Fields.has, found', Option.isSome_some, if_pos rfl,
        Spot.value?, found', inside]
    simp only [spot, found]
    constructor
    · intro all value same
      rw [Option.some.injEq] at same
      exact ⟨ck, same.symm, fun key declares => (renamed_on_iff kwargs declares).mp (all key declares)⟩
    · intro all key declares
      obtain ⟨ck'', same, carried⟩ := all _ rfl
      rw [Json.obj.injEq] at same
      rw [← same] at carried
      exact (renamed_on_iff kwargs declares).mpr (carried key declares)
  · have same := renamed.plain plain
    cases there : (extraFields (applyThinking settings true ep payload)).get?
        "chat_template_kwargs" with
    | none =>
        rw [there] at same
        refine iff_of_true (fun key declares => ?_) fun _ there => absurd there (by simp)
        rw [mergedSpot, read.merged, outer, Fields.has, same, Option.isSome_none,
          if_neg Bool.false_ne_true, top_on declared on declares]
    | some value =>
        rw [there] at same
        obtain ⟨key, declares⟩ := List.exists_mem_of_ne_nil _ declared
        refine iff_of_false (fun all => ?_) fun all => ?_
        · have off := all key declares
          rw [mergedSpot, read.merged, outer, Fields.has, same, Option.isSome_some, if_pos rfl,
            Spot.value?, same, ← there, inside_of_noObject plain] at off
          cases off
        · obtain ⟨ck, object, -⟩ := all value rfl
          exact plain ck (there.trans (congrArg some object))

/-- **An opt-in reaches the wire.**  Where `apply_thinking` switches thinking on, every declared
switch is sent as on exactly if the request's `extra_body` leaves it so. -/
theorem optIn_sent_iff (declared : ep.switch.keys ≠ [])
    (on : optsIn settings true ep payload = true)
    (sent : dispatched engine pyStr prepare ep (applyReasoningEffortMap lower true ep
      (applyThinking settings true ep payload)) = some wire) :
    (∀ key ∈ ep.switch.keys, (Spot.kwarg key).value? wire = some (.bool true)) ↔
      Carried engine ep payload := by
  have read := mapped_applyReasoningEffortMap lower ep (applyThinking settings true ep payload)
  have nested (name : String) : nestedSwitch ep (applyReasoningEffortMap lower true ep
      (applyThinking settings true ep payload)) name =
        inside (((extraFields payload).get "extra_body").get? "chat_template_kwargs") name := by
    rw [nestedSwitch, read.merged, Fields.get, (merged_renamed declared _).2,
      get?_extraFields_applyThinking _ _ _ _ (by decide), ← Fields.get]
  obtain ⟨key₀, declares₀⟩ := List.exists_mem_of_ne_nil _ declared
  constructor
  · intro all
    have kept : engine.switchesOff ep.switch.keys (canonicalSwitch ep.switch
        (applyReasoningEffortMap lower true ep (applyThinking settings true ep payload))) ≠ true := by
      intro off
      have value := (kwarg_dispatched sent key₀).1 ⟨⟨key₀, declares₀, rfl⟩, off⟩
      rw [all key₀ declares₀] at value
      cases value
    constructor
    case on =>
      refine (merged_on_iff lower declared on).mp fun key declares => ?_
      rw [← (kwarg_dispatched sent key).2 fun overwritten => kept overwritten.2, all key declares]
    case known =>
      intro vllm
      by_contra unknown
      rw [not_or] at unknown
      refine kept (switchesOff_iff.mpr ⟨vllm, declared, fun name known => ⟨?_, ?_⟩⟩)
      · exact mergedSpot_of_foreign declared
          ⟨known, fun declares => unknown.1 ⟨name, declares, known⟩⟩
      · rw [nested]
        by_contra there
        exact unknown.2 ⟨name, known, Option.isSome_iff_ne_none.mpr there⟩
  · intro carried key declares
    have all := (merged_on_iff lower declared on).mpr carried.on
    have kept : engine.switchesOff ep.switch.keys (canonicalSwitch ep.switch
        (applyReasoningEffortMap lower true ep (applyThinking settings true ep payload))) ≠ true := by
      intro off
      obtain ⟨vllm, -, none⟩ := switchesOff_iff.mp off
      rcases carried.known vllm with ⟨name, declares, known⟩ | ⟨name, known, there⟩
      · have value := (none name known).1
        rw [all name declares] at value
        cases value
      · have value := (none name known).2
        rw [nested] at value
        rw [value] at there
        cases there
    rw [(kwarg_dispatched sent key).2 fun overwritten => kept overwritten.2, all key declares]

end OptIn

/-- A vLLM endpoint whose template reads `enable_thinking`. -/
def switchedEndpoint : Endpoint where
  switch := .named ["enable_thinking"]

/-- An opt-in beside a template argument of the `extra_body`. -/
def replacedOptIn : Fields :=
  [("thinking", .bool true), ("extra_body", .obj [("chat_template_kwargs",
    .obj [("builtin_tools", .bool true)])])]

/-- vLLM sends it as off, and llama.cpp without the switch. -/
theorem replaced_optIn_lost :
    optsIn {} true switchedEndpoint replacedOptIn = true ∧
      ((dispatched .vllm (fun _ => "") {} switchedEndpoint (applyReasoningEffortMap id true
        switchedEndpoint (applyThinking {} true switchedEndpoint replacedOptIn))).bind
          (Spot.kwarg "enable_thinking").value?) = some (.bool false) ∧
      ((dispatched .llamaCpp (fun _ => "") {} switchedEndpoint (applyReasoningEffortMap id true
        switchedEndpoint (applyThinking {} true switchedEndpoint replacedOptIn))).bind
          (Spot.kwarg "enable_thinking").value?) = none := by
  refine ⟨by decide, by decide, by decide⟩

/-- An opt-in under `extra_body`, as a client library writes it. -/
def extraOptIn : Fields := [("extra_body", .obj [("thinking", .bool true)])]

theorem extraOptIn_sent : ∃ wire,
    dispatched .vllm (fun _ => "") {} switchedEndpoint (applyReasoningEffortMap id true
        switchedEndpoint (applyThinking {} true switchedEndpoint extraOptIn)) = some wire ∧
      ∀ key ∈ switchedEndpoint.switch.keys, (Spot.kwarg key).value? wire = some (.bool true) := by
  have returns : (dispatched .vllm (fun _ => "") {} switchedEndpoint (applyReasoningEffortMap id true
      switchedEndpoint (applyThinking {} true switchedEndpoint extraOptIn))).isSome := by
    decide
  obtain ⟨wire, sent⟩ := Option.isSome_iff_exists.mp returns
  have carried : Carried .vllm switchedEndpoint extraOptIn :=
    ⟨nofun, fun _ => .inl ⟨"enable_thinking", by decide, by decide⟩⟩
  exact ⟨wire, sent, (optIn_sent_iff (by decide) (by decide) sent).mpr carried⟩

end Roadstead.ReasoningEffort
