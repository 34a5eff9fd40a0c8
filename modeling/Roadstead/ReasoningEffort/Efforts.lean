import Roadstead.ReasoningEffort.OptIn

/-!
# The efforts of a payload through the corrections

What the corrections of admission do to an effort, without the payload around it.  `Efforts` holds
the efforts at the two aliases and what stands under `reasoning_effort` in the template arguments, and
`Folds` says what becomes of them where a default may be injected.  Each correction is a step on the
efforts, and none changes an effort in `extra_body`.
-/

namespace Roadstead.ReasoningEffort

open Json (Fields)
open ThinkingSwitch

/-! ### Efforts -/

/-- The efforts of a container: at the aliases, and among the template arguments. -/
structure Efforts where
  values : List String
  pin : Option Json

namespace Efforts

def of (container : Fields) : Efforts :=
  ⟨callerEfforts container, (Spot.kwarg "reasoning_effort").value? container⟩

/-- The rungs that are stated. -/
def carried (e : Efforts) : List String := e.values ++ (e.pin.bind rung).toList

/-- There is room for a default: no effort, or `none`. -/
def Room (e : Efforts) : Prop := e.pin = none ∧ ∀ a ∈ e.values, a = "none"

/-- Two efforts differ. -/
def Differ (values : List String) : Prop := ∃ a ∈ values, ∃ b ∈ values, a ≠ b

/-- What a fold and the default `declared` make of the efforts. -/
inductive Folds (declared : String) (e : Efforts) : Efforts → Prop
  | pinned : e.pin.isSome = true → Folds declared e e
  | injected : e.Room → Folds declared e ⟨[], some (.str declared)⟩
  | moved {r : String} : e.pin = none → r ≠ "none" → e.values = [r] →
      Folds declared e ⟨[], some (.str r)⟩
  | differ : e.pin = none → Differ e.values → Folds declared e e

end Efforts

open Efforts (Folds Differ)

theorem mem_carried {e : Efforts} {a : String} :
    a ∈ e.carried ↔ a ∈ e.values ∨ e.pin.bind rung = some a := by
  rw [Efforts.carried, List.mem_append, Option.mem_toList]

theorem callerEfforts_congr {p q : Fields}
    (top : p.get? "reasoning_effort" = q.get? "reasoning_effort")
    (reasoning : p.get? "reasoning" = q.get? "reasoning") : callerEfforts p = callerEfforts q := by
  rw [callerEfforts, callerEfforts, Fields.get, Fields.get, Fields.get, Fields.get, top, reasoning]

theorem of_congr {p q : Fields} (top : p.get? "reasoning_effort" = q.get? "reasoning_effort")
    (reasoning : p.get? "reasoning" = q.get? "reasoning")
    (kwargs : p.get? "chat_template_kwargs" = q.get? "chat_template_kwargs") :
    Efforts.of p = Efforts.of q := by
  rw [Efforts.of, Efforts.of, callerEfforts_congr top reasoning, Spot.value?, Spot.value?, kwargs]

theorem callerEfforts_withoutAliases (payload : Fields) :
    callerEfforts (withoutAliases payload) = [] := by
  obtain ⟨top, reasoning⟩ := rung_withoutAliases payload
  rw [callerEfforts, List.filterMap_cons, top, List.filterMap_cons, reasoning]
  rfl

theorem get?_kwargs (payload : Fields) (key : String) :
    (kwargs payload).get? key = (Spot.kwarg key).value? payload := by
  rw [kwargs, Fields.get, inside_asObj]
  rfl

theorem of_set_kwargs (payload ck : Fields) :
    Efforts.of (payload.set "chat_template_kwargs" (.obj ck)) =
      ⟨callerEfforts payload, ck.get? "reasoning_effort"⟩ := by
  rw [Efforts.of, Spot.value?, Fields.get?_set_self, inside,
    callerEfforts_congr (Fields.get?_set_of_ne _ (by decide) _)
      (Fields.get?_set_of_ne _ (by decide) _)]

/-! ### The fold -/

section Fold

variable {declared : String} {payload ck ck' : Fields} {keys : List String}

/-- The fold, and the default where it leaves room, with template arguments that may have been
filled in between. -/
theorem folds_foldCallerEffort (declared : String) (payload ck : Fields) (keys : List String) :
    ∃ e, Folds declared ⟨callerEfforts payload, ck.get? "reasoning_effort"⟩ e ∧
      callerEfforts (foldCallerEffort payload ck keys).1 = e.values ∧
      (e.pin = none → (foldCallerEffort payload ck keys).2.1.get? "reasoning_effort" = none) ∧
      ∀ ck' : Fields, (∀ value,
          (foldCallerEffort payload ck keys).2.1.get? "reasoning_effort" = some value →
            ck'.get? "reasoning_effort" = some value) →
        (injectDefault declared ck' (foldCallerEffort payload ck keys).2.2).get?
          "reasoning_effort" = e.pin.or (ck'.get? "reasoning_effort") := by
  rcases foldCallerEffort_cases payload ck keys with
    ⟨pinned, folded⟩ | ⟨absent, ⟨none, folded⟩ | ⟨off, folded⟩ | ⟨r, on, one, folded⟩ | ⟨two, folded⟩⟩
  · rw [folded]
    refine ⟨_, .pinned pinned, rfl, id, fun ck' grown => ?_⟩
    obtain ⟨value, there⟩ := Option.isSome_iff_exists.mp pinned
    rw [get?_injectDefault fun _ => rfl, grown value there, there, Option.some_or]
  · rw [folded]
    refine ⟨_, .injected ⟨absent, by simp [none]⟩, none, nofun, fun ck' _ => ?_⟩
    rw [injectDefault, if_pos (.inl rfl), Fields.get?_set_self, Option.some_or]
  · rw [folded]
    refine ⟨_, .injected ⟨absent, by simp [off]⟩, callerEfforts_withoutAliases payload, nofun,
      fun ck' _ => ?_⟩
    rw [injectDefault, if_pos (.inr rfl), Fields.get?_set_self, Option.some_or]
  · rw [folded]
    refine ⟨_, .moved absent on one, callerEfforts_withoutAliases payload, nofun,
      fun ck' grown => ?_⟩
    rw [injectDefault, if_neg (by simp), grown _ (Fields.get?_set_self ..), Option.some_or]
  · rw [folded]
    refine ⟨_, .differ absent two, rfl, id, fun ck' _ => ?_⟩
    rw [get?_injectDefault fun _ => rfl, absent, Option.none_or]

/-- A declared default may be injected. -/
def LeavesRoom (outcome : Outcome) : Prop := outcome = .absent ∨ outcome = .off

/-- The fold leaves room for a default where the efforts do. -/
theorem leavesRoom_iff : LeavesRoom (foldCallerEffort payload ck keys).2.2 ↔
    Efforts.Room ⟨callerEfforts payload, ck.get? "reasoning_effort"⟩ := by
  rcases foldCallerEffort_cases payload ck keys with
    ⟨pinned, folded⟩ | ⟨absent, ⟨none, folded⟩ | ⟨off, folded⟩ | ⟨r, on, one, folded⟩ | ⟨two, folded⟩⟩
  · rw [folded]
    refine iff_of_false (by simp [LeavesRoom]) fun room => ?_
    rw [show ck.get? "reasoning_effort" = none from room.1] at pinned
    cases pinned
  · rw [folded]
    exact iff_of_true (.inl rfl) ⟨absent, by simp [none]⟩
  · rw [folded]
    exact iff_of_true (.inr rfl) ⟨absent, by simp [off]⟩
  · rw [folded]
    refine iff_of_false (by simp [LeavesRoom]) fun room => on (room.2 r ?_)
    simp [one]
  · rw [folded]
    refine iff_of_false (by simp [LeavesRoom]) fun room => ?_
    obtain ⟨a, sent, b, sent', other⟩ := two
    exact other ((room.2 a sent).trans (room.2 b sent').symm)

end Fold

/-! ### The corrections -/

/-- The renaming of the switch writes no effort, but may write a Boolean where a switch of that name
is declared. -/
theorem efforts_renamed {declared : List String} {container out : Fields}
    (renamed : Renamed declared container out) :
    (Efforts.of out).values = (Efforts.of container).values ∧
      (Efforts.of out).carried = (Efforts.of container).carried ∧
      ((Efforts.of out).pin.isSome = true ↔ (Efforts.of container).pin.isSome = true ∨
        ("reasoning_effort" ∈ declared ∧ ∃ b, Agrees declared (kwargs container) b)) := by
  have values : (Efforts.of out).values = (Efforts.of container).values :=
    callerEfforts_congr (renamed.others (by decide) (by decide))
      (renamed.others (by decide) (by decide))
  refine ⟨values, ?_, ?_⟩
  · -- a rung is a string, and none of these is written or removed
    have rungs : (Efforts.of out).pin.bind rung = (Efforts.of container).pin.bind rung := by
      refine Option.ext fun r => ?_
      rw [Option.bind_eq_some_iff, Option.bind_eq_some_iff]
      refine exists_congr fun value => and_congr_left fun states => ?_
      obtain ⟨s, rfl, -, -⟩ := rung_eq_some states
      have spot : Spot.kwarg "reasoning_effort" ∈ effortSpots := by decide
      exact effort_renamed renamed spot rfl
    rw [Efforts.carried, Efforts.carried, values, rungs]
  · rw [Efforts.of, Efforts.of, Spot.value?, Spot.value?]
    rcases obj_or_noObject container "chat_template_kwargs" with ⟨ck, found⟩ | plain
    · obtain ⟨ck', found', args⟩ := renamed.kwargs found
      have same : kwargs container = ck := by
        rw [kwargs, get_eq_obj_iff.mpr found]
        rfl
      rw [found, found', inside, inside, same]
      by_cases declares : "reasoning_effort" ∈ declared
      · cases there : ck.get? "reasoning_effort" with
        | some sent =>
            rw [args.sent declares (by rw [there]; rfl), there]
            exact iff_of_true rfl (.inl rfl)
        | none =>
            rw [Option.isSome_iff_exists]
            simp only [args.missing _ declares there, Option.isSome_none, Bool.false_eq_true,
              false_or, declares, true_and]
            constructor
            · rintro ⟨_, b, -, agrees⟩
              exact ⟨b, agrees⟩
            · rintro ⟨b, agrees⟩
              exact ⟨_, b, rfl, agrees⟩
      · rw [args.others (by decide) declares]
        simp [declares]
    · have empty : ¬∃ b, Agrees declared (kwargs container) b := by
        rintro ⟨b, ⟨key, -, there⟩, -⟩
        rw [get?_kwargs, Spot.value?, inside_of_noObject plain] at there
        cases there
      rw [renamed.plain plain]
      simp [empty]

section Corrections

variable {settings : Settings} {chat : Bool} {ep : Endpoint} {payload : Fields}

/-- There is a `reasoning_effort` among the template arguments: the caller's, or a declared switch of
that name in place of a foreign one. -/
def Pinned (ep : Endpoint) (payload : Fields) : Prop :=
  ((Spot.kwarg "reasoning_effort").value? payload).isSome = true ∨
    ("reasoning_effort" ∈ ep.switch.keys ∧ ∃ b, Agrees ep.switch.keys (kwargs payload) b)

/-- What the renaming leaves of the efforts, in the payload and in `extra_body`. -/
structure Canonical (ep : Endpoint) (payload out : Fields) : Prop where
  values : callerEfforts out = callerEfforts payload
  carried : (Efforts.of out).carried = (Efforts.of payload).carried
  pinned : (Efforts.of out).pin.isSome = true ↔ Pinned ep payload
  extra : (Efforts.of (extraFields out)).carried = (Efforts.of (extraFields payload)).carried
  control : wanted out = wanted payload

/-- What is asked of thinking depends on the two control fields. -/
theorem wanted_congr {out : Fields} (top : out.get? "thinking" = payload.get? "thinking")
    (extra : (extraFields out).get? "thinking" = (extraFields payload).get? "thinking") :
    wanted out = wanted payload := by
  have nested (p : Fields) :
      (p.get "extra_body").get "thinking" = (extraFields p).get "thinking" := by
    rw [extraFields]
    cases p.get "extra_body" <;> rfl
  rw [wanted, wanted, nested, nested, Fields.get, Fields.get, Fields.get, Fields.get, top, extra]

theorem canonical_canonicalizeThinkingSwitch (ep : Endpoint) (payload : Fields) :
    Canonical ep payload (canonicalizeThinkingSwitch true ep payload) := by
  rw [canonicalizeThinkingSwitch, if_pos rfl]
  by_cases keys : ep.switch.keys = []
  · rw [renameThinkingSwitch, keys]
    exact ⟨rfl, rfl, by simp [Pinned, Efforts.of, keys], rfl, rfl⟩
  · have renamed := (bothRenamed keys payload).top
    have merged := (merged_renamed keys payload).1
    rw [ReasoningEffort.merged, canonicalSwitch_of_keys keys] at merged
    obtain ⟨values, carried, pinned⟩ := efforts_renamed renamed
    exact ⟨values, carried, pinned, (efforts_renamed merged).2.1,
      wanted_congr (renamed.others (by decide) (by decide)) (merged.others (by decide) (by decide))⟩

/-- `apply_forced_reasoning_budget` folds the caller's effort. -/
def ForcedRuns (chat : Bool) (ep : Endpoint) : Prop :=
  chat = true ∧ ep.forcesReasoning = true ∧ ep.reasoningEffort ≠ "" ∧ ep.switch.keys ≠ []

theorem get?_applyForcedReasoningBudget {key : String} (other : key ≠ "max_tokens") :
    (applyForcedReasoningBudget settings chat ep payload).get? key =
      (if chat = true ∧ ep.forcesReasoning = true then forcedEffort ep payload
        else payload).get? key := by
  unfold applyForcedReasoningBudget
  by_cases runs : chat = true ∧ ep.forcesReasoning = true
  · rw [if_pos runs, if_neg (by simp [runs.1, runs.2])]
    simp only []
    cases intValue? ((forcedEffort ep payload).get "max_tokens") with
    | none => rfl
    | some cur =>
        by_cases positive : 0 < cur
        · simp only [if_pos positive]
          exact Fields.get?_set_of_ne _ other _
        · simp only [if_neg positive]
  · rw [if_neg runs, if_pos]
    simpa [imp_iff_not_or] using runs

/-- The forced step folds the caller's effort, and writes a switch of that name where there is
neither an effort nor a default. -/
theorem of_applyForcedReasoningBudget (runs : ForcedRuns chat ep) :
    ∃ e, Folds ep.reasoningEffort (Efforts.of payload) e ∧
      Efforts.of (applyForcedReasoningBudget settings chat ep payload) = ⟨e.values, e.pin.or
        (if "reasoning_effort" ∈ ep.switch.keys then some (.bool true) else none)⟩ := by
  obtain ⟨isChat, forces, declared, keys⟩ := runs
  obtain ⟨e, folds, values, left, pin⟩ := folds_foldCallerEffort ep.reasoningEffort payload
    (kwargs payload) ep.switch.keys
  have field {key : String} (other : key ≠ "max_tokens") :
      (applyForcedReasoningBudget settings chat ep payload).get? key =
        (forcedEffort ep payload).get? key := by
    rw [get?_applyForcedReasoningBudget other, if_pos ⟨isChat, forces⟩]
  rw [get?_kwargs] at folds
  refine ⟨e, folds, ?_⟩
  rw [of_congr (field (by decide)) (field (by decide)) (field (by decide)), forcedEffort,
    if_pos ⟨declared, keys⟩, of_set_kwargs, values, pin, get?_setDefaults]
  · cases held : e.pin with
    | some value => rw [Option.some_or, Option.some_or]
    | none => rw [left held, Option.getD_none]
  · intro value there
    rw [get?_setDefaults, there, Option.getD_some, ite_self]

theorem of_applyForcedReasoningBudget_of_not (idle : ¬ForcedRuns chat ep) :
    Efforts.of (applyForcedReasoningBudget settings chat ep payload) = Efforts.of payload := by
  have field {key : String} (other : key ≠ "max_tokens") :
      (applyForcedReasoningBudget settings chat ep payload).get? key = payload.get? key := by
    rw [get?_applyForcedReasoningBudget other]
    split
    · next runs => rw [forcedEffort, if_neg fun both => idle ⟨runs.1, runs.2, both⟩]
    · rfl
  exact of_congr (field (by decide)) (field (by decide)) (field (by decide))

/-- The forced step writes neither into `extra_body` nor the control field of thinking. -/
theorem get?_forced_of_other {key : String} (budget : key ≠ "max_tokens")
    (top : key ≠ "reasoning_effort") (reasoning : key ≠ "reasoning")
    (args : key ≠ "chat_template_kwargs") :
    (applyForcedReasoningBudget settings chat ep payload).get? key = payload.get? key := by
  rw [get?_applyForcedReasoningBudget budget]
  split
  · rw [forcedEffort]
    split
    · rw [Fields.get?_set_of_ne _ args, get?_fst_foldCallerEffort _ _ _ top reasoning]
    · rfl
  · rfl

/-! ### The opt-in -/

theorem of_withoutThinking (payload : Fields) :
    Efforts.of (withoutThinking payload) = Efforts.of payload := by
  have field {key : String} (control : key ≠ "thinking") (extra : key ≠ "extra_body") :
      (withoutThinking payload).get? key = payload.get? key := by
    rw [withoutThinking, Fields.get?_erase_of_ne _ control]
    split
    · exact Fields.get?_set_of_ne _ extra _
    · rfl
  exact of_congr (field (by decide) (by decide)) (field (by decide) (by decide))
    (field (by decide) (by decide))

theorem of_applyThinking (settings : Settings) (chat : Bool) (ep : Endpoint) (payload : Fields) :
    Efforts.of (applyThinking settings chat ep payload) = Efforts.of
      (if optsIn settings chat ep payload = true then switchOn ep (withoutThinking payload)
        else withoutThinking payload) :=
  of_congr (get?_applyThinking _ _ _ _ (by decide)) (get?_applyThinking _ _ _ _ (by decide))
    (get?_applyThinking _ _ _ _ (by decide))

/-- The template arguments with every declared switch on. -/
def onKwargs (ep : Endpoint) (payload : Fields) : Fields :=
  ep.switch.keys.foldl (fun ck key => Fields.set ck key (.bool true)) (kwargs payload)

/-- An effort among the template arguments is overwritten if a switch of that name is declared. -/
theorem of_switchOn_of_mem (declares : "reasoning_effort" ∈ ep.switch.keys) (payload : Fields) :
    Efforts.of (switchOn ep payload) = ⟨callerEfforts payload, some (.bool true)⟩ := by
  have on : (onKwargs ep payload).get? "reasoning_effort" = some (.bool true) := by
    rw [onKwargs, get?_foldl_set, if_pos declares]
  have pinned : foldCallerEffort payload (onKwargs ep payload) [] =
      (payload, onKwargs ep payload, .left) := by
    rw [foldCallerEffort, if_pos (by rw [Fields.has, on]; rfl)]
  unfold switchOn
  rw [← onKwargs]
  simp only [pinned]
  split
  · rw [of_set_kwargs, get?_injectDefault fun _ => rfl, on]
  · rw [of_set_kwargs, on]

/-- Else the opt-in folds the caller's effort, if the endpoint has a default. -/
theorem of_switchOn_of_not_mem (undeclared : "reasoning_effort" ∉ ep.switch.keys)
    (payload : Fields) : (ep.optInEffort ≠ "" → Folds ep.optInEffort (Efforts.of payload)
        (Efforts.of (switchOn ep payload))) ∧
      (ep.optInEffort = "" → Efforts.of (switchOn ep payload) = Efforts.of payload) := by
  have kept : (onKwargs ep payload).get? "reasoning_effort" =
      (Spot.kwarg "reasoning_effort").value? payload := by
    rw [onKwargs, get?_foldl_set, if_neg undeclared, get?_kwargs]
  unfold switchOn
  rw [← onKwargs]
  refine ⟨fun declared => ?_, fun declared => ?_⟩
  · obtain ⟨e, folds, values, left, pin⟩ :=
      folds_foldCallerEffort ep.optInEffort payload (onKwargs ep payload) []
    rw [kept] at folds
    rw [if_pos declared, of_set_kwargs, values, pin _ fun _ there => there]
    cases held : e.pin with
    | some value =>
        rw [Option.some_or, ← held]
        exact folds
    | none =>
        rw [Option.none_or, left held, ← held]
        exact folds
  · rw [if_neg (not_not.mpr declared), of_set_kwargs, kept]
    rfl

end Corrections

end Roadstead.ReasoningEffort
