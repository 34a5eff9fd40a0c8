import Roadstead.ReasoningEffort.Efforts

/-!
# One effort, the caller's

After the corrections the payload carries one effort, and it is the caller's: an endpoint's default is
written only where the caller sent none.  `fold_caller_effort` reads the top level alone, so that this
holds of the efforts in `extra_body` only where these agree with what is done there (`Settled`,
`oneEffort_iff`).
-/

namespace Roadstead.ReasoningEffort

open Json (Fields)
open ThinkingSwitch
open Efforts (Folds Differ)

/-! ### What the caller is promised -/

/-- The corrections of an effort. -/
def corrected (settings : Settings) (chat : Bool) (ep : Endpoint) (payload : Fields) : Fields :=
  applyThinking settings chat ep (applyForcedReasoningBudget settings chat ep
    (canonicalizeThinkingSwitch chat ep payload))

/-- The efforts that a payload carries, in its `extra_body` too. -/
def carried (payload : Fields) : List String :=
  (Efforts.of payload).carried ++ (Efforts.of (extraFields payload)).carried

/-- `r` is the only value. -/
def Only (r : String) (values : List String) : Prop := r ∈ values ∧ ∀ a ∈ values, a = r

section Caller

variable (settings : Settings) (chat : Bool) (ep : Endpoint) (payload : Fields)

/-- `apply_forced_reasoning_budget` injects the default of the endpoint. -/
def ForcedInjects : Prop :=
  ForcedRuns chat ep ∧
    let p := canonicalizeThinkingSwitch chat ep payload
    LeavesRoom (foldCallerEffort p (kwargs p) ep.switch.keys).2.2

/-- `apply_thinking` injects the default of the endpoint. -/
def OptInInjects : Prop :=
  let p := applyForcedReasoningBudget settings chat ep (canonicalizeThinkingSwitch chat ep payload)
  optsIn settings chat ep p = true ∧ ep.optInEffort ≠ "" ∧
    LeavesRoom (foldCallerEffort (withoutThinking p) (onKwargs ep (withoutThinking p)) []).2.2

/-- One effort, and the caller's. -/
structure OneEffort : Prop where
  /-- The payload carries at most one value, or the caller sent two. -/
  one : Differ (carried payload) ∨ ¬Differ (carried (corrected settings chat ep payload))
  /-- A rung other than `none` that is the caller's only one is carried. -/
  kept (r : String) : r ≠ "none" → Only r (carried payload) →
    Only r (carried (corrected settings chat ep payload))
  /-- A default is injected only where the caller sent no effort or `none`. -/
  default : ForcedInjects chat ep payload ∨ OptInInjects settings chat ep payload →
    ∀ a ∈ carried payload, a = "none"

/-! ### When it holds -/

/-- The opt-in writes `reasoning_effort` among the template arguments as a switch. -/
def Overwrites : Prop :=
  optsIn settings chat ep payload = true ∧ "reasoning_effort" ∈ ep.switch.keys

/-- A correction may inject a default, where the top level of the payload leaves room for it. -/
def Injects : Prop :=
  (ForcedRuns chat ep ∨ (optsIn settings chat ep payload = true ∧ ep.optInEffort ≠ "" ∧
    "reasoning_effort" ∉ ep.switch.keys)) ∧
  ¬Pinned ep payload ∧ ∀ a ∈ callerEfforts payload, a = "none"

/-- What `extra_body` has to be for the promise to hold.  Beside a default that is injected it may
carry `none` only, and this only if the default is not carried as another word.  And where the opt-in
overwrites the template argument, the caller's only rung has to stand elsewhere too. -/
structure Settled : Prop where
  room : Injects settings chat ep payload →
    ∀ a ∈ (Efforts.of (extraFields payload)).carried, a = "none" ∧
      (Overwrites settings chat ep payload ∨
        ∀ d, rung (.str ep.optInEffort) = some d → d = "none")
  elsewhere : Overwrites settings chat ep payload → ∀ r, r ≠ "none" → Only r (carried payload) →
    r ∈ (Efforts.of (extraFields payload)).carried ∨
      (r ∈ callerEfforts payload ∧ (ForcedRuns chat ep → Pinned ep payload))

end Caller

/-! ### The corrections together -/

section Together

variable {settings : Settings} {chat : Bool} {ep : Endpoint} {payload : Fields}

/-- An effort at an alias states itself. -/
theorem rung_of_mem {a : String} (sent : a ∈ callerEfforts payload) : rung (.str a) = some a := by
  rw [callerEfforts, List.mem_dedup, List.mem_filterMap] at sent
  obtain ⟨value, -, states⟩ := sent
  exact rung_str states

theorem not_room_of_differ {e : Efforts} (two : Differ e.values) : ¬e.Room := by
  obtain ⟨a, sent, b, sent', other⟩ := two
  exact fun room => other ((room.2 a sent).trans (room.2 b sent').symm)

/-- What a fold leaves of the efforts: the default where there is room, and else what was there. -/
theorem mem_carried_of_folds {declared : String} {e e' : Efforts} (folds : Folds declared e e')
    (stated : ∀ a ∈ e.values, rung (.str a) = some a) (a : String) :
    (e.Room → (a ∈ e'.carried ↔ rung (.str declared) = some a)) ∧
      (¬e.Room → (a ∈ e'.carried ↔ a ∈ e.carried)) := by
  cases folds with
  | pinned there =>
      refine ⟨fun room => ?_, fun _ => Iff.rfl⟩
      rw [room.1] at there
      cases there
  | injected room => exact ⟨fun _ => by simp [mem_carried], fun full => absurd room full⟩
  | @moved r absent on one =>
      refine ⟨fun room => absurd (room.2 r (by simp [one])) on, fun _ => ?_⟩
      have states := stated r (by simp [one])
      simp [mem_carried, absent, one, states, eq_comm]
  | differ absent two => exact ⟨fun room => absurd room (not_room_of_differ two), fun _ => Iff.rfl⟩

theorem optsIn_forced (settings : Settings) (ep : Endpoint) (payload : Fields) :
    optsIn settings true ep (applyForcedReasoningBudget settings true ep
      (canonicalizeThinkingSwitch true ep payload)) = optsIn settings true ep payload := by
  have extra (p : Fields) :
      extraFields (applyForcedReasoningBudget settings true ep p) = extraFields p := by
    rw [extraFields, Fields.get, get?_forced_of_other (by decide) (by decide) (by decide)
      (by decide)]
    rfl
  rw [optsIn, optsIn, wanted_congr (get?_forced_of_other (by decide) (by decide) (by decide)
    (by decide)) (by rw [extra]), (canonical_canonicalizeThinkingSwitch ep payload).control]

/-- The efforts of `extra_body` are left as they are. -/
theorem extra_corrected : (Efforts.of (extraFields (corrected settings chat ep payload))).carried =
    (Efforts.of (extraFields payload)).carried := by
  have thinking (p : Fields) : Efforts.of (extraFields (applyThinking settings chat ep p)) =
      Efforts.of (extraFields p) :=
    of_congr (get?_extraFields_applyThinking _ _ _ _ (by decide))
      (get?_extraFields_applyThinking _ _ _ _ (by decide))
      (get?_extraFields_applyThinking _ _ _ _ (by decide))
  rw [corrected, thinking, extraFields, Fields.get, get?_forced_of_other (by decide) (by decide)
    (by decide) (by decide), ← Fields.get, ← extraFields]
  cases chat with
  | false => rfl
  | true => exact (canonical_canonicalizeThinkingSwitch ep payload).extra

/-- There is room in the efforts of the renamed payload where there is in the caller's. -/
theorem room_canonicalized : (Efforts.of (canonicalizeThinkingSwitch true ep payload)).Room ↔
    ¬Pinned ep payload ∧ ∀ a ∈ callerEfforts payload, a = "none" := by
  have canonical := canonical_canonicalizeThinkingSwitch ep payload
  rw [Efforts.Room, ← canonical.pinned, Option.not_isSome_iff_eq_none, Efforts.of, canonical.values]

/-- The forced step leaves no room for another default. -/
theorem not_room_forced (runs : ForcedRuns chat ep) (payload : Fields) :
    ¬(Efforts.of (applyForcedReasoningBudget settings chat ep payload)).Room := by
  obtain ⟨e, folds, forced⟩ := @of_applyForcedReasoningBudget settings _ _ payload runs
  rw [forced]
  cases folds with
  | pinned there =>
      rintro ⟨absent, -⟩
      obtain ⟨value, found⟩ := Option.isSome_iff_exists.mp there
      rw [found] at absent
      cases absent
  | injected room | moved absent on one => exact fun room => Option.some_ne_none _ room.1
  | differ absent two => exact not_room_of_differ two

/-- The switch that the forced step may fill in is no rung. -/
theorem carried_forced {declares : Prop} [Decidable declares] (e : Efforts) :
    Efforts.carried ⟨e.values, e.pin.or (if declares then some (.bool true) else none)⟩ =
      e.carried := by
  rw [Efforts.carried, Efforts.carried]
  cases e.pin with
  | some value => rfl
  | none => split <;> rfl

/-- What the efforts at the aliases are where the opt-in overwrites the template argument. -/
theorem mem_values_forced (runs : ForcedRuns chat ep) {a : String} :
    a ∈ callerEfforts (applyForcedReasoningBudget settings chat ep payload) ↔
      a ∈ callerEfforts payload ∧
        ((Efforts.of payload).pin.isSome = true ∨ Differ (callerEfforts payload)) := by
  obtain ⟨e, folds, forced⟩ := @of_applyForcedReasoningBudget settings _ _ payload runs
  have values : callerEfforts (applyForcedReasoningBudget settings chat ep payload) = e.values :=
    congrArg Efforts.values forced
  rw [values]
  cases folds with
  | pinned there => exact ⟨fun sent => ⟨sent, .inl there⟩, fun both => both.1⟩
  | injected room =>
      refine iff_of_false (by simp) ?_
      rintro ⟨-, there | two⟩
      · rw [room.1] at there
        cases there
      · exact not_room_of_differ two room
  | moved absent on one =>
      refine iff_of_false (by simp) ?_
      rintro ⟨-, there | ⟨b, sent, c, sent', other⟩⟩
      · rw [absent] at there
        cases there
      · change b ∈ (Efforts.of payload).values at sent
        change c ∈ (Efforts.of payload).values at sent'
        rw [one, List.mem_singleton] at sent sent'
        exact other (sent.trans sent'.symm)
  | differ absent two => exact ⟨fun sent => ⟨sent, .inr two⟩, fun both => both.1⟩

/-- Where the opt-in overwrites the template argument, the aliases are left. -/
theorem carried_corrected_of_overwrites (replaced : Overwrites settings true ep payload) :
    (Efforts.of (corrected settings true ep payload)).carried =
      callerEfforts (applyForcedReasoningBudget settings true ep
        (canonicalizeThinkingSwitch true ep payload)) := by
  rw [corrected, of_applyThinking, optsIn_forced, if_pos replaced.1, of_switchOn_of_mem replaced.2,
    Efforts.carried]
  exact (List.append_nil _).trans (congrArg Efforts.values (of_withoutThinking _))

/-- And else the opt-in folds what the forced step leaves, if it runs and the endpoint has a
default. -/
theorem corrected_of_not_overwrites (replaced : ¬Overwrites settings true ep payload) :
    let forced := applyForcedReasoningBudget settings true ep
      (canonicalizeThinkingSwitch true ep payload)
    (optsIn settings true ep payload = true ∧ ep.optInEffort ≠ "" →
        Folds ep.optInEffort (Efforts.of forced)
          (Efforts.of (corrected settings true ep payload))) ∧
      (¬(optsIn settings true ep payload = true ∧ ep.optInEffort ≠ "") →
        Efforts.of (corrected settings true ep payload) = Efforts.of forced) := by
  intro forced
  rw [corrected, of_applyThinking, optsIn_forced]
  by_cases on : optsIn settings true ep payload = true
  · have undeclared : "reasoning_effort" ∉ ep.switch.keys := fun declares => replaced ⟨on, declares⟩
    obtain ⟨folds, kept⟩ := of_switchOn_of_not_mem undeclared (withoutThinking forced)
    rw [of_withoutThinking] at folds kept
    rw [if_pos on]
    exact ⟨fun both => folds both.2, fun idle => kept (not_not.mp fun declared => idle ⟨on, declared⟩)⟩
  · rw [if_neg on]
    exact ⟨fun both => absurd both.1 on, fun _ => of_withoutThinking _⟩

theorem stated_of (payload : Fields) :
    ∀ a ∈ (Efforts.of payload).values, rung (.str a) = some a := fun _ sent => rung_of_mem sent

/-- After the forced step the opt-in finds an effort or two, and leaves them. -/
theorem mem_corrected_of_forced (replaced : ¬Overwrites settings true ep payload)
    (runs : ForcedRuns true ep) {a : String} :
    a ∈ (Efforts.of (corrected settings true ep payload)).carried ↔
      a ∈ (Efforts.of (applyForcedReasoningBudget settings true ep
        (canonicalizeThinkingSwitch true ep payload))).carried := by
  obtain ⟨folds, kept⟩ := corrected_of_not_overwrites replaced
  by_cases on : optsIn settings true ep payload = true ∧ ep.optInEffort ≠ ""
  · exact (mem_carried_of_folds (folds on) (stated_of _) a).2 (not_room_forced runs _)
  · rw [kept on]

/-- Where a default is injected, it is the effort at the top level, unless it is overwritten. -/
theorem mem_corrected_of_injects (injects : Injects settings true ep payload) (a : String) :
    a ∈ (Efforts.of (corrected settings true ep payload)).carried ↔
      ¬Overwrites settings true ep payload ∧ rung (.str ep.optInEffort) = some a := by
  have canonical := canonical_canonicalizeThinkingSwitch ep payload
  obtain ⟨may, room⟩ := injects
  have top := room_canonicalized.mpr room
  by_cases replaced : Overwrites settings true ep payload
  · have runs : ForcedRuns true ep :=
      may.resolve_right fun optIn => optIn.2.2 replaced.2
    rw [carried_corrected_of_overwrites replaced, mem_values_forced runs]
    refine iff_of_false ?_ fun both => both.1 replaced
    rintro ⟨-, there | two⟩
    · rw [top.1] at there
      cases there
    · exact not_room_of_differ two top
  · obtain ⟨folds, kept⟩ := corrected_of_not_overwrites replaced
    rw [and_iff_right replaced]
    by_cases runs : ForcedRuns true ep
    · -- the forced step has injected the default
      obtain ⟨e, injected, forced⟩ := @of_applyForcedReasoningBudget settings _ _
        (canonicalizeThinkingSwitch true ep payload) runs
      have default : ep.optInEffort = ep.reasoningEffort := if_pos runs.2.2.1
      rw [mem_corrected_of_forced replaced runs, forced, carried_forced,
        (mem_carried_of_folds injected (stated_of _) a).1 top,
        default]
    · have optIn := may.resolve_left runs
      have optInFolds := folds ⟨optIn.1, optIn.2.1⟩
      rw [of_applyForcedReasoningBudget_of_not runs] at optInFolds
      exact (mem_carried_of_folds optInFolds (stated_of _) a).1 top

/-- And else the top level carries what the caller sent there, but for a template argument that is
overwritten and an effort that the forced step has moved to it. -/
theorem mem_corrected_of_not_injects (full : ¬Injects settings true ep payload) (a : String) :
    a ∈ (Efforts.of (corrected settings true ep payload)).carried ↔
      a ∈ (Efforts.of payload).carried ∧ (Overwrites settings true ep payload →
        a ∈ callerEfforts payload ∧
          (ForcedRuns true ep → Pinned ep payload ∨ Differ (callerEfforts payload))) := by
  have canonical := canonical_canonicalizeThinkingSwitch ep payload
  by_cases replaced : Overwrites settings true ep payload
  · have top : a ∈ (Efforts.of payload).carried ∧ a ∈ callerEfforts payload ↔
        a ∈ callerEfforts payload :=
      and_iff_right_of_imp fun sent => mem_carried.mpr (.inl sent)
    rw [carried_corrected_of_overwrites replaced, forall_prop_of_true replaced, ← and_assoc, top]
    by_cases runs : ForcedRuns true ep
    · rw [mem_values_forced runs, canonical.values, canonical.pinned, forall_prop_of_true runs]
    · have same : callerEfforts (applyForcedReasoningBudget settings true ep
          (canonicalizeThinkingSwitch true ep payload)) = callerEfforts payload :=
        (congrArg Efforts.values (of_applyForcedReasoningBudget_of_not runs)).trans canonical.values
      rw [same]
      exact ⟨fun sent => ⟨sent, fun forced => absurd forced runs⟩, fun both => both.1⟩
  · rw [and_iff_left fun overwrites => absurd overwrites replaced, ← canonical.carried]
    obtain ⟨folds, kept⟩ := corrected_of_not_overwrites replaced
    by_cases runs : ForcedRuns true ep
    · obtain ⟨e, moved, forced⟩ := @of_applyForcedReasoningBudget settings _ _
        (canonicalizeThinkingSwitch true ep payload) runs
      have noRoom : ¬(Efforts.of (canonicalizeThinkingSwitch true ep payload)).Room :=
        fun room => full ⟨.inl runs, room_canonicalized.mp room⟩
      rw [mem_corrected_of_forced replaced runs, forced, carried_forced]
      exact (mem_carried_of_folds moved (stated_of _) a).2 noRoom
    · by_cases on : optsIn settings true ep payload = true ∧ ep.optInEffort ≠ ""
      · have optInFolds := folds on
        rw [of_applyForcedReasoningBudget_of_not runs] at optInFolds
        refine (mem_carried_of_folds optInFolds (stated_of _) a).2 fun room => full ?_
        exact ⟨.inr ⟨on.1, on.2, fun declares => replaced ⟨on.1, declares⟩⟩, room_canonicalized.mp room⟩
      · rw [kept on, of_applyForcedReasoningBudget_of_not runs]

/-- Room among the template arguments that a fold is given. -/
theorem leavesRoom_fold_iff {p ck : Fields} {keys : List String}
    (same : ck.get? "reasoning_effort" = (Efforts.of p).pin) :
    LeavesRoom (foldCallerEffort p ck keys).2.2 ↔ (Efforts.of p).Room := by
  rw [leavesRoom_iff, same]
  rfl

/-- A default is injected where a correction may, and there is room at the top level. -/
theorem injects_iff : ForcedInjects true ep payload ∨ OptInInjects settings true ep payload ↔
    Injects settings true ep payload := by
  have forcedRoom : ForcedInjects true ep payload ↔
      ForcedRuns true ep ∧ ¬Pinned ep payload ∧ ∀ a ∈ callerEfforts payload, a = "none" := by
    rw [← room_canonicalized, ← leavesRoom_fold_iff (get?_kwargs _ _), ForcedInjects]
  have optInRoom : OptInInjects settings true ep payload ↔
      optsIn settings true ep payload = true ∧ ep.optInEffort ≠ "" ∧
        "reasoning_effort" ∉ ep.switch.keys ∧ (Efforts.of (applyForcedReasoningBudget settings true
          ep (canonicalizeThinkingSwitch true ep payload))).Room := by
    rw [OptInInjects, optsIn_forced]
    refine and_congr_right fun _ => and_congr_right fun _ => ?_
    by_cases declares : "reasoning_effort" ∈ ep.switch.keys
    · rw [leavesRoom_iff, onKwargs, get?_foldl_set, if_pos declares]
      exact iff_of_false (fun room => Option.some_ne_none _ room.1) fun both => both.1 declares
    · rw [and_iff_right declares, ← of_withoutThinking, leavesRoom_fold_iff]
      rw [onKwargs, get?_foldl_set, if_neg declares, get?_kwargs]
      rfl
  rw [forcedRoom, optInRoom, Injects]
  by_cases runs : ForcedRuns true ep
  · simp only [runs, true_and, not_room_forced runs, and_false, or_false, true_or]
  · rw [of_applyForcedReasoningBudget_of_not runs, room_canonicalized]
    simp only [runs, false_and, false_or, and_assoc]

end Together

/-! ### The promise -/

section Promise

variable {settings : Settings} {chat : Bool} {ep : Endpoint} {payload : Fields}

theorem mem_carried_corrected (a : String) : a ∈ carried (corrected settings chat ep payload) ↔
    a ∈ (Efforts.of (corrected settings chat ep payload)).carried ∨
      a ∈ (Efforts.of (extraFields payload)).carried := by
  rw [carried, List.mem_append, extra_corrected]

/-- What is no chat completion keeps its efforts. -/
theorem oneEffort_of_not_chat (settings : Settings) (ep : Endpoint) (payload : Fields) :
    OneEffort settings false ep payload := by
  have idle : ¬ForcedRuns false ep := fun runs => Bool.false_ne_true runs.1
  have off (p : Fields) : optsIn settings false ep p = false := by
    rw [optsIn, Bool.and_false, Bool.false_and, Bool.false_and]
  have same : carried (corrected settings false ep payload) = carried payload := by
    rw [carried, extra_corrected, corrected, of_applyThinking, off, if_neg Bool.false_ne_true,
      of_withoutThinking, of_applyForcedReasoningBudget_of_not idle]
    rfl
  constructor
  case one =>
    rw [same]
    exact em _
  case kept =>
    intro r _ only
    rwa [same]
  case default =>
    rintro (forced | optIn)
    · exact absurd forced.1 idle
    · exact absurd ((off _).symm.trans optIn.1) Bool.false_ne_true

/-- Where a default is injected, the promise is one about the efforts of `extra_body`. -/
theorem oneEffort_of_injects (injects : Injects settings true ep payload) :
    OneEffort settings true ep payload ↔ Settled settings true ep payload := by
  have top (a : String) (sent : a ∈ (Efforts.of payload).carried) : a = "none" := by
    rcases mem_carried.mp sent with direct | pin
    · exact injects.2.2 a direct
    · obtain ⟨value, there, -⟩ := Option.bind_eq_some_iff.mp pin
      exact absurd (.inl (Option.isSome_iff_exists.mpr ⟨value, there⟩)) injects.2.1
  constructor
  · intro promise
    have all := promise.default (injects_iff.mpr injects)
    have alike : ¬Differ (carried payload) := by
      rintro ⟨a, sent, b, sent', other⟩
      exact other ((all a sent).trans (all b sent').symm)
    constructor
    case room =>
      intro _ a sent
      have none := all a (List.mem_append_right _ sent)
      refine ⟨none, or_iff_not_imp_left.mpr fun replaced d states => ?_⟩
      by_contra other
      refine promise.one.resolve_left alike ⟨d, ?_, a, ?_, none ▸ other⟩
      · exact (mem_carried_corrected d).mpr (.inl
          ((mem_corrected_of_injects injects d).mpr ⟨replaced, states⟩))
      · exact (mem_carried_corrected a).mpr (.inr sent)
    case elsewhere =>
      intro _ r other only
      exact absurd (all r only.1) other
  · intro settled
    have extra := settled.room injects
    have all (a : String) (sent : a ∈ carried payload) : a = "none" := by
      rcases List.mem_append.mp sent with here | there
      · exact top a here
      · exact (extra a there).1
    constructor
    case one =>
      refine .inr ?_
      rintro ⟨a, sent, b, sent', other⟩
      rw [mem_carried_corrected, mem_corrected_of_injects injects] at sent sent'
      -- the default and what stands in `extra_body`, in either order
      have beside {d c : String} (injected : ¬Overwrites settings true ep payload ∧
          rung (.str ep.optInEffort) = some d)
          (there : c ∈ (Efforts.of (extraFields payload)).carried) : d = c :=
        ((extra c there).2.resolve_left injected.1 d injected.2).trans (extra c there).1.symm
      rcases sent with first | first <;> rcases sent' with second | second
      · exact other (Option.some.inj (first.2.symm.trans second.2))
      · exact other (beside first second)
      · exact other (beside second first).symm
      · exact other ((extra a first).1.trans (extra b second).1.symm)
    case kept =>
      intro r other only
      exact absurd (all r only.1) other
    case default => exact fun _ => all

/-- And else it is one about an effort that is overwritten. -/
theorem oneEffort_of_not_injects (full : ¬Injects settings true ep payload) :
    OneEffort settings true ep payload ↔ Settled settings true ep payload := by
  have fewer {a : String} (left : a ∈ carried (corrected settings true ep payload)) :
      a ∈ carried payload := by
    rw [mem_carried_corrected, mem_corrected_of_not_injects full] at left
    exact List.mem_append.mpr (left.imp_left fun both => both.1)
  have alike {r : String} (only : Only r (carried payload)) :
      ¬Differ (callerEfforts payload) := by
    rintro ⟨a, sent, b, sent', other⟩
    have carries {c : String} (sent : c ∈ callerEfforts payload) : c ∈ carried payload :=
      List.mem_append_left _ (mem_carried.mpr (.inl sent))
    exact other ((only.2 a (carries sent)).trans (only.2 b (carries sent')).symm)
  constructor
  · intro promise
    refine ⟨fun injects => absurd injects full, fun replaced r other only => ?_⟩
    have left := (promise.kept r other only).1
    rw [mem_carried_corrected, mem_corrected_of_not_injects full] at left
    refine left.symm.imp_right fun here => ?_
    obtain ⟨direct, moved⟩ := here.2 replaced
    exact ⟨direct, fun runs => (moved runs).resolve_right (alike only)⟩
  · intro settled
    constructor
    case one =>
      refine or_iff_not_imp_left.mpr fun same => ?_
      rintro ⟨a, left, b, left', other⟩
      exact same ⟨a, fewer left, b, fewer left', other⟩
    case kept =>
      intro r other only
      refine ⟨?_, fun a left => only.2 a (fewer left)⟩
      rw [mem_carried_corrected, mem_corrected_of_not_injects full]
      by_cases replaced : Overwrites settings true ep payload
      · refine (settled.elsewhere replaced r other only).symm.imp_left ?_
        rintro ⟨direct, moved⟩
        exact ⟨mem_carried.mpr (.inl direct), fun _ => ⟨direct, fun runs => .inl (moved runs)⟩⟩
      · exact (List.mem_append.mp only.1).imp_left fun sent =>
          ⟨sent, fun overwrites => absurd overwrites replaced⟩
    case default => exact fun injects => absurd (injects_iff.mp injects) full

/-- **One effort, the caller's.**  The corrections leave a payload with one effort, the caller's if it
sent one, exactly if what the request has in `extra_body` is settled with it. -/
theorem oneEffort_iff (settings : Settings) (chat : Bool) (ep : Endpoint) (payload : Fields) :
    OneEffort settings chat ep payload ↔ Settled settings chat ep payload := by
  cases chat with
  | false =>
      have off : optsIn settings false ep payload ≠ true := by
        rw [optsIn, Bool.and_false, Bool.false_and, Bool.false_and]
        exact Bool.false_ne_true
      refine iff_of_true (oneEffort_of_not_chat settings ep payload) ⟨?_, ?_⟩
      · rintro ⟨runs | optIn, -⟩
        · exact absurd runs.1 Bool.false_ne_true
        · exact absurd optIn.1 off
      · exact fun replaced => absurd replaced.1 off
  | true =>
      by_cases injects : Injects settings true ep payload
      · exact oneEffort_of_injects injects
      · exact oneEffort_of_not_injects injects

end Promise

/-- An endpoint that always reasons, with a default effort and a switch for it to travel with. -/
def forcedEndpoint : Endpoint where
  switch := .named ["enable_thinking"]
  reasoningEffort := "low"
  forcesReasoning := true

/-- An effort under `extra_body`, as a client library writes it. -/
def extraEffort : Fields := [("extra_body", .obj [("reasoning_effort", .str "high")])]

/-- The default is injected beside it. -/
theorem extraEffort_beside_default :
    ForcedInjects true forcedEndpoint extraEffort ∧
      carried extraEffort = ["high"] ∧
      carried (corrected {} true forcedEndpoint extraEffort) = ["low", "high"] ∧
      ¬OneEffort {} true forcedEndpoint extraEffort := by
  have sent : carried extraEffort = ["high"] := by decide
  have injected : ForcedInjects true forcedEndpoint extraEffort :=
    ⟨⟨rfl, rfl, by decide, by decide⟩, .inl (by decide)⟩
  refine ⟨injected, sent, by decide, fun promise => ?_⟩
  have none := promise.default (.inl injected) "high" (by rw [sent]; exact List.mem_singleton_self _)
  exact absurd none (by decide)

end Roadstead.ReasoningEffort
