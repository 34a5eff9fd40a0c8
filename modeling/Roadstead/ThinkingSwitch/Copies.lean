import Roadstead.ThinkingSwitch.Renamed
import Roadstead.Lib.Objects

/-!
# The rewrites of the switch as programs

`strip_thinking_switch` and `rename_thinking_switch` as they run on mutable objects: each copies a
dictionary before it writes to it.  A run is `Rewrote` where every object that was there is as it
was, where the returned object denotes what the rewrite of `Roadstead.ThinkingSwitch` returns, and
where it is the caller's own object exactly if nothing is found.
-/

namespace Roadstead.ThinkingSwitch.Copies

open Json (Fields)
open Objects

/-! ### The programs -/

/-- `_strip_container` puts an object back into a copy, or removes it there if it is empty. -/
def putBack (out : ℕ) (key : String) (rest : ℕ) (heap : Heap) : Heap × ℕ :=
  let copied := copy out heap
  if heap.fields rest = [] then (delField copied.2 key copied.1, copied.2)
  else (setField copied.2 key (.ref rest) copied.1, copied.2)

def delAll (loc : ℕ) (keys : List String) (heap : Heap) : Heap :=
  keys.foldl (fun heap key => delField loc key heap) heap

/-- The copy of the template arguments, what goes removed from it. -/
def clearKwargs (nested : Bool) (ck : ℕ) (heap : Heap) : Heap × ℕ × List Finding :=
  let newCk := copy ck heap
  let keys := ((heap.fields ck).map Prod.fst).filter fun key => key ∈ thinkingKwargNames
  let switched := delAll newCk.2 keys newCk.1
  let off := isNoneEffort (switched.viewAt newCk.2 "reasoning_effort")
  (if off then delField newCk.2 "reasoning_effort" switched else switched, newCk.2,
    (keys.map fun key => ⟨nested, .kwarg key, valueLabel (heap.viewAt ck key)⟩) ++
      if off then [⟨nested, .kwarg "reasoning_effort", "none"⟩] else [])

def stripKwargs (nested : Bool) (container : ℕ) (heap : Heap) : Heap × ℕ × List Finding :=
  match heap.dictAt container "chat_template_kwargs" with
  | some ck =>
      let newCk := clearKwargs nested ck heap
      if (newCk.1.fields newCk.2.1).length ≠ (newCk.1.fields ck).length then
        let out := putBack container "chat_template_kwargs" newCk.2.1 newCk.1
        (out.1, out.2, newCk.2.2)
      else (newCk.1, container, newCk.2.2)
  | none => (heap, container, [])

def stripEffort (nested : Bool) (container out : ℕ) (heap : Heap) : Heap × ℕ × List Finding :=
  if isNoneEffort (heap.viewAt container "reasoning_effort") then
    let copied := copy out heap
    (delField copied.2 "reasoning_effort" copied.1, copied.2,
      [⟨nested, .field "reasoning_effort", "none"⟩])
  else (heap, out, [])

def stripReasoning (nested : Bool) (container out : ℕ) (heap : Heap) : Heap × ℕ × List Finding :=
  match heap.dictAt container "reasoning" with
  | some obj =>
      if isNoneEffort (heap.viewAt obj "effort") then
        let rest := alloc (.dict ((heap.fields obj).filter fun field => field.1 ≠ "effort")) heap
        let out := putBack out "reasoning" rest.2 rest.1
        (out.1, out.2, [⟨nested, .reasoning "effort", "none"⟩])
      else (heap, out, [])
  | none => (heap, out, [])

/-- `_strip_container`. -/
def stripContainer (nested : Bool) (container : ℕ) (heap : Heap) : Heap × ℕ × List Finding :=
  let kwargs := stripKwargs nested container heap
  let effort := stripEffort nested container kwargs.2.1 kwargs.1
  let reasoning := stripReasoning nested container effort.2.1 effort.1
  (reasoning.1, reasoning.2.1, kwargs.2.2 ++ effort.2.2 ++ reasoning.2.2)

/-- `new_ck[key] = values[0]` for the declared keys that are missing. -/
def land (declared : List String) (value : Bool) (newCk : ℕ) (heap : Heap) : Heap × List String :=
  declared.foldl
    (fun done key =>
      if (lookup (done.1.fields newCk) key).isSome then done
      else (setField newCk key (.plain (.bool value)) done.1, done.2 ++ [key]))
    (heap, [])

/-- `_rename_container`. -/
def renameContainer (declared : List String) (nested : Bool) (container : ℕ) (heap : Heap) :
    Heap × ℕ × List Renaming :=
  match heap.dictAt container "chat_template_kwargs" with
  | some ck =>
      let foreign := thinkingKwargNames.filter fun key =>
        (lookup (heap.fields ck) key).isSome && decide (key ∉ declared)
      if foreign = [] then (heap, container, [])
      else
        let value := agreed (foreign.map fun key => asSwitchValue (heap.viewAt ck key))
        let newCk := alloc (.dict ((heap.fields ck).filter fun field => field.1 ∉ foreign)) heap
        let landed := value.elim (newCk.1, []) fun value => land declared value newCk.2 newCk.1
        let out := copy container landed.1
        (setField out.2 "chat_template_kwargs" (.ref newCk.2) out.1, out.2,
          [⟨nested, foreign, landed.2, value⟩])
  | none => (heap, container, [])

/-- The payload and then its `extra_body`, which is written to a copy if it is another object. -/
def bothContainers {F : Type} (rewrite : Bool → ℕ → Heap → Heap × ℕ × List F) (payload : ℕ)
    (heap : Heap) : Heap × ℕ × List F :=
  let top := rewrite false payload heap
  match top.1.dictAt top.2.1 "extra_body" with
  | some eb =>
      let extra := rewrite true eb top.1
      if extra.2.1 ≠ eb then
        let out := copy top.2.1 extra.1
        (setField out.2 "extra_body" (.ref extra.2.1) out.1, out.2, top.2.2 ++ extra.2.2)
      else (extra.1, top.2.1, top.2.2 ++ extra.2.2)
  | none => top

/-- `strip_thinking_switch`, which returns what is no dictionary as it is. -/
def stripThinkingSwitch (payload : Value) (heap : Heap) : Heap × Value × List Finding :=
  match heap.dict? payload with
  | some loc =>
      let run := bothContainers stripContainer loc heap
      (run.1, .ref run.2.1, run.2.2)
  | none => (heap, payload, [])

/-- `rename_thinking_switch`. -/
def renameThinkingSwitch (declared : List String) (payload : Value) (heap : Heap) :
    Heap × Value × List Renaming :=
  match heap.dict? payload with
  | some loc =>
      if declared.isEmpty then (heap, payload, [])
      else
        let run := bothContainers (renameContainer declared) loc heap
        (run.1, .ref run.2.1, run.2.2)
  | none => (heap, payload, [])

/-! ### What is read -/

theorem valueLabel_view (j : Json) : valueLabel (view j) = valueLabel j := by
  cases j <;> rfl

theorem isNoneEffort_view (j : Json) : isNoneEffort (view j) = isNoneEffort j := by
  cases j <;> rfl

theorem asSwitchValue_view (j : Json) : asSwitchValue (view j) = asSwitchValue j := by
  cases j with
  | obj fields =>
      have kind : Fields.get (fields.map fun field => (field.1, shape field.2)) "type" =
          shape (Fields.get fields "type") := by
        rw [Fields.get, Fields.get, Fields.get?_map_value, Fields.get?]
        cases fields.find? fun field => field.1 = "type" <;> rfl
      rw [view, asSwitchValue, asSwitchValue, kind]
      cases Fields.get fields "type" <;> rfl
  | _ => rfl

/-! ### Runs -/

/-- A run on the object at `loc` that returns `result`. -/
structure Rewrote {F : Type} (heap : Heap) (loc : ℕ) (run : Heap × ℕ × List F)
    (result : Fields × List F) : Prop where
  le : heap <+: run.1
  denotes : Denotes run.1 (.ref run.2.1) (.obj result.1)
  found : run.2.2 = result.2
  kept : result.2 = [] → run.2.1 = loc
  made : result.2 ≠ [] → heap.length ≤ run.2.1

section Runs

variable {F : Type} {heap heap' : Heap} {loc loc' : ℕ} {js js' : Fields}

theorem Rewrote.refl (denotes : Denotes heap (.ref loc) (.obj js)) :
    Rewrote (F := F) heap loc (heap, loc, []) (js, []) :=
  ⟨List.prefix_refl _, denotes, rfl, fun _ => rfl, fun found => absurd rfl found⟩

/-- A run after a run. -/
theorem Rewrote.append {run run' : Heap × ℕ × List F} {result result' : Fields × List F}
    (first : Rewrote heap loc run result) (second : Rewrote run.1 run.2.1 run' result') :
    Rewrote heap loc (run'.1, run'.2.1, run.2.2 ++ run'.2.2) (result'.1, result.2 ++ result'.2) := by
  constructor
  case le => exact first.le.trans second.le
  case denotes => exact second.denotes
  case found => exact congrArg₂ _ first.found second.found
  case kept =>
    intro none
    obtain ⟨none, none'⟩ := List.append_eq_nil_iff.mp none
    exact (second.kept none').trans (first.kept none)
  case made =>
    intro some
    by_cases none : result'.2 = []
    · have found : result.2 ≠ [] := by
        rintro none'
        exact some (List.append_eq_nil_iff.mpr ⟨none', none⟩)
      simp only [second.kept none]
      exact first.made found
    · exact first.le.length_le.trans (second.made none)

/-- The object that is returned is the one that was given exactly where nothing is found. -/
theorem Rewrote.same_iff {run : Heap × ℕ × List F} {result : Fields × List F}
    (rewrote : Rewrote heap loc run result) (lt : loc < heap.length) :
    run.2.1 = loc ↔ run.2.2 = [] := by
  rw [rewrote.found]
  refine ⟨fun same => ?_, rewrote.kept⟩
  by_contra found
  exact absurd (rewrote.made found) (by omega)

/-- What is put back into a copy. -/
theorem putBack_spec (key : String) (denotes : Denotes heap (.ref loc) (.obj js))
    (rest : Denotes heap (.ref loc') (.obj js')) :
    Building heap (putBack loc key loc' heap).1 (putBack loc key loc' heap).2
      (ThinkingSwitch.putBack js key js') := by
  have copied := building_copy denotes
  have empty : heap.fields loc' = [] ↔ js' = [] := by
    rw [← List.length_eq_zero_iff, rest.length, List.length_eq_zero_iff]
  unfold putBack ThinkingSwitch.putBack
  by_cases none : js' = []
  · simp only [if_pos none, if_pos (empty.mpr none)]
    exact copied.delField key
  · simp only [if_neg none, if_neg fun here => none (empty.mp here)]
    exact copied.setField key rest

theorem building_delAll {base : Heap} (keys : List String) (building : Building base heap loc js) :
    Building base (delAll loc keys heap) loc (keys.foldl Fields.erase js) := by
  unfold delAll
  induction keys generalizing heap js with
  | nil => exact building
  | cons key keys ih => exact ih (building.delField key)

/-! ### Removal -/

theorem foldl_erase (keys : List String) (fields : Fields) :
    keys.foldl Fields.erase fields = fields.filter fun field => field.1 ∉ keys := by
  induction keys generalizing fields with
  | nil => simp
  | cons key keys ih =>
      rw [List.foldl_cons, ih, Fields.erase, List.filter_filter]
      refine List.filter_congr fun field _ => ?_
      simp [Bool.and_comm]

/-- Removing the switches and then the effort is removing what goes. -/
theorem filter_goneKwarg (ck : Fields) :
    (ck.filter fun field => !goneKwarg ck field.1) =
      (if isNoneEffort (ck.get "reasoning_effort") then
        Fields.erase (ck.filter fun field => field.1 ∉ thinkingKwargNames) "reasoning_effort"
      else ck.filter fun field => field.1 ∉ thinkingKwargNames) := by
  split
  · next off =>
      rw [Fields.erase, List.filter_filter]
      refine List.filter_congr fun field _ => ?_
      simp [goneKwarg, off, Bool.and_comm]
  · next on =>
      refine List.filter_congr fun field _ => ?_
      simp [goneKwarg, on]

theorem clearKwargs_spec (nested : Bool) (denotes : Denotes heap (.ref loc) (.obj js)) :
    Building heap (clearKwargs nested loc heap).1 (clearKwargs nested loc heap).2.1
        (js.filter fun field => !goneKwarg js field.1) ∧
      (clearKwargs nested loc heap).2.2 = kwargFindings nested js := by
  have switched := building_delAll (((heap.fields loc).map Prod.fst).filter
    fun key => key ∈ thinkingKwargNames) (building_copy denotes)
  have rest : (((heap.fields loc).map Prod.fst).filter
      fun key => key ∈ thinkingKwargNames).foldl Fields.erase js =
        js.filter fun field => field.1 ∉ thinkingKwargNames := by
    rw [foldl_erase, denotes.keys]
    refine List.filter_congr fun field mem => ?_
    simp [List.mem_filter, List.mem_map_of_mem mem]
  rw [rest] at switched
  have off := congrArg isNoneEffort (switched.denotes.viewAt "reasoning_effort")
  have kept : Fields.get (js.filter fun field => field.1 ∉ thinkingKwargNames) "reasoning_effort" =
      js.get "reasoning_effort" := by
    rw [Fields.get, get?_filter js (fun key => decide (key ∉ thinkingKwargNames)), if_pos (by decide),
      Fields.get]
  rw [isNoneEffort_view, kept] at off
  have labels : (((heap.fields loc).map Prod.fst).filter fun key => key ∈ thinkingKwargNames).map
      (fun key => Finding.mk nested (.kwarg key) (valueLabel (heap.viewAt loc key))) =
        ((js.map Prod.fst).filter fun key => key ∈ thinkingKwargNames).map
          fun key => ⟨nested, .kwarg key, valueLabel (js.get key)⟩ := by
    rw [denotes.keys]
    refine List.map_congr_left fun key _ => ?_
    rw [denotes.viewAt, valueLabel_view]
  simp only [clearKwargs, off, labels]
  refine ⟨?_, rfl⟩
  rw [filter_goneKwarg]
  split
  · exact switched.delField "reasoning_effort"
  · exact switched

/-- A copy that is returned, of which one field is rewritten. -/
theorem Building.rewrote {heap' : Heap} (building : Building heap heap' loc' js')
    {found : List F} (some : found ≠ []) : Rewrote heap loc (heap', loc', found) (js', found) :=
  ⟨building.le, building.denotes, rfl, fun none => absurd none some, fun _ => building.new⟩

theorem stripKwargs_spec (nested : Bool) (denotes : Denotes heap (.ref loc) (.obj js)) :
    Rewrote heap loc (stripKwargs nested loc heap) (ThinkingSwitch.stripKwargs nested js) := by
  rcases denotes.dictAt "chat_template_kwargs" with ⟨ck, ckjs, dict, there, inner⟩ | ⟨none, plain⟩
  · obtain ⟨cleared, found⟩ := clearKwargs_spec nested inner
    have old := (inner.mono cleared.le).length
    have new := cleared.denotes.length
    rw [stripKwargs_of_obj there]
    simp only [stripKwargs, dict, old, new, found]
    by_cases same : (ckjs.filter fun field => !goneKwarg ckjs field.1) = ckjs
    · have none : kwargFindings nested ckjs = [] := kwargFindings_eq_nil_iff.mpr same
      simp only [same, none, ne_eq, not_true_eq_false, if_false]
      exact ⟨cleared.le, denotes.mono cleared.le, rfl, fun _ => rfl, fun found => absurd rfl found⟩
    · have some : kwargFindings nested ckjs ≠ [] := mt kwargFindings_eq_nil_iff.mp same
      have shorter := mt filter_eq_iff_length.mpr same
      simp only [shorter, ne_eq, not_false_eq_true, if_true]
      have put := putBack_spec "chat_template_kwargs" (denotes.mono cleared.le) cleared.denotes
      exact ⟨cleared.le.trans put.le, put.denotes, rfl, fun none => absurd none some,
        fun _ => cleared.le.length_le.trans put.new⟩
  · rw [stripKwargs_of_noObject plain]
    simp only [stripKwargs, none]
    exact .refl denotes

/-- The container that is read is another object than the one that is written. -/
theorem stripEffort_spec (nested : Bool) (read : Denotes heap (.ref loc) (.obj js))
    (denotes : Denotes heap (.ref loc') (.obj js')) :
    Rewrote heap loc' (stripEffort nested loc loc' heap)
      (ThinkingSwitch.stripEffort nested js js') := by
  have off := congrArg isNoneEffort (read.viewAt "reasoning_effort")
  rw [isNoneEffort_view] at off
  unfold stripEffort ThinkingSwitch.stripEffort
  rw [off]
  split
  · exact Building.rewrote ((building_copy denotes).delField "reasoning_effort")
      (List.cons_ne_nil _ _)
  · exact .refl denotes

theorem stripReasoning_spec (nested : Bool) (read : Denotes heap (.ref loc) (.obj js))
    (denotes : Denotes heap (.ref loc') (.obj js')) :
    Rewrote heap loc' (stripReasoning nested loc loc' heap)
      (ThinkingSwitch.stripReasoning nested js js') := by
  rcases read.dictAt "reasoning" with ⟨obj, objjs, dict, there, inner⟩ | ⟨none, plain⟩
  · have off := congrArg isNoneEffort (inner.viewAt "effort")
    rw [isNoneEffort_view] at off
    rw [stripReasoning_of_obj there]
    simp only [stripReasoning, dict, off]
    split
    · have rest := building_alloc (inner.dict_fields.2.filter fun key => key ≠ "effort")
      have put := putBack_spec "reasoning" (denotes.mono rest.le) rest.denotes
      exact ⟨rest.le.trans put.le, put.denotes, rfl, fun none => absurd none (List.cons_ne_nil _ _),
        fun _ => rest.le.length_le.trans put.new⟩
    · exact .refl denotes
  · rw [stripReasoning_of_noObject plain]
    simp only [stripReasoning, none]
    exact .refl denotes

theorem stripContainer_spec (nested : Bool) (denotes : Denotes heap (.ref loc) (.obj js)) :
    Rewrote heap loc (stripContainer nested loc heap) (ThinkingSwitch.stripContainer nested js) := by
  have kwargs := stripKwargs_spec nested denotes
  have effort := stripEffort_spec nested (denotes.mono kwargs.le) kwargs.denotes
  have reasoning := stripReasoning_spec nested (denotes.mono (kwargs.le.trans effort.le))
    effort.denotes
  exact (kwargs.append effort).append reasoning

/-! ### Renaming -/

/-- Writing the missing keys keeps what is built; the induction is on the declared keys, from any
keys that have been written. -/
theorem foldl_land_spec {base : Heap} (declared : List String) (value : Bool)
    (building : Building base heap loc js) (landed : List String) :
    let run := declared.foldl (fun done key =>
      if (lookup (Heap.fields done.1 loc) key).isSome then done
      else (setField loc key (.plain (.bool value)) done.1, done.2 ++ [key])) (heap, landed)
    let result := declared.foldl (fun done key =>
      if Fields.has done.1 key then done else (Fields.set done.1 key (.bool value), done.2 ++ [key]))
      (js, landed)
    Building base run.1 loc result.1 ∧ run.2 = result.2 := by
  induction declared generalizing heap js landed with
  | nil => exact ⟨building, rfl⟩
  | cons key keys ih =>
      simp only [List.foldl_cons, building.denotes.isSome_lookup]
      split
      · exact ih building landed
      · have written : Denotes base (.plain (.bool value)) (.bool value) := .plain trivial
        exact ih (building.setField key written) (landed ++ [key])

/-- The declared keys are written if there is a value to carry. -/
theorem land_spec {base : Heap} (declared : List String) (value : Option Bool)
    (building : Building base heap loc js) :
    let run := value.elim (heap, []) fun value => land declared value loc heap
    let result := value.elim (js, []) fun value => ThinkingSwitch.land declared value js
    Building base run.1 loc result.1 ∧ run.2 = result.2 := by
  cases value with
  | none => exact ⟨building, rfl⟩
  | some value => exact foldl_land_spec declared value building []

theorem renameContainer_spec (declared : List String) (nested : Bool)
    (denotes : Denotes heap (.ref loc) (.obj js)) :
    Rewrote heap loc (renameContainer declared nested loc heap)
      (ThinkingSwitch.renameContainer declared nested js) := by
  rcases denotes.dictAt "chat_template_kwargs" with ⟨ck, ckjs, dict, there, inner⟩ | ⟨none, plain⟩
  · have foreign : (thinkingKwargNames.filter fun key =>
        (lookup (heap.fields ck) key).isSome && decide (key ∉ declared)) =
          foreignKeys declared ckjs := by
      simp only [inner.isSome_lookup, foreignKeys]
    have values : agreed ((foreignKeys declared ckjs).map fun key =>
        asSwitchValue (heap.viewAt ck key)) = agreedValue ckjs (foreignKeys declared ckjs) := by
      simp only [inner.viewAt, asSwitchValue_view, agreedValue]
    simp only [renameContainer, dict, foreign, values, ThinkingSwitch.renameContainer,
      get_eq_obj_iff.mpr there]
    split
    · exact .refl denotes
    · have rest := building_alloc
        (inner.dict_fields.2.filter fun key => key ∉ foreignKeys declared ckjs)
      obtain ⟨built, names⟩ :=
        land_spec declared (agreedValue ckjs (foreignKeys declared ckjs)) rest
      have out := (building_copy (denotes.mono built.le)).setField "chat_template_kwargs"
        built.denotes
      exact ⟨built.le.trans out.le, out.denotes, by rw [names],
        fun none => absurd none (List.cons_ne_nil _ _),
        fun _ => built.le.length_le.trans out.new⟩
  · rw [renameContainer_of_noObject plain]
    simp only [renameContainer, none]
    exact .refl denotes

/-! ### Both containers -/

theorem bothContainers_spec {rewrite : Bool → ℕ → Heap → Heap × ℕ × List F}
    {result : Bool → Fields → Fields × List F}
    (spec : ∀ nested heap loc js, Denotes heap (.ref loc) (.obj js) →
      Rewrote heap loc (rewrite nested loc heap) (result nested js))
    (denotes : Denotes heap (.ref loc) (.obj js)) :
    Rewrote heap loc (bothContainers rewrite loc heap) (ThinkingSwitch.bothContainers result js) := by
  have top := spec false heap loc js denotes
  rcases top.denotes.dictAt "extra_body" with ⟨eb, ebjs, dict, there, inner⟩ | ⟨none, plain⟩
  · have extra := spec true _ eb ebjs inner
    rw [bothContainers_of_obj js there]
    simp only [bothContainers, dict]
    by_cases none : (result true ebjs).2 = []
    · simp only [extra.kept none, none, ne_eq, not_true_eq_false, if_false, List.isEmpty_nil, if_true]
      exact ⟨top.le.trans extra.le, top.denotes.mono extra.le,
        congrArg₂ _ top.found (extra.found.trans none),
        fun same => top.kept (List.append_eq_nil_iff.mp same).1,
        fun some => top.made fun same => some (List.append_eq_nil_iff.mpr ⟨same, rfl⟩)⟩
    · have other : (rewrite true eb (rewrite false loc heap).1).2.1 ≠ eb :=
        fun same => absurd (extra.made none) (by have := inner.lt; omega)
      have out := (building_copy (top.denotes.mono extra.le)).setField "extra_body" extra.denotes
      simp only [other, ne_eq, not_false_eq_true, if_true, List.isEmpty_eq_false_iff.mpr none,
        Bool.false_eq_true, if_false]
      exact ⟨(top.le.trans extra.le).trans out.le, out.denotes, congrArg₂ _ top.found extra.found,
        fun same => absurd (List.append_eq_nil_iff.mp same).2 none,
        fun _ => (top.le.trans extra.le).length_le.trans out.new⟩
  · rw [bothContainers_of_noObject js plain]
    simp only [bothContainers, none]
    exact top

end Runs

/-! ### The rewrites -/

/-- A rewrite of objects, on any JSON value. -/
def onObject {F : Type} (rewrite : Fields → Fields × List F) : Json → Json × List F
  | .obj payload => (.obj (rewrite payload).1, (rewrite payload).2)
  | j => (j, [])

/-- A run that leaves every object as it was, and returns the caller's own value exactly where
nothing is found. -/
structure Returned {F : Type} (heap : Heap) (payload : Value) (run : Heap × Value × List F)
    (result : Json × List F) : Prop where
  untouched : heap <+: run.1
  denotes : Denotes run.1 run.2.1 result.1
  found : run.2.2 = result.2
  same : run.2.1 = payload ↔ run.2.2 = []

section Returned

variable {F : Type} {heap : Heap} {payload : Value} {j : Json}

theorem Returned.refl {rewrite : Fields → Fields × List F} (denotes : Denotes heap payload j)
    (same : onObject rewrite j = (j, [])) :
    Returned heap payload (heap, payload, []) (onObject rewrite j) := by
  rw [same]
  exact ⟨List.prefix_refl _, denotes, rfl, iff_of_true rfl rfl⟩

theorem onObject_of_ne {rewrite : Fields → Fields × List F} (other : ∀ fields, j ≠ .obj fields) :
    onObject rewrite j = (j, []) := by
  cases j with
  | obj fields => exact absurd rfl (other fields)
  | _ => rfl

theorem Rewrote.returned {loc : ℕ} {js : Fields} {run : Heap × ℕ × List F}
    {result : Fields × List F} (rewrote : Rewrote heap loc run result)
    (denotes : Denotes heap (.ref loc) (.obj js)) :
    Returned heap (.ref loc) (run.1, .ref run.2.1, run.2.2) (.obj result.1, result.2) := by
  refine ⟨rewrote.le, rewrote.denotes, rewrote.found, ?_⟩
  rw [Value.ref.injEq]
  exact rewrote.same_iff denotes.lt

theorem stripThinkingSwitch_spec (denotes : Denotes heap payload j) :
    Returned heap payload (stripThinkingSwitch payload heap)
      (onObject ThinkingSwitch.stripThinkingSwitch j) := by
  rcases denotes.dict? with ⟨loc, js, dict, rfl, rfl⟩ | ⟨none, other⟩
  · simp only [stripThinkingSwitch, dict]
    exact (bothContainers_spec (fun nested _ _ _ => stripContainer_spec nested) denotes).returned
      denotes
  · simp only [stripThinkingSwitch, none]
    exact .refl denotes (onObject_of_ne other)

theorem renameThinkingSwitch_spec (declared : List String) (denotes : Denotes heap payload j) :
    Returned heap payload (renameThinkingSwitch declared payload heap)
      (onObject (ThinkingSwitch.renameThinkingSwitch declared) j) := by
  rcases denotes.dict? with ⟨loc, js, dict, rfl, rfl⟩ | ⟨none, other⟩
  · simp only [renameThinkingSwitch, dict]
    split
    · next undeclared =>
        refine .refl denotes ?_
        simp only [onObject, ThinkingSwitch.renameThinkingSwitch, undeclared, if_true]
    · next named =>
        have spec := bothContainers_spec
          (fun nested _ _ _ => renameContainer_spec declared nested) denotes
        simp only [onObject, ThinkingSwitch.renameThinkingSwitch, if_neg named]
        exact spec.returned denotes
  · simp only [renameThinkingSwitch, none]
    exact .refl denotes (onObject_of_ne other)

end Returned

/-! ### What the rewrites do -/

/-- What a strip of `payload` returns. -/
structure StripsExactly (payload : Fields) (result : Fields × List Finding) : Prop where
  stripped : BothStripped payload result.1
  again : ThinkingSwitch.stripThinkingSwitch result.1 = (result.1, [])
  report (f : Finding) : f ∈ result.2 ↔ Removed payload result.1 f
  once : UniqueKwargs payload → result.2.Nodup

/-- What a renaming of `payload` returns. -/
structure RenamesExactly (declared : List String) (payload : Fields)
    (result : Fields × List Renaming) : Prop where
  renamed : BothRenamed declared payload result.1
  again : ThinkingSwitch.renameThinkingSwitch declared result.1 = (result.1, [])

/-- The rewrites of the switch are exact, and leave what the caller holds as it is. -/
theorem rewrites_exact :
    (∀ payload, StripsExactly payload (ThinkingSwitch.stripThinkingSwitch payload)) ∧
    (∀ declared payload, declared ≠ [] →
      RenamesExactly declared payload (ThinkingSwitch.renameThinkingSwitch declared payload)) ∧
    (∀ heap payload j, Denotes heap payload j →
      Returned heap payload (stripThinkingSwitch payload heap)
        (onObject ThinkingSwitch.stripThinkingSwitch j) ∧
      ∀ declared, Returned heap payload (renameThinkingSwitch declared payload heap)
        (onObject (ThinkingSwitch.renameThinkingSwitch declared) j)) := by
  refine ⟨fun payload => ?_, fun declared payload named => ?_, fun heap payload j denotes => ?_⟩
  · exact ⟨bothStripped payload, stripThinkingSwitch_again payload,
      mem_stripThinkingSwitch_iff payload, nodup_stripThinkingSwitch⟩
  · exact ⟨bothRenamed named payload, renameThinkingSwitch_again declared payload⟩
  · exact ⟨stripThinkingSwitch_spec denotes, fun declared => renameThinkingSwitch_spec declared denotes⟩

/-- A payload and its `extra_body` that share their template arguments. -/
def sharedHeap : Heap :=
  [.dict [("thinking", .plain (.bool false))], .dict [("chat_template_kwargs", .ref 0)],
    .dict [("chat_template_kwargs", .ref 0), ("extra_body", .ref 1)]]

def sharedPayload : Fields :=
  [("chat_template_kwargs", .obj [("thinking", .bool false)]),
    ("extra_body", .obj [("chat_template_kwargs", .obj [("thinking", .bool false)])])]

theorem denotes_sharedPayload : Denotes sharedHeap (.ref 2) (.obj sharedPayload) := by
  have kwargs : Denotes sharedHeap (.ref 0) (.obj [("thinking", .bool false)]) :=
    .dict rfl (.cons (.plain trivial) .nil)
  exact .dict rfl (.cons kwargs (.cons (.dict rfl (.cons kwargs .nil)) .nil))

theorem rewrites_exact_shared :
    (⟨true, .kwarg "thinking", "false"⟩ : Finding) ∈
        (ThinkingSwitch.stripThinkingSwitch sharedPayload).2 ∧
      (ThinkingSwitch.stripThinkingSwitch sharedPayload).2.Nodup ∧
      RenamesExactly ["enable_thinking"] sharedPayload
        (ThinkingSwitch.renameThinkingSwitch ["enable_thinking"] sharedPayload) ∧
      sharedHeap <+: (renameThinkingSwitch ["enable_thinking"] (.ref 2) sharedHeap).1 := by
  have mem : (⟨true, .kwarg "thinking", "false"⟩ : Finding) ∈
      (ThinkingSwitch.stripThinkingSwitch sharedPayload).2 := by decide
  refine ⟨mem, (rewrites_exact.1 sharedPayload).once ?_,
    rewrites_exact.2.1 ["enable_thinking"] sharedPayload (List.cons_ne_nil _ _),
    ((rewrites_exact.2.2 _ _ _ denotes_sharedPayload).2 ["enable_thinking"]).untouched⟩
  rintro (_ | _) container ck here found
  all_goals
    cases here
    cases found
    decide

/-- With no declared key a foreign spelling is left. -/
theorem undeclared_not_renamed : ¬∀ declared payload, RenamesExactly declared payload
    (ThinkingSwitch.renameThinkingSwitch declared payload) := by
  intro all
  have renamed := (all [] [("chat_template_kwargs", .obj [("thinking", .bool true)])]).renamed
  obtain ⟨ck', found, kwargs⟩ := renamed.top.kwargs (Eq.refl (some (Json.obj _)))
  have same : ck' = [("thinking", .bool true)] := (Json.obj.inj (Option.some.inj found)).symm
  have foreign : Foreign [] "thinking" := ⟨by decide, List.not_mem_nil⟩
  have absent := kwargs.foreign foreign
  rw [same] at absent
  cases absent

end Roadstead.ThinkingSwitch.Copies
