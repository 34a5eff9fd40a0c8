import Mathlib.Data.List.Nodup
import Roadstead.ThinkingSwitch

/-!
# What the rewrites of the switch change

A container that is stripped is `Stripped`: each of the three fields that can hold a switch or an
effort is what `cleared` leaves of it, and every other field is as it was.  What is reported is what
was `Gone`, and nothing is gone from what is left, so that a second rewrite finds nothing
(`stripThinkingSwitch_again`).  A rewrite of a container that `Settles` gives one of the payload and
its `extra_body` with the same properties, whatever it rewrites.
-/

namespace Roadstead.ThinkingSwitch

open Json (Fields)

/-! ### Fields that are filtered -/

theorem get?_filter (fields : Fields) (keep : String → Bool) (key : String) :
    Fields.get? (fields.filter fun field => keep field.1) key =
      if keep key then Fields.get? fields key else none := by
  by_cases kept : keep key = true
  · rw [if_pos kept, Fields.get?_filter_key _ kept]
  · rw [if_neg kept, Fields.get?, Option.map_eq_none_iff, List.find?_eq_none]
    intro field mem same
    have there := (List.mem_filter.mp mem).2
    rw [of_decide_eq_true same] at there
    exact kept there

variable {key : String} {fields : Fields}

theorem exists_mem_of_get? {value : Json}
    (found : Fields.get? fields key = some value) : (key, value) ∈ fields := by
  obtain ⟨field, here, rfl⟩ := Option.map_eq_some_iff.mp found
  have same : field.1 = key := by simpa using List.find?_some here
  rw [← same]
  exact List.mem_of_find?_eq_some here

theorem get?_isSome_iff :
    (Fields.get? fields key).isSome = true ↔ key ∈ fields.map Prod.fst := by
  rw [Fields.get?, Option.isSome_map, List.find?_isSome]
  simp

/-! ### What is left -/

/-- The keys that are gone are removed, and with them an object of which nothing is left. -/
def cleared (gone : Fields → String → Bool) : Option Json → Option Json
  | some (.obj fields) =>
      let rest := fields.filter fun field => !gone fields field.1
      if rest = fields then some (.obj fields) else if rest = [] then none else some (.obj rest)
  | value => value

def goneReasoning (obj : Fields) (key : String) : Bool :=
  decide (key = "effort") && isNoneEffort (obj.get "effort")

/-- The fields in which a switch or an effort stands. -/
def switchFields : List String := ["chat_template_kwargs", "reasoning_effort", "reasoning"]

/-- A container that is left without switches and without the effort `none`. -/
structure Stripped (container out : Fields) : Prop where
  kwargs : out.get? "chat_template_kwargs" =
    cleared goneKwarg (container.get? "chat_template_kwargs")
  effort : out.get? "reasoning_effort" =
    (container.get? "reasoning_effort").filter fun value => !isNoneEffort value
  reasoning : out.get? "reasoning" = cleared goneReasoning (container.get? "reasoning")
  others : ∀ key ∉ switchFields, key ≠ "extra_body" → out.get? key = container.get? key

/-- The value under a key of an object. -/
def inside : Option Json → String → Option Json
  | some (.obj fields), key => Fields.get? fields key
  | _, _ => none

/-- The value at a spot of a container. -/
def Spot.value? (container : Fields) : Spot → Option Json
  | .field key => container.get? key
  | .kwarg key => inside (container.get? "chat_template_kwargs") key
  | .reasoning key => inside (container.get? "reasoning") key

/-- Whether a value is one that goes: a switch at any value, or the effort `none`. -/
def Spot.goes : Spot → Json → Bool
  | .field key, value => decide (key = "reasoning_effort") && isNoneEffort value
  | .kwarg key, value => decide (key ∈ thinkingKwargNames) ||
      decide (key = "reasoning_effort") && isNoneEffort value
  | .reasoning key, value => decide (key = "effort") && isNoneEffort value

/-- The label under which it is reported. -/
def Spot.label (spot : Spot) (value : Json) : String :=
  match spot with
  | .kwarg key => if key ∈ thinkingKwargNames then valueLabel value else "none"
  | _ => "none"

/-- What goes from a container: where it stands, and how its value is written. -/
def Gone (container : Fields) (spot : Spot) (label : String) : Prop :=
  ∃ value, spot.value? container = some value ∧ spot.goes value = true ∧ label = spot.label value

/-- The objects that are rewritten from within. -/
def objects : List Spot :=
  [.field "chat_template_kwargs", .field "reasoning", .field "extra_body"]

section Container

variable {container out : Fields} {nested : Bool}

theorem get_eq_obj_iff :
    container.get key = .obj fields ↔ container.get? key = some (.obj fields) := by
  rw [Fields.get]
  cases container.get? key with
  | none | some value => simp

theorem get?_putBack_self (key : String) (rest : Fields) :
    (putBack out key rest).get? key = if rest = [] then none else some (.obj rest) := by
  unfold putBack
  split
  · exact Fields.get?_erase_self ..
  · exact Fields.get?_set_self ..

theorem get?_putBack_of_ne {key other : String} (ne : other ≠ key) (rest : Fields) :
    (putBack out key rest).get? other = out.get? other := by
  unfold putBack
  split
  · exact Fields.get?_erase_of_ne _ ne
  · exact Fields.get?_set_of_ne _ ne _

/-- A field that is no object. -/
def NoObject (container : Fields) (key : String) : Prop :=
  ∀ fields, container.get? key ≠ some (.obj fields)

theorem obj_or_noObject (container : Fields) (key : String) :
    (∃ fields : Fields, container.get? key = some (.obj fields)) ∨ NoObject container key := by
  by_cases object : ∃ fields : Fields, container.get? key = some (.obj fields)
  · exact .inl object
  · exact .inr fun fields found => object ⟨fields, found⟩

theorem cleared_of_noObject (other : NoObject container key)
    (gone : Fields → String → Bool) : cleared gone (container.get? key) = container.get? key := by
  unfold cleared
  split
  · next fields found => exact absurd found (other fields)
  · rfl

theorem inside_of_noObject (other : NoObject container key) (name : String) :
    inside (container.get? key) name = none := by
  unfold inside
  split
  · next found => exact absurd found (other _)
  · rfl

/-- The fields of what is left of an object. -/
theorem inside_cleared (gone : Fields → String → Bool) (fields : Fields) (key : String) :
    inside (cleared gone (some (.obj fields))) key =
      if gone fields key then none else Fields.get? fields key := by
  have filtered := get?_filter fields (fun key => !gone fields key) key
  simp only [Bool.not_eq_true', ← Bool.not_eq_true, ite_not] at filtered
  rw [← filtered, cleared]
  by_cases whole : (fields.filter fun field => !gone fields field.1) = fields
  · rw [if_pos whole, whole]
    rfl
  · rw [if_neg whole]
    split
    · next empty =>
        rw [empty]
        rfl
    · rfl

theorem inside_cleared_filter {gone : Fields → String → Bool} {goes : Json → Bool}
    (same : ∀ fields value, Fields.get? fields key = some value → gone fields key = goes value)
    (value : Option Json) :
    inside (cleared gone value) key = (inside value key).filter fun value => !goes value := by
  match value with
  | some (.obj fields) =>
      rw [inside_cleared, inside]
      cases there : Fields.get? fields key with
      | none => exact ite_self none
      | some value =>
          rw [same fields value there, Option.filter_some]
          cases goes value <;> rfl
  | none | some .null | some (.bool _) | some (.int _) | some (.float _) | some (.str _)
  | some (.arr _) => rfl

theorem stripKwargs_of_obj {ck : Fields}
    (kwargs : container.get? "chat_template_kwargs" = some (.obj ck)) :
    stripKwargs nested container =
      (if (ck.filter fun field => !goneKwarg ck field.1).length ≠ ck.length then
        putBack container "chat_template_kwargs" (ck.filter fun field => !goneKwarg ck field.1)
      else container, kwargFindings nested ck) := by
  rw [stripKwargs, get_eq_obj_iff.mpr kwargs]

theorem stripKwargs_of_noObject (other : NoObject container "chat_template_kwargs") :
    stripKwargs nested container = (container, []) := by
  unfold stripKwargs
  split
  · next ck found => exact absurd (get_eq_obj_iff.mp found) (other ck)
  · rfl

theorem stripReasoning_of_obj {obj : Fields}
    (reasoning : container.get? "reasoning" = some (.obj obj)) :
    stripReasoning nested container out =
      if isNoneEffort (obj.get "effort") then
        (putBack out "reasoning" (obj.erase "effort"), [⟨nested, .reasoning "effort", "none"⟩])
      else (out, []) := by
  rw [stripReasoning, get_eq_obj_iff.mpr reasoning]

theorem stripReasoning_of_noObject (other : NoObject container "reasoning") :
    stripReasoning nested container out = (out, []) := by
  unfold stripReasoning
  split
  · next obj found => exact absurd (get_eq_obj_iff.mp found) (other obj)
  · rfl

theorem filter_eq_iff_length {keep : String × Json → Bool} :
    fields.filter keep = fields ↔ (fields.filter keep).length = fields.length := by
  rw [List.filter_eq_self, List.length_filter_eq_length_iff]

theorem get?_stripKwargs (key : String) : (stripKwargs nested container).1.get? key =
    if key = "chat_template_kwargs" then cleared goneKwarg (container.get? "chat_template_kwargs")
    else container.get? key := by
  rcases obj_or_noObject container "chat_template_kwargs" with ⟨ck, kwargs⟩ | other
  · simp only [stripKwargs_of_obj kwargs, kwargs, cleared, ne_eq, ← filter_eq_iff_length]
    by_cases same : (ck.filter fun field => !goneKwarg ck field.1) = ck
    · simp only [same, not_true_eq_false, if_false, if_true]
      split
      · next here => rw [here, kwargs]
      · rfl
    · simp only [same, not_false_eq_true, if_true, if_false]
      split
      · next here => rw [here, get?_putBack_self]
      · next other => rw [get?_putBack_of_ne other]
  · rw [stripKwargs_of_noObject other, cleared_of_noObject other]
    split
    · next here => rw [here]
    · rfl

theorem get?_stripEffort (key : String) : (stripEffort nested container out).1.get? key =
    if key = "reasoning_effort" ∧ isNoneEffort (container.get "reasoning_effort") = true then none
    else out.get? key := by
  unfold stripEffort
  by_cases gone : isNoneEffort (container.get "reasoning_effort") = true
  · rw [if_pos gone]
    by_cases here : key = "reasoning_effort"
    · rw [if_pos ⟨here, gone⟩, here, Fields.get?_erase_self]
    · rw [if_neg fun both => here both.1, Fields.get?_erase_of_ne _ here]
  · rw [if_neg gone, if_neg fun both => gone both.2]

/-- Removing the effort of a `reasoning` is clearing it. -/
theorem erase_effort {obj : Fields} (gone : isNoneEffort (obj.get "effort") = true) :
    Fields.erase obj "effort" = obj.filter fun field => !goneReasoning obj field.1 := by
  simp [Fields.erase, goneReasoning, gone]

theorem erase_effort_ne {obj : Fields} (gone : isNoneEffort (obj.get "effort") = true) :
    Fields.erase obj "effort" ≠ obj := by
  intro same
  have none : Fields.get obj "effort" = .null := by
    rw [← same, Fields.get, Fields.get?_erase_self]
    rfl
  rw [none] at gone
  cases gone

theorem get?_stripReasoning (same : out.get? "reasoning" = container.get? "reasoning")
    (key : String) : (stripReasoning nested container out).1.get? key =
      if key = "reasoning" then cleared goneReasoning (container.get? "reasoning")
      else out.get? key := by
  rcases obj_or_noObject container "reasoning" with ⟨obj, reasoning⟩ | other
  · rw [stripReasoning_of_obj reasoning, reasoning, cleared]
    by_cases gone : isNoneEffort (Fields.get obj "effort") = true
    · rw [if_pos gone, ← erase_effort gone]
      simp only [erase_effort_ne gone, if_false]
      split
      · next here => rw [here, get?_putBack_self]
      · next other => rw [get?_putBack_of_ne other]
    · have whole : (obj.filter fun field => !goneReasoning obj field.1) = obj := by
        simp [goneReasoning, gone]
      rw [if_neg gone, whole]
      split
      · next here => rw [here, same, reasoning, if_pos rfl]
      · rfl
  · rw [stripReasoning_of_noObject other, cleared_of_noObject other]
    split
    · next here => rw [here, same]
    · rfl

theorem stripped_stripContainer (nested : Bool) (container : Fields) :
    Stripped container (stripContainer nested container).1 := by
  have kept : (stripEffort nested container (stripKwargs nested container).1).1.get? "reasoning" =
      container.get? "reasoning" := by
    rw [get?_stripEffort, if_neg (by simp), get?_stripKwargs, if_neg (by decide)]
  constructor
  case kwargs =>
    rw [stripContainer, get?_stripReasoning kept, if_neg (by decide), get?_stripEffort,
      if_neg (by simp), get?_stripKwargs, if_pos rfl]
  case effort =>
    rw [stripContainer, get?_stripReasoning kept, if_neg (by decide), get?_stripEffort,
      Fields.get]
    cases stated : container.get? "reasoning_effort" with
    | none =>
        rw [if_neg (by simp [isNoneEffort]), get?_stripKwargs, if_neg (by decide), stated]
        rfl
    | some value =>
        by_cases gone : isNoneEffort value = true
        · simp [Option.filter, gone]
        · rw [if_neg (by simp [gone]), get?_stripKwargs, if_neg (by decide), stated]
          simp [Option.filter, gone]
  case reasoning => rw [stripContainer, get?_stripReasoning kept, if_pos rfl]
  case others =>
    intro key other _
    simp only [switchFields, List.mem_cons, List.not_mem_nil, or_false, not_or] at other
    rw [stripContainer, get?_stripReasoning kept, if_neg other.2.2, get?_stripEffort,
      if_neg fun both => other.2.1 both.1, get?_stripKwargs, if_neg other.1]

/-- `extra_body` is left to the second rewrite. -/
theorem stripContainer_extra (nested : Bool) (container : Fields) :
    (stripContainer nested container).1.get? "extra_body" = container.get? "extra_body" := by
  have kept : (stripEffort nested container (stripKwargs nested container).1).1.get? "reasoning" =
      container.get? "reasoning" := by
    rw [get?_stripEffort, if_neg (by simp), get?_stripKwargs, if_neg (by decide)]
  rw [stripContainer, get?_stripReasoning kept, if_neg (by decide), get?_stripEffort,
    if_neg (by simp), get?_stripKwargs, if_neg (by decide)]

/-! ### What is reported -/

theorem mem_kwargFindings {ck : Fields} {f : Finding} : f ∈ kwargFindings nested ck ↔
    f.nested = nested ∧ ((∃ key value, key ∈ thinkingKwargNames ∧ ck.get? key = some value ∧
        f.spot = .kwarg key ∧ f.label = valueLabel value) ∨
      isNoneEffort (ck.get "reasoning_effort") = true ∧ f.spot = .kwarg "reasoning_effort" ∧
        f.label = "none") := by
  rw [kwargFindings, List.mem_append, List.mem_map]
  constructor
  · rintro (⟨key, mem, rfl⟩ | effort)
    · obtain ⟨there, name⟩ := List.mem_filter.mp mem
      obtain ⟨value, found⟩ := Option.isSome_iff_exists.mp (get?_isSome_iff.mpr there)
      refine ⟨rfl, .inl ⟨key, value, of_decide_eq_true name, found, rfl, ?_⟩⟩
      rw [Fields.get, found, Option.getD_some]
    · split at effort
      · next gone =>
          rw [List.mem_singleton] at effort
          subst effort
          exact ⟨rfl, .inr ⟨gone, rfl, rfl⟩⟩
      · cases effort
  · obtain ⟨nested', spot, label⟩ := f
    rintro ⟨rfl, ⟨key, value, name, found, rfl, rfl⟩ | ⟨gone, rfl, rfl⟩⟩
    · refine .inl ⟨key, List.mem_filter.mpr ⟨?_, decide_eq_true name⟩, ?_⟩
      · rw [← get?_isSome_iff, found]
        rfl
      · rw [Fields.get, found, Option.getD_some]
    · right
      rw [if_pos gone]
      exact List.mem_singleton_self _

theorem effort_isSome (effort : isNoneEffort (fields.get key) = true) :
    ∃ value, fields.get? key = some value ∧ isNoneEffort value = true := by
  cases there : fields.get? key with
  | none =>
      rw [Fields.get, there] at effort
      cases effort
  | some value =>
      rw [Fields.get, there] at effort
      exact ⟨value, rfl, effort⟩

theorem get_of_get? {value : Json}
    (there : fields.get? key = some value) : fields.get key = value := by
  rw [Fields.get, there, Option.getD_some]

/-- What is found in the template arguments is what goes from them. -/
theorem mem_stripKwargs_iff {f : Finding} :
    f ∈ (stripKwargs nested container).2 ↔
      f.nested = nested ∧ (∃ key, f.spot = .kwarg key) ∧ Gone container f.spot f.label := by
  obtain ⟨nested', spot, label⟩ := f
  rcases obj_or_noObject container "chat_template_kwargs" with ⟨ck, found⟩ | other
  · rw [stripKwargs_of_obj found, mem_kwargFindings]
    refine and_congr_right fun _ => ⟨?_, ?_⟩
    · rintro (⟨key, value, name, there, rfl, rfl⟩ | ⟨effort, rfl, rfl⟩)
      · refine ⟨⟨key, rfl⟩, value, ?_, ?_, ?_⟩
        · rw [Spot.value?, found, inside, there]
        · rw [Spot.goes, decide_eq_true name, Bool.true_or]
        · rw [Spot.label, if_pos name]
      · obtain ⟨value, there, off⟩ := effort_isSome effort
        refine ⟨⟨_, rfl⟩, value, ?_, ?_, ?_⟩
        · rw [Spot.value?, found, inside, there]
        · rw [Spot.goes, off, decide_eq_true rfl, Bool.and_self, Bool.or_true]
        · rw [Spot.label, if_neg (by decide)]
    · rintro ⟨⟨key, rfl⟩, value, there, goes, written⟩
      rw [Spot.value?, found, inside] at there
      rw [Spot.label] at written
      by_cases name : key ∈ thinkingKwargNames
      · exact .inl ⟨key, value, name, there, rfl, by rw [written, if_pos name]⟩
      · rw [Spot.goes, decide_eq_false name, Bool.false_or, Bool.and_eq_true,
          decide_eq_true_eq] at goes
        obtain ⟨rfl, off⟩ := goes
        exact .inr ⟨by rw [get_of_get? there, off], rfl, by rw [written, if_neg name]⟩
  · rw [stripKwargs_of_noObject other]
    refine iff_of_false List.not_mem_nil ?_
    rintro ⟨-, ⟨key, rfl⟩, value, there, -⟩
    rw [Spot.value?, inside_of_noObject other] at there
    cases there

/-- An effort that is read in one place is found there when it goes. -/
theorem mem_effort_iff {f : Finding} {spot : String → Spot} {effort : String}
    (read : ∀ key, (spot key).value? container = fields.get? key)
    (goes : ∀ key value, (spot key).goes value = (decide (key = effort) && isNoneEffort value))
    (label : ∀ key value, (spot key).label value = "none") :
    f ∈ (if isNoneEffort (fields.get effort) = true then [⟨nested, spot effort, "none"⟩] else []) ↔
      f.nested = nested ∧ (∃ key, f.spot = spot key) ∧ Gone container f.spot f.label := by
  obtain ⟨nested', place, written⟩ := f
  split
  · next off =>
      obtain ⟨value, there, gone⟩ := effort_isSome off
      simp only [List.mem_singleton, Finding.mk.injEq]
      refine and_congr_right fun _ => ⟨?_, ?_⟩
      · rintro ⟨rfl, rfl⟩
        refine ⟨⟨_, rfl⟩, value, (read _).trans there, ?_, (label _ _).symm⟩
        rw [goes, gone, decide_eq_true rfl, Bool.and_self]
      · rintro ⟨⟨key, rfl⟩, value', -, gone', rfl⟩
        rw [goes, Bool.and_eq_true, decide_eq_true_eq] at gone'
        exact ⟨congrArg _ gone'.1, label _ _⟩
  · next kept =>
      refine iff_of_false List.not_mem_nil ?_
      rintro ⟨-, ⟨key, rfl⟩, value, there, gone, -⟩
      rw [goes, Bool.and_eq_true, decide_eq_true_eq] at gone
      obtain ⟨rfl, off⟩ := gone
      exact kept (by rw [get_of_get? ((read _).symm.trans there), off])

theorem mem_stripEffort_iff {f : Finding} :
    f ∈ (stripEffort nested container out).2 ↔
      f.nested = nested ∧ (∃ key, f.spot = .field key) ∧ Gone container f.spot f.label := by
  have read (key : String) : (Spot.field key).value? container = container.get? key := rfl
  rw [← mem_effort_iff read (fun _ _ => rfl) fun _ _ => rfl, stripEffort]
  split <;> rfl

theorem mem_stripReasoning_iff {f : Finding} :
    f ∈ (stripReasoning nested container out).2 ↔
      f.nested = nested ∧ (∃ key, f.spot = .reasoning key) ∧ Gone container f.spot f.label := by
  rcases obj_or_noObject container "reasoning" with ⟨obj, found⟩ | other
  · have read (key : String) : (Spot.reasoning key).value? container = obj.get? key := by
      rw [Spot.value?, found, inside]
    rw [← mem_effort_iff read (fun _ _ => rfl) fun _ _ => rfl, stripReasoning_of_obj found]
    split <;> rfl
  · rw [stripReasoning_of_noObject other]
    refine iff_of_false List.not_mem_nil ?_
    rintro ⟨-, ⟨key, same⟩, value, there, -⟩
    rw [same, Spot.value?, inside_of_noObject other] at there
    cases there

/-- The report of a container is what goes from it. -/
theorem mem_stripContainer_iff {f : Finding} :
    f ∈ (stripContainer nested container).2 ↔
      f.nested = nested ∧ Gone container f.spot f.label := by
  rw [stripContainer, List.mem_append, List.mem_append, mem_stripKwargs_iff, mem_stripEffort_iff,
    mem_stripReasoning_iff]
  constructor
  · rintro ((⟨same, -, gone⟩ | ⟨same, -, gone⟩) | ⟨same, -, gone⟩) <;> exact ⟨same, gone⟩
  · rintro ⟨same, gone⟩
    cases spot : f.spot with
    | field key => exact .inl (.inr ⟨same, ⟨key, rfl⟩, spot ▸ gone⟩)
    | kwarg key => exact .inl (.inl ⟨same, ⟨key, rfl⟩, spot ▸ gone⟩)
    | reasoning key => exact .inr ⟨same, ⟨key, rfl⟩, spot ▸ gone⟩

/-- Nothing is found in template arguments of which every key is kept. -/
theorem kwargFindings_eq_nil_iff {ck : Fields} :
    kwargFindings nested ck = [] ↔ (ck.filter fun field => !goneKwarg ck field.1) = ck := by
  rw [List.eq_nil_iff_forall_not_mem, List.filter_eq_self]
  constructor
  · intro none field mem
    by_contra gone
    rw [Bool.not_eq_true, Bool.not_eq_false', goneKwarg, Bool.or_eq_true, Bool.and_eq_true,
      decide_eq_true_eq] at gone
    rcases gone with name | ⟨-, off⟩
    · obtain ⟨value, there⟩ := Option.isSome_iff_exists.mp
        (get?_isSome_iff.mpr (List.mem_map_of_mem mem))
      exact none ⟨nested, .kwarg field.1, valueLabel value⟩
        (mem_kwargFindings.mpr ⟨rfl, .inl ⟨_, _, name, there, rfl, rfl⟩⟩)
    · exact none ⟨nested, .kwarg "reasoning_effort", "none"⟩
        (mem_kwargFindings.mpr ⟨rfl, .inr ⟨off, rfl, rfl⟩⟩)
  · intro kept f mem
    have gone {key : String} {value : Json} (there : ck.get? key = some value) :
        goneKwarg ck key = false := by
      have mem := kept _ (exists_mem_of_get? there)
      rwa [Bool.not_eq_true'] at mem
    obtain ⟨-, ⟨key, value, name, there, -⟩ | ⟨off, -⟩⟩ := mem_kwargFindings.mp mem
    · have stays := gone there
      rw [goneKwarg, decide_eq_true name, Bool.true_or] at stays
      cases stays
    · obtain ⟨value, there, -⟩ := effort_isSome off
      have stays := gone there
      rw [goneKwarg, off, decide_eq_true rfl, Bool.and_self, Bool.or_true] at stays
      cases stays

/-- Where nothing is reported, the container is what it was. -/
theorem stripContainer_same (quiet : (stripContainer nested container).2 = []) :
    (stripContainer nested container).1 = container := by
  rw [stripContainer, List.append_eq_nil_iff, List.append_eq_nil_iff] at quiet
  obtain ⟨⟨kwargs, effort⟩, reasoning⟩ := quiet
  have one : (stripKwargs nested container).1 = container := by
    rcases obj_or_noObject container "chat_template_kwargs" with ⟨ck, found⟩ | other
    · rw [stripKwargs_of_obj found] at kwargs ⊢
      simp only [kwargFindings_eq_nil_iff.mp kwargs, ne_eq, not_true_eq_false, if_false]
    · rw [stripKwargs_of_noObject other]
  have two : ∀ out, (stripEffort nested container out).2 = [] →
      (stripEffort nested container out).1 = out := by
    intro out quiet
    unfold stripEffort at quiet ⊢
    split at quiet
    · cases quiet
    · next kept => rw [if_neg kept]
  have three : ∀ out, (stripReasoning nested container out).2 = [] →
      (stripReasoning nested container out).1 = out := by
    intro out quiet
    rcases obj_or_noObject container "reasoning" with ⟨obj, found⟩ | other
    · rw [stripReasoning_of_obj found] at quiet ⊢
      split at quiet
      · cases quiet
      · next kept => rw [if_neg kept]
    · rw [stripReasoning_of_noObject other]
  rw [stripContainer, three _ reasoning, two _ effort, one]

/-! ### Nothing is left to find -/

/-- What is left at a spot is what stood there, unless it goes. -/
theorem Stripped.value? (stripped : Stripped container out) {spot : Spot} (kept : spot ∉ objects) :
    spot.value? out = (spot.value? container).filter fun value => !spot.goes value := by
  cases spot with
  | kwarg key =>
      rw [Spot.value?, Spot.value?, stripped.kwargs]
      refine inside_cleared_filter (fun fields value there => ?_) _
      rw [goneKwarg, Spot.goes]
      by_cases here : key = "reasoning_effort"
      · rw [← here, get_of_get? there]
      · rw [decide_eq_false here, Bool.false_and, Bool.false_and]
  | reasoning key =>
      rw [Spot.value?, Spot.value?, stripped.reasoning]
      refine inside_cleared_filter (fun fields value there => ?_) _
      rw [goneReasoning, Spot.goes]
      by_cases here : key = "effort"
      · rw [← here, get_of_get? there]
      · rw [decide_eq_false here, Bool.false_and, Bool.false_and]
  | field key =>
      rw [Spot.value?, Spot.value?]
      by_cases here : key = "reasoning_effort"
      · rw [here, stripped.effort]
        simp only [Spot.goes, decide_true, Bool.true_and]
      · simp only [objects, List.mem_cons, Spot.field.injEq, List.not_mem_nil, or_false,
          not_or] at kept
        have other : key ∉ switchFields := by
          simp only [switchFields, List.mem_cons, List.not_mem_nil, or_false, not_or]
          exact ⟨kept.1, here, kept.2.1⟩
        rw [stripped.others key other kept.2.2]
        simp only [Spot.goes, here, decide_false, Bool.false_and, Bool.not_false]
        cases container.get? key <;> rfl

theorem Spot.not_mem_objects {spot : Spot} {value : Json} (goes : spot.goes value = true) :
    spot ∉ objects := by
  intro mem
  simp only [objects, List.mem_cons, List.not_mem_nil, or_false] at mem
  rcases mem with rfl | rfl | rfl <;> cases goes

/-- Nothing goes from what is left. -/
theorem Stripped.not_gone (stripped : Stripped container out) (spot : Spot) (label : String) :
    ¬Gone out spot label := by
  rintro ⟨value, there, goes, -⟩
  rw [stripped.value? (Spot.not_mem_objects goes), Option.filter_eq_some_iff] at there
  rw [goes] at there
  exact Bool.noConfusion there.2

/-- What goes is what was there and is there no more, the objects themselves apart. -/
theorem Stripped.gone_iff (stripped : Stripped container out) (spot : Spot) (label : String) :
    Gone container spot label ↔ spot ∉ objects ∧ ∃ value, spot.value? container = some value ∧
      spot.value? out = none ∧ label = spot.label value := by
  constructor
  · rintro ⟨value, there, goes, written⟩
    have kept := Spot.not_mem_objects goes
    refine ⟨kept, value, there, ?_, written⟩
    rw [stripped.value? kept, there, Option.filter_some, goes]
    rfl
  · rintro ⟨kept, value, there, gone, written⟩
    refine ⟨value, there, ?_, written⟩
    rw [stripped.value? kept, there, Option.filter_some] at gone
    by_contra stays
    rw [Bool.eq_false_iff.mpr stays] at gone
    cases gone

end Container

/-! ### Both containers -/

section Both

variable {F : Type} {rewrite : Bool → Fields → Fields × List F}

/-- A rewrite that leaves `extra_body` alone, that changes nothing where it reports nothing, and
that finds nothing in what it has rewritten, whatever its `extra_body` is by then. -/
structure Settles (rewrite : Bool → Fields → Fields × List F) : Prop where
  extra (nested : Bool) (container : Fields) :
    (rewrite nested container).1.get? "extra_body" = container.get? "extra_body"
  quiet {nested : Bool} {container : Fields} :
    (rewrite nested container).2 = [] → (rewrite nested container).1 = container
  again {nested : Bool} {container out : Fields} :
    (∀ key ≠ "extra_body", out.get? key = (rewrite nested container).1.get? key) →
      (rewrite nested out).2 = []

variable (settles : Settles rewrite)

/-- What becomes of an `extra_body`. -/
def rewrittenExtra (rewrite : Bool → Fields → Fields × List F) : Option Json → Option Json
  | some (.obj eb) => some (.obj (rewrite true eb).1)
  | value => value

theorem bothContainers_of_obj (payload : Fields) {eb : Fields}
    (found : (rewrite false payload).1.get? "extra_body" = some (.obj eb)) :
    bothContainers rewrite payload =
      (if (rewrite true eb).2.isEmpty then (rewrite false payload).1
        else (rewrite false payload).1.set "extra_body" (.obj (rewrite true eb).1),
        (rewrite false payload).2 ++ (rewrite true eb).2) := by
  simp only [bothContainers, get_eq_obj_iff.mpr found]

theorem bothContainers_of_noObject (payload : Fields)
    (other : NoObject (rewrite false payload).1 "extra_body") :
    bothContainers rewrite payload = rewrite false payload := by
  simp only [bothContainers]
  split
  · next eb found => exact absurd (get_eq_obj_iff.mp found) (other eb)
  · rfl

theorem get?_bothContainers (payload : Fields) (other : key ≠ "extra_body") :
    (bothContainers rewrite payload).1.get? key = (rewrite false payload).1.get? key := by
  rcases obj_or_noObject (rewrite false payload).1 "extra_body" with ⟨eb, found⟩ | plain
  · rw [bothContainers_of_obj payload found]
    simp only
    split
    · rfl
    · exact Fields.get?_set_of_ne _ other _
  · rw [bothContainers_of_noObject payload plain]

include settles

theorem get?_extra_bothContainers (payload : Fields) :
    (bothContainers rewrite payload).1.get? "extra_body" =
      rewrittenExtra rewrite (payload.get? "extra_body") := by
  rw [← settles.extra false payload]
  rcases obj_or_noObject (rewrite false payload).1 "extra_body" with ⟨eb, found⟩ | plain
  · rw [bothContainers_of_obj payload found, found, rewrittenExtra]
    simp only
    split
    · next none => rw [found, settles.quiet (List.isEmpty_iff.mp none)]
    · exact Fields.get?_set_self ..
  · rw [bothContainers_of_noObject payload plain]
    unfold rewrittenExtra
    split
    · next found => exact absurd found (plain _)
    · rfl

theorem mem_bothContainers_iff (payload : Fields) {f : F} :
    f ∈ (bothContainers rewrite payload).2 ↔ f ∈ (rewrite false payload).2 ∨
      ∃ eb, payload.get? "extra_body" = some (.obj eb) ∧ f ∈ (rewrite true eb).2 := by
  rw [← settles.extra false payload]
  rcases obj_or_noObject (rewrite false payload).1 "extra_body" with ⟨eb, found⟩ | plain
  · rw [bothContainers_of_obj payload found, List.mem_append]
    refine or_congr_right ⟨fun mem => ⟨eb, found, mem⟩, ?_⟩
    rintro ⟨eb', found', mem⟩
    rw [found, Option.some.injEq, Json.obj.injEq] at found'
    rwa [found']
  · rw [bothContainers_of_noObject payload plain]
    exact ⟨.inl, fun here => here.resolve_right fun ⟨eb, found, _⟩ => plain eb found⟩

/-- Where nothing is found, the payload is what it was. -/
theorem bothContainers_quiet {payload : Fields} (quiet : (bothContainers rewrite payload).2 = []) :
    (bothContainers rewrite payload).1 = payload := by
  rcases obj_or_noObject (rewrite false payload).1 "extra_body" with ⟨eb, found⟩ | plain
  · rw [bothContainers_of_obj payload found] at quiet ⊢
    obtain ⟨top, extra⟩ := List.append_eq_nil_iff.mp quiet
    simp only [extra, List.isEmpty_nil, if_true]
    exact settles.quiet top
  · rw [bothContainers_of_noObject payload plain] at quiet ⊢
    exact settles.quiet quiet

/-- A second rewrite finds nothing. -/
theorem bothContainers_again (payload : Fields) :
    (bothContainers rewrite (bothContainers rewrite payload).1).2 = [] := by
  rw [List.eq_nil_iff_forall_not_mem]
  intro f mem
  rcases (mem_bothContainers_iff settles _).mp mem with top | ⟨eb, found, extra⟩
  · rw [settles.again fun key other => get?_bothContainers payload other] at top
    cases top
  · rw [get?_extra_bothContainers settles] at found
    unfold rewrittenExtra at found
    split at found
    · next before _ =>
        rw [Option.some.injEq, Json.obj.injEq] at found
        rw [← found, settles.again fun _ _ => rfl] at extra
        cases extra
    · next plain => exact plain _ found

end Both

/-! ### The payload -/

theorem settles_stripContainer : Settles stripContainer where
  extra := stripContainer_extra
  quiet := stripContainer_same
  again {nested container out} same := by
    have stripped := stripped_stripContainer nested container
    have left : Stripped container out := by
      constructor
      case kwargs => rw [same _ (by decide), stripped.kwargs]
      case effort => rw [same _ (by decide), stripped.effort]
      case reasoning => rw [same _ (by decide), stripped.reasoning]
      case others =>
        intro key other plain
        rw [same key plain, stripped.others key other plain]
    rw [List.eq_nil_iff_forall_not_mem]
    exact fun f mem => left.not_gone _ _ (mem_stripContainer_iff.mp mem).2

/-- The payload, or its `extra_body`. -/
def container? (payload : Fields) (nested : Bool) : Option Fields :=
  if nested then (payload.get? "extra_body").bind Json.asObj? else some payload

theorem container?_nested {payload container : Fields} :
    container? payload true = some container ↔ payload.get? "extra_body" = some (.obj container) := by
  simp only [container?, if_true, Option.bind_eq_some_iff, Json.asObj?_eq_some]
  exact ⟨fun ⟨_, found, same⟩ => same ▸ found, fun found => ⟨_, found, rfl⟩⟩

/-- Both containers, stripped; an `extra_body` that is no object is left. -/
structure BothStripped (payload out : Fields) : Prop where
  top : Stripped payload out
  extra {eb : Fields} : payload.get? "extra_body" = some (.obj eb) →
    ∃ eb' : Fields, out.get? "extra_body" = some (.obj eb') ∧ Stripped eb eb' ∧
      eb'.get? "extra_body" = eb.get? "extra_body"
  plain : NoObject payload "extra_body" → out.get? "extra_body" = payload.get? "extra_body"

/-- A finding of which `payload` has the value and `out` has none. -/
def Removed (payload out : Fields) (f : Finding) : Prop :=
  f.spot ∉ objects ∧ ∃ container left, container? payload f.nested = some container ∧
    container? out f.nested = some left ∧ ∃ value, f.spot.value? container = some value ∧
      f.spot.value? left = none ∧ f.label = f.spot.label value

theorem bothStripped (payload : Fields) : BothStripped payload (stripThinkingSwitch payload).1 := by
  have whole := get?_extra_bothContainers settles_stripContainer payload
  constructor
  case top =>
    have stripped := stripped_stripContainer false payload
    have same {key : String} (other : key ≠ "extra_body") :
        (stripThinkingSwitch payload).1.get? key = (stripContainer false payload).1.get? key :=
      get?_bothContainers payload other
    constructor
    case kwargs => rw [same (by decide), stripped.kwargs]
    case effort => rw [same (by decide), stripped.effort]
    case reasoning => rw [same (by decide), stripped.reasoning]
    case others =>
      intro key other plain
      rw [same plain, stripped.others key other plain]
  case extra =>
    intro eb found
    rw [found, rewrittenExtra] at whole
    exact ⟨_, whole, stripped_stripContainer true eb, stripContainer_extra true eb⟩
  case plain =>
    intro other
    rw [stripThinkingSwitch, whole]
    unfold rewrittenExtra
    split
    · next found => exact absurd found (other _)
    · rfl

/-- What is reported is what is removed. -/
theorem mem_stripThinkingSwitch_iff (payload : Fields) (f : Finding) :
    f ∈ (stripThinkingSwitch payload).2 ↔ Removed payload (stripThinkingSwitch payload).1 f := by
  have both := bothStripped payload
  rw [stripThinkingSwitch, mem_bothContainers_iff settles_stripContainer, mem_stripContainer_iff,
    ← stripThinkingSwitch]
  obtain ⟨nested, spot, label⟩ := f
  cases nested with
  | false =>
      constructor
      · rintro (⟨-, gone⟩ | ⟨eb, -, mem⟩)
        · obtain ⟨kept, removed⟩ := (both.top.gone_iff _ _).mp gone
          exact ⟨kept, payload, _, rfl, rfl, removed⟩
        · cases (mem_stripContainer_iff.mp mem).1
      · rintro ⟨kept, container, left, here, there, removed⟩
        cases here
        cases there
        exact .inl ⟨rfl, (both.top.gone_iff _ _).mpr ⟨kept, removed⟩⟩
  | true =>
      constructor
      · rintro (⟨same, -⟩ | ⟨eb, found, mem⟩)
        · cases same
        · obtain ⟨eb', found', stripped, -⟩ := both.extra found
          obtain ⟨kept, removed⟩ := (stripped.gone_iff _ _).mp (mem_stripContainer_iff.mp mem).2
          exact ⟨kept, eb, eb', container?_nested.mpr found, container?_nested.mpr found', removed⟩
      · rintro ⟨kept, eb, left, here, there, removed⟩
        have found := container?_nested.mp here
        obtain ⟨eb', found', stripped, -⟩ := both.extra found
        have same := found'.symm.trans (container?_nested.mp there)
        rw [Option.some.injEq, Json.obj.injEq] at same
        subst same
        exact .inr ⟨eb, found, mem_stripContainer_iff.mpr
          ⟨rfl, (stripped.gone_iff _ _).mpr ⟨kept, removed⟩⟩⟩

/-- The template arguments of both containers have each key once, as a `dict` has. -/
def UniqueKwargs (payload : Fields) : Prop :=
  ∀ nested container ck, container? payload nested = some container →
    Fields.get? container "chat_template_kwargs" = some (.obj ck) → (ck.map Prod.fst).Nodup

theorem nodup_stripContainer {nested : Bool} {container : Fields}
    (unique : ∀ ck, container.get? "chat_template_kwargs" = some (.obj ck) →
      (ck.map Prod.fst).Nodup) : (stripContainer nested container).2.Nodup := by
  have kwargs : (stripKwargs nested container).2.Nodup := by
    rcases obj_or_noObject container "chat_template_kwargs" with ⟨ck, found⟩ | other
    · rw [stripKwargs_of_obj found, kwargFindings]
      refine List.Nodup.append ?_ ?_ ?_
      · refine ((unique ck found).filter _).map fun key key' same => ?_
        exact Spot.kwarg.inj (Finding.mk.inj same).2.1
      · split
        · exact List.nodup_singleton _
        · exact List.nodup_nil
      · intro f switch effort
        obtain ⟨key, mem, rfl⟩ := List.mem_map.mp switch
        have name := of_decide_eq_true (List.mem_filter.mp mem).2
        split at effort
        · rw [List.mem_singleton, Finding.mk.injEq, Spot.kwarg.injEq] at effort
          rw [effort.2.1] at name
          exact absurd name (by decide)
        · cases effort
    · rw [stripKwargs_of_noObject other]
      exact List.nodup_nil
  have effort (out : Fields) : (stripEffort nested container out).2.Nodup := by
    unfold stripEffort
    split
    · exact List.nodup_singleton _
    · exact List.nodup_nil
  have reasoning (out : Fields) : (stripReasoning nested container out).2.Nodup := by
    rcases obj_or_noObject container "reasoning" with ⟨obj, found⟩ | other
    · rw [stripReasoning_of_obj found]
      split
      · exact List.nodup_singleton _
      · exact List.nodup_nil
    · rw [stripReasoning_of_noObject other]
      exact List.nodup_nil
  refine List.Nodup.append (List.Nodup.append kwargs (effort _) ?_) (reasoning _) ?_
  · intro f here there
    obtain ⟨-, ⟨_, spot⟩, -⟩ := mem_stripKwargs_iff.mp here
    obtain ⟨-, ⟨_, spot'⟩, -⟩ := mem_stripEffort_iff.mp there
    cases spot.symm.trans spot'
  · intro f here there
    obtain ⟨-, ⟨_, spot'⟩, -⟩ := mem_stripReasoning_iff.mp there
    rcases List.mem_append.mp here with here | here
    · obtain ⟨-, ⟨_, spot⟩, -⟩ := mem_stripKwargs_iff.mp here
      cases spot.symm.trans spot'
    · obtain ⟨-, ⟨_, spot⟩, -⟩ := mem_stripEffort_iff.mp here
      cases spot.symm.trans spot'

/-- Nothing is reported twice. -/
theorem nodup_stripThinkingSwitch {payload : Fields} (unique : UniqueKwargs payload) :
    (stripThinkingSwitch payload).2.Nodup := by
  have top : (stripContainer false payload).2.Nodup :=
    nodup_stripContainer fun ck found => unique false payload ck rfl found
  rw [stripThinkingSwitch]
  rcases obj_or_noObject (stripContainer false payload).1 "extra_body" with ⟨eb, found⟩ | plain
  · rw [bothContainers_of_obj payload found]
    rw [stripContainer_extra] at found
    refine top.append ?_ ?_
    · exact nodup_stripContainer fun ck => unique true eb ck (container?_nested.mpr found)
    · intro f here there
      have flag := (mem_stripContainer_iff.mp here).1
      rw [(mem_stripContainer_iff.mp there).1] at flag
      cases flag
  · rwa [bothContainers_of_noObject payload plain]

/-- A second strip finds nothing, and returns what it was given. -/
theorem stripThinkingSwitch_again (payload : Fields) :
    stripThinkingSwitch (stripThinkingSwitch payload).1 = ((stripThinkingSwitch payload).1, []) :=
  have none := bothContainers_again settles_stripContainer payload
  Prod.ext (bothContainers_quiet settles_stripContainer none) none

end Roadstead.ThinkingSwitch
