import Roadstead.ThinkingSwitch.Exact

/-!
# What the renaming of the switch changes

A container that is renamed is `Renamed`: only its template arguments differ, and `RenamedKwargs`
says which value each of them has then.  A foreign spelling is gone, a declared key that the caller
sent is left, and a missing declared key is written where the foreign spellings agree on a value.

The keys have to be declared: with none declared the source returns the payload as it is.
-/

namespace Roadstead.ThinkingSwitch

open Json (Fields)

/-- A known spelling that is not declared. -/
def Foreign (declared : List String) (key : String) : Prop :=
  key ∈ thinkingKwargNames ∧ key ∉ declared

/-- There are foreign spellings, and each of them means `b`. -/
def Agrees (declared : List String) (ck : Fields) (b : Bool) : Prop :=
  (∃ key, Foreign declared key ∧ (ck.get? key).isSome = true) ∧
    ∀ key value, Foreign declared key → ck.get? key = some value → asSwitchValue value = some b

/-- Template arguments whose foreign spellings are renamed. -/
structure RenamedKwargs (declared : List String) (ck ck' : Fields) : Prop where
  foreign {key : String} : Foreign declared key → ck'.get? key = none
  sent {key : String} : key ∈ declared → (ck.get? key).isSome = true → ck'.get? key = ck.get? key
  missing {key : String} (value : Json) : key ∈ declared → ck.get? key = none →
    (ck'.get? key = some value ↔ ∃ b, value = .bool b ∧ Agrees declared ck b)
  others {key : String} : key ∉ thinkingKwargNames → key ∉ declared → ck'.get? key = ck.get? key

/-- A container whose template arguments are renamed. -/
structure Renamed (declared : List String) (container out : Fields) : Prop where
  kwargs {ck : Fields} : container.get? "chat_template_kwargs" = some (.obj ck) →
    ∃ ck' : Fields, out.get? "chat_template_kwargs" = some (.obj ck') ∧ RenamedKwargs declared ck ck'
  plain : NoObject container "chat_template_kwargs" →
    out.get? "chat_template_kwargs" = container.get? "chat_template_kwargs"
  others {key : String} : key ≠ "chat_template_kwargs" → key ≠ "extra_body" →
    out.get? key = container.get? key

section Container

variable {declared : List String} {ck container out : Fields} {nested : Bool}

/-! ### The value that is carried -/

theorem mem_foreignKeys {key : String} :
    key ∈ foreignKeys declared ck ↔ Foreign declared key ∧ (ck.get? key).isSome = true := by
  rw [foreignKeys, List.mem_filter, Bool.and_eq_true, decide_eq_true_eq, Fields.has, Foreign]
  tauto

theorem agreedValue_eq_some_iff {foreign : List String} {b : Bool} :
    agreedValue ck foreign = some b ↔
      foreign ≠ [] ∧ ∀ key ∈ foreign, asSwitchValue (ck.get key) = some b := by
  cases foreign with
  | nil => simp [agreedValue, agreed]
  | cons key keys =>
      rw [agreedValue, List.map_cons]
      cases first : asSwitchValue (ck.get key) with
      | none => simp [agreed, first]
      | some value =>
          rw [agreed]
          simp only [List.all_map, List.all_eq_true, Function.comp_apply, decide_eq_true_eq]
          by_cases all : ∀ other ∈ keys, asSwitchValue (ck.get other) = some value
          · rw [if_pos all]
            simp only [Option.some.injEq, ne_eq, reduceCtorEq, not_false_eq_true, List.mem_cons,
              forall_eq_or_imp, first, true_and]
            exact ⟨fun same => ⟨same, same ▸ all⟩, fun both => both.1⟩
          · rw [if_neg all]
            simp only [reduceCtorEq, ne_eq, not_false_eq_true, List.mem_cons, forall_eq_or_imp,
              first, true_and, Option.some.injEq, false_iff]
            rintro ⟨rfl, rest⟩
            exact all rest

/-- The agreed value is what all foreign spellings mean. -/
theorem agreedValue_iff_agrees {b : Bool} :
    agreedValue ck (foreignKeys declared ck) = some b ↔ Agrees declared ck b := by
  rw [agreedValue_eq_some_iff, Agrees, ne_eq, List.eq_nil_iff_forall_not_mem, not_forall]
  simp only [not_not, mem_foreignKeys]
  refine and_congr_right fun _ => ⟨fun all key value foreign there => ?_, fun all key both => ?_⟩
  · rw [← get_of_get? there]
    exact all key ⟨foreign, by rw [there]; rfl⟩
  · obtain ⟨value, there⟩ := Option.isSome_iff_exists.mp both.2
    rw [get_of_get? there]
    exact all key value both.1 there

/-- The declared keys that are missing are written, the others are left. -/
theorem get?_land (value : Bool) (key : String) : (land declared value ck).1.get? key =
    if key ∈ declared then some ((ck.get? key).getD (.bool value)) else ck.get? key := by
  have first : (land declared value ck).1 = declared.foldl
      (fun fields key => if fields.has key then fields else fields.set key (.bool value)) ck :=
    (List.foldl_hom Prod.fst fun done key => by split <;> rfl).symm
  rw [first, Fields.get?_setMissing]

/-! ### One container -/

/-- The template arguments as `_rename_container` leaves them. -/
def renamedKwargs (declared : List String) (ck : Fields) : Fields :=
  let rest := ck.filter fun field => field.1 ∉ foreignKeys declared ck
  match agreedValue ck (foreignKeys declared ck) with
  | some value => (land declared value rest).1
  | none => rest

theorem renameContainer_of_obj (found : container.get? "chat_template_kwargs" = some (.obj ck))
    (foreign : foreignKeys declared ck ≠ []) :
    (renameContainer declared nested container).1 =
        container.set "chat_template_kwargs" (.obj (renamedKwargs declared ck)) ∧
      (renameContainer declared nested container).2 ≠ [] := by
  simp only [renameContainer, get_eq_obj_iff.mpr found, if_neg foreign, renamedKwargs]
  cases agreedValue ck (foreignKeys declared ck) <;> exact ⟨rfl, List.cons_ne_nil _ _⟩

theorem renameContainer_of_none (found : container.get? "chat_template_kwargs" = some (.obj ck))
    (foreign : foreignKeys declared ck = []) :
    renameContainer declared nested container = (container, []) := by
  simp only [renameContainer, get_eq_obj_iff.mpr found, if_pos foreign]

theorem renameContainer_of_noObject (plain : NoObject container "chat_template_kwargs") :
    renameContainer declared nested container = (container, []) := by
  unfold renameContainer
  split
  · next ck found => exact absurd (get_eq_obj_iff.mp found) (plain ck)
  · rfl

/-- What the renaming leaves under a key: the value of a key that is not foreign, and on a
missing declared key the value that the foreign ones agree on. -/
theorem get?_renamedKwargs (key : String) : (renamedKwargs declared ck).get? key =
    if key ∈ foreignKeys declared ck then none
    else if key ∈ declared then
      (ck.get? key).or ((agreedValue ck (foreignKeys declared ck)).map .bool)
    else ck.get? key := by
  have rest := get?_filter ck (fun key => decide (key ∉ foreignKeys declared ck)) key
  simp only [decide_eq_true_eq, ite_not] at rest
  have apart (there : key ∈ foreignKeys declared ck) : key ∉ declared :=
    (mem_foreignKeys.mp there).1.2
  by_cases there : key ∈ foreignKeys declared ck
  · rw [if_pos there] at rest ⊢
    simp only [renamedKwargs]
    split
    · rw [get?_land, if_neg (apart there), rest]
    · exact rest
  · rw [if_neg there] at rest ⊢
    simp only [renamedKwargs]
    split
    · next value agreed =>
        rw [get?_land, rest, agreed]
        split
        · cases ck.get? key <;> rfl
        · rfl
    · next agreed =>
        rw [rest, agreed, Option.map_none, Option.or_none, ite_self]

theorem renamedKwargs_spec : RenamedKwargs declared ck (renamedKwargs declared ck) := by
  constructor
  case foreign =>
    intro key foreign
    rw [get?_renamedKwargs, if_neg foreign.2]
    by_cases there : (ck.get? key).isSome = true
    · rw [if_pos (mem_foreignKeys.mpr ⟨foreign, there⟩)]
    · rw [Bool.not_eq_true, Option.isSome_eq_false_iff, Option.isNone_iff_eq_none] at there
      rw [there, ite_self]
  case sent =>
    intro key mem there
    obtain ⟨value, found⟩ := Option.isSome_iff_exists.mp there
    rw [get?_renamedKwargs, if_neg fun foreign => (mem_foreignKeys.mp foreign).1.2 mem, if_pos mem,
      found, Option.some_or]
  case missing =>
    intro key value mem absent
    rw [get?_renamedKwargs, if_neg fun foreign => (mem_foreignKeys.mp foreign).1.2 mem, if_pos mem,
      absent, Option.none_or, Option.map_eq_some_iff]
    simp only [agreedValue_iff_agrees]
    exact exists_congr fun b => ⟨fun both => ⟨both.2.symm, both.1⟩, fun both => ⟨both.2, both.1.symm⟩⟩
  case others =>
    intro key name undeclared
    rw [get?_renamedKwargs, if_neg fun foreign => name (mem_foreignKeys.mp foreign).1.1,
      if_neg undeclared]

/-- Where nothing is foreign, the template arguments are as they were. -/
theorem renamedKwargs_of_none (foreign : foreignKeys declared ck = []) :
    RenamedKwargs declared ck ck := by
  have absent {key : String} (name : Foreign declared key) : ck.get? key = none := by
    by_contra there
    have mem := mem_foreignKeys.mpr ⟨name, Option.isSome_iff_ne_none.mpr there⟩
    rw [foreign] at mem
    cases mem
  constructor
  case foreign => exact absent
  case sent => exact fun _ _ => rfl
  case missing =>
    intro key value _ missing
    rw [missing]
    refine iff_of_false (by simp) ?_
    rintro ⟨b, -, ⟨name, there⟩, -⟩
    rw [absent there.1] at there
    cases there.2
  case others => exact fun _ _ => rfl

theorem renamed_renameContainer (declared : List String) (nested : Bool) (container : Fields) :
    Renamed declared container (renameContainer declared nested container).1 := by
  rcases obj_or_noObject container "chat_template_kwargs" with ⟨ck, found⟩ | plain
  · by_cases foreign : foreignKeys declared ck = []
    · rw [renameContainer_of_none found foreign]
      constructor
      case kwargs =>
        intro ck' found'
        rw [found, Option.some.injEq, Json.obj.injEq] at found'
        exact ⟨ck, found, found' ▸ renamedKwargs_of_none foreign⟩
      case plain => exact fun _ => rfl
      case others => exact fun _ _ => rfl
    · rw [(renameContainer_of_obj found foreign).1]
      constructor
      case kwargs =>
        intro ck' found'
        rw [found, Option.some.injEq, Json.obj.injEq] at found'
        exact ⟨_, Fields.get?_set_self .., found' ▸ renamedKwargs_spec⟩
      case plain => exact fun plain => absurd found (plain ck)
      case others => exact fun other _ => Fields.get?_set_of_ne _ other _
  · rw [renameContainer_of_noObject plain]
    exact ⟨fun found => absurd found (plain _), fun _ => rfl, fun _ _ => rfl⟩

theorem Renamed.quiet (renamed : Renamed declared container out) :
    renameContainer declared nested out = (out, []) := by
  rcases obj_or_noObject container "chat_template_kwargs" with ⟨ck, found⟩ | plain
  · obtain ⟨ck', found', kwargs⟩ := renamed.kwargs found
    refine renameContainer_of_none found' (List.eq_nil_iff_forall_not_mem.mpr fun key mem => ?_)
    obtain ⟨foreign, there⟩ := mem_foreignKeys.mp mem
    rw [kwargs.foreign foreign] at there
    cases there
  · refine renameContainer_of_noObject fun ck found => ?_
    rw [renamed.plain plain] at found
    exact plain ck found

theorem settles_renameContainer (declared : List String) : Settles (renameContainer declared) where
  extra nested container := by
    rcases obj_or_noObject container "chat_template_kwargs" with ⟨ck, found⟩ | plain
    · by_cases foreign : foreignKeys declared ck = []
      · rw [renameContainer_of_none found foreign]
      · rw [(renameContainer_of_obj found foreign).1, Fields.get?_set_of_ne _ (by decide)]
    · rw [renameContainer_of_noObject plain]
  quiet {nested container} none := by
    rcases obj_or_noObject container "chat_template_kwargs" with ⟨ck, found⟩ | plain
    · by_cases foreign : foreignKeys declared ck = []
      · rw [renameContainer_of_none found foreign]
      · exact absurd none (renameContainer_of_obj found foreign).2
    · rw [renameContainer_of_noObject plain]
  again {nested container out} same := by
    have renamed := renamed_renameContainer declared nested container
    have left : Renamed declared container out := by
      constructor
      case kwargs =>
        intro ck found
        rw [same _ (by decide)]
        exact renamed.kwargs found
      case plain =>
        intro plain
        rw [same _ (by decide), renamed.plain plain]
      case others =>
        intro key other nested
        rw [same key nested, renamed.others other nested]
    rw [left.quiet]

end Container

/-! ### The payload -/

/-- Both containers, renamed; an `extra_body` that is no object is left. -/
structure BothRenamed (declared : List String) (payload out : Fields) : Prop where
  top : Renamed declared payload out
  extra {eb : Fields} : payload.get? "extra_body" = some (.obj eb) →
    ∃ eb' : Fields, out.get? "extra_body" = some (.obj eb') ∧ Renamed declared eb eb' ∧
      eb'.get? "extra_body" = eb.get? "extra_body"
  plain : NoObject payload "extra_body" → out.get? "extra_body" = payload.get? "extra_body"

theorem renameThinkingSwitch_of_ne {declared : List String} (some : declared ≠ [])
    (payload : Fields) :
    renameThinkingSwitch declared payload = bothContainers (renameContainer declared) payload := by
  rw [renameThinkingSwitch, if_neg (by simpa using some)]

theorem bothRenamed {declared : List String} (some : declared ≠ []) (payload : Fields) :
    BothRenamed declared payload (renameThinkingSwitch declared payload).1 := by
  rw [renameThinkingSwitch_of_ne some]
  have whole := get?_extra_bothContainers (settles_renameContainer declared) payload
  have renamed := renamed_renameContainer declared false payload
  have same {key : String} (other : key ≠ "extra_body") :
      (bothContainers (renameContainer declared) payload).1.get? key =
        (renameContainer declared false payload).1.get? key :=
    get?_bothContainers payload other
  constructor
  case top =>
    constructor
    case kwargs =>
      intro ck found
      rw [same (by decide)]
      exact renamed.kwargs found
    case plain =>
      intro plain
      rw [same (by decide), renamed.plain plain]
    case others =>
      intro key other nested
      rw [same nested, renamed.others other nested]
  case extra =>
    intro eb found
    rw [found, rewrittenExtra] at whole
    exact ⟨_, whole, renamed_renameContainer declared true eb, (settles_renameContainer declared).extra true eb⟩
  case plain =>
    intro other
    rw [whole]
    unfold rewrittenExtra
    split
    · next found => exact absurd found (other _)
    · rfl

/-- A second renaming finds nothing, and returns what it was given. -/
theorem renameThinkingSwitch_again (declared : List String) (payload : Fields) :
    renameThinkingSwitch declared (renameThinkingSwitch declared payload).1 =
      ((renameThinkingSwitch declared payload).1, []) := by
  by_cases none : declared = []
  · subst none
    rfl
  · rw [renameThinkingSwitch_of_ne none, renameThinkingSwitch_of_ne none]
    have quiet := bothContainers_again (settles_renameContainer declared) payload
    exact Prod.ext (bothContainers_quiet (settles_renameContainer declared) quiet) quiet

end Roadstead.ThinkingSwitch
