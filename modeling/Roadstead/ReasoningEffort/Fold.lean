import Roadstead.ReasoningEffort
import Roadstead.ThinkingSwitch.Exact

/-!
# What the fold of an effort does

`fold_caller_effort` moves the caller's effort into the template arguments, and says what it found
there (`foldCallerEffort_cases`).  A fold touches three fields of the payload, and `injectDefault`
writes an effort only where the fold found room for it.
-/

namespace Roadstead.ReasoningEffort

open Json (Fields)
open ThinkingSwitch (get?_putBack_self get?_putBack_of_ne get_eq_obj_iff obj_or_noObject NoObject)

/-! ### Rungs -/

theorem rung_eq_some {value : Json} {r : String} (states : rung value = some r) :
    ∃ s, value = .str s ∧ stripped s = r ∧ r ≠ "" := by
  cases value with
  | str s =>
      rw [rung] at states
      split at states
      · cases states
      · next ne =>
          rw [Option.some.injEq] at states
          exact ⟨s, rfl, states, states ▸ ne⟩
  | _ => cases states

theorem stripped_stripped (s : String) : stripped (stripped s) = stripped s := by
  rw [stripped, stripped, String.toList_ofList, Text.strip_strip]

/-- An effort that is written back states itself. -/
theorem rung_str {value : Json} {r : String} (states : rung value = some r) :
    rung (.str r) = some r := by
  obtain ⟨s, -, rfl, ne⟩ := rung_eq_some states
  rw [rung, stripped_stripped, if_neg ne]

/-! ### Template arguments -/

theorem get?_foldl_set (keys : List String) (value : Json) (fields : Fields) (key : String) :
    Fields.get? (keys.foldl (fun ck key => Fields.set ck key value) fields) key =
      if key ∈ keys then some value else Fields.get? fields key := by
  induction keys generalizing fields with
  | nil => rfl
  | cons name names ih =>
      rw [List.foldl_cons, ih]
      by_cases here : key = name
      · subst here
        simp
      · rw [Fields.get?_set_of_ne _ here]
        simp [here]

theorem get?_setDefaults (keys : List String) (value : Json) (ck : Fields) (key : String) :
    (setDefaults keys value ck).get? key =
      if key ∈ keys then some ((ck.get? key).getD value) else ck.get? key :=
  Fields.get?_setMissing keys value ck key

theorem get?_injectDefault {ck : Fields} {declared : String} {outcome : Outcome} {key : String}
    (kept : key = "reasoning_effort" → outcome = .left) :
    (injectDefault declared ck outcome).get? key = ck.get? key := by
  unfold injectDefault
  split
  · next room =>
      refine Fields.get?_set_of_ne _ (fun same => ?_) _
      rw [kept same] at room
      simp at room
  · rfl

/-! ### The aliases -/

section Aliases

variable {payload : Fields}

theorem get?_withoutTop (payload : Fields) {key : String} (top : key ≠ "reasoning_effort") :
    (withoutTop payload).get? key = payload.get? key := by
  unfold withoutTop
  split
  · exact Fields.get?_erase_of_ne _ top
  · rfl

theorem get?_withoutReasoning (payload : Fields) {key : String} (reasoning : key ≠ "reasoning") :
    (withoutReasoning payload).get? key = payload.get? key := by
  unfold withoutReasoning
  split
  · split
    · exact get?_putBack_of_ne reasoning _
    · rfl
  · rfl

theorem get?_withoutAliases (payload : Fields) {key : String} (top : key ≠ "reasoning_effort")
    (reasoning : key ≠ "reasoning") : (withoutAliases payload).get? key = payload.get? key := by
  rw [withoutAliases, get?_withoutReasoning _ reasoning, get?_withoutTop _ top]

theorem rung_of_not_str {value : Json} (other : ¬value.asStr?.isSome = true) : rung value = none := by
  cases value with
  | str s => exact absurd rfl other
  | _ => rfl

/-- Without the aliases no effort is stated beside the template arguments. -/
theorem rung_withoutAliases (payload : Fields) :
    rung ((withoutAliases payload).get "reasoning_effort") = none ∧
      rung (((withoutAliases payload).get "reasoning").get "effort") = none := by
  constructor
  · rw [withoutAliases, Fields.get, get?_withoutReasoning _ (by decide), ← Fields.get, withoutTop]
    split
    · rw [Fields.get, Fields.get?_erase_self]
      rfl
    · next other => exact rung_of_not_str other
  · rw [withoutAliases]
    unfold withoutReasoning
    split
    · next obj found =>
        split
        · rw [Fields.get, get?_putBack_self]
          split
          · rfl
          · rw [Option.getD_some, Json.get_obj, Fields.get, Fields.get?_erase_self]
            rfl
        · next other =>
            rw [found, Json.get_obj]
            exact rung_of_not_str other
    · next other =>
        refine rung_of_not_str fun word => ?_
        cases found : (withoutTop payload).get "reasoning" with
        | obj obj => exact other obj found
        | _ =>
            rw [found] at word
            cases word

end Aliases

/-! ### The fold -/

/-- What a fold does: nothing where there is an effort in the template arguments, or none or two
beside them; otherwise the one beside them is removed, and moved there unless it is `none`. -/
theorem foldCallerEffort_cases (payload ck : Fields) (keys : List String) :
    ((ck.get? "reasoning_effort").isSome = true ∧
      foldCallerEffort payload ck keys = (payload, ck, .left)) ∨
    ck.get? "reasoning_effort" = none ∧
      ((callerEfforts payload = [] ∧ foldCallerEffort payload ck keys = (payload, ck, .absent)) ∨
      (callerEfforts payload = ["none"] ∧ foldCallerEffort payload ck keys =
        (withoutAliases payload, setDefaults keys (.bool false) ck, .off)) ∨
      (∃ r, r ≠ "none" ∧ callerEfforts payload = [r] ∧ foldCallerEffort payload ck keys =
        (withoutAliases payload, ck.set "reasoning_effort" (.str r), .folded)) ∨
      ((∃ a ∈ callerEfforts payload, ∃ b ∈ callerEfforts payload, a ≠ b) ∧
        foldCallerEffort payload ck keys = (payload, ck, .left))) := by
  unfold foldCallerEffort
  by_cases pinned : ck.has "reasoning_effort" = true
  · rw [if_pos pinned]
    exact .inl ⟨pinned, rfl⟩
  · have absent : ck.get? "reasoning_effort" = none := by
      rwa [Fields.has, Bool.not_eq_true, Option.isSome_eq_false_iff, Option.isNone_iff_eq_none]
        at pinned
    rw [if_neg pinned]
    refine .inr ⟨absent, ?_⟩
    have distinct : (callerEfforts payload).Nodup := List.nodup_dedup _
    split
    · next none => exact .inl ⟨none, rfl⟩
    · next r one =>
        split
        · next off => exact .inr (.inl ⟨off ▸ one, rfl⟩)
        · next on => exact .inr (.inr (.inl ⟨r, on, one, rfl⟩))
    · next other none one =>
        refine .inr (.inr (.inr ⟨?_, rfl⟩))
        match values : callerEfforts payload with
        | [] => exact absurd values none
        | [r] => exact absurd values (one r)
        | a :: b :: rest =>
            rw [values, List.nodup_cons] at distinct
            refine ⟨a, List.mem_cons_self, b, by simp, ?_⟩
            rintro rfl
            exact distinct.1 List.mem_cons_self

theorem get?_fst_foldCallerEffort (payload ck : Fields) (keys : List String) {key : String}
    (top : key ≠ "reasoning_effort") (reasoning : key ≠ "reasoning") :
    (foldCallerEffort payload ck keys).1.get? key = payload.get? key := by
  rcases foldCallerEffort_cases payload ck keys with
    ⟨-, folded⟩ | ⟨-, ⟨-, folded⟩ | ⟨-, folded⟩ | ⟨r, -, -, folded⟩ | ⟨-, folded⟩⟩
  · rw [folded]
  · rw [folded]
  · rw [folded, get?_withoutAliases payload top reasoning]
  · rw [folded, get?_withoutAliases payload top reasoning]
  · rw [folded]

end Roadstead.ReasoningEffort
