import Mathlib.Data.String.Basic
import Roadstead.Lib.Json

/-!
# Canonical form

`canonical` sorts the fields of every object by key, as `json.dumps` does with `sort_keys`.
Two values with one canonical form are `Same`: they differ in the order of fields only.
-/

namespace Json

/-- Insert a field before the first one whose key is not smaller. -/
def insertField (field : String × Json) : Fields → Fields
  | [] => [field]
  | other :: fields =>
      if field.1 ≤ other.1 then field :: other :: fields else other :: insertField field fields

mutual

/-- The value with the fields of every object sorted by key. -/
def canonical : Json → Json
  | arr items => arr (canonicalItems items)
  | obj fields => obj (canonicalFields fields)
  | value => value

def canonicalItems : List Json → List Json
  | [] => []
  | item :: items => canonical item :: canonicalItems items

def canonicalFields : List (String × Json) → List (String × Json)
  | [] => []
  | (key, value) :: fields => insertField (key, canonical value) (canonicalFields fields)

end

/-- Equal up to the order of fields. -/
def Same (a b : Json) : Prop := canonical a = canonical b

instance (a b : Json) : Decidable (Same a b) := inferInstanceAs (Decidable (_ = _))

@[simp] theorem Same.refl (a : Json) : Same a a := rfl

theorem Same.symm {a b : Json} (same : Same a b) : Same b a := Eq.symm same

theorem canonicalItems_eq_map (items : List Json) : canonicalItems items = items.map canonical := by
  induction items with
  | nil => rfl
  | cons item items ih => rw [canonicalItems, ih, List.map_cons]

theorem same_arr {items items' : List Json} :
    Same (arr items) (arr items') ↔ List.Forall₂ Same items items' := by
  rw [Same, canonical, canonical, arr.injEq, canonicalItems_eq_map, canonicalItems_eq_map]
  induction items generalizing items' with
  | nil =>
      cases items' with
      | nil => simp
      | cons item' items' => exact ⟨nofun, nofun⟩
  | cons item items ih =>
      cases items' with
      | nil => exact ⟨nofun, nofun⟩
      | cons item' items' =>
          rw [List.map_cons, List.map_cons, List.cons.injEq, List.forall₂_cons, ih]
          rfl

/-- Objects that write the same keys in the same order. -/
theorem same_obj {fields fields' : Fields}
    (each : List.Forall₂ (fun field field' => field.1 = field'.1 ∧ Same field.2 field'.2) fields fields') :
    Same (obj fields) (obj fields') := by
  have sorted : canonicalFields fields = canonicalFields fields' := by
    induction each with
    | nil => rfl
    | @cons field field' fields fields' first _ ih =>
        obtain ⟨key, value⟩ := field
        obtain ⟨key', value'⟩ := field'
        obtain ⟨rfl, same⟩ := first
        rw [canonicalFields, canonicalFields, same, ih]
  rw [Same, canonical, canonical, sorted]

theorem get?_insertField (field : String × Json) (fields : Fields) (key : String) :
    Fields.get? (insertField field fields) key =
      if field.1 = key then some field.2 else Fields.get? fields key := by
  induction fields with
  | nil => rw [insertField, Fields.get?_cons]
  | cons other fields ih =>
      rw [insertField]
      split
      · rw [Fields.get?_cons]
      · rename_i larger
        rw [Fields.get?_cons, Fields.get?_cons, ih]
        by_cases here : field.1 = key
        · have ne : other.1 ≠ key := by
            rintro rfl
            exact larger (le_of_eq here)
          rw [if_neg ne, if_pos here, if_pos here]
        · rw [if_neg here, if_neg here]

/-- Sorting keeps what is under a key. -/
theorem get?_canonicalFields (fields : Fields) (key : String) :
    Fields.get? (canonicalFields fields) key = (Fields.get? fields key).map canonical := by
  induction fields with
  | nil => rfl
  | cons field fields ih =>
      rw [canonicalFields, get?_insertField, Fields.get?_cons, ih]
      split <;> rfl

/-- Objects that are the same have the same under every key. -/
theorem Same.get? {fields fields' : Fields} (same : Same (obj fields) (obj fields')) (key : String) :
    (Fields.get? fields key).map canonical = (Fields.get? fields' key).map canonical := by
  rw [Same, canonical, canonical, obj.injEq] at same
  rw [← get?_canonicalFields, same, get?_canonicalFields]

theorem same_null {v : Json} : Same null v ↔ v = null := by
  cases v <;> simp [Same, canonical]

end Json
