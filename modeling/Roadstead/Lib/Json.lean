import Mathlib.Data.Rat.Defs

/-!
# JSON values

The values that a dynamically typed program reads from JSON and passes around: a mapping is
the list of its fields in insertion order, and a number is an integer or a float.  `Fields`
has the operations of a dictionary (`get?`, `set`, `erase`), each with the two lemmas that say
what a lookup returns after it.  A list of fields may name a key twice; lookups see the first
field, and `set` and `erase` act on it so that a list without repetitions stays one.

A float is a rational number, an infinity or the one NaN; the rounding of doubles is left out.
-/

namespace Json

/-- The value of a float. -/
inductive Flt where
  | finite (value : ℚ)
  | infinite (negative : Bool)
  | nan
  deriving DecidableEq

end Json

/-- A JSON value. -/
inductive Json where
  | null
  | bool (b : Bool)
  | int (n : ℤ)
  | float (x : Json.Flt)
  | str (s : String)
  | arr (items : List Json)
  | obj (fields : List (String × Json))

namespace Json

instance : Inhabited Json := ⟨null⟩

/-! ### Equality -/

mutual

/-- Whether two values are equal. -/
def beq : Json → Json → Bool
  | null, null => true
  | bool b, bool b' => decide (b = b')
  | int n, int n' => decide (n = n')
  | float x, float x' => decide (x = x')
  | str s, str s' => decide (s = s')
  | arr items, arr items' => beqItems items items'
  | obj fields, obj fields' => beqFields fields fields'
  | _, _ => false

def beqItems : List Json → List Json → Bool
  | [], [] => true
  | item :: items, item' :: items' => beq item item' && beqItems items items'
  | _, _ => false

def beqFields : List (String × Json) → List (String × Json) → Bool
  | [], [] => true
  | (key, value) :: fields, (key', value') :: fields' =>
      decide (key = key') && beq value value' && beqFields fields fields'
  | _, _ => false

end

mutual

theorem beq_iff : ∀ a b : Json, beq a b = true ↔ a = b
  | null, b | bool _, b | int _, b | float _, b | str _, b => by cases b <;> simp [beq]
  | arr items, b => by
      cases b with
      | arr items' => simpa [beq] using beqItems_iff items items'
      | _ => simp [beq]
  | obj fields, b => by
      cases b with
      | obj fields' => simpa [beq] using beqFields_iff fields fields'
      | _ => simp [beq]

theorem beqItems_iff : ∀ items items' : List Json, beqItems items items' = true ↔ items = items'
  | [], items' => by cases items' <;> simp [beqItems]
  | item :: items, items' => by
      cases items' with
      | nil => simp [beqItems]
      | cons item' items' => simp [beqItems, beq_iff item item', beqItems_iff items items']

theorem beqFields_iff : ∀ fields fields' : List (String × Json),
    beqFields fields fields' = true ↔ fields = fields'
  | [], fields' => by cases fields' <;> simp [beqFields]
  | (key, value) :: fields, fields' => by
      cases fields' with
      | nil => simp [beqFields]
      | cons field fields' =>
          obtain ⟨key', value'⟩ := field
          simp [beqFields, beq_iff value value', beqFields_iff fields fields']

end

instance : DecidableEq Json := fun a b => decidable_of_iff _ (beq_iff a b)

/-! ### Reading a value -/

/-- What counts as true: neither null, nor false, nor zero, nor empty. -/
def truthy : Json → Bool
  | null => false
  | bool b => b
  | int n => decide (n ≠ 0)
  | float (.finite value) => decide (value ≠ 0)
  | float _ => true
  | str s => decide (s ≠ "")
  | arr items => !items.isEmpty
  | obj fields => !fields.isEmpty

/-- Whether a value compares equal to an integer; a Boolean is one. -/
def eqInt (j : Json) (n : ℤ) : Bool :=
  match j with
  | int m => decide (m = n)
  | bool b => decide ((if b then 1 else 0) = n)
  | float (.finite value) => decide (value = n)
  | _ => false

/-- The text of a string. -/
def asStr? : Json → Option String
  | str s => some s
  | _ => none

/-- The items of an array. -/
def asArr? : Json → Option (List Json)
  | arr items => some items
  | _ => none

/-- The fields of an object. -/
def asObj? : Json → Option (List (String × Json))
  | obj fields => some fields
  | _ => none

theorem asStr?_eq_some {j : Json} {s : String} : j.asStr? = some s ↔ j = str s := by
  cases j <;> simp [asStr?]

theorem asArr?_eq_some {j : Json} {items : List Json} : j.asArr? = some items ↔ j = arr items := by
  cases j <;> simp [asArr?]

theorem asObj?_eq_some {j : Json} {fields : List (String × Json)} :
    j.asObj? = some fields ↔ j = obj fields := by
  cases j <;> simp [asObj?]

/-! ### The fields of an object -/

/-- The fields of an object, in insertion order. -/
abbrev Fields := List (String × Json)

namespace Fields

/-- The value under `key`. -/
def get? (fields : Fields) (key : String) : Option Json :=
  (fields.find? fun field => field.1 = key).map Prod.snd

/-- The value under `key`, null if there is none. -/
def get (fields : Fields) (key : String) : Json := (fields.get? key).getD .null

/-- Whether there is a field `key`. -/
def has (fields : Fields) (key : String) : Bool := (fields.get? key).isSome

/-- Write a field: in place if there is one, at the end if not. -/
def set (fields : Fields) (key : String) (value : Json) : Fields :=
  match fields with
  | [] => [(key, value)]
  | field :: fields =>
      if field.1 = key then (key, value) :: fields else field :: set fields key value

/-- Remove a field. -/
def erase (fields : Fields) (key : String) : Fields := fields.filter fun field => field.1 ≠ key

/-- Write all fields of `new`: in place where there is one, the others at the end. -/
def update (fields new : Fields) : Fields :=
  fields.map (fun field => (field.1, (new.get? field.1).getD field.2)) ++
    new.filter fun field => !fields.has field.1

@[simp] theorem get?_nil (key : String) : get? [] key = none := rfl

theorem get?_cons (field : String × Json) (fields : Fields) (key : String) :
    get? (field :: fields) key = if field.1 = key then some field.2 else get? fields key := by
  by_cases here : field.1 = key <;> simp [get?, here]

@[simp] theorem get?_set_self (fields : Fields) (key : String) (value : Json) :
    get? (set fields key value) key = some value := by
  induction fields with
  | nil => simp [set, get?_cons]
  | cons field fields ih =>
      rw [set]
      split
      · simp [get?_cons]
      · rename_i other
        rw [get?_cons, if_neg other, ih]

theorem get?_set_of_ne (fields : Fields) {key key' : String} (ne : key' ≠ key) (value : Json) :
    get? (set fields key value) key' = get? fields key' := by
  induction fields with
  | nil => simp [set, get?_cons, Ne.symm ne]
  | cons field fields ih =>
      rw [set]
      split
      · rename_i here
        simp [get?_cons, here, Ne.symm ne]
      · rw [get?_cons, get?_cons, ih]

@[simp] theorem get_set_self (fields : Fields) (key : String) (value : Json) :
    get (set fields key value) key = value := by
  simp [get]

theorem get_set_of_ne (fields : Fields) {key key' : String} (ne : key' ≠ key) (value : Json) :
    get (set fields key value) key' = get fields key' := by
  rw [get, get, get?_set_of_ne fields ne]

@[simp] theorem get?_erase_self (fields : Fields) (key : String) :
    get? (erase fields key) key = none := by
  rw [get?, Option.map_eq_none_iff, List.find?_eq_none]
  intro field mem
  simpa using (List.mem_filter.mp mem).2

theorem get?_erase_of_ne (fields : Fields) {key key' : String} (ne : key' ≠ key) :
    get? (erase fields key) key' = get? fields key' := by
  induction fields with
  | nil => rfl
  | cons field fields ih =>
      rw [erase, List.filter_cons]
      by_cases here : field.1 = key
      · rw [if_neg (by simpa using here), get?_cons, if_neg (by simpa [here] using Ne.symm ne)]
        exact ih
      · rw [if_pos (by simpa using here), get?_cons, get?_cons]
        exact congrArg _ ih

theorem get_erase_of_ne (fields : Fields) {key key' : String} (ne : key' ≠ key) :
    get (erase fields key) key' = get fields key' := by
  rw [get, get, get?_erase_of_ne fields ne]

/-- Removing a field forgets what was written to it. -/
@[simp] theorem erase_set_self (fields : Fields) (key : String) (value : Json) :
    erase (set fields key value) key = erase fields key := by
  induction fields with
  | nil => simp [set, erase]
  | cons field fields ih =>
      rw [set]
      split
      · rename_i here
        simp [erase, here]
      · rename_i other
        simp only [erase, List.filter_cons, decide_not] at ih ⊢
        simp [other, ih]

@[simp] theorem erase_erase_self (fields : Fields) (key : String) :
    erase (erase fields key) key = erase fields key := by
  simp [erase, List.filter_filter]

theorem erase_comm (fields : Fields) (key key' : String) :
    erase (erase fields key) key' = erase (erase fields key') key := by
  rw [erase, erase, erase, erase, List.filter_filter, List.filter_filter]
  exact List.filter_congr fun _ _ => Bool.and_comm _ _

theorem get?_setMissing (keys : List String) (value : Json) (fields : Fields) (key : String) :
    get? (keys.foldl (fun fields key => if fields.has key then fields else fields.set key value) fields)
        key =
      if key ∈ keys then some ((get? fields key).getD value) else get? fields key := by
  induction keys generalizing fields with
  | nil => rfl
  | cons name names ih =>
      rw [List.foldl_cons, ih]
      by_cases sent : fields.has name = true
      · rw [if_pos sent]
        by_cases here : key = name
        · subst here
          obtain ⟨found, there⟩ := Option.isSome_iff_exists.mp sent
          simp [there]
        · simp [here]
      · rw [if_neg sent]
        by_cases here : key = name
        · subst here
          rw [has, Bool.not_eq_true, Option.isSome_eq_false_iff, Option.isNone_iff_eq_none] at sent
          simp [sent]
        · simp [here, get?_set_of_ne]

theorem get?_map_value (fields : Fields) (value : String × Json → Json) (key : String) :
    get? (fields.map fun field => (field.1, value field)) key =
      (fields.find? fun field => field.1 = key).map value := by
  induction fields with
  | nil => rfl
  | cons field fields ih =>
      rw [List.map_cons, get?_cons, List.find?_cons]
      by_cases here : field.1 = key <;> simp [here, ih]

theorem get?_append (fields fields' : Fields) (key : String) :
    get? (fields ++ fields') key = (get? fields key).or (get? fields' key) := by
  simp only [get?, List.find?_append]
  cases fields.find? (fun field => field.1 = key) <;> rfl

theorem get?_filter_key (fields : Fields) {keep : String → Bool} {key : String}
    (kept : keep key = true) :
    get? (fields.filter fun field => keep field.1) key = get? fields key := by
  induction fields with
  | nil => rfl
  | cons field fields ih =>
      rw [List.filter_cons, get?_cons]
      by_cases here : field.1 = key
      · rw [here, if_pos kept, get?_cons, if_pos here, if_pos rfl]
      · rw [if_neg here]
        split
        · rw [get?_cons, if_neg here, ih]
        · exact ih

/-- What was written wins over what was there. -/
theorem get?_update (fields new : Fields) (key : String) :
    get? (update fields new) key = (get? new key).or (get? fields key) := by
  rw [update, get?_append, get?_map_value]
  cases found : fields.find? (fun field => field.1 = key) with
  | some field =>
      have name : field.1 = key := by simpa using List.find?_some found
      have there : get? fields key = some field.2 := by rw [get?, found, Option.map_some]
      rw [there, Option.map_some, name]
      cases get? new key <;> rfl
  | none =>
      have absent : get? fields key = none := by rw [get?, found, Option.map_none]
      have fresh : (!fields.has key) = true := by simp [has, absent]
      have kept := @get?_filter_key new (fun name => !fields.has name) key fresh
      rw [Option.map_none, Option.none_or, kept, absent, Option.or_none]

end Fields

/-- The value under a key; nothing if the value is not an object. -/
def get? (j : Json) (key : String) : Option Json :=
  match j with
  | obj fields => Fields.get? fields key
  | _ => none

/-- The value under a key, null if there is none. -/
def get (j : Json) (key : String) : Json := (j.get? key).getD .null

@[simp] theorem get?_obj (fields : Fields) (key : String) :
    (obj fields).get? key = Fields.get? fields key := rfl

@[simp] theorem get_obj (fields : Fields) (key : String) :
    (obj fields).get key = Fields.get fields key := rfl

end Json
