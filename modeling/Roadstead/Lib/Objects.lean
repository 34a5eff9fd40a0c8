import Mathlib.Data.Finset.Card
import Mathlib.Data.Finset.Range
import Mathlib.Data.List.Infix
import Roadstead.Lib.Json

/-!
# Mutable objects

A variable holds a `Value`: an immutable value, or a reference to an object of the `Heap`, which is
a dictionary or a list of values.  A value `Denotes` the JSON value that is read through its
references.  An object is made at the end of the heap, so that a heap whose prefix is the heap
before has all of its objects as they were; what a value denotes is then the same
(`Denotes.mono`).

A program that writes only to objects it has made itself leaves a prefix: `Building base heap loc`
says so of the one it is working on, whose values all stood there before, and each operation on it
keeps that.  `Draft base heap loc` says so of one that is given values made later; these are denoted
without it (`without`), so that writing to it does not touch them.
-/

namespace Objects

open Json (Fields)

/-! ### Values and objects -/

/-- An immutable value, or a reference. -/
inductive Value where
  | plain (j : Json)
  | ref (loc : ℕ)

inductive Object where
  | dict (fields : List (String × Value))
  | list (items : List Value)

abbrev Heap := List Object

/-- What is immutable. -/
def Atomic : Json → Prop
  | .arr _ | .obj _ => False
  | _ => True

mutual

/-- A value denotes a JSON value. -/
inductive Denotes (heap : Heap) : Value → Json → Prop
  | plain {j : Json} : Atomic j → Denotes heap (.plain j) j
  | dict {loc : ℕ} {fields : List (String × Value)} {js : Fields} :
      heap[loc]? = some (.dict fields) → DenotesFields heap fields js →
        Denotes heap (.ref loc) (.obj js)
  | list {loc : ℕ} {items : List Value} {js : List Json} :
      heap[loc]? = some (.list items) → DenotesItems heap items js →
        Denotes heap (.ref loc) (.arr js)

inductive DenotesFields (heap : Heap) : List (String × Value) → Fields → Prop
  | nil : DenotesFields heap [] []
  | cons {key : String} {value : Value} {j : Json} {fields : List (String × Value)} {js : Fields} :
      Denotes heap value j → DenotesFields heap fields js →
        DenotesFields heap ((key, value) :: fields) ((key, j) :: js)

inductive DenotesItems (heap : Heap) : List Value → List Json → Prop
  | nil : DenotesItems heap [] []
  | cons {value : Value} {j : Json} {items : List Value} {js : List Json} :
      Denotes heap value j → DenotesItems heap items js →
        DenotesItems heap (value :: items) (j :: js)

end

theorem getElem?_mono {heap heap' : Heap} (le : heap <+: heap') {loc : ℕ} {object : Object}
    (here : heap[loc]? = some object) : heap'[loc]? = some object := by
  obtain ⟨made, rfl⟩ := le
  rw [List.getElem?_append_left (List.getElem?_eq_some_iff.mp here).1, here]

mutual

/-- What a value denotes is the same where only objects are added. -/
theorem Denotes.mono {heap heap' : Heap} (le : heap <+: heap') {value : Value} {j : Json}
    (denotes : Denotes heap value j) : Denotes heap' value j := by
  cases denotes with
  | plain atomic => exact .plain atomic
  | dict here fields => exact .dict (getElem?_mono le here) (fields.mono le)
  | list here items => exact .list (getElem?_mono le here) (items.mono le)

theorem DenotesFields.mono {heap heap' : Heap} (le : heap <+: heap')
    {fields : List (String × Value)} {js : Fields} (denotes : DenotesFields heap fields js) :
    DenotesFields heap' fields js := by
  cases denotes with
  | nil => exact .nil
  | cons value rest => exact .cons (value.mono le) (rest.mono le)

theorem DenotesItems.mono {heap heap' : Heap} (le : heap <+: heap') {items : List Value}
    {js : List Json} (denotes : DenotesItems heap items js) : DenotesItems heap' items js := by
  cases denotes with
  | nil => exact .nil
  | cons value rest => exact .cons (value.mono le) (rest.mono le)

end

/-! ### The fields of a dictionary -/

/-- The value under a key. -/
def lookup (fields : List (String × Value)) (key : String) : Option Value :=
  (fields.find? fun field => field.1 = key).map Prod.snd

/-- Write a field: in place if there is one, at the end if not. -/
def write (key : String) (value : Value) : List (String × Value) → List (String × Value)
  | [] => [(key, value)]
  | field :: fields =>
      if field.1 = key then (key, value) :: fields else field :: write key value fields

/-- Write all fields of `new`: in place where there is one, the others at the end. -/
def overwrite (fields new : List (String × Value)) : List (String × Value) :=
  fields.map (fun field => (field.1, (lookup new field.1).getD field.2)) ++
    new.filter fun field => !(lookup fields field.1).isSome

section Fields

variable {heap : Heap} {fields : List (String × Value)} {js : Fields}

theorem DenotesFields.keys (denotes : DenotesFields heap fields js) :
    fields.map Prod.fst = js.map Prod.fst := by
  induction fields generalizing js with
  | nil =>
      cases denotes
      rfl
  | cons field fields ih =>
      cases denotes with
      | cons value rest => rw [List.map_cons, List.map_cons, ih rest]

/-- A key is looked up as in what is denoted. -/
theorem DenotesFields.lookup (denotes : DenotesFields heap fields js) (key : String) :
    (lookup fields key = none ∧ js.get? key = none) ∨
      ∃ value j, lookup fields key = some value ∧ js.get? key = some j ∧ Denotes heap value j := by
  induction fields generalizing js with
  | nil =>
      cases denotes
      exact .inl ⟨rfl, rfl⟩
  | cons field fields ih =>
      cases denotes with
      | @cons name value j _ js here rest =>
          rw [Fields.get?_cons, Objects.lookup, List.find?_cons]
          by_cases same : name = key
          · rw [if_pos same, decide_eq_true same]
            exact .inr ⟨value, j, rfl, rfl, here⟩
          · rw [if_neg same, decide_eq_false same]
            exact ih rest

theorem DenotesFields.filter (denotes : DenotesFields heap fields js) (keep : String → Bool) :
    DenotesFields heap (fields.filter fun field => keep field.1)
      (js.filter fun field => keep field.1) := by
  induction fields generalizing js with
  | nil =>
      cases denotes
      exact .nil
  | cons field fields ih =>
      cases denotes with
      | @cons name _ _ _ _ here rest =>
          rw [List.filter_cons, List.filter_cons]
          split
          · exact .cons here (ih rest)
          · exact ih rest

theorem DenotesFields.write (denotes : DenotesFields heap fields js) {key : String} {value : Value}
    {j : Json} (written : Denotes heap value j) :
    DenotesFields heap (write key value fields) (js.set key j) := by
  induction fields generalizing js with
  | nil =>
      cases denotes
      exact .cons written .nil
  | cons field fields ih =>
      cases denotes with
      | @cons name _ _ _ _ here rest =>
          rw [Objects.write, Fields.set]
          split
          · exact .cons written rest
          · exact .cons here (ih rest)

theorem DenotesFields.append {fields' : List (String × Value)} {js' : Fields}
    (denotes : DenotesFields heap fields js) (denotes' : DenotesFields heap fields' js') :
    DenotesFields heap (fields ++ fields') (js ++ js') := by
  induction fields generalizing js with
  | nil =>
      cases denotes
      exact denotes'
  | cons field fields ih =>
      cases denotes with
      | cons here rest => exact .cons here (ih rest)

theorem DenotesFields.overwrite {new : List (String × Value)} {njs : Fields}
    (denotes : DenotesFields heap fields js) (denotes' : DenotesFields heap new njs) :
    DenotesFields heap (overwrite fields new) (js.update njs) := by
  have present (key : String) : (Objects.lookup fields key).isSome = js.has key := by
    rw [Fields.has]
    rcases denotes.lookup key with ⟨absent, absent'⟩ | ⟨value, j, there, there', -⟩
    · rw [absent, absent', Option.isSome_none, Option.isSome_none]
    · rw [there, there', Option.isSome_some, Option.isSome_some]
  have replaced : DenotesFields heap
      (fields.map fun field => (field.1, (Objects.lookup new field.1).getD field.2))
      (js.map fun field => (field.1, (njs.get? field.1).getD field.2)) := by
    clear present
    induction fields generalizing js with
    | nil =>
        cases denotes
        exact .nil
    | cons field fields ih =>
        cases denotes with
        | @cons name value j _ js here rest =>
            refine .cons ?_ (ih rest)
            rcases denotes'.lookup name with ⟨absent, absent'⟩ | ⟨value', j', there, there', inner⟩
            · rw [absent, absent']
              exact here
            · rw [there, there']
              exact inner
  refine replaced.append ?_
  simp only [present]
  exact denotes'.filter fun key => !js.has key

end Fields

/-! ### The items of a list -/

section Items

variable {heap : Heap} {items : List Value} {js : List Json}

theorem denotesItems_iff : DenotesItems heap items js ↔ List.Forall₂ (Denotes heap) items js := by
  constructor
  · intro denotes
    induction items generalizing js with
    | nil =>
        cases denotes
        exact .nil
    | cons item items ih =>
        cases denotes with
        | cons here rest => exact .cons here (ih rest)
  · intro related
    induction related with
    | nil => exact .nil
    | cons here _ ih => exact .cons here ih

theorem DenotesItems.reverse (denotes : DenotesItems heap items js) :
    DenotesItems heap items.reverse js.reverse :=
  denotesItems_iff.mpr (List.rel_reverse (denotesItems_iff.mp denotes))

theorem DenotesItems.dropWhile (denotes : DenotesItems heap items js) {p : Value → Bool}
    {q : Json → Bool} (same : ∀ value j, Denotes heap value j → p value = q j) :
    DenotesItems heap (items.dropWhile p) (js.dropWhile q) := by
  induction items generalizing js with
  | nil =>
      cases denotes
      exact .nil
  | cons item items ih =>
      cases denotes with
      | @cons _ j _ js here rest =>
          rw [List.dropWhile_cons, List.dropWhile_cons, same item j here]
          split
          · exact ih rest
          · exact .cons here rest

end Items

/-! ### What is read of a value -/

/-- A value of which no more is seen than its kind, where it is mutable. -/
def shape : Json → Json
  | .arr _ => .arr []
  | .obj _ => .obj []
  | j => j

/-- A value of which the keys of a dictionary are seen, and the shapes under them. -/
def view : Json → Json
  | .arr _ => .arr []
  | .obj fields => .obj (fields.map fun field => (field.1, shape field.2))
  | j => j

def Heap.shape (heap : Heap) : Value → Json
  | .plain j => j
  | .ref loc => match heap[loc]? with
      | some (.dict _) => .obj []
      | some (.list _) => .arr []
      | none => .null

def Heap.view (heap : Heap) : Value → Json
  | .plain j => j
  | .ref loc => match heap[loc]? with
      | some (.dict fields) => .obj (fields.map fun field => (field.1, heap.shape field.2))
      | some (.list _) => .arr []
      | none => .null

section View

variable {heap : Heap} {fields : List (String × Value)} {js : Fields} {value : Value} {j : Json}

theorem Denotes.shape (denotes : Denotes heap value j) : heap.shape value = shape j := by
  cases denotes with
  | plain atomic => cases j <;> first | rfl | cases atomic
  | dict here _ | list here _ => rw [Heap.shape, here, Objects.shape]

theorem DenotesFields.shapes (denotes : DenotesFields heap fields js) :
    (fields.map fun field => (field.1, heap.shape field.2)) =
      js.map fun field => (field.1, Objects.shape field.2) := by
  induction fields generalizing js with
  | nil =>
      cases denotes
      rfl
  | cons field fields ih =>
      cases denotes with
      | cons here rest => rw [List.map_cons, List.map_cons, here.shape, ih rest]

theorem Denotes.view (denotes : Denotes heap value j) : heap.view value = view j := by
  cases denotes with
  | plain atomic => cases j <;> first | rfl | cases atomic
  | dict here fields =>
      rw [Heap.view, here, Objects.view]
      exact congrArg Json.obj fields.shapes
  | list here _ => rw [Heap.view, here, Objects.view]

end View

/-! ### Programs -/

/-- Make an object. -/
def alloc (object : Object) (heap : Heap) : Heap × ℕ := (heap ++ [object], heap.length)

/-- The fields of a dictionary. -/
def Heap.fields (heap : Heap) (loc : ℕ) : List (String × Value) :=
  match heap[loc]? with
  | some (.dict fields) => fields
  | _ => []

/-- The location of a dictionary, if the value is one. -/
def Heap.dict? (heap : Heap) : Value → Option ℕ
  | .ref loc => match heap[loc]? with
      | some (.dict _) => some loc
      | _ => none
  | .plain _ => none

/-- The dictionary under a key of a dictionary. -/
def Heap.dictAt (heap : Heap) (loc : ℕ) (key : String) : Option ℕ :=
  (lookup (heap.fields loc) key).bind heap.dict?

/-- What is read of the value under a key, null if there is none. -/
def Heap.viewAt (heap : Heap) (loc : ℕ) (key : String) : Json :=
  ((lookup (heap.fields loc) key).map heap.view).getD .null

/-- A shallow copy of a dictionary. -/
def copy (loc : ℕ) (heap : Heap) : Heap × ℕ := alloc (.dict (heap.fields loc)) heap

/-- Write a field of a dictionary, in place. -/
def setField (loc : ℕ) (key : String) (value : Value) (heap : Heap) : Heap :=
  heap.set loc (.dict (write key value (heap.fields loc)))

/-- Remove a field of a dictionary, in place. -/
def delField (loc : ℕ) (key : String) (heap : Heap) : Heap :=
  heap.set loc (.dict ((heap.fields loc).filter fun field => field.1 ≠ key))

/-- A dictionary that was made after `base`, and whose values stand in `base`. -/
structure Building (base heap : Heap) (loc : ℕ) (js : Fields) : Prop where
  le : base <+: heap
  new : base.length ≤ loc
  here : ∃ fields, heap[loc]? = some (.dict fields) ∧ DenotesFields base fields js

section Programs

variable {base heap : Heap} {loc : ℕ} {js : Fields}

theorem Heap.fields_eq {fields : List (String × Value)} (here : heap[loc]? = some (.dict fields)) :
    heap.fields loc = fields := by
  rw [Heap.fields, here]

theorem Denotes.dict_fields (denotes : Denotes heap (.ref loc) (.obj js)) :
    heap[loc]? = some (.dict (heap.fields loc)) ∧ DenotesFields heap (heap.fields loc) js := by
  cases denotes with
  | dict here fields =>
      rw [Heap.fields_eq here]
      exact ⟨here, fields⟩

theorem Denotes.dict? {value : Value} {j : Json} (denotes : Denotes heap value j) :
    (∃ loc js, heap.dict? value = some loc ∧ j = .obj js ∧ value = .ref loc) ∨
      (heap.dict? value = none ∧ ∀ js, j ≠ .obj js) := by
  cases denotes with
  | plain atomic =>
      refine .inr ⟨rfl, ?_⟩
      rintro _ rfl
      exact atomic
  | @dict loc _ js here _ => exact .inl ⟨loc, js, by rw [Heap.dict?, here], rfl, rfl⟩
  | list here _ => exact .inr ⟨by rw [Heap.dict?, here], fun _ same => Json.noConfusion same⟩

/-- The dictionary under a key denotes the object under it, and there is none where that is no
object. -/
theorem Denotes.dictAt (denotes : Denotes heap (.ref loc) (.obj js)) (key : String) :
    (∃ inner js', heap.dictAt loc key = some inner ∧ js.get? key = some (.obj js') ∧
      Denotes heap (.ref inner) (.obj js')) ∨
    (heap.dictAt loc key = none ∧ ∀ js', js.get? key ≠ some (.obj js')) := by
  rw [Heap.dictAt]
  rcases denotes.dict_fields.2.lookup key with ⟨absent, absent'⟩ | ⟨value, j, there, there', inner⟩
  · rw [absent, absent']
    exact .inr ⟨rfl, fun _ => Option.some_ne_none _ |>.symm⟩
  · rw [there, there', Option.bind_some]
    rcases inner.dict? with ⟨loc', js', dict, rfl, rfl⟩ | ⟨none, other⟩
    · exact .inl ⟨loc', js', dict, rfl, inner⟩
    · exact .inr ⟨none, fun js' same => other js' (Option.some.inj same)⟩

theorem Denotes.viewAt (denotes : Denotes heap (.ref loc) (.obj js)) (key : String) :
    heap.viewAt loc key = Objects.view (js.get key) := by
  rw [Heap.viewAt, Fields.get]
  rcases denotes.dict_fields.2.lookup key with ⟨absent, absent'⟩ | ⟨value, j, there, there', inner⟩
  · rw [absent, absent']
    rfl
  · rw [there, there', Option.map_some, Option.getD_some, Option.getD_some, inner.view]

theorem Denotes.isSome_lookup (denotes : Denotes heap (.ref loc) (.obj js)) (key : String) :
    (lookup (heap.fields loc) key).isSome = js.has key := by
  rw [Fields.has]
  rcases denotes.dict_fields.2.lookup key with ⟨absent, absent'⟩ | ⟨value, j, there, there', -⟩
  · rw [absent, absent', Option.isSome_none, Option.isSome_none]
  · rw [there, there', Option.isSome_some, Option.isSome_some]

theorem Denotes.keys (denotes : Denotes heap (.ref loc) (.obj js)) :
    (heap.fields loc).map Prod.fst = js.map Prod.fst :=
  denotes.dict_fields.2.keys

theorem Denotes.length (denotes : Denotes heap (.ref loc) (.obj js)) :
    (heap.fields loc).length = js.length := by
  rw [← List.length_map Prod.fst, denotes.keys, List.length_map]

theorem Denotes.lt (denotes : Denotes heap (.ref loc) (.obj js)) : loc < heap.length :=
  (List.getElem?_eq_some_iff.mp denotes.dict_fields.1).1

/-- Writing to an object that is not in a prefix leaves the prefix. -/
theorem prefix_set (le : base <+: heap) (new : base.length ≤ loc) (object : Object) :
    base <+: heap.set loc object := by
  obtain ⟨made, rfl⟩ := le
  rw [List.set_append_right _ _ new]
  exact List.prefix_append _ _

theorem Building.update (building : Building base heap loc js) {fields : List (String × Value)}
    {js' : Fields} (denotes : DenotesFields base fields js') :
    Building base (heap.set loc (.dict fields)) loc js' := by
  obtain ⟨le, new, _, here, _⟩ := building
  refine ⟨prefix_set le new _, new, fields, ?_, denotes⟩
  exact List.getElem?_set_self (List.getElem?_eq_some_iff.mp here).1

theorem building_alloc {fields : List (String × Value)} (denotes : DenotesFields heap fields js) :
    Building heap (alloc (.dict fields) heap).1 (alloc (.dict fields) heap).2 js :=
  ⟨List.prefix_append _ _, le_rfl, fields, by simp [alloc], denotes⟩

theorem building_copy (denotes : Denotes heap (.ref loc) (.obj js)) :
    Building heap (copy loc heap).1 (copy loc heap).2 js :=
  building_alloc denotes.dict_fields.2

theorem Building.setField (building : Building base heap loc js) (key : String) {value : Value}
    {j : Json} (denotes : Denotes base value j) :
    Building base (setField loc key value heap) loc (js.set key j) := by
  obtain ⟨fields, here, all⟩ := building.here
  rw [Objects.setField, Heap.fields_eq here]
  exact building.update (all.write denotes)

theorem Building.delField (building : Building base heap loc js) (key : String) :
    Building base (delField loc key heap) loc (js.erase key) := by
  obtain ⟨fields, here, all⟩ := building.here
  rw [Objects.delField, Heap.fields_eq here]
  exact building.update (all.filter fun name => name ≠ key)

/-- What is built denotes what it was built as. -/
theorem Building.denotes (building : Building base heap loc js) :
    Denotes heap (.ref loc) (.obj js) := by
  obtain ⟨fields, here, all⟩ := building.here
  exact .dict here (all.mono building.le)

end Programs

/-! ### Reading a value whole -/

/-- What is read through at most `n` references, one inside the other. -/
def Heap.readWithin (heap : Heap) : ℕ → Value → Json
  | _, .plain j => j
  | 0, .ref _ => .null
  | n + 1, .ref loc => match heap[loc]? with
      | some (.dict fields) => .obj (fields.map fun field => (field.1, heap.readWithin n field.2))
      | some (.list items) => .arr (items.map (heap.readWithin n))
      | none => .null

/-- What a value denotes; there are no more references one inside the other than objects. -/
def Heap.read (heap : Heap) (value : Value) : Json := heap.readWithin heap.length value

mutual

theorem Denotes.unique {heap : Heap} {value : Value} {j j' : Json} (denotes : Denotes heap value j)
    (denotes' : Denotes heap value j') : j = j' := by
  cases denotes with
  | plain _ =>
      cases denotes'
      rfl
  | dict here fields =>
      cases denotes' with
      | dict here' fields' =>
          cases here.symm.trans here'
          rw [fields.unique fields']
      | list here' _ => cases here.symm.trans here'
  | list here items =>
      cases denotes' with
      | dict here' _ => cases here.symm.trans here'
      | list here' items' =>
          cases here.symm.trans here'
          rw [items.unique items']

theorem DenotesFields.unique {heap : Heap} {fields : List (String × Value)} {js js' : Fields}
    (denotes : DenotesFields heap fields js) (denotes' : DenotesFields heap fields js') :
    js = js' := by
  cases denotes with
  | nil =>
      cases denotes'
      rfl
  | cons value rest =>
      cases denotes' with
      | cons value' rest' => rw [value.unique value', rest.unique rest']

theorem DenotesItems.unique {heap : Heap} {items : List Value} {js js' : List Json}
    (denotes : DenotesItems heap items js) (denotes' : DenotesItems heap items js') : js = js' := by
  cases denotes with
  | nil =>
      cases denotes'
      rfl
  | cons value rest =>
      cases denotes' with
      | cons value' rest' => rw [value.unique value', rest.unique rest']

end

/-- The objects that a value lies in: each denotes more than the value. -/
def Inside (heap : Heap) (around : Finset ℕ) (size : ℕ) : Prop :=
  ∀ loc ∈ around, ∃ j, Denotes heap (.ref loc) j ∧ size < sizeOf j

theorem Inside.enter {heap : Heap} {around : Finset ℕ} {loc n : ℕ} {j : Json}
    (inside : Inside heap around (sizeOf j)) (here : Denotes heap (.ref loc) j)
    (enough : heap.length ≤ n + around.card) :
    ∃ m, n = m + 1 ∧ heap.length ≤ m + (insert loc around).card ∧
      ∀ size, size < sizeOf j → Inside heap (insert loc around) size := by
  have outside : loc ∉ around := by
    intro mem
    obtain ⟨j', there, larger⟩ := inside loc mem
    rw [there.unique here] at larger
    exact lt_irrefl _ larger
  have deeper : ∀ size, size < sizeOf j → Inside heap (insert loc around) size := by
    intro size smaller l mem
    rcases Finset.mem_insert.mp mem with rfl | mem
    · exact ⟨j, here, smaller⟩
    · obtain ⟨j', there, larger⟩ := inside l mem
      exact ⟨j', there, smaller.trans larger⟩
  have bounded : (insert loc around).card ≤ heap.length := by
    rw [← Finset.card_range heap.length]
    refine Finset.card_le_card fun l mem => Finset.mem_range.mpr ?_
    have some_object : ∃ j, Denotes heap (.ref l) j := by
      rcases Finset.mem_insert.mp mem with rfl | mem
      · exact ⟨j, here⟩
      · obtain ⟨j', there, -⟩ := inside l mem
        exact ⟨j', there⟩
    obtain ⟨j', there⟩ := some_object
    cases there with
    | dict object _ | list object _ => exact (List.getElem?_eq_some_iff.mp object).1
  rw [Finset.card_insert_of_notMem outside] at bounded ⊢
  exact ⟨n - 1, by omega, by omega, deeper⟩

mutual

theorem Denotes.readWithin {heap : Heap} {value : Value} {j : Json} (denotes : Denotes heap value j)
    {around : Finset ℕ} (inside : Inside heap around (sizeOf j)) {n : ℕ}
    (enough : heap.length ≤ n + around.card) : heap.readWithin n value = j := by
  cases denotes with
  | plain _ => cases n <;> rfl
  | @dict loc _ js here fields =>
      obtain ⟨m, rfl, enough, deeper⟩ := inside.enter (.dict here fields) enough
      have smaller : sizeOf js < sizeOf (Json.obj js) := by simp
      rw [Heap.readWithin, here]
      exact congrArg Json.obj (fields.readWithin (deeper _ smaller) enough)
  | @list loc _ js here items =>
      obtain ⟨m, rfl, enough, deeper⟩ := inside.enter (.list here items) enough
      have smaller : sizeOf js < sizeOf (Json.arr js) := by simp
      rw [Heap.readWithin, here]
      exact congrArg Json.arr (items.readWithin (deeper _ smaller) enough)

theorem DenotesFields.readWithin {heap : Heap} {fields : List (String × Value)} {js : Fields}
    (denotes : DenotesFields heap fields js) {around : Finset ℕ}
    (inside : Inside heap around (sizeOf js)) {n : ℕ} (enough : heap.length ≤ n + around.card) :
    (fields.map fun field => (field.1, heap.readWithin n field.2)) = js := by
  cases denotes with
  | nil => rfl
  | @cons key _ j _ js value rest =>
      have first : Inside heap around (sizeOf j) := fun loc mem => by
        obtain ⟨j', there, larger⟩ := inside loc mem
        simp only [List.cons.sizeOf_spec, Prod.mk.sizeOf_spec] at larger
        exact ⟨j', there, by omega⟩
      have others : Inside heap around (sizeOf js) := fun loc mem => by
        obtain ⟨j', there, larger⟩ := inside loc mem
        simp only [List.cons.sizeOf_spec] at larger
        exact ⟨j', there, by omega⟩
      rw [List.map_cons, value.readWithin first enough, rest.readWithin others enough]

theorem DenotesItems.readWithin {heap : Heap} {items : List Value} {js : List Json}
    (denotes : DenotesItems heap items js) {around : Finset ℕ}
    (inside : Inside heap around (sizeOf js)) {n : ℕ} (enough : heap.length ≤ n + around.card) :
    items.map (heap.readWithin n) = js := by
  cases denotes with
  | nil => rfl
  | @cons _ j _ js value rest =>
      have first : Inside heap around (sizeOf j) := fun loc mem => by
        obtain ⟨j', there, larger⟩ := inside loc mem
        simp only [List.cons.sizeOf_spec] at larger
        exact ⟨j', there, by omega⟩
      have others : Inside heap around (sizeOf js) := fun loc mem => by
        obtain ⟨j', there, larger⟩ := inside loc mem
        simp only [List.cons.sizeOf_spec] at larger
        exact ⟨j', there, by omega⟩
      rw [List.map_cons, value.readWithin first enough, rest.readWithin others enough]

end

theorem Denotes.read {heap : Heap} {value : Value} {j : Json} (denotes : Denotes heap value j) :
    heap.read value = j := by
  have nothing : Inside heap ∅ (sizeOf j) := fun loc mem => absurd mem (Finset.notMem_empty loc)
  exact denotes.readWithin nothing (by simp)

/-! ### Drafts -/

/-- The heap in which the object at `loc` cannot be read through: it is a list of itself. -/
def without (loc : ℕ) (heap : Heap) : Heap := heap.set loc (.list [.ref loc])

theorem not_denotes_without {loc : ℕ} {heap : Heap} (j : Json) :
    ¬Denotes (without loc heap) (.ref loc) j := by
  intro denotes
  have there {object : Object} (here : (without loc heap)[loc]? = some object) :
      object = .list [.ref loc] := by
    have lt := (List.getElem?_eq_some_iff.mp here).1
    rw [without, List.length_set] at lt
    rw [without, List.getElem?_set_self lt] at here
    exact (Option.some.inj here).symm
  -- the same value would be an item of itself
  cases denotes with
  | dict here _ => cases there here
  | list here items =>
      cases there here
      cases items with
      | cons item rest => exact not_denotes_without _ item
termination_by sizeOf j

mutual

theorem Denotes.off {loc : ℕ} {heap heap' : Heap} (same : ∀ l, l ≠ loc → heap'[l]? = heap[l]?)
    {value : Value} {j : Json} (denotes : Denotes (without loc heap) value j) :
    Denotes heap' value j := by
  have elsewhere {l : ℕ} {j : Json} (denotes : Denotes (without loc heap) (.ref l) j)
      {object : Object} (here : (without loc heap)[l]? = some object) : heap'[l]? = some object := by
    have ne : l ≠ loc := by
      rintro rfl
      exact not_denotes_without j denotes
    rw [without, List.getElem?_set_ne ne.symm] at here
    rw [same l ne, here]
  cases denotes with
  | plain atomic => exact .plain atomic
  | dict here fields => exact .dict (elsewhere (.dict here fields) here) (fields.off same)
  | list here items => exact .list (elsewhere (.list here items) here) (items.off same)

theorem DenotesFields.off {loc : ℕ} {heap heap' : Heap}
    (same : ∀ l, l ≠ loc → heap'[l]? = heap[l]?) {fields : List (String × Value)} {js : Fields}
    (denotes : DenotesFields (without loc heap) fields js) : DenotesFields heap' fields js := by
  cases denotes with
  | nil => exact .nil
  | cons value rest => exact .cons (value.off same) (rest.off same)

theorem DenotesItems.off {loc : ℕ} {heap heap' : Heap}
    (same : ∀ l, l ≠ loc → heap'[l]? = heap[l]?) {items : List Value} {js : List Json}
    (denotes : DenotesItems (without loc heap) items js) : DenotesItems heap' items js := by
  cases denotes with
  | nil => exact .nil
  | cons value rest => exact .cons (value.off same) (rest.off same)

end

theorem without_append {loc : ℕ} {heap : Heap} (lt : loc < heap.length) (made : Heap) :
    without loc (heap ++ made) = without loc heap ++ made := List.set_append_left _ _ lt

theorem without_mono {loc : ℕ} {heap heap' : Heap} (le : heap <+: heap') (lt : loc < heap.length) :
    without loc heap <+: without loc heap' := by
  obtain ⟨made, rfl⟩ := le
  rw [without_append lt]
  exact List.prefix_append _ _

/-- A dictionary that was made after `base`, and that none of its own values lies in. -/
structure Draft (base heap : Heap) (loc : ℕ) (js : Fields) : Prop where
  le : base <+: heap
  new : base.length ≤ loc
  here : ∃ fields, heap[loc]? = some (.dict fields) ∧ DenotesFields (without loc heap) fields js

section Draft

variable {base heap heap' : Heap} {loc : ℕ} {js : Fields}

theorem draft_copy {src : ℕ} (denotes : Denotes heap (.ref src) (.obj js)) :
    Draft heap (copy src heap).1 (copy src heap).2 js := by
  refine ⟨List.prefix_append _ _, le_rfl, heap.fields src, by simp [copy, alloc], ?_⟩
  exact denotes.dict_fields.2.mono (prefix_set (List.prefix_append _ _) le_rfl _)

theorem Draft.lt (draft : Draft base heap loc js) : loc < heap.length := by
  obtain ⟨fields, here, -⟩ := draft.here
  exact (List.getElem?_eq_some_iff.mp here).1

/-- What is read of a draft. -/
theorem Draft.denotes (draft : Draft base heap loc js) : Denotes heap (.ref loc) (.obj js) := by
  obtain ⟨fields, here, all⟩ := draft.here
  exact .dict here (all.off fun _ _ => rfl)

theorem Draft.fields (draft : Draft base heap loc js) :
    DenotesFields (without loc heap) (heap.fields loc) js := by
  obtain ⟨fields, here, all⟩ := draft.here
  rw [Heap.fields_eq here]
  exact all

/-- Other objects may be made. -/
theorem Draft.later (draft : Draft base heap loc js) (le : heap <+: heap') :
    Draft base heap' loc js := by
  obtain ⟨fields, here, all⟩ := draft.here
  exact ⟨draft.le.trans le, draft.new, fields, getElem?_mono le here,
    all.mono (without_mono le draft.lt)⟩

theorem Draft.alloc (draft : Draft base heap loc js) (object : Object) :
    Draft base (alloc object heap).1 loc js := draft.later (List.prefix_append _ _)

theorem Draft.update (draft : Draft base heap loc js) {fields : List (String × Value)} {js' : Fields}
    (denotes : DenotesFields (without loc heap) fields js') :
    Draft base (heap.set loc (.dict fields)) loc js' := by
  refine ⟨prefix_set draft.le draft.new _, draft.new, fields, ?_, ?_⟩
  · exact List.getElem?_set_self draft.lt
  · rw [without, List.set_set]
    exact denotes

theorem Draft.setField (draft : Draft base heap loc js) (key : String) {value : Value} {j : Json}
    (denotes : Denotes (without loc heap) value j) :
    Draft base (setField loc key value heap) loc (js.set key j) :=
  draft.update (draft.fields.write denotes)

theorem Draft.delField (draft : Draft base heap loc js) (key : String) :
    Draft base (delField loc key heap) loc (js.erase key) :=
  draft.update (draft.fields.filter fun name => name ≠ key)

end Draft

/-! ### Making objects beside a draft -/

/-- The heap without the draft, if there is one. -/
def hide (hole : Option ℕ) (heap : Heap) : Heap := hole.elim heap fun loc => without loc heap

def Fits (hole : Option ℕ) (heap : Heap) : Prop := ∀ loc ∈ hole, loc < heap.length

/-- The items of a list. -/
def Heap.items (heap : Heap) : Value → List Value
  | .ref loc => match heap[loc]? with
      | some (.list items) => items
      | _ => []
  | .plain _ => []

/-- The value under a key of a dictionary, if the value is one. -/
def Heap.valueAt (heap : Heap) (value : Value) (key : String) : Option Value :=
  (heap.dict? value).bind fun loc => lookup (heap.fields loc) key

section Hide

variable {hole : Option ℕ} {heap heap' : Heap} {value : Value} {j : Json} {js : Fields}

theorem Denotes.shown (denotes : Denotes (hide hole heap) value j) : Denotes heap value j := by
  cases hole with
  | none => exact denotes
  | some loc => exact denotes.off fun _ _ => rfl

theorem Fits.mono (fits : Fits hole heap) (le : heap <+: heap') : Fits hole heap' :=
  fun loc mem => (fits loc mem).trans_le le.length_le

theorem hide_mono (le : heap <+: heap') (fits : Fits hole heap) :
    hide hole heap <+: hide hole heap' := by
  cases hole with
  | none => exact le
  | some loc => exact without_mono le (fits loc rfl)

theorem getElem?_alloc (fits : Fits hole heap) (object : Object) :
    (hide hole (alloc object heap).1)[(alloc object heap).2]? = some object := by
  cases hole with
  | none => simp [hide, alloc]
  | some loc =>
      rw [hide, Option.elim_some, alloc, without_append (fits loc rfl)]
      simp [without]

theorem denotes_dict (fits : Fits hole heap) {fields : List (String × Value)}
    (all : DenotesFields (hide hole heap) fields js) :
    Denotes (hide hole (alloc (.dict fields) heap).1) (.ref (alloc (.dict fields) heap).2)
      (.obj js) :=
  .dict (getElem?_alloc fits _) (all.mono (hide_mono (List.prefix_append _ _) fits))

theorem denotes_list (fits : Fits hole heap) {items : List Value} {js : List Json}
    (all : DenotesItems (hide hole heap) items js) :
    Denotes (hide hole (alloc (.list items) heap).1) (.ref (alloc (.list items) heap).2) (.arr js) :=
  .list (getElem?_alloc fits _) (all.mono (hide_mono (List.prefix_append _ _) fits))

/-- What is hidden is not read. -/
theorem getElem?_hide {loc : ℕ} (denotes : Denotes (hide hole heap) (.ref loc) j) :
    (hide hole heap)[loc]? = heap[loc]? := by
  cases hole with
  | none => rfl
  | some l =>
      have ne : l ≠ loc := by
        rintro rfl
        exact not_denotes_without j denotes
      exact List.getElem?_set_ne ne

theorem Denotes.hidden_fields {loc : ℕ} (denotes : Denotes (hide hole heap) (.ref loc) (.obj js)) :
    DenotesFields (hide hole heap) (heap.fields loc) js := by
  have same := getElem?_hide denotes
  cases denotes with
  | dict here fields =>
      rw [Heap.fields_eq (same.symm.trans here)]
      exact fields

theorem Denotes.hidden_items {js : List Json} (denotes : Denotes (hide hole heap) value (.arr js)) :
    DenotesItems (hide hole heap) (heap.items value) js := by
  cases denotes with
  | plain atomic => exact atomic.elim
  | list here items =>
      have same := getElem?_hide (.list here items)
      rw [Heap.items, same.symm.trans here]
      exact items

/-- The items of what is no list. -/
theorem Denotes.no_items (denotes : Denotes heap value j) (other : ∀ js, j ≠ .arr js) :
    heap.items value = [] := by
  cases denotes with
  | plain _ => rfl
  | dict here _ => rw [Heap.items, here]
  | list here _ => exact absurd rfl (other _)

theorem Denotes.hidden_valueAt (denotes : Denotes (hide hole heap) value j) (key : String) :
    (heap.valueAt value key = none ∧ j.get? key = none) ∨
      ∃ inner j', heap.valueAt value key = some inner ∧ j.get? key = some j' ∧
        Denotes (hide hole heap) inner j' := by
  rcases denotes.shown.dict? with ⟨loc, js, dict, rfl, rfl⟩ | ⟨none, other⟩
  · rw [Heap.valueAt, dict, Option.bind_some]
    exact denotes.hidden_fields.lookup key
  · refine .inl ⟨by rw [Heap.valueAt, none]; rfl, ?_⟩
    cases j with
    | obj js => exact absurd rfl (other js)
    | _ => rfl

end Hide

/-! ### Loops that build a list -/

/-- One object after the other, as long as none raises. -/
def collect (f : Value → Heap → Heap × Option Value) : List Value → Heap → Heap × Option (List Value)
  | [], heap => (heap, some [])
  | item :: items, heap =>
      let first := f item heap
      match first.2 with
      | none => (first.1, none)
      | some made =>
          let rest := collect f items first.1
          (rest.1, rest.2.map fun more => made :: more)

/-- A run that only makes objects, and that gives what `result` is or raises where it is none. -/
structure Makes (hole : Option ℕ) (heap : Heap) (run : Heap × Option Value) (result : Option Json) :
    Prop where
  le : heap <+: run.1
  value : run.2.isSome = result.isSome
  denotes : ∀ value ∈ run.2, ∀ j ∈ result, Denotes (hide hole run.1) value j

theorem collect_spec {hole : Option ℕ} {f : Value → Heap → Heap × Option Value}
    {g : Json → Option Json}
    (spec : ∀ heap value j, Fits hole heap → Denotes (hide hole heap) value j →
      Makes hole heap (f value heap) (g j))
    {heap : Heap} {items : List Value} {js : List Json} (fits : Fits hole heap)
    (all : DenotesItems (hide hole heap) items js) :
    heap <+: (collect f items heap).1 ∧ (collect f items heap).2.isSome = (js.mapM g).isSome ∧
      ∀ made ∈ (collect f items heap).2, ∀ js' ∈ js.mapM g,
        DenotesItems (hide hole (collect f items heap).1) made js' := by
  induction items generalizing heap js with
  | nil =>
      cases all
      refine ⟨List.prefix_refl _, rfl, fun made mem js' mem' => ?_⟩
      cases mem
      cases mem'
      exact .nil
  | cons item items ih =>
      cases all with
      | @cons _ j _ js here rest =>
          obtain ⟨le, value, denotes⟩ := spec heap item j fits here
          rw [collect, List.mapM_cons]
          cases made : (f item heap).2 with
          | none =>
              rw [made, Option.isSome_none, eq_comm, Option.isSome_eq_false_iff,
                Option.isNone_iff_eq_none] at value
              refine ⟨le, by simp [value], fun made mem => ?_⟩
              simp [*] at mem
          | some first =>
              rw [made, Option.isSome_some, eq_comm, Option.isSome_iff_exists] at value
              obtain ⟨j', found⟩ := value
              have later := rest.mono (hide_mono le fits)
              obtain ⟨le', value', denotes'⟩ := ih (fits.mono le) later
              refine ⟨le.trans le', ?_, ?_⟩
              · simp only [found, Option.bind_eq_bind, Option.bind_some, Option.isSome_map, value']
                cases js.mapM g with
                | none | some js' => rfl
              · intro all mem js' mem'
                simp only [Option.mem_def, Option.map_eq_some_iff] at mem
                obtain ⟨more, mem, rfl⟩ := mem
                simp only [found, Option.mem_def, Option.pure_def, Option.bind_eq_bind,
                  Option.bind_some, Option.bind_eq_some_iff, Option.some.injEq] at mem'
                obtain ⟨js'', mem', rfl⟩ := mem'
                refine .cons ?_ (denotes' more mem js'' mem')
                exact (denotes first made j' found).mono (hide_mono le' (fits.mono le))

end Objects
