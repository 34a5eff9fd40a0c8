import Mathlib.Algebra.GroupWithZero.Nat
import Mathlib.Algebra.Order.BigOperators.Group.List
import Mathlib.Algebra.Order.Group.Nat
import Mathlib.Data.List.Count
import Roadstead.Lib.Json

/-!
# Longer values, and their length in print

`Longer value value'` says that `value'` is `value` with characters put into its texts and items
or fields put behind those of its lists and objects.  `printed text float value` is the length of
a value that is written with ", " and ": ", each text as long as `text` says: a value that is
longer is printed longer, whatever is done to the texts, if a longer text is (`printed_le`).
-/

/-- Each item of the first list has its like at the same place of the second, which may go on. -/
def List.Grown {α : Type*} (R : α → α → Prop) : List α → List α → Prop
  | [], _ => True
  | _ :: _, [] => False
  | a :: as, b :: bs => R a b ∧ List.Grown R as bs

namespace List.Grown

variable {α : Type*} {R : α → α → Prop}

theorem refl (same : ∀ a, R a a) : ∀ as : List α, as.Grown R as
  | [] => trivial
  | a :: as => ⟨same a, refl same as⟩

theorem append (same : ∀ a, R a a) (more : List α) : ∀ as : List α, as.Grown R (as ++ more)
  | [] => trivial
  | a :: as => ⟨same a, append same more as⟩

theorem sum_le {f : α → ℕ} (le : ∀ a b, R a b → f a ≤ f b) :
    ∀ as bs : List α, as.Grown R bs → (as.map f).sum ≤ (bs.map f).sum
  | [], _, _ => Nat.zero_le _
  | _ :: _, [], h => h.elim
  | a :: as, b :: bs, h => Nat.add_le_add (le a b h.1) (sum_le le as bs h.2)

end List.Grown

namespace Json

/-! ### Texts -/

/-- Characters are put into a text, anywhere. -/
def LongerText (s t : String) : Prop := s.toList.Sublist t.toList

theorem LongerText.refl (s : String) : LongerText s s := List.Sublist.refl _

theorem LongerText.append (s t : String) : LongerText s (s ++ t) := by
  unfold LongerText
  rw [String.toList_append]
  exact List.sublist_append_left _ _

theorem LongerText.length_le {s t : String} (h : LongerText s t) : s.length ≤ t.length := by
  rw [← String.length_toList, ← String.length_toList]
  exact List.Sublist.length_le h

theorem LongerText.sum_le {s t : String} (h : LongerText s t) (f : Char → ℕ) :
    (s.toList.map f).sum ≤ (t.toList.map f).sum :=
  (List.Sublist.map f h).sum_le_sum fun _ _ => Nat.zero_le _

theorem LongerText.ne_empty {s t : String} (h : LongerText s t) (some_text : s ≠ "") : t ≠ "" := by
  rintro rfl
  have empty : s.toList = [] := List.sublist_nil.mp h
  exact some_text (String.toList_eq_nil_iff.mp empty)

/-! ### Values -/

mutual

/-- Texts are longer, and lists and objects go on. -/
def Longer : Json → Json → Prop
  | .str s, .str t => LongerText s t
  | .arr items, .arr items' => LongerItems items items'
  | .obj fields, .obj fields' => LongerFields fields fields'
  | value, value' => value = value'

def LongerItems : List Json → List Json → Prop
  | [], _ => True
  | _ :: _, [] => False
  | item :: items, item' :: items' => Longer item item' ∧ LongerItems items items'

def LongerFields : List (String × Json) → List (String × Json) → Prop
  | [], _ => True
  | _ :: _, [] => False
  | (key, value) :: fields, (key', value') :: fields' =>
      LongerText key key' ∧ Longer value value' ∧ LongerFields fields fields'

end

mutual

theorem Longer.refl : ∀ value : Json, Longer value value
  | .null | .bool _ | .int _ | .float _ => rfl
  | .str s => LongerText.refl s
  | .arr items => LongerItems.refl items
  | .obj fields => LongerFields.refl fields

theorem LongerItems.refl : ∀ items : List Json, LongerItems items items
  | [] => trivial
  | item :: items => ⟨Longer.refl item, LongerItems.refl items⟩

theorem LongerFields.refl : ∀ fields : List (String × Json), LongerFields fields fields
  | [] => trivial
  | (key, value) :: fields => ⟨LongerText.refl key, Longer.refl value, LongerFields.refl fields⟩

end

/-- What is longer has the same shape. -/
theorem Longer.shape {value value' : Json} (h : Longer value value') :
    (∃ s t, value = .str s ∧ value' = .str t ∧ LongerText s t) ∨
    (∃ items items', value = .arr items ∧ value' = .arr items' ∧ LongerItems items items') ∨
    (∃ fields fields', value = .obj fields ∧ value' = .obj fields' ∧ LongerFields fields fields') ∨
    value = value' := by
  cases value with
  | str s =>
      cases value' with
      | str t => exact .inl ⟨s, t, rfl, rfl, h⟩
      | _ => exact nomatch h
  | arr items =>
      cases value' with
      | arr items' => exact .inr (.inl ⟨items, items', rfl, rfl, h⟩)
      | _ => exact nomatch h
  | obj fields =>
      cases value' with
      | obj fields' => exact .inr (.inr (.inl ⟨fields, fields', rfl, rfl, h⟩))
      | _ => exact nomatch h
  | _ => exact .inr (.inr (.inr h))

theorem Longer.truthy {value value' : Json} (h : Longer value value')
    (true_ : value.truthy = true) : value'.truthy = true := by
  rcases h.shape with ⟨s, t, rfl, rfl, longer⟩ | ⟨items, items', rfl, rfl, longer⟩ |
    ⟨fields, fields', rfl, rfl, longer⟩ | rfl
  · exact decide_eq_true (longer.ne_empty (of_decide_eq_true true_))
  · cases items with
    | nil => exact nomatch true_
    | cons item items =>
        cases items' with
        | nil => exact longer.elim
        | cons item' items' => rfl
  · cases fields with
    | nil => exact nomatch true_
    | cons field fields =>
        cases fields' with
        | nil => exact longer.elim
        | cons field' fields' => rfl
  · exact true_

/-! ### Length in print -/

section Printed

variable (text : String → ℕ) (float : Flt → ℕ)

mutual

/-- The length of a value in print. -/
def printed : Json → ℕ
  | .null => 4
  | .bool true => 4
  | .bool false => 5
  | .int n => (toString n).length
  | .float x => float x
  | .str s => text s
  | .arr items => max 2 (printedItems items)
  | .obj fields => max 2 (printedFields fields)

/-- Each item with the comma and the blank after it, or the two brackets. -/
def printedItems : List Json → ℕ
  | [] => 0
  | item :: items => printed item + 2 + printedItems items

def printedFields : List (String × Json) → ℕ
  | [] => 0
  | (key, value) :: fields => text key + 2 + printed value + 2 + printedFields fields

end

variable {text}

mutual

/-- A longer value is printed longer. -/
theorem printed_le (longer : ∀ s t, LongerText s t → text s ≤ text t) :
    ∀ value value' : Json, Longer value value' →
      printed text float value ≤ printed text float value'
  | .null, value', h => by cases value' <;> first | exact le_rfl | exact nomatch h
  | .bool _, value', h | .int _, value', h | .float _, value', h => h ▸ le_rfl
  | .str s, value', h => by
      cases value' with
      | str t => exact longer s t h
      | _ => exact nomatch h
  | .arr items, value', h => by
      cases value' with
      | arr items' => exact max_le_max le_rfl (printedItems_le longer items items' h)
      | _ => exact nomatch h
  | .obj fields, value', h => by
      cases value' with
      | obj fields' => exact max_le_max le_rfl (printedFields_le longer fields fields' h)
      | _ => exact nomatch h

theorem printedItems_le (longer : ∀ s t, LongerText s t → text s ≤ text t) :
    ∀ items items' : List Json, LongerItems items items' →
      printedItems text float items ≤ printedItems text float items'
  | [], _, _ => Nat.zero_le _
  | _ :: _, [], h => h.elim
  | item :: items, item' :: items', h =>
      Nat.add_le_add (Nat.add_le_add_right (printed_le longer item item' h.1) 2)
        (printedItems_le longer items items' h.2)

theorem printedFields_le (longer : ∀ s t, LongerText s t → text s ≤ text t) :
    ∀ fields fields' : List (String × Json), LongerFields fields fields' →
      printedFields text float fields ≤ printedFields text float fields'
  | [], _, _ => Nat.zero_le _
  | _ :: _, [], h => h.elim
  | (key, value) :: fields, (key', value') :: fields', h => by
      have ofKey := longer key key' h.1
      have ofValue := printed_le longer value value' h.2.1
      have rest := printedFields_le longer fields fields' h.2.2
      unfold printedFields
      omega

end

end Printed

end Json
