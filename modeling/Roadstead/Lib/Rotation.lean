import Mathlib.Data.List.Infix
import Mathlib.Logic.Function.Basic

/-!
# Rotating lists

A chain of numbered slots, each with a list or with none.  Items are put at the end of slot 0;
`steps n` is a rotation: slot `n` is given up, and what the other slots have moves up by one, from the
last to the first.

`reading` is what the slots have, the oldest first.  A rotation that is cut short, wherever, gives up
at most what slot `n` had (`reading_steps`): it never moves a list to where there is one.
-/

namespace Rotation

variable {α : Type*}

/-- Lists in numbered slots. -/
abbrev Slots (α : Type*) := ℕ → Option (List α)

/-- What a slot has. -/
def content (slots : Slots α) (i : ℕ) : List α := (slots i).getD []

/-- What the slots up to `n` have, the last one first. -/
def reading (slots : Slots α) : ℕ → List α
  | 0 => content slots 0
  | n + 1 => content slots (n + 1) ++ reading slots n

/-- Give up a slot. -/
def remove (i : ℕ) (slots : Slots α) : Slots α := Function.update slots i none

/-- Move what a slot has up by one. -/
def shift (i : ℕ) (slots : Slots α) : Slots α :=
  match slots i with
  | none => slots
  | some items => Function.update (Function.update slots (i + 1) (some items)) i none

/-- Move what the slots below `k` have up by one, from the last to the first. -/
def shifts : ℕ → List (Slots α → Slots α)
  | 0 => []
  | k + 1 => shift k :: shifts k

/-- A rotation. -/
def steps (n : ℕ) : List (Slots α → Slots α) := remove n :: shifts n

/-- Take some steps, one after the other. -/
def take (fs : List (Slots α → Slots α)) (slots : Slots α) : Slots α :=
  fs.foldl (fun slots f => f slots) slots

variable {slots : Slots α} {i n : ℕ}

/-! ### One step -/

theorem reading_congr {slots' : Slots α} (same : ∀ i ≤ n, content slots' i = content slots i) :
    reading slots' n = reading slots n := by
  induction n with
  | zero => exact same 0 le_rfl
  | succ n ih =>
      rw [reading, reading, same (n + 1) le_rfl, ih fun i le => same i (Nat.le_succ_of_le le)]

@[simp] theorem content_update (slots : Slots α) (i : ℕ) (items : Option (List α)) (j : ℕ) :
    content (Function.update slots i items) j = if j = i then items.getD [] else content slots j := by
  rw [content, Function.update_apply]
  split
  · rfl
  · rfl

/-- What is put at the end of slot 0 is read last. -/
theorem reading_update_zero (slots : Slots α) (items more : List α)
    (same : content slots 0 = items) (n : ℕ) :
    reading (Function.update slots 0 (some (items ++ more))) n = reading slots n ++ more := by
  induction n with
  | zero => rw [reading, reading, content_update, if_pos rfl, same, Option.getD_some]
  | succ n ih =>
      rw [reading, reading, content_update, if_neg (Nat.succ_ne_zero n), ih, List.append_assoc]

theorem reading_remove (slots : Slots α) (n : ℕ) :
    reading (remove (n + 1) slots) (n + 1) = reading slots n := by
  rw [reading, remove, content_update, if_pos rfl]
  refine reading_congr fun i le => ?_
  rw [content_update, if_neg (Nat.lt_succ_of_le le).ne]

theorem shift_self (slots : Slots α) (i : ℕ) : shift i slots i = none := by
  cases held : slots i with
  | none => simp only [shift, held]
  | some items => simp only [shift, held, Function.update_self]

theorem shift_apply (free : slots (i + 1) = none) (j : ℕ) :
    shift i slots j = if j = i then none else if j = i + 1 then slots i else slots j := by
  cases held : slots i with
  | none =>
      simp only [shift, held]
      split
      · next here => rw [here, held]
      · split
        · next above => rw [above, free]
        · rfl
  | some items => simp only [shift, held, Function.update_apply]

theorem content_shift (free : slots (i + 1) = none) (j : ℕ) :
    content (shift i slots) j =
      if j = i then [] else if j = i + 1 then content slots i else content slots j := by
  rw [content, shift_apply free]
  split
  · rfl
  · split
    · rfl
    · rfl

/-- A list that moves to a free slot is read where it was. -/
theorem reading_shift (free : slots (i + 1) = none) (le : i + 1 ≤ n) :
    reading (shift i slots) n = reading slots n := by
  induction n, le using Nat.le_induction with
  | base =>
      have empty : content slots (i + 1) = [] := by rw [content, free, Option.getD_none]
      have kept : ∀ j < i, content (shift i slots) j = content slots j := fun j lt => by
        rw [content_shift free, if_neg lt.ne, if_neg (lt.trans (Nat.lt_succ_self i)).ne]
      have moved : content (shift i slots) (i + 1) = content slots i := by
        rw [content_shift free, if_neg (Nat.succ_ne_self i), if_pos rfl]
      have left : content (shift i slots) i = [] := by rw [content_shift free, if_pos rfl]
      rw [reading, reading, moved, empty, List.nil_append]
      cases i with
      | zero => rw [reading, reading, left, List.append_nil]
      | succ i =>
          rw [reading, reading, left, List.nil_append,
            reading_congr fun j le => kept j (Nat.lt_succ_of_le le)]
  | succ n le ih =>
      rw [reading, reading, ih, content_shift free,
        if_neg (show n + 1 ≠ i by omega), if_neg (show n + 1 ≠ i + 1 by omega)]

/-! ### A rotation -/

/-- As long as the slot above is free, what moves up is read where it was. -/
theorem reading_shifts (free : slots n = none) {m : ℕ} (le : n ≤ m) (done : ℕ) :
    reading (take ((shifts n).take done) slots) m = reading slots m := by
  induction n generalizing slots done with
  | zero => rw [shifts, List.take_nil, take, List.foldl_nil]
  | succ n ih =>
      cases done with
      | zero => rfl
      | succ done =>
          rw [shifts, List.take_succ_cons, take, List.foldl_cons]
          have rest := ih (shift_self slots n) (Nat.le_of_succ_le le) done
          rw [take] at rest
          rw [rest, reading_shift free le]

/-- A rotation gives up what slot `n` has, or nothing, wherever it is cut short. -/
theorem reading_steps (slots : Slots α) (n done : ℕ) :
    reading (take ((steps (n + 1)).take done) slots) (n + 1) = reading slots (n + 1) ∨
      reading (take ((steps (n + 1)).take done) slots) (n + 1) = reading slots n := by
  cases done with
  | zero => exact .inl rfl
  | succ done =>
      refine .inr ?_
      rw [steps, List.take_succ_cons, take, List.foldl_cons]
      have free : remove (n + 1) slots (n + 1) = none := Function.update_self ..
      have kept := reading_shifts free le_rfl done
      rw [take] at kept
      rw [kept, reading_remove]

end Rotation
