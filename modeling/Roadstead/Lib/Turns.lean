import Mathlib.Data.List.Basic

/-!
# Loops over a list

A loop that reads a list from the front: each turn takes the first item, and more of them if it
wants, and gives some outputs (`turns`).  The number of turns is a bound for the recursion only; the
length of the list is enough of them (`turns_cons`).
-/

namespace Turns

variable {α β : Type*}

/-- The outputs of a loop, of at most so many turns. -/
def turns (step : α → List α → List β × List α) : ℕ → List α → List β
  | n + 1, a :: s => (step a s).1 ++ turns step n (step a s).2
  | _, _ => []

/-- A turn takes the first item at least. -/
def Advances (step : α → List α → List β × List α) : Prop :=
  ∀ a s, (step a s).2.length ≤ s.length

variable {step : α → List α → List β × List α}

theorem turns_eq (advances : Advances step) {n m : ℕ} {s : List α} (enough : s.length ≤ n)
    (enough' : s.length ≤ m) : turns step n s = turns step m s := by
  induction n generalizing m s with
  | zero =>
      rw [List.length_eq_zero_iff.mp (Nat.le_zero.mp enough)]
      cases m <;> rfl
  | succ n ih =>
      cases s with
      | nil => cases m <;> rfl
      | cons a s =>
          cases m with
          | zero => cases enough'
          | succ m =>
              have rest : turns step n (step a s).2 = turns step m (step a s).2 :=
                ih (Nat.le_trans (advances a s) (Nat.le_of_succ_le_succ enough))
                  (Nat.le_trans (advances a s) (Nat.le_of_succ_le_succ enough'))
              rw [turns, turns, rest]

/-- One turn. -/
theorem turns_cons (advances : Advances step) (a : α) (s : List α) :
    turns step (a :: s).length (a :: s) = (step a s).1 ++ turns step (step a s).2.length (step a s).2 := by
  rw [List.length_cons, turns, turns_eq advances (advances a s) (Nat.le_refl _)]

/-- Induction along the turns of a loop. -/
theorem turns_induction (advances : Advances step) {motive : List α → Prop} (nil : motive [])
    (turn : ∀ a s, motive (step a s).2 → motive (a :: s)) (s : List α) : motive s := by
  induction h : s.length using Nat.strongRecOn generalizing s with
  | _ n ih =>
    cases s with
    | nil => exact nil
    | cons a s =>
        have short := advances a s
        rw [List.length_cons] at h
        exact turn a s (ih _ (by omega) _ rfl)

end Turns
