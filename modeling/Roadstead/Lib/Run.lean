import Mathlib.Algebra.BigOperators.Group.List.Basic
import Mathlib.Algebra.GroupWithZero.Nat
import Mathlib.Data.List.Basic
import Mathlib.Data.List.Induction
import Mathlib.Data.Nat.Basic

/-!
# Bounded loops and guarded runs

Two shapes of repetition, each with the one induction a proof about it needs.

* `iterate step n s` is a `while` loop with a `break`: it applies `step` until
  `step` declines (`none`) or `n` rounds are used up.  `iterate_invariant` carries
  an invariant through it; `iterate_stopped` says that a loop whose rounds each
  lower a measure has *declined*, and not run out of rounds, once the bound is at
  least the measure it started from.  `foldl_rest` is the rule for a `for` loop over a
  list that the body changes under its own feet.
* `run step s as` feeds a list of inputs to a transition function.  `Along guard`
  says that each input of the list satisfied `guard` in the state it was fed to,
  and `run_invariant` carries an invariant through the runs that do.  `run_bounded` bounds
  how long a run can go on when each step pays for itself out of a measure that only
  some inputs add to.
* `faulty step fault` is a step that an exception can cut short; `run_faulty` says that guards
  under which none escapes make its runs those of `step`.
* `emitted` is what the steps of a run emit, each in the state it starts from.
* `Clocked` says that the inputs come at times that do not go back, and `run_clocked` carries an
  invariant that may speak of all inputs so far through such runs.
* `Paired` feeds two lists of inputs to two runs, pair by pair; `run_paired` carries a relation
  between their states through them.
-/

universe u v

variable {σ : Type u} {α : Type v}

/-! ### Loops with a break -/

namespace Loop

/-- Apply `step` until it declines, at most `n` times. -/
def iterate (step : σ → Option σ) : ℕ → σ → σ
  | 0, s => s
  | n + 1, s =>
      match step s with
      | none => s
      | some s' => iterate step n s'

/-- An invariant of one round is an invariant of the loop. -/
theorem iterate_invariant {step : σ → Option σ} {Inv : σ → Prop}
    (preserved : ∀ s s', Inv s → step s = some s' → Inv s') :
    ∀ (n : ℕ) {s : σ}, Inv s → Inv (iterate step n s) := by
  intro n
  induction n with
  | zero => exact fun h => h
  | succ n ih =>
      intro s h
      unfold iterate
      cases hstep : step s with
      | none => exact h
      | some s' => exact ih (preserved s s' h hstep)

/-- A loop with enough rounds ends because `step` declines. -/
theorem iterate_stopped {step : σ → Option σ} {Inv : σ → Prop} (measure : σ → ℕ)
    (preserved : ∀ s s', Inv s → step s = some s' → Inv s')
    (decreases : ∀ s s', Inv s → step s = some s' → measure s' < measure s) :
    ∀ (n : ℕ) {s : σ}, Inv s → measure s ≤ n → step (iterate step n s) = none := by
  intro n
  induction n with
  | zero =>
      intro s h bound
      unfold iterate
      cases hstep : step s with
      | none => rfl
      | some s' =>
          have := decreases s s' h hstep
          omega
  | succ n ih =>
      intro s h bound
      unfold iterate
      cases hstep : step s with
      | none => exact hstep
      | some s' =>
          have := decreases s s' h hstep
          exact ih (preserved s s' h hstep) (by omega)

/-- An invariant that speaks about what is left of the list of a fold. -/
theorem foldl_rest {f : σ → α → σ} (Inv : List α → σ → Prop)
    (each : ∀ a as s, Inv (a :: as) s → Inv as (f s a)) (as : List α) {s : σ} (start : Inv as s) :
    Inv [] (as.foldl f s) := by
  induction as generalizing s with
  | nil => exact start
  | cons a as ih => exact ih (each a as s start)

end Loop

/-! ### Runs of a transition function -/

namespace Runs

variable (step : σ → α → σ)

/-- The state after feeding `as` to `step`, in order. -/
def run (s : σ) (as : List α) : σ := as.foldl step s

@[simp] theorem run_nil (s : σ) : run step s [] = s := rfl

@[simp] theorem run_cons (s : σ) (a : α) (as : List α) :
    run step s (a :: as) = run step (step s a) as := rfl

theorem run_append (s : σ) (before after : List α) :
    run step s (before ++ after) = run step (run step s before) after := List.foldl_append

/-- Every input of the run satisfies `guard` in the state it is fed to. -/
def Along (guard : σ → α → Prop) : σ → List α → Prop
  | _, [] => True
  | s, a :: as => guard s a ∧ Along guard (step s a) as

instance decidableAlong {guard : σ → α → Prop} [∀ s a, Decidable (guard s a)] :
    ∀ (s : σ) (as : List α), Decidable (Along step guard s as)
  | _, [] => isTrue trivial
  | s, a :: as => @instDecidableAnd _ _ _ (decidableAlong (step s a) as)

variable {step}

variable {guard : σ → α → Prop} {as : List α}

/-- An invariant of every guarded step is an invariant of every guarded run. -/
theorem run_invariant (Inv : σ → Prop)
    (preserved : ∀ s a, Inv s → guard s a → Inv (step s a)) {s : σ}
    (start : Inv s) (along : Along step guard s as) : Inv (run step s as) := by
  induction as generalizing s with
  | nil => exact start
  | cons a as ih => exact ih (preserved s a start along.1) along.2

/-- A guarded run is guarded up to any of its inputs, and there. -/
theorem Along.split {s : σ} {before after : List α} {a : α}
    (along : Along step guard s (before ++ a :: after)) :
    Along step guard s before ∧ guard (run step s before) a := by
  induction before generalizing s with
  | nil => exact ⟨trivial, along.1⟩
  | cons b before ih =>
      obtain ⟨rest, here⟩ := ih along.2
      exact ⟨⟨along.1, rest⟩, here⟩

/-- A run is guarded when its two parts are. -/
theorem along_append {s : σ} {before after : List α} :
    Along step guard s (before ++ after) ↔
      Along step guard s before ∧ Along step guard (run step s before) after := by
  induction before generalizing s with
  | nil => exact (iff_of_eq (true_and _)).symm
  | cons a before ih => exact (and_congr_right fun _ => ih).trans and_assoc.symm

/-- A run is guarded when each of its inputs is, where it stands. -/
theorem along_of_split {s : σ}
    (each : ∀ before a after, as = before ++ a :: after → guard (run step s before) a) :
    Along step guard s as := by
  induction as generalizing s with
  | nil => trivial
  | cons a as ih =>
      refine ⟨each [] a as rfl, ih fun before b after split => ?_⟩
      exact each (a :: before) b after (congrArg (a :: ·) split)

/-- Two guards of one run are one guard. -/
theorem Along.and {guard guard' : σ → α → Prop} {s : σ}
    (along : Along step guard s as) (along' : Along step guard' s as) :
    Along step (fun s a => guard s a ∧ guard' s a) s as := by
  induction as generalizing s with
  | nil => trivial
  | cons a as ih => exact ⟨⟨along.1, along'.1⟩, ih along.2 along'.2⟩

/-- A guard can be weakened. -/
theorem Along.mono {guard guard' : σ → α → Prop} {s : σ}
    (along : Along step guard s as) (weaker : ∀ s a, guard s a → guard' s a) :
    Along step guard' s as := by
  induction as generalizing s with
  | nil => trivial
  | cons a as ih => exact ⟨weaker s a along.1, ih along.2⟩

/-- A condition on the inputs alone can join any guard. -/
theorem Along.and_forall {P : α → Prop} {s : σ}
    (along : Along step guard s as) (every : ∀ a ∈ as, P a) :
    Along step (fun s a => guard s a ∧ P a) s as := by
  induction as generalizing s with
  | nil => trivial
  | cons a as ih =>
      exact ⟨⟨along.1, every a List.mem_cons_self⟩,
        ih along.2 fun b hb => every b (List.mem_cons_of_mem a hb)⟩

variable (step) in
/-- A step that an exception can cut short: `fault s a` is the state it leaves, where it escapes. -/
def faulty (fault : σ → α → Option σ) (s : σ) (a : α) : σ := (fault s a).getD (step s a)

/-- A run in which nothing escapes is the run of the plain step, and what guarded the one guards
the other. -/
theorem run_faulty {fault : σ → α → Option σ} (calm : ∀ s a, guard s a → fault s a = none) {s : σ}
    (along : Along (faulty step fault) guard s as) :
    run (faulty step fault) s as = run step s as ∧ Along step guard s as := by
  induction as generalizing s with
  | nil => exact ⟨rfl, trivial⟩
  | cons a as ih =>
      have plain : faulty step fault s a = step s a := by rw [faulty, calm s a along.1, Option.getD_none]
      obtain ⟨same, rest⟩ := ih along.2
      rw [plain] at same rest
      rw [run_cons, plain]
      exact ⟨same, along.1, rest⟩

/-- An invariant of every step is an invariant of every run. -/
theorem run_forall (Inv : σ → Prop) (preserved : ∀ s a, Inv s → Inv (step s a)) {s : σ}
    (start : Inv s) (as : List α) : Inv (run step s as) := by
  induction as generalizing s with
  | nil => exact start
  | cons a as ih => exact ih (preserved s a start)

/-- What a guarded run ends with and did not start with was brought by one of its inputs. -/
theorem run_provenance (Inv has : σ → Prop) (brings : σ → α → Prop)
    (preserved : ∀ s a, Inv s → guard s a → Inv (step s a))
    (one : ∀ s a, Inv s → guard s a → has (step s a) → has s ∨ brings s a) {s : σ}
    (start : Inv s) (along : Along step guard s as) (ends : has (run step s as)) :
    has s ∨ ∃ before a after, as = before ++ a :: after ∧ brings (run step s before) a := by
  induction as generalizing s with
  | nil => exact .inl ends
  | cons a as ih =>
      rcases ih (preserved s a start along.1) along.2 ends with h | ⟨before, b, after, heq, brought⟩
      · rcases one s a start along.1 h with h | h
        · exact .inl h
        · exact .inr ⟨[], a, as, rfl, h⟩
      · refine .inr ⟨a :: before, b, after, ?_, brought⟩
        rw [heq]
        rfl

/-- A run that has not stopped is no longer than the measure it started from and what
its inputs added. -/
theorem run_bounded (Inv going : σ → Prop) (measure : σ → ℕ) (gain : α → ℕ)
    (preserved : ∀ s a, Inv s → Inv (step s a)) (stopped : ∀ s a, ¬going s → ¬going (step s a))
    (pays : ∀ s a, Inv s → guard s a → going (step s a) →
      1 + measure (step s a) ≤ measure s + gain a)
    {s : σ} (start : Inv s) (along : Along step guard s as)
    (still : going (run step s as)) :
    as.length + measure (run step s as) ≤ measure s + (as.map gain).sum := by
  induction as generalizing s with
  | nil => simp
  | cons a as ih =>
      have first : going (step s a) := by
        by_contra h
        exact run_forall (fun s => ¬going s) stopped h as still
      have paid := pays s a start along.1 first
      have rest := ih (preserved s a start) along.2 still
      simp only [run_cons, List.length_cons, List.map_cons, List.sum_cons]
      omega

/-! ### What a run emits -/

section Emitted

variable {β : Type*} (emit : σ → α → List β)

variable (step) in
/-- What the steps of a run emit, in order. -/
def emitted : σ → List α → List β
  | _, [] => []
  | s, a :: as => emit s a ++ emitted (step s a) as

theorem emitted_concat (s : σ) (as : List α) (a : α) :
    emitted step emit s (as ++ [a]) = emitted step emit s as ++ emit (run step s as) a := by
  induction as generalizing s with
  | nil => simp [emitted]
  | cons b as ih => rw [List.cons_append, emitted, emitted, ih, List.append_assoc, run_cons]

end Emitted

/-! ### Runs by the clock -/

section Clock

variable {τ : Type*} [Preorder τ] {time : α → τ}

/-- The times of the inputs do not go back, and `now` is not before the last of them. -/
def Clocked (time : α → τ) (as : List α) (now : τ) : Prop :=
  (as.map time ++ [now]).Pairwise (· ≤ ·)

instance [DecidableLE τ] (as : List α) (now : τ) : Decidable (Clocked time as now) :=
  inferInstanceAs (Decidable (List.Pairwise _ _))

theorem clocked_concat {a : α} {now : τ} :
    Clocked time (as ++ [a]) now ↔ Clocked time as (time a) ∧ time a ≤ now := by
  simp only [Clocked, List.map_append, List.map_cons, List.map_nil, List.pairwise_append,
    List.pairwise_singleton, List.mem_append, List.mem_singleton]
  constructor
  · rintro ⟨⟨ordered, -, last⟩, -, bound⟩
    exact ⟨⟨ordered, trivial, last⟩, bound _ (.inr rfl) now rfl⟩
  · rintro ⟨⟨ordered, -, last⟩, later⟩
    refine ⟨⟨ordered, trivial, last⟩, trivial, ?_⟩
    rintro t (before | rfl) _ rfl
    · exact (last t before _ rfl).trans later
    · exact later

theorem Clocked.split {before after : List α} {a : α} {now : τ}
    (clock : Clocked time (before ++ a :: after) now) : Clocked time before (time a) := by
  refine List.Pairwise.sublist ?_ clock
  rw [List.map_append, List.append_assoc]
  exact (List.Sublist.refl _).append (List.singleton_sublist.mpr List.mem_cons_self)

/-- What holds at the start, is kept by a step at the time of its input, and is kept while time
goes on, holds of every run. -/
theorem run_clocked (Inv : List α → σ → τ → Prop) {s : σ} (start : ∀ now, Inv [] s now)
    (later : ∀ as s now now', Inv as s now → now ≤ now' → Inv as s now')
    (preserved : ∀ as a, Inv as (run step s as) (time a) →
      Inv (as ++ [a]) (step (run step s as) a) (time a)) {now : τ}
    (clock : Clocked time as now) : Inv as (run step s as) now := by
  induction as using List.reverseRecOn generalizing now with
  | nil => exact start now
  | append_singleton as a ih =>
      obtain ⟨before, after⟩ := clocked_concat.mp clock
      rw [run_append]
      exact later _ _ _ _ (preserved _ _ (ih before)) after

end Clock

/-! ### Two runs, side by side -/

variable (step) in
/-- Inputs in pairs, each pair alike in the states it is fed to. -/
def Paired (Alike : σ → σ → α → α → Prop) : σ → σ → List α → List α → Prop
  | _, _, [], [] => True
  | s, s', a :: as, a' :: as' => Alike s s' a a' ∧ Paired Alike (step s a) (step s' a') as as'
  | _, _, _, _ => False

/-- What every pair of steps preserves holds after any number of them. -/
theorem run_paired {Alike : σ → σ → α → α → Prop} (Rel : σ → σ → Prop)
    (preserved : ∀ s s' a a', Rel s s' → Alike s s' a a' → Rel (step s a) (step s' a')) {s s' : σ}
    {as as' : List α} (start : Rel s s') (paired : Paired step Alike s s' as as') (n : ℕ) :
    Rel (run step s (as.take n)) (run step s' (as'.take n)) := by
  induction as generalizing s s' as' n with
  | nil =>
      cases as' with
      | nil => simpa using start
      | cons a' as' => exact paired.elim
  | cons a as ih =>
      cases as' with
      | nil => exact paired.elim
      | cons a' as' =>
          cases n with
          | zero => exact start
          | succ n => exact ih (preserved s s' a a' start paired.1) paired.2 n

end Runs
