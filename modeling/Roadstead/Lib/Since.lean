import Mathlib.Data.List.Induction
import Mathlib.Data.List.Infix
import Roadstead.Lib.Run

/-!
# What holds at every point of a history, and since when

A law of histories that an input keeps *exactly when* it fits what came before holds at every
point of a history exactly when all its inputs fit (`always_iff`).  Neither direction needs the
law to be decidable, nor `Fits` to be an invariant.

`Since P s as a` says that `a` is the input of the run `as` that made `P` true, and that `P` has
been true from there on.  It is defined by positions in the run; `since_concat` is what one
more input does to it, and `Since.unique` says that there is no other such input.
-/

universe u v

variable {σ : Type u} {α : Type v}

namespace History

/-- A law that one more input keeps exactly when it fits holds all along exactly when every
input fits. -/
theorem always_iff {Law : List α → Prop} {Fits : List α → α → Prop} {as : List α} (start : Law [])
    (kept : ∀ before a, before ++ [a] <+: as → Law before → (Law (before ++ [a]) ↔ Fits before a)) :
    (∀ before, before <+: as → Law before) ↔
      ∀ before a, before ++ [a] <+: as → Fits before a := by
  constructor
  · intro always before a within
    have earlier : before <+: as := (List.prefix_append before [a]).trans within
    exact (kept before a within (always before earlier)).mp (always (before ++ [a]) within)
  · intro fits before
    induction before using List.reverseRecOn with
    | nil => exact fun _ => start
    | append_singleton before a ih =>
        intro within
        have earlier : before <+: as := (List.prefix_append before [a]).trans within
        exact (kept before a within (ih earlier)).mpr (fits before a within)

end History

namespace Runs

variable {step : σ → α → σ}

/-- A run is guarded when each of its inputs is, after those before it. -/
theorem along_iff {guard : σ → α → Prop} {s : σ} {as : List α} :
    Along step guard s as ↔ ∀ before a, before ++ [a] <+: as → guard (run step s before) a := by
  constructor
  · rintro along before a ⟨after, rfl⟩
    rw [List.append_assoc, List.singleton_append] at along
    exact along.split.2
  · intro each
    refine along_of_split fun before a after split => each before a ⟨after, ?_⟩
    rw [split, List.append_assoc, List.singleton_append]

variable (step) in
/-- Before the input `a` of the run `as` there was no `P`; after it, and ever since, there is. -/
def Since (P : σ → Prop) (s : σ) (as : List α) (a : α) : Prop :=
  ∃ before after, as = before ++ a :: after ∧ ¬P (run step s before) ∧
    ∀ more, more <+: after → P (run step s (before ++ a :: more))

variable {P : σ → Prop} {s : σ} {as : List α}

theorem not_since_nil (a : α) : ¬Since step P s [] a := by
  rintro ⟨before, after, split, -, -⟩
  exact List.append_ne_nil_of_right_ne_nil before (List.cons_ne_nil a after) split.symm

theorem Since.holds {a : α} (since : Since step P s as a) : P (run step s as) := by
  obtain ⟨before, after, rfl, -, always⟩ := since
  exact always after (List.prefix_refl after)

/-- Afterwards it is so since the same input, or since the last one. -/
theorem since_concat {a b : α} :
    Since step P s (as ++ [b]) a ↔ P (run step s (as ++ [b])) ∧
      (Since step P s as a ∨ ¬P (run step s as) ∧ a = b) := by
  constructor
  · intro since
    refine ⟨since.holds, ?_⟩
    obtain ⟨before, after, split, not, always⟩ := since
    rcases List.eq_nil_or_concat' after with rfl | ⟨after, c, rfl⟩
    · obtain ⟨rfl, same⟩ := List.append_inj' split rfl
      exact .inr ⟨not, (List.singleton_inj.mp same).symm⟩
    · rw [← List.cons_append, ← List.append_assoc] at split
      obtain ⟨rfl, -⟩ := List.append_inj' split rfl
      exact .inl ⟨before, after, rfl, not,
        fun more within => always more (within.trans (List.prefix_append after [c]))⟩
  · rintro ⟨holds, ⟨before, after, rfl, not, always⟩ | ⟨not, rfl⟩⟩
    · refine ⟨before, after ++ [b], by rw [List.append_assoc, List.cons_append], not, ?_⟩
      intro more within
      rcases List.prefix_concat_iff.mp within with rfl | earlier
      · rwa [List.append_assoc, List.cons_append] at holds
      · exact always more earlier
    · refine ⟨as, [], rfl, not, fun more within => ?_⟩
      obtain rfl := List.prefix_nil.mp within
      exact holds

/-- There is only one input since which it is so. -/
theorem Since.unique {a a' : α} (since : Since step P s as a) (since' : Since step P s as a') :
    a = a' := by
  induction as using List.reverseRecOn with
  | nil => exact absurd since (not_since_nil a)
  | append_singleton as b ih =>
      rcases (since_concat.mp since).2 with old | ⟨not, rfl⟩
      · rcases (since_concat.mp since').2 with old' | ⟨not, -⟩
        · exact ih old old'
        · exact absurd old.holds not
      · rcases (since_concat.mp since').2 with old' | ⟨-, rfl⟩
        · exact absurd old'.holds not
        · rfl

end Runs
