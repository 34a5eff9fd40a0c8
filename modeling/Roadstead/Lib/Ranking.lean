import Mathlib.Data.List.Sort

/-!
# Ranking by a key

`ranked key xs` are the items of `xs`, those with the least key first, and items with the same key
in the order they come in (`sorted(xs, key=key)`).  Where no two items have the same key the order
they come in does not matter (`ranked_eq_of_perm`), and an item that is left out changes nothing for
the others (`ranked_filter`).
-/

namespace Ranking

variable {α κ : Type*} [LinearOrder κ] {key : α → κ} {xs ys : List α}

def ranked (key : α → κ) (xs : List α) : List α := xs.insertionSort fun x y => key x ≤ key y

theorem ranked_perm (key : α → κ) (xs : List α) : (ranked key xs).Perm xs :=
  List.perm_insertionSort _ xs

theorem mem_ranked {x : α} : x ∈ ranked key xs ↔ x ∈ xs := (ranked_perm key xs).mem_iff

theorem ranked_pairwise (key : α → κ) (xs : List α) :
    (ranked key xs).Pairwise fun x y => key x ≤ key y := by
  have total : Std.Total fun x y => key x ≤ key y := ⟨fun x y => le_total (key x) (key y)⟩
  have trans : IsTrans α fun x y => key x ≤ key y := ⟨fun _ _ _ => le_trans⟩
  exact List.pairwise_insertionSort _ xs

/-- Items of which no two have the same key are ordered in one way. -/
theorem eq_of_pairwise (keyed : ∀ x ∈ xs, ∀ y ∈ xs, key x = key y → x = y) (perm : xs.Perm ys)
    (ordered : xs.Pairwise fun x y => key x ≤ key y)
    (ordered' : ys.Pairwise fun x y => key x ≤ key y) : xs = ys := by
  refine List.Perm.eq_of_pairwise ?_ ordered ordered' perm
  intro x y mem mem' le le'
  exact keyed x mem y (perm.mem_iff.mpr mem') (le_antisymm le le')

theorem ranked_eq_of_perm (keyed : ∀ x ∈ xs, ∀ y ∈ xs, key x = key y → x = y) (perm : xs.Perm ys) :
    ranked key xs = ranked key ys := by
  refine eq_of_pairwise ?_ ?_ (ranked_pairwise key xs) (ranked_pairwise key ys)
  · exact fun x mem y mem' => keyed x (mem_ranked.mp mem) y (mem_ranked.mp mem')
  · exact (ranked_perm key xs).trans (perm.trans (ranked_perm key ys).symm)

theorem ranked_filter (keyed : ∀ x ∈ xs, ∀ y ∈ xs, key x = key y → x = y) (p : α → Bool) :
    ranked key (xs.filter p) = (ranked key xs).filter p := by
  refine eq_of_pairwise ?_ ?_ (ranked_pairwise key _)
    ((ranked_pairwise key xs).filter p)
  · intro x mem y mem'
    exact keyed x (List.mem_filter.mp (mem_ranked.mp mem)).1 y
      (List.mem_filter.mp (mem_ranked.mp mem')).1
  · exact (ranked_perm key _).trans ((ranked_perm key xs).symm.filter p)

end Ranking
