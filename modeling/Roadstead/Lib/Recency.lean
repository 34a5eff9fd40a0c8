import Mathlib.Data.List.Dedup
import Roadstead.Lib.Dict
import Roadstead.Lib.Window

/-!
# The order of last use

A cache that moves a key to its end whenever the key is used lists its keys by their last use.
With the history of uses at hand this order is `uses.dedup`, which keeps the last occurrence of
each key: what such a cache holds is a sublist of it (`use_sublist`), and so its first keys are the
ones used least recently (`usedBefore_of_append`).  A cache that gives up nothing but its first
keys, and these only for want of room, holds the last `n` of that order and no others
(`use_eq_rtake`).
-/

namespace Recency

universe u

variable {κ : Type u} [DecidableEq κ]

/-- `b` has been used since the last use of `a`. -/
def UsedBefore (uses : List κ) (a b : κ) : Prop :=
  ∃ before after, uses = before ++ a :: after ∧ a ∉ after ∧ b ∈ after

/-- One more use puts its key behind all others. -/
theorem dedup_concat (uses : List κ) (k : κ) :
    (uses ++ [k]).dedup = uses.dedup.filter (fun a => decide (a ≠ k)) ++ [k] := by
  induction uses with
  | nil => simp
  | cons a uses ih =>
      rw [List.cons_append]
      by_cases again : a ∈ uses
      · rw [List.dedup_cons_of_mem (List.mem_append_left _ again), List.dedup_cons_of_mem again, ih]
      · rw [List.dedup_cons_of_notMem again]
        by_cases same : a = k
        · have there : a ∈ uses ++ [k] := List.mem_append_right _ (List.mem_singleton.mpr same)
          rw [List.dedup_cons_of_mem there, ih, List.filter_cons_of_neg (by simpa using same)]
        · have absent : a ∉ uses ++ [k] := by
            rw [List.mem_append, List.mem_singleton]
            exact not_or.mpr ⟨again, same⟩
          rw [List.dedup_cons_of_notMem absent, ih, List.filter_cons_of_pos (by simpa using same),
            List.cons_append]

/-- Of two keys in the order of last use, the first has been used less recently. -/
theorem usedBefore_of_sublist {uses : List κ} {a b : κ} (order : [a, b].Sublist uses.dedup) :
    UsedBefore uses a b := by
  induction uses with
  | nil => simp at order
  | cons x uses ih =>
      by_cases again : x ∈ uses
      · rw [List.dedup_cons_of_mem again] at order
        obtain ⟨before, after, rfl, absent, there⟩ := ih order
        exact ⟨x :: before, after, rfl, absent, there⟩
      · rw [List.dedup_cons_of_notMem again] at order
        cases order with
        | cons _ order =>
            obtain ⟨before, after, rfl, absent, there⟩ := ih order
            exact ⟨x :: before, after, rfl, absent, there⟩
        | cons_cons _ order =>
            exact ⟨[], uses, rfl, again, List.mem_dedup.mp (List.singleton_sublist.mp order)⟩

/-- What stands at the front has been used less recently than what follows. -/
theorem usedBefore_of_append {uses gone rest : List κ} (order : (gone ++ rest).Sublist uses.dedup)
    {a b : κ} (front : a ∈ gone) (back : b ∈ rest) : UsedBefore uses a b :=
  usedBefore_of_sublist
    (((List.singleton_sublist.mpr front).append (List.singleton_sublist.mpr back)).trans order)

/-- A use keeps the order of last use. -/
theorem use_sublist {uses keys : List κ} (order : keys.Sublist uses.dedup) (k : κ) :
    (keys.filter (fun a => decide (a ≠ k)) ++ [k]).Sublist (uses ++ [k]).dedup := by
  rw [dedup_concat]
  exact (order.filter _).append (List.Sublist.refl _)

/-- Leaving out one key takes at most one place from a list without repetitions. -/
theorem length_filter_ne {keys : List κ} (nodup : keys.Nodup) (k : κ) :
    keys.length ≤ (keys.filter fun a => decide (a ≠ k)).length + 1 := by
  have erased : keys.filter (fun a => decide (a ≠ k)) = keys.erase k := by
    rw [nodup.erase_eq_filter]
    congr 1
    funext a
    rw [decide_not]
    rfl
  rw [erased, List.length_erase]
  split <;> omega

/-- A use of a cache with room for `n + 1` keys that holds those used last. -/
theorem use_eq_rtake {uses keys : List κ} {n : ℕ} (holds : keys = uses.dedup.rtake (n + 1)) (k : κ) :
    (keys.filter (fun a => decide (a ≠ k)) ++ [k]).rtake (n + 1) =
      (uses ++ [k]).dedup.rtake (n + 1) := by
  have tail : keys <:+ uses.dedup := holds ▸ Window.rtake_suffix _ _
  have nodup : keys.Nodup := uses.nodup_dedup.sublist tail.sublist
  have counted : keys.length = min (n + 1) uses.dedup.length := by
    rw [holds, Window.length_rtake]
  have long : min n (uses.dedup.filter fun a => decide (a ≠ k)).length ≤
      (keys.filter fun a => decide (a ≠ k)).length := by
    rcases Nat.lt_or_ge (n + 1) uses.dedup.length with more | few
    · -- the cache is full, and it loses one key at most
      have := length_filter_ne nodup k
      omega
    · have all : keys = uses.dedup := tail.eq_of_length (by omega)
      rw [all]
      exact Nat.min_le_right _ _
  rw [dedup_concat, List.rtake_concat_succ, List.rtake_concat_succ,
    Window.rtake_of_suffix (tail.filter _) long]

/-- Such a cache gives up the key that was used least recently, and no other. -/
theorem usedBefore_of_evicted {uses keys : List κ} {n : ℕ} (holds : keys = uses.dedup.rtake (n + 1))
    {k a b : κ} (stood : a ∈ keys) (gone : a ∉ (uses ++ [k]).dedup.rtake (n + 1)) (other : b ≠ a)
    (there : b ∈ keys ∨ b ∈ (uses ++ [k]).dedup.rtake (n + 1)) : UsedBefore (uses ++ [k]) a b := by
  have tail : keys <:+ uses.dedup := holds ▸ Window.rtake_suffix _ _
  have order := use_sublist tail.sublist k
  rw [← use_eq_rtake holds] at gone there
  generalize moved : keys.filter (fun a => decide (a ≠ k)) ++ [k] = uses' at order gone there
  obtain ⟨front, split⟩ := Window.rtake_suffix uses' (n + 1)
  have few : front.length ≤ 1 := by
    have counted := congrArg List.length split
    have long := congrArg List.length moved
    have shorter := List.length_filter_le (fun a => decide (a ≠ k)) keys
    have cap := congrArg List.length holds
    rw [List.length_append, Window.length_rtake] at counted
    rw [List.length_append, List.length_singleton] at long
    rw [Window.length_rtake] at cap
    omega
  have last : k ∈ uses'.rtake (n + 1) := by
    rw [← moved, List.rtake_concat_succ]
    exact List.mem_append_right _ (List.mem_singleton_self k)
  have kept {x : κ} (mem : x ∈ keys) (ne : x ≠ k) : x ∈ front ∨ x ∈ uses'.rtake (n + 1) := by
    rw [← List.mem_append, split, ← moved]
    exact List.mem_append_left _ (List.mem_filter.mpr ⟨mem, decide_eq_true ne⟩)
  have first : a ∈ front := (kept stood fun same => gone (same ▸ last)).resolve_right gone
  have back : b ∈ uses'.rtake (n + 1) := by
    rcases there with stood' | stays
    · by_cases same : b = k
      · rw [same]
        exact last
      · refine (kept stood' same).resolve_left fun again => other ?_
        -- there is one place in front
        obtain ⟨i, hi, rfl⟩ := List.getElem_of_mem again
        obtain ⟨j, hj, rfl⟩ := List.getElem_of_mem first
        have both : i = j := by omega
        subst both
        rfl
    · exact stays
  rw [← split] at order
  exact usedBefore_of_append order first back

end Recency

/-! ### Dictionaries in the order of use -/

namespace Dict

universe u v

variable {K : Type u} {V : Type v}

/-- `popitem(last=False)`, `n` times. -/
def popFirst (n : ℕ) (d : Dict K V) : Dict K V where
  entries := d.entries.drop n
  nodup := d.nodup.sublist ((List.drop_sublist n d.entries).map Prod.fst)

theorem get?_of_popFirst [DecidableEq K] {n : ℕ} {d : Dict K V} {k : K} {v : V}
    (there : (d.popFirst n).get? k = some v) : d.get? k = some v :=
  mem_entries_iff.mp (List.mem_of_mem_drop (mem_entries_iff.mpr there))

theorem keys_popFirst (n : ℕ) (d : Dict K V) : (d.popFirst n).keys = d.keys.drop n := by
  rw [keys, keys, popFirst, List.map_drop]

variable [DecidableEq K]

/-- `move_to_end`. -/
def moveToEnd (d : Dict K V) (k : K) : Dict K V :=
  match d.get? k with
  | some v => (d.erase k).set k v
  | none => d

theorem keys_erase (d : Dict K V) (k : K) :
    (d.erase k).keys = d.keys.filter fun a => decide (a ≠ k) := by
  rw [keys, keys, erase, List.filter_map]
  rfl

theorem keys_moveToEnd {d : Dict K V} {k : K} (there : k ∈ d.keys) :
    (d.moveToEnd k).keys = d.keys.filter (fun a => decide (a ≠ k)) ++ [k] := by
  obtain ⟨v, found⟩ := mem_keys_iff.mp there
  have absent : k ∉ (d.erase k).keys := by
    rw [← get?_eq_none_iff]
    exact get?_erase_self d k
  rw [moveToEnd, found, keys, entries_set_of_not_mem absent, List.map_append, ← keys, keys_erase]
  rfl

@[simp] theorem get?_moveToEnd (d : Dict K V) (k k' : K) : (d.moveToEnd k).get? k' = d.get? k' := by
  rw [moveToEnd]
  cases found : d.get? k with
  | none => rfl
  | some v =>
      by_cases same : k' = k
      · rw [same, get?_set_self, found]
      · rw [get?_set_of_ne _ same, get?_erase_of_ne _ same]

end Dict
