import Mathlib.Algebra.BigOperators.Group.Finset.Basic
import Mathlib.Algebra.BigOperators.Group.List.Basic
import Mathlib.Algebra.Order.BigOperators.Group.Finset
import Mathlib.Algebra.Order.BigOperators.Group.List
import Mathlib.Data.List.Nodup
import Mathlib.Algebra.Order.Group.Multiset
import Mathlib.Tactic.Abel

/-!
# Insertion-ordered dictionaries

A `Dict K V` is a finite map that remembers the order in which its keys were
first written: overwriting a key keeps its position, a new key goes to the end,
and deleting a key closes the gap.  Iteration is over `entries`, in that order.

The distinctness of the keys is a field of the structure, so a dictionary with
two entries for one key cannot be built and no lemma below has to assume it.

Two views are used downstream and connected here.

* The **functional view** `get?`: what a lookup returns after `set`, `erase` and
  `map` (`get?_set_self`, `get?_set_of_ne`, …).
* The **additive view** `sum`: the total of a quantity over all entries, and how
  one `set` or `erase` moves it (`sum_set_of_get?`, `sum_set_of_not_mem`,
  `sum_erase`).  Counting entries, collecting the multiset of stored values and
  adding up charges are all instances of it.
-/

universe u v w

/-- A finite map with distinct keys, in insertion order. -/
structure Dict (K : Type u) (V : Type v) where
  entries : List (K × V)
  nodup : (entries.map Prod.fst).Nodup

namespace Dict

variable {K : Type u} {V : Type v} {W : Type w}

theorem ext_entries {d d' : Dict K V} (h : d.entries = d'.entries) : d = d' := by
  cases d; cases d'; cases h; rfl

instance [DecidableEq K] [DecidableEq V] : DecidableEq (Dict K V) := fun d d' =>
  decidable_of_iff (d.entries = d'.entries) ⟨ext_entries, fun h => h ▸ rfl⟩

/-- The dictionary without entries. -/
def empty : Dict K V := ⟨[], List.nodup_nil⟩

instance : EmptyCollection (Dict K V) := ⟨empty⟩

instance : Inhabited (Dict K V) := ⟨empty⟩

@[simp] theorem entries_empty : (∅ : Dict K V).entries = [] := rfl

/-- The keys, in insertion order. -/
def keys (d : Dict K V) : List K := d.entries.map Prod.fst

/-- The values, in the order of their keys. -/
def values (d : Dict K V) : List V := d.entries.map Prod.snd

/-- The number of entries. -/
def size (d : Dict K V) : ℕ := d.entries.length

theorem nodup_keys (d : Dict K V) : d.keys.Nodup := d.nodup

@[simp] theorem keys_empty : (∅ : Dict K V).keys = [] := rfl

/-- The total of `f` over all entries. -/
def sum {M : Type*} [AddCommMonoid M] (d : Dict K V) (f : K → V → M) : M :=
  (d.entries.map fun e => f e.1 e.2).sum

variable {M : Type*}

@[simp] theorem sum_empty [AddCommMonoid M] (f : K → V → M) :
    (∅ : Dict K V).sum f = 0 := rfl

theorem sum_congr [AddCommMonoid M] (d : Dict K V) {f g : K → V → M}
    (h : ∀ k v, (k, v) ∈ d.entries → f k v = g k v) : d.sum f = d.sum g := by
  unfold sum
  congr 1
  exact List.map_congr_left fun e he => h e.1 e.2 he

theorem sum_eq_zero [AddCommMonoid M] (d : Dict K V) {f : K → V → M}
    (h : ∀ k v, (k, v) ∈ d.entries → f k v = 0) : d.sum f = 0 := by
  rw [d.sum_congr h]
  simp [sum]

theorem sum_add [AddCommMonoid M] (d : Dict K V) (f g : K → V → M) :
    d.sum (fun k v => f k v + g k v) = d.sum f + d.sum g := by
  simp [sum, List.sum_map_add]

/-- Additive maps commute with totals. -/
theorem map_sum {M N : Type*} [AddCommMonoid M] [AddCommMonoid N] (φ : M →+ N)
    (d : Dict K V) (f : K → V → M) : φ (d.sum f) = d.sum fun k v => φ (f k v) := by
  simp [sum, map_list_sum, Function.comp_def]

theorem size_eq_sum (d : Dict K V) : d.size = d.sum fun _ _ => 1 := by
  simp [size, sum]

/-- Collecting lists over the values is adding them up as multisets. -/
theorem coe_flatMap_values {A : Type*} (d : Dict K V) (f : V → List A) :
    ((d.values.flatMap f : List A) : Multiset A) = d.sum fun _ v => (f v : Multiset A) := by
  unfold values sum
  induction d.entries with
  | nil => rfl
  | cons e es ih =>
      rw [List.map_cons, List.flatMap_cons, ← Multiset.coe_add, ih, List.map_cons, List.sum_cons]

section Map

/-- Rewrite every value, keeping keys and order. -/
def map (f : K → V → W) (d : Dict K V) : Dict K W where
  entries := d.entries.map fun e => (e.1, f e.1 e.2)
  nodup := by simpa [Function.comp_def] using d.nodup

@[simp] theorem keys_map (f : K → V → W) (d : Dict K V) : (d.map f).keys = d.keys := by
  simp [map, keys, Function.comp_def]

theorem sum_map [AddCommMonoid M] (f : K → V → W) (d : Dict K V)
    (g : K → W → M) : (d.map f).sum g = d.sum fun k v => g k (f k v) := by
  simp [map, sum, Function.comp_def]

end Map

/-- The entries that satisfy `p`. -/
def filter (p : K → V → Bool) (d : Dict K V) : Dict K V where
  entries := d.entries.filter fun e => p e.1 e.2
  nodup := d.nodup.sublist (List.filter_sublist.map _)

theorem entries_filter (p : K → V → Bool) (d : Dict K V) :
    (d.filter p).entries = d.entries.filter fun e => p e.1 e.2 := rfl

theorem keys_filter_sublist (p : K → V → Bool) (d : Dict K V) : (d.filter p).keys.Sublist d.keys :=
  List.filter_sublist.map _

variable [DecidableEq K]

/-- The value stored under `k`. -/
def get? (d : Dict K V) (k : K) : Option V :=
  (d.entries.find? fun e => e.1 = k).map Prod.snd

/-- Whether `k` is a key. -/
def contains (d : Dict K V) (k : K) : Bool := decide (k ∈ d.keys)

@[simp] theorem get?_empty (k : K) : (∅ : Dict K V).get? k = none := rfl

variable {es : List (K × V)} {k : K}

private theorem find?_eq_some_of_nodup (nd : (es.map Prod.fst).Nodup)
    {v : V} (mem : (k, v) ∈ es) : es.find? (fun e => e.1 = k) = some (k, v) := by
  induction es with
  | nil => simp at mem
  | cons e es ih =>
      simp only [List.map_cons, List.nodup_cons] at nd
      rcases List.mem_cons.mp mem with rfl | mem
      · simp
      · have hne : e.1 ≠ k := by
          rintro rfl
          exact nd.1 (List.mem_map.mpr ⟨_, mem, rfl⟩)
        rw [List.find?_cons_of_neg (by simpa using hne)]
        exact ih nd.2 mem

variable {d : Dict K V}

/-- Membership of an entry is a lookup. -/
theorem mem_entries_iff {v : V} :
    (k, v) ∈ d.entries ↔ d.get? k = some v := by
  constructor
  · intro mem
    simp [get?, find?_eq_some_of_nodup d.nodup mem]
  · intro h
    rw [get?, Option.map_eq_some_iff] at h
    obtain ⟨e, he, rfl⟩ := h
    have hk : e.1 = k := by simpa using List.find?_some he
    exact hk ▸ List.mem_of_find?_eq_some he

theorem mem_keys_iff : k ∈ d.keys ↔ ∃ v, d.get? k = some v := by
  constructor
  · intro mem
    obtain ⟨e, he, rfl⟩ := List.mem_map.mp mem
    exact ⟨e.2, mem_entries_iff.mp he⟩
  · rintro ⟨v, hv⟩
    exact List.mem_map.mpr ⟨_, mem_entries_iff.mpr hv, rfl⟩

theorem get?_eq_none_iff : d.get? k = none ↔ k ∉ d.keys := by
  rw [mem_keys_iff, not_exists, Option.eq_none_iff_forall_ne_some]

theorem contains_iff : d.contains k = true ↔ k ∈ d.keys := by
  simp [contains]

/-- A key has at most one entry. -/
theorem entries_filter_key (d : Dict K V) (k : K) :
    (d.entries.filter fun e => decide (e.1 = k)) = ((d.get? k).map fun v => (k, v)).toList := by
  cases here : d.get? k with
  | none =>
      rw [Option.map_none, Option.toList_none, List.filter_eq_nil_iff]
      rintro ⟨k', v⟩ mem
      rw [decide_eq_true_eq]
      rintro rfl
      rw [mem_entries_iff, here] at mem
      cases mem
  | some v =>
      have mem := mem_entries_iff.mpr here
      have nodup := d.nodup
      generalize d.entries = es at mem nodup
      induction es with
      | nil => cases mem
      | cons e es ih =>
          rw [List.map_cons, List.nodup_cons] at nodup
          obtain ⟨new, nodup⟩ := nodup
          rcases List.mem_cons.mp mem with rfl | mem
          · have rest : (es.filter fun e => decide (e.1 = k)) = [] := by
              rw [List.filter_eq_nil_iff]
              rintro ⟨k', v'⟩ there
              rw [decide_eq_true_eq]
              rintro rfl
              exact new (List.mem_map.mpr ⟨_, there, rfl⟩)
            rw [List.filter_cons_of_pos (by simp), rest]
            rfl
          · have other : e.1 ≠ k := by
              rintro rfl
              exact new (List.mem_map.mpr ⟨_, mem, rfl⟩)
            rw [List.filter_cons_of_neg (by simpa using other), ih mem nodup]

theorem get?_map (f : K → V → W) (d : Dict K V) (k : K) :
    (d.map f).get? k = (d.get? k).map (f k) := by
  cases h : d.get? k with
  | none =>
      rw [get?_eq_none_iff] at h
      simpa [get?_eq_none_iff] using h
  | some v =>
      rw [← mem_entries_iff] at h
      rw [Option.map_some, ← mem_entries_iff]
      exact List.mem_map.mpr ⟨(k, v), h, rfl⟩

theorem get?_filter (p : K → V → Bool) (d : Dict K V) (k : K) :
    (d.filter p).get? k = (d.get? k).filter (p k) := by
  ext v
  rw [← mem_entries_iff, entries_filter, List.mem_filter, mem_entries_iff,
    Option.filter_eq_some_iff]

/-- Rewrite the value under `k`, if there is one. -/
def modify (d : Dict K V) (k : K) (f : V → V) : Dict K V :=
  d.map fun k' v => if k' = k then f v else v

theorem get?_modify (d : Dict K V) (k k' : K) (f : V → V) :
    (d.modify k f).get? k' = (d.get? k').map fun v => if k' = k then f v else v :=
  get?_map _ d k'

theorem modify_modify (d : Dict K V) (k : K) (f g : V → V) :
    (d.modify k f).modify k g = d.modify k fun v => g (f v) := by
  apply ext_entries
  simp only [modify, map, List.map_map]
  refine List.map_congr_left fun e _ => ?_
  by_cases hk : e.1 = k <;> simp [hk]

/-- An element of a total of multisets lies in the contribution of some entry. -/
theorem mem_sum_iff {A : Type*} {f : K → V → Multiset A} {a : A} :
    a ∈ d.sum f ↔ ∃ k v, d.get? k = some v ∧ a ∈ f k v := by
  have hlist : ∀ es : List (K × V), a ∈ (es.map fun e => f e.1 e.2).sum ↔
      ∃ e ∈ es, a ∈ f e.1 e.2 := by
    intro es
    induction es with
    | nil => simp
    | cons e es ih => simp [ih]
  rw [sum, hlist]
  constructor
  · rintro ⟨e, he, ha⟩
    exact ⟨e.1, e.2, mem_entries_iff.mp he, ha⟩
  · rintro ⟨k, v, hv, ha⟩
    exact ⟨(k, v), mem_entries_iff.mpr hv, ha⟩

/-- A total to which only one key contributes. -/
theorem sum_eq_of_key [AddCommMonoid M] {f : K → V → M} {v : V} (h : d.get? k = some v)
    (others : ∀ k' v', (k', v') ∈ d.entries → k' ≠ k → f k' v' = 0) : d.sum f = f k v := by
  obtain ⟨before, after, hsplit⟩ := List.append_of_mem (mem_entries_iff.mpr h)
  have hkeys := d.nodup
  rw [hsplit, List.map_append, List.map_cons, List.nodup_append, List.nodup_cons] at hkeys
  have zero : ∀ es ⊆ d.entries, (∀ e ∈ es, e.1 ≠ k) → (es.map fun e => f e.1 e.2).sum = 0 := by
    intro es hsub hes
    refine List.sum_eq_zero ?_
    intro x hx
    obtain ⟨e, he, rfl⟩ := List.mem_map.mp hx
    exact others e.1 e.2 (hsub he) (hes e he)
  have hbefore := zero before (by simp [hsplit])
    fun e he => hkeys.2.2 e.1 (List.mem_map_of_mem he) k (by simp)
  have hafter := zero after (fun e he => by simp [hsplit, he])
    fun e he hk => hkeys.2.1.1 (hk ▸ (List.mem_map_of_mem he : e.1 ∈ after.map Prod.fst))
  rw [sum, hsplit, List.map_append, List.map_cons, List.sum_append, List.sum_cons, hbefore,
    hafter, zero_add, add_zero]

/-! ### Writing a key -/

/-- Write `k ↦ v` in an entry list: in place if `k` occurs, else at the end. -/
def setEntries (k : K) (v : V) : List (K × V) → List (K × V)
  | [] => [(k, v)]
  | e :: es => if e.1 = k then (k, v) :: es else e :: setEntries k v es

private theorem map_fst_setEntries (k : K) (v : V) (es : List (K × V)) :
    (setEntries k v es).map Prod.fst =
      if k ∈ es.map Prod.fst then es.map Prod.fst else es.map Prod.fst ++ [k] := by
  induction es with
  | nil => simp [setEntries]
  | cons e es ih =>
      by_cases hk : e.1 = k
      · simp [setEntries, hk]
      · simp only [setEntries, hk, if_false, List.map_cons, ih, List.mem_cons, Ne.symm hk,
          false_or]
        split <;> simp

/-- `d[k] = v`. -/
def set (d : Dict K V) (k : K) (v : V) : Dict K V where
  entries := setEntries k v d.entries
  nodup := by
    rw [map_fst_setEntries]
    split
    · exact d.nodup
    · rename_i hk
      exact List.nodup_append.mpr ⟨d.nodup, by simp, by
        intro a ha b hb
        rw [List.mem_singleton] at hb
        exact fun hab => hk (hb ▸ hab ▸ ha)⟩

theorem keys_set (d : Dict K V) (k : K) (v : V) :
    (d.set k v).keys = if k ∈ d.keys then d.keys else d.keys ++ [k] :=
  map_fst_setEntries k v d.entries

theorem keys_set_of_mem (mem : k ∈ d.keys) (v : V) :
    (d.set k v).keys = d.keys := by
  rw [keys_set, if_pos mem]

@[simp] theorem mem_keys_set {k k' : K} {v : V} :
    k' ∈ (d.set k v).keys ↔ k' = k ∨ k' ∈ d.keys := by
  rw [keys_set]
  split
  · constructor
    · exact Or.inr
    · rintro (rfl | h)
      · assumption
      · exact h
  · simp [or_comm]

private theorem mem_setEntries_self (k : K) (v : V) (es : List (K × V)) :
    (k, v) ∈ setEntries k v es := by
  induction es with
  | nil => simp [setEntries]
  | cons e es ih =>
      by_cases hk : e.1 = k
      · simp [setEntries, hk]
      · simp [setEntries, hk, ih]

private theorem mem_setEntries_of_ne {k k' : K} (hne : k' ≠ k) (v v' : V)
    (es : List (K × V)) : (k', v') ∈ setEntries k v es ↔ (k', v') ∈ es := by
  induction es with
  | nil => simp [setEntries, hne]
  | cons e es ih =>
      by_cases hk : e.1 = k
      · have he : (k', v') ≠ e := by
          rintro rfl
          exact hne hk
        simp [setEntries, hk, hne, he]
      · simp [setEntries, hk, ih]

@[simp] theorem get?_set_self (d : Dict K V) (k : K) (v : V) :
    (d.set k v).get? k = some v :=
  mem_entries_iff.mp (mem_setEntries_self k v d.entries)

theorem get?_set_of_ne (d : Dict K V) {k k' : K} (hne : k' ≠ k) (v : V) :
    (d.set k v).get? k' = d.get? k' := by
  apply Option.ext
  intro v'
  rw [← mem_entries_iff, ← mem_entries_iff]
  exact mem_setEntries_of_ne hne v v' d.entries

theorem get?_set (d : Dict K V) (k k' : K) (v : V) :
    (d.set k v).get? k' = if k' = k then some v else d.get? k' := by
  split
  · rename_i h
    rw [h, get?_set_self]
  · rename_i h
    exact d.get?_set_of_ne h v

private theorem setEntries_of_mem {v : V} (nd : (es.map Prod.fst).Nodup)
    (mem : (k, v) ∈ es) : setEntries k v es = es := by
  induction es with
  | nil => simp at mem
  | cons e es ih =>
      simp only [List.map_cons, List.nodup_cons] at nd
      rw [setEntries]
      rcases List.mem_cons.mp mem with rfl | mem
      · rw [if_pos rfl]
      · rw [if_neg, ih nd.2 mem]
        rintro rfl
        exact nd.1 (List.mem_map.mpr ⟨_, mem, rfl⟩)

/-- Writing the value that is there changes nothing, and no other one does. -/
theorem set_eq_self_iff {v : V} : d.set k v = d ↔ d.get? k = some v := by
  constructor
  · intro same
    rw [← same, get?_set_self]
  · intro there
    exact ext_entries (setEntries_of_mem d.nodup (mem_entries_iff.mpr there))

private theorem sum_setEntries_of_mem [AddCommMonoid M] (f : K → V → M)
    {v₀ : V} (v : V) (nd : (es.map Prod.fst).Nodup)
    (mem : (k, v₀) ∈ es) :
    ((setEntries k v es).map fun e => f e.1 e.2).sum + f k v₀ =
      (es.map fun e => f e.1 e.2).sum + f k v := by
  induction es with
  | nil => simp at mem
  | cons e es ih =>
      simp only [List.map_cons, List.nodup_cons] at nd
      rcases List.mem_cons.mp mem with rfl | mem
      · simp only [setEntries, if_true, List.map_cons, List.sum_cons]
        abel
      · have hne : e.1 ≠ k := by
          rintro rfl
          exact nd.1 (List.mem_map.mpr ⟨_, mem, rfl⟩)
        simp only [setEntries, hne, if_false, List.map_cons, List.sum_cons, add_assoc,
          ih nd.2 mem]

/-- Overwriting trades the old contribution of the key for the new one. -/
theorem sum_set_of_get? [AddCommMonoid M] (f : K → V → M)
    {v₀ : V} (h : d.get? k = some v₀) (v : V) :
    (d.set k v).sum f + f k v₀ = d.sum f + f k v :=
  sum_setEntries_of_mem f v d.nodup (mem_entries_iff.mpr h)

private theorem setEntries_of_not_mem (k : K) (v : V)
    (hk : k ∉ es.map Prod.fst) : setEntries k v es = es ++ [(k, v)] := by
  induction es with
  | nil => rfl
  | cons e es ih =>
      simp only [List.map_cons, List.mem_cons, not_or] at hk
      simp [setEntries, Ne.symm hk.1, ih hk.2]

theorem entries_set_of_not_mem (hk : k ∉ d.keys) (v : V) :
    (d.set k v).entries = d.entries ++ [(k, v)] :=
  setEntries_of_not_mem k v hk

/-- Writing a new key adds its contribution. -/
theorem sum_set_of_not_mem [AddCommMonoid M] (f : K → V → M)
    (hk : k ∉ d.keys) (v : V) : (d.set k v).sum f = d.sum f + f k v := by
  simp [sum, entries_set_of_not_mem hk]

/-- A write adds at most the contribution of the new value. -/
theorem sum_set_le (f : K → V → ℕ) (d : Dict K V) (k : K) (v : V) :
    (d.set k v).sum f ≤ d.sum f + f k v := by
  by_cases known : k ∈ d.keys
  · obtain ⟨v₀, there⟩ := mem_keys_iff.mp known
    have traded := sum_set_of_get? f there v
    omega
  · exact (sum_set_of_not_mem f known v).le

theorem size_set_of_not_mem (hk : k ∉ d.keys) (v : V) :
    (d.set k v).size = d.size + 1 := by
  simp [size, entries_set_of_not_mem hk]

/-- A write adds at most one entry and removes none. -/
theorem size_set_bounds (d : Dict K V) (k : K) (v : V) :
    d.size ≤ (d.set k v).size ∧ (d.set k v).size ≤ d.size + 1 := by
  have hlen : ∀ d : Dict K V, d.size = d.keys.length := fun d => by simp [size, keys]
  rw [hlen, hlen, keys_set]
  split <;> simp

/-! ### Deleting a key -/

/-- `del d[k]`, and nothing if `k` is not a key. -/
def erase (d : Dict K V) (k : K) : Dict K V where
  entries := d.entries.filter fun e => e.1 ≠ k
  nodup := d.nodup.sublist (List.filter_sublist.map Prod.fst)

theorem mem_keys_erase {k k' : K} :
    k' ∈ (d.erase k).keys ↔ k' ≠ k ∧ k' ∈ d.keys := by
  simp only [keys, erase, List.mem_map, List.mem_filter, decide_eq_true_eq]
  constructor
  · rintro ⟨e, ⟨he, hne⟩, rfl⟩
    exact ⟨hne, e, he, rfl⟩
  · rintro ⟨hne, e, he, rfl⟩
    exact ⟨e, ⟨he, hne⟩, rfl⟩

@[simp] theorem get?_erase_self (d : Dict K V) (k : K) : (d.erase k).get? k = none := by
  rw [get?_eq_none_iff, mem_keys_erase]
  simp

theorem get?_erase_of_ne (d : Dict K V) {k k' : K} (hne : k' ≠ k) :
    (d.erase k).get? k' = d.get? k' := by
  apply Option.ext
  intro v
  rw [← mem_entries_iff, ← mem_entries_iff]
  simp [erase, hne]

theorem get?_erase (d : Dict K V) (k k' : K) :
    (d.erase k).get? k' = if k' = k then none else d.get? k' := by
  split
  · rename_i h
    rw [h, get?_erase_self]
  · rename_i h
    exact d.get?_erase_of_ne h

theorem get?_of_get?_erase {k k' : K} {v : V}
    (h : (d.erase k).get? k' = some v) : d.get? k' = some v := by
  rw [get?_erase] at h
  split at h
  · exact absurd h (by simp)
  · exact h

/-- Erasing many keys, one after the other. -/
theorem get?_foldl_erase (keys : List K) (d : Dict K V) (k : K) :
    (keys.foldl erase d).get? k = if k ∈ keys then none else d.get? k := by
  induction keys generalizing d with
  | nil => simp
  | cons key keys ih =>
      rw [List.foldl_cons, ih, get?_erase]
      by_cases here : k = key
      · simp [here]
      · simp [here]

/-- Erasing one value leaves the others. -/
theorem get?_erase_of_value_ne {k k' : K} {v v' : V} (h : d.get? k = some v)
    (h' : d.get? k' = some v') (hne : v' ≠ v) : (d.erase k).get? k' = some v' := by
  rw [get?_erase_of_ne]
  · exact h'
  · rintro rfl
    exact hne (Option.some.inj (h'.symm.trans h))

theorem erase_of_not_mem (hk : k ∉ d.keys) : d.erase k = d := by
  apply ext_entries
  refine List.filter_eq_self.mpr fun e he => ?_
  rw [decide_eq_true_eq]
  rintro rfl
  exact hk (List.mem_map.mpr ⟨e, he, rfl⟩)

theorem erase_eq_self_iff : d.erase k = d ↔ k ∉ d.keys := by
  refine ⟨fun same mem => ?_, erase_of_not_mem⟩
  rw [← same] at mem
  exact (mem_keys_erase.mp mem).1 rfl

private theorem sum_filter_ne [AddCommMonoid M] (f : K → V → M) {v : V}
    (nd : (es.map Prod.fst).Nodup) (mem : (k, v) ∈ es) :
    ((es.filter fun e => e.1 ≠ k).map fun e => f e.1 e.2).sum + f k v =
      (es.map fun e => f e.1 e.2).sum := by
  induction es with
  | nil => simp at mem
  | cons e es ih =>
      simp only [List.map_cons, List.nodup_cons] at nd
      rcases List.mem_cons.mp mem with rfl | mem
      · have hall : es.filter (fun e => e.1 ≠ k) = es := by
          refine List.filter_eq_self.mpr fun e he => ?_
          rw [decide_eq_true_eq]
          rintro rfl
          exact nd.1 (List.mem_map.mpr ⟨e, he, rfl⟩)
        rw [List.filter_cons_of_neg (by simp), hall, List.map_cons, List.sum_cons, add_comm]
      · have hne : e.1 ≠ k := by
          rintro rfl
          exact nd.1 (List.mem_map.mpr ⟨_, mem, rfl⟩)
        rw [List.filter_cons_of_pos (by simpa using hne), List.map_cons, List.sum_cons,
          List.map_cons, List.sum_cons, add_assoc, ih nd.2 mem]

/-- Deleting a key takes away its contribution. -/
theorem sum_erase [AddCommMonoid M] (f : K → V → M) {v : V}
    (h : d.get? k = some v) : (d.erase k).sum f + f k v = d.sum f :=
  sum_filter_ne f d.nodup (mem_entries_iff.mpr h)

theorem sum_erase_le (f : K → V → ℕ) (d : Dict K V) (k : K) : (d.erase k).sum f ≤ d.sum f := by
  by_cases known : k ∈ d.keys
  · obtain ⟨v₀, there⟩ := mem_keys_iff.mp known
    have removed := sum_erase f there
    omega
  · rw [erase_of_not_mem known]

theorem size_erase {v : V} (h : d.get? k = some v) :
    (d.erase k).size + 1 = d.size := by
  rw [size_eq_sum, size_eq_sum]
  exact sum_erase (fun _ _ => 1) h

/-! ### Writing many entries -/

/-- Write the entries of a list, one after the other. -/
def setAll (d : Dict K V) (es : List (K × V)) : Dict K V :=
  es.foldl (fun d e => d.set e.1 e.2) d

/-- A value that is found was written last or was there before. -/
theorem get?_setAll_cases {v : V}
    (h : (d.setAll es).get? k = some v) : (k, v) ∈ es ∨ d.get? k = some v := by
  induction es generalizing d with
  | nil => exact .inr h
  | cons e es ih =>
      rcases ih h with mem | before
      · exact .inl (List.mem_cons_of_mem e mem)
      · rw [get?_set] at before
        split at before
        · rename_i hk
          obtain rfl := Option.some.inj before
          exact .inl (hk ▸ List.mem_cons_self)
        · exact .inr before

/-- A key with one value in the list and before it keeps that value. -/
theorem get?_setAll_of_forall {v : V} (h : d.get? k = some v) (same : ∀ e ∈ es, e.1 = k → e.2 = v) :
    (d.setAll es).get? k = some v := by
  induction es generalizing d with
  | nil => exact h
  | cons e es ih =>
      refine ih ?_ fun e' he' => same e' (List.mem_cons_of_mem e he')
      rw [get?_set]
      split
      · rename_i hk
        rw [same e List.mem_cons_self hk.symm]
      · exact h

/-- A key that is written, always with one value, has it. -/
theorem get?_setAll_of_mem {v : V} (mem : (k, v) ∈ es) (same : ∀ e ∈ es, e.1 = k → e.2 = v) :
    (d.setAll es).get? k = some v := by
  obtain ⟨before, after, rfl⟩ := List.append_of_mem mem
  unfold setAll
  rw [List.foldl_append, List.foldl_cons]
  refine get?_setAll_of_forall (get?_set_self _ k v) ?_
  intro e he
  exact same e (List.mem_append.mpr (.inr (List.mem_cons_of_mem _ he)))

/-- Writing entries removes no key. -/
theorem mem_keys_setAll_of_mem (h : k ∈ d.keys) :
    k ∈ (d.setAll es).keys := by
  induction es generalizing d with
  | nil => exact h
  | cons e es ih => exact ih (mem_keys_set.mpr (.inr h))

/-- `setdefault`, for its effect. -/
def setDefault (d : Dict K V) (k : K) (v : V) : Dict K V := if d.contains k then d else d.set k v

theorem get?_setDefault (d : Dict K V) (k k' : K) (v : V) :
    (d.setDefault k v).get? k' = (d.get? k').or (if k' = k then some v else none) := by
  unfold setDefault
  by_cases there : k ∈ d.keys
  · rw [if_pos (contains_iff.mpr there)]
    obtain ⟨old, found⟩ := mem_keys_iff.mp there
    by_cases same : k' = k
    · rw [same, found, Option.some_or]
    · rw [if_neg same, Option.or_none]
  · rw [if_neg (fun has => there (contains_iff.mp has)), get?_set]
    by_cases same : k' = k
    · rw [if_pos same, if_pos same, same, get?_eq_none_iff.mpr there, Option.none_or]
    · rw [if_neg same, if_neg same, Option.or_none]

/-- A key after many steps of which each may write it: the last write stands. -/
theorem get?_foldl_last {A : Type*} {f : Dict K V → A → Dict K V} {g : A → Option V}
    (writes : ∀ d a, (f d a).get? k = (g a).or (d.get? k)) (as : List A) (d : Dict K V) :
    (as.foldl f d).get? k = (as.reverse.findSome? g).or (d.get? k) := by
  induction as generalizing d with
  | nil => rfl
  | cons a as ih =>
      rw [List.foldl_cons, ih, writes, List.reverse_cons, List.findSome?_append, Option.or_assoc]
      cases written : g a <;> simp [written]

/-- A key after many steps of which none writes it where it is there: the first write stands. -/
theorem get?_foldl_first {A : Type*} {f : Dict K V → A → Dict K V} {g : A → Option V}
    (writes : ∀ d a, (f d a).get? k = (d.get? k).or (g a)) (as : List A) (d : Dict K V) :
    (as.foldl f d).get? k = (d.get? k).or (as.findSome? g) := by
  induction as generalizing d with
  | nil => rw [List.foldl_nil, List.findSome?_nil, Option.or_none]
  | cons a as ih =>
      rw [List.foldl_cons, ih, writes, List.findSome?_cons, Option.or_assoc]
      cases written : g a <;> simp

/-- A loop over the entries of a dictionary, seen through an observation that only the entry under
one key moves. -/
theorem foldl_entries {S O : Type*} (seen : S → O) (g : V → O → O) {f : S → K × V → S}
    (other : ∀ s, ∀ e ∈ d.entries, e.1 ≠ k → seen (f s e) = seen s)
    (own : ∀ s v, d.get? k = some v → seen (f s (k, v)) = g v (seen s)) (s : S) :
    seen (d.entries.foldl f s) =
      match d.get? k with
      | none => seen s
      | some v => g v (seen s) := by
  -- No entry of `es` has the key, so the loop over `es` is not seen.
  have unseen : ∀ es : List (K × V), es ⊆ d.entries → k ∉ es.map Prod.fst → ∀ s,
      seen (es.foldl f s) = seen s := by
    intro es within absent s
    refine List.foldlRecOn (motive := fun r => seen r = seen s) es f rfl fun r same e mem => ?_
    have apart : e.1 ≠ k := fun h => absent (h ▸ List.mem_map_of_mem mem)
    exact (other r e (within mem) apart).trans same
  cases found : d.get? k with
  | none => exact unseen _ (List.Subset.refl _) (get?_eq_none_iff.mp found) s
  | some v =>
      obtain ⟨before, after, split⟩ := List.append_of_mem (mem_entries_iff.mpr found)
      have nodup := d.nodup
      rw [split, List.map_append, List.map_cons, List.nodup_append, List.nodup_cons] at nodup
      have early : k ∉ before.map Prod.fst := fun mem => nodup.2.2 k mem k (by simp) rfl
      have within : before ⊆ d.entries ∧ after ⊆ d.entries := by
        rw [split]
        exact ⟨List.subset_append_left _ _, fun e mem => by simp [mem]⟩
      rw [split, List.foldl_append, List.foldl_cons, unseen after within.2 nodup.2.1.1, own _ v found,
        unseen before within.1 early]

/-- Entries under new keys are appended. -/
theorem entries_setAll
    (fresh : (d.keys ++ es.map Prod.fst).Nodup) : (d.setAll es).entries = d.entries ++ es := by
  induction es generalizing d with
  | nil => simp [setAll]
  | cons e es ih =>
      have new : e.1 ∉ d.keys := by
        intro hk
        exact (List.nodup_append.mp fresh).2.2 e.1 hk e.1 (by simp) rfl
      have keys : (d.set e.1 e.2).keys = d.keys ++ [e.1] := by
        rw [keys_set, if_neg new]
      show ((d.set e.1 e.2).setAll es).entries = _
      rw [ih, entries_set_of_not_mem new]
      · simp
      · rw [keys]
        simpa using fresh

theorem keys_setAll (fresh : (d.keys ++ es.map Prod.fst).Nodup) :
    (d.setAll es).keys = d.keys ++ es.map Prod.fst := by
  rw [keys, entries_setAll fresh, List.map_append, keys]

theorem sum_setAll {N : Type*} [AddCommMonoid N] (f : K → V → N)
    (fresh : (d.keys ++ es.map Prod.fst).Nodup) :
    (d.setAll es).sum f = d.sum f + (es.map fun e => f e.1 e.2).sum := by
  rw [sum, entries_setAll fresh, List.map_append, List.sum_append, sum]

/-! ### Gathering -/

/-- The values of each key, in order. -/
def gather (as : List (K × V)) : Dict K (List V) :=
  as.foldl (fun d a => d.set a.1 ((d.get? a.1).getD [] ++ [a.2])) ∅

theorem getD_get?_gather (as : List (K × V)) (k : K) :
    ((gather as).get? k).getD [] = (as.filter fun a => decide (a.1 = k)).map Prod.snd := by
  induction as using List.reverseRecOn with
  | nil => rfl
  | append_singleton as a ih =>
      have last : gather (as ++ [a]) = (gather as).set a.1 (((gather as).get? a.1).getD [] ++ [a.2]) :=
        List.foldl_concat ..
      rw [last, List.filter_append, List.map_append, ← ih]
      by_cases here : a.1 = k
      · have kept : [a].filter (fun a => decide (a.1 = k)) = [a] :=
          List.filter_cons_of_pos (decide_eq_true here)
        rw [kept, ← here, get?_set_self]
        rfl
      · rw [get?_set_of_ne _ (Ne.symm here), List.filter_cons_of_neg (by simpa using here), List.filter_nil,
          List.map_nil, List.append_nil]

/-! ### Carrying entries over -/

/-- Carry the entries of `e` over into `d`, each joined with what `d` has under its key. -/
def merge (join : Option V → V → V) (d e : Dict K V) : Dict K V :=
  e.entries.foldl (fun d entry => d.set entry.1 (join (d.get? entry.1) entry.2)) d

theorem get?_merge (join : Option V → V → V) (d e : Dict K V) (k : K) :
    (merge join d e).get? k = ((e.get? k).map (join (d.get? k))).or (d.get? k) := by
  have onto (es : List (K × V)) (nd : (es.map Prod.fst).Nodup) (d : Dict K V) :
      (es.foldl (fun d entry => d.set entry.1 (join (d.get? entry.1) entry.2)) d).get? k =
        ((es.find? fun entry => entry.1 = k).map fun entry => join (d.get? k) entry.2).or
          (d.get? k) := by
    induction es generalizing d with
    | nil => rfl
    | cons entry es ih =>
        simp only [List.map_cons, List.nodup_cons] at nd
        rw [List.foldl_cons, ih nd.2]
        by_cases here : entry.1 = k
        · -- no later entry is under this key
          have later : es.find? (fun entry => entry.1 = k) = none := by
            rw [List.find?_eq_none]
            rintro other mem found
            have same : other.1 = entry.1 := by simpa [here] using found
            exact nd.1 (same ▸ List.mem_map_of_mem mem)
          rw [List.find?_cons_of_pos (by simpa using here), later]
          simp [← here]
        · rw [List.find?_cons_of_neg (by simpa using here), get?_set_of_ne _ (Ne.symm here)]
  rw [merge, onto e.entries e.nodup d]
  simp [get?, Function.comp_def]

/-! ### Adding up by key -/

section AddTo

variable {M : Type*} [AddCommMonoid M]

/-- Add `m` to what is stored under `k`. -/
def addTo (d : Dict K M) (k : K) (m : M) : Dict K M := d.set k ((d.get? k).getD 0 + m)

/-- Group a list by key, and add up the values of each group. -/
def tally {A : Type*} (key : A → K) (value : A → M) (as : List A) : Dict K M :=
  as.foldl (fun d a => d.addTo (key a) (value a)) ∅

theorem getD_addTo (d : Dict K M) (k k' : K) (m : M) : ((d.addTo k m).get? k').getD 0 =
    (d.get? k').getD 0 + if k = k' then m else 0 := by
  rw [addTo, get?_set]
  by_cases here : k = k'
  · simp [here]
  · simp [here, Ne.symm here]

/-- An additive total takes what was added. -/
theorem sum_addTo {N : Type*} [AddCancelCommMonoid N] (f : K → M →+ N) (d : Dict K M) (k : K) (m : M) :
    ((d.addTo k m).sum fun k v => f k v) = (d.sum fun k v => f k v) + f k m := by
  unfold addTo
  cases h : d.get? k with
  | none =>
      rw [sum_set_of_not_mem _ (get?_eq_none_iff.mp h)]
      simp
  | some v =>
      have traded := sum_set_of_get? (fun k v => f k v) h (v + m)
      rw [map_add, add_comm (f k v), ← add_assoc] at traded
      exact add_right_cancel traded

/-- An additive total of a tally is the total of the list. -/
theorem sum_tally {A N : Type*} [AddCancelCommMonoid N] (f : K → M →+ N) (key : A → K) (value : A → M)
    (as : List A) : ((tally key value as).sum fun k v => f k v) =
      (as.map fun a => f (key a) (value a)).sum := by
  have onto (d : Dict K M) : ((as.foldl (fun d a => d.addTo (key a) (value a)) d).sum fun k v => f k v) =
      (d.sum fun k v => f k v) + (as.map fun a => f (key a) (value a)).sum := by
    induction as generalizing d with
    | nil => simp
    | cons a as ih =>
        rw [List.foldl_cons, ih, sum_addTo, List.map_cons, List.sum_cons, add_assoc]
  rw [tally, onto, sum_empty, zero_add]

/-- What holds of zero and of each value, and of sums, holds of every group. -/
theorem forall_tally {A : Type*} {key : A → K} {value : A → M} {as : List A} {P : K → M → Prop}
    (zero : ∀ k, P k 0) (add : ∀ k m m', P k m → P k m' → P k (m + m'))
    (each : ∀ a ∈ as, P (key a) (value a)) :
    ∀ k m, (tally key value as).get? k = some m → P k m := by
  refine List.foldlRecOn as _ (motive := fun d : Dict K M => ∀ k m, d.get? k = some m → P k m)
    (fun k m h => absurd h (by simp)) ?_
  intro d inv a ha k m h
  rw [addTo, get?_set] at h
  split at h
  · rename_i here
    obtain rfl := Option.some.inj h
    subst here
    refine add _ _ _ ?_ (each a ha)
    cases before : d.get? (key a) with
    | none => exact zero _
    | some v => exact inv _ _ before
  · exact inv k m h

/-- What a tally has under a key is the total of the values with that key. -/
theorem get?_tally {A : Type*} (key : A → K) (value : A → M) (as : List A) (k : K) :
    ((tally key value as).get? k).getD 0 =
      (as.map fun a => if key a = k then value a else 0).sum := by
  have onto (d : Dict K M) : ((as.foldl (fun d a => d.addTo (key a) (value a)) d).get? k).getD 0 =
      (d.get? k).getD 0 + (as.map fun a => if key a = k then value a else 0).sum := by
    induction as generalizing d with
    | nil => simp
    | cons a as ih =>
        rw [List.foldl_cons, ih, getD_addTo, List.map_cons, List.sum_cons, add_assoc]
  rw [tally, onto]
  simp

theorem mem_keys_tally {A : Type*} {key : A → K} {value : A → M} {as : List A}
    (h : k ∈ (tally key value as).keys) : ∃ a ∈ as, key a = k := by
  have among : ∀ k ∈ (tally key value as).keys, ∃ a ∈ as, key a = k := by
    refine List.foldlRecOn as _ (motive := fun d : Dict K M => ∀ k ∈ d.keys, ∃ a ∈ as, key a = k)
      (fun k h => absurd h (by simp)) ?_
    intro d inv a ha k h
    rcases mem_keys_set.mp h with rfl | h
    · exact ⟨a, ha, rfl⟩
    · exact inv k h
  exact among k h

/-- An additive total, over any set of keys that holds those of the dictionary. -/
theorem sum_eq_finset_sum {N : Type*} [AddCommMonoid N] (f : K → M →+ N) {d : Dict K M}
    {keys : Finset K} (sub : ∀ k ∈ d.keys, k ∈ keys) :
    (d.sum fun k v => f k v) = ∑ k ∈ keys, f k ((d.get? k).getD 0) := by
  have own : (d.sum fun k v => f k v) = ∑ k ∈ d.keys.toFinset, f k ((d.get? k).getD 0) := by
    rw [List.sum_toFinset _ d.nodup_keys, sum, Dict.keys, List.map_map]
    refine congrArg List.sum (List.map_congr_left fun e mem => ?_)
    simp [mem_entries_iff.mp (show (e.1, e.2) ∈ d.entries from mem)]
  rw [own]
  refine Finset.sum_subset (fun k mem => sub k (List.mem_toFinset.mp mem)) fun k _ outside => ?_
  rw [get?_eq_none_iff.mpr fun mem => outside (List.mem_toFinset.mpr mem)]
  simp

/-- An additive total only depends on what the keys have, zero where there is nothing. -/
theorem sum_congr_getD {N : Type*} [AddCommMonoid N] (f : K → M →+ N) {d e : Dict K M}
    (same : ∀ k, (d.get? k).getD 0 = (e.get? k).getD 0) :
    (d.sum fun k v => f k v) = e.sum fun k v => f k v := by
  have both : ∀ k, k ∈ d.keys ∨ k ∈ e.keys → k ∈ (d.keys ++ e.keys).toFinset := by simp
  rw [sum_eq_finset_sum f fun k mem => both k (.inl mem),
    sum_eq_finset_sum f fun k mem => both k (.inr mem)]
  exact Finset.sum_congr rfl fun k _ => by rw [same k]

/-- A monotone additive total grows with what the keys have. -/
theorem sum_le_sum_getD {N : Type*} [Preorder M] [AddCommMonoid N] [PartialOrder N]
    [IsOrderedAddMonoid N] (f : K → M →+ N) (mono : ∀ k, Monotone (f k)) {d e : Dict K M}
    (le : ∀ k, (d.get? k).getD 0 ≤ (e.get? k).getD 0) :
    (d.sum fun k v => f k v) ≤ e.sum fun k v => f k v := by
  have both : ∀ k, k ∈ d.keys ∨ k ∈ e.keys → k ∈ (d.keys ++ e.keys).toFinset := by simp
  rw [sum_eq_finset_sum f fun k mem => both k (.inl mem),
    sum_eq_finset_sum f fun k mem => both k (.inr mem)]
  exact Finset.sum_le_sum fun k _ => mono k (le k)

end AddTo

end Dict
