import Mathlib.Data.List.DropRight
import Mathlib.Data.List.Infix
import Mathlib.Order.Lattice

/-!
# The tail of a stream

What has come of a stream is read through its tail: the last `n` items (`List.rtake`), and the run
of items at its end that satisfy a predicate (`List.rtakeWhile`).  A suffix that is long enough has
the same last items (`rtake_of_suffix`), so that what lies before it may be dropped.  A run of `n`
items ends with the item that makes the run at the end that long (`hasRun_concat`), and the first
one ends with the first such item (`FirstRun.hasRun_iff`).  In an ordered stream the items from a
bound on are at its end, so that the last `n` items tell how many there are, up to `n`
(`length_filter_rtake`), and a mark that follows the items takes no value twice (`nodup_changes`).
-/

namespace Window

variable {α : Type*}

/-! ### The last items -/

theorem length_rtake (xs : List α) (n : ℕ) : (xs.rtake n).length = min n xs.length := by
  rw [List.rtake, List.length_drop]
  omega

theorem rtake_suffix (xs : List α) (n : ℕ) : xs.rtake n <:+ xs := List.drop_suffix _ _

/-- The last items of a list are those of a suffix that is long enough. -/
theorem rtake_of_suffix {n : ℕ} {tail xs : List α} (suffix : tail <:+ xs)
    (long : min n xs.length ≤ tail.length) : tail.rtake n = xs.rtake n := by
  obtain ⟨lead, rfl⟩ := suffix
  rw [List.length_append] at long
  rcases Nat.lt_or_ge tail.length n with short | enough
  · have none : lead = [] := by
      rw [← List.length_eq_zero_iff]
      omega
    rw [none, List.nil_append]
  · have skipped : (lead ++ tail).length - n = lead.length + (tail.length - n) := by
      rw [List.length_append]
      omega
    rw [List.rtake, List.rtake, skipped, List.drop_append]
    simp

/-- What a bounded log shows beyond its old length: where it is full, the first of the new items are
missed. -/
theorem drop_rtake_append (xs ys : List α) (n : ℕ) :
    ((xs ++ ys).rtake n).drop xs.length = ys.drop (xs.length + ys.length - n) := by
  rw [List.rtake, List.drop_drop, List.length_append, Nat.add_comm _ xs.length, List.drop_length_add_append]

/-! ### Ordered streams -/

section Ordered

variable [LinearOrder α] {xs : List α}

/-- In an ordered list the items from a bound on are what is left when those below it are dropped. -/
theorem dropWhile_lt_eq_filter (ordered : xs.Pairwise (· ≤ ·)) (c : α) :
    xs.dropWhile (fun x => decide (x < c)) = xs.filter fun x => decide (c ≤ x) := by
  induction xs with
  | nil => rfl
  | cons x xs ih =>
      rw [List.pairwise_cons] at ordered
      by_cases below : x < c
      · rw [List.dropWhile_cons_of_pos (by simpa using below), ih ordered.2,
          List.filter_cons_of_neg (by simpa using below)]
      · have above : ∀ y ∈ x :: xs, decide (c ≤ y) = true := by
          intro y mem
          rw [decide_eq_true_eq]
          rcases List.mem_cons.mp mem with rfl | later
          · exact not_lt.mp below
          · exact (not_lt.mp below).trans (ordered.1 y later)
        rw [List.dropWhile_cons_of_neg (by simpa using below), List.filter_eq_self.mpr above]

/-- The last item of an ordered list is not before any other. -/
theorem le_getLast_of_mem (ordered : xs.Pairwise (· ≤ ·)) {x : α} (mem : x ∈ xs) (mark : α) :
    x ≤ xs.getLast?.getD mark := by
  induction xs using List.reverseRecOn with
  | nil => exact absurd mem List.not_mem_nil
  | append_singleton xs last ih =>
      rw [List.getLast?_concat, Option.getD_some]
      rcases List.mem_append.mp mem with before | here
      · exact (List.pairwise_append.mp ordered).2.2 x before last (List.mem_singleton_self last)
      · exact (List.mem_singleton.mp here).le

/-- Of the last `n` items of an ordered list, as many are from a bound on as of the whole list, or
all `n` are. -/
theorem length_filter_rtake (ordered : xs.Pairwise (· ≤ ·)) (c : α) (n : ℕ) :
    ((xs.rtake n).filter fun x => decide (c ≤ x)).length =
      min n (xs.filter fun x => decide (c ≤ x)).length := by
  induction xs using List.reverseRecOn generalizing n with
  | nil => simp
  | append_singleton xs x ih =>
      obtain ⟨before, -, last⟩ := List.pairwise_append.mp ordered
      cases n with
      | zero => simp
      | succ n =>
          rw [List.rtake_concat_succ, List.filter_append, List.filter_append, List.length_append,
            List.length_append, ih before]
          by_cases above : c ≤ x
          · rw [List.filter_cons_of_pos (by simpa using above), List.filter_nil,
              List.length_singleton]
            omega
          · -- then nothing before it is either
            have none : xs.filter (fun y => decide (c ≤ y)) = [] := by
              rw [List.filter_eq_nil_iff]
              intro y mem
              rw [decide_eq_true_eq]
              exact fun le => above (le.trans (last y mem x (List.mem_singleton_self x)))
            rw [none, List.filter_cons_of_neg (by simpa using above)]
            simp

end Ordered

/-! ### A mark that follows the stream -/

section Changes

variable [DecidableEq α]

/-- The values that a mark takes as it follows the items: each that is not the one it stands at. -/
def changes (mark : α) : List α → List α
  | [] => []
  | x :: xs => if x = mark then changes mark xs else x :: changes x xs

theorem changes_concat (mark : α) (xs : List α) (x : α) : changes mark (xs ++ [x]) =
    changes mark xs ++ if x = xs.getLast?.getD mark then [] else [x] := by
  induction xs generalizing mark with
  | nil => rfl
  | cons y xs ih =>
      have last : (y :: xs).getLast?.getD mark = xs.getLast?.getD y := by
        rw [List.getLast?_cons, Option.getD_some]
      rw [List.cons_append, changes, changes, ih, ih, last]
      split
      · next same => rw [same]
      · rfl

/-- Items that do not go back, and none of them before the mark: it takes each of the others. -/
theorem mem_changes_iff {α : Type*} [LinearOrder α] {mark : α} {xs : List α}
    (ordered : (mark :: xs).Pairwise (· ≤ ·)) {x : α} : x ∈ changes mark xs ↔ x ∈ xs ∧ x ≠ mark := by
  induction xs generalizing mark with
  | nil => simp [changes]
  | cons y xs ih =>
      obtain ⟨from_mark, ordered⟩ := List.pairwise_cons.mp ordered
      rw [changes, List.mem_cons]
      split
      · next same =>
          rw [ih (same ▸ ordered)]
          constructor
          · rintro ⟨mem, ne⟩
            exact ⟨.inr mem, ne⟩
          · rintro ⟨rfl | mem, ne⟩
            · exact absurd same ne
            · exact ⟨mem, ne⟩
      · next other =>
          rw [List.mem_cons, ih ordered]
          constructor
          · rintro (rfl | ⟨mem, -⟩)
            · exact ⟨.inl rfl, other⟩
            · have above := (List.pairwise_cons.mp ordered).1 x mem
              have below := from_mark y List.mem_cons_self
              exact ⟨.inr mem, fun back => other (le_antisymm (back ▸ above) below)⟩
          · rintro ⟨rfl | mem, -⟩
            · exact .inl rfl
            · by_cases same : x = y
              · exact .inl same
              · exact .inr ⟨mem, same⟩

/-- Items that do not go back: the mark takes each of them but for the value it starts with, where
the items start with it too. -/
theorem mem_changes_iff_head {α : Type*} [LinearOrder α] {xs : List α}
    (ordered : xs.Pairwise (· ≤ ·)) (mark x : α) :
    x ∈ changes mark xs ↔ x ∈ xs ∧ ¬(x = mark ∧ xs.head? = some mark) := by
  cases xs with
  | nil => simp [changes]
  | cons y xs =>
      rw [changes, List.head?_cons, Option.some_inj]
      split
      · next same =>
          subst same
          rw [mem_changes_iff ordered, List.mem_cons]
          tauto
      · next other =>
          rw [List.mem_cons, List.mem_cons, mem_changes_iff ordered]
          tauto

/-- A mark that follows items that do not go back takes no value twice. -/
theorem nodup_changes {α : Type*} [LinearOrder α] {xs : List α} (ordered : xs.Pairwise (· ≤ ·))
    (mark : α) : (changes mark xs).Nodup := by
  induction xs generalizing mark with
  | nil => exact List.nodup_nil
  | cons x xs ih =>
      rw [changes]
      split
      · exact ih ordered.of_cons mark
      · refine List.nodup_cons.mpr ⟨?_, ih ordered.of_cons x⟩
        rw [mem_changes_iff ordered]
        exact fun back => back.2 rfl

end Changes

/-! ### Runs -/

/-- Somewhere there are `n` items in a row that satisfy `p`. -/
def HasRun (p : α → Bool) (n : ℕ) (xs : List α) : Prop :=
  ∃ run, run <:+: xs ∧ run.length = n ∧ ∀ x ∈ run, p x = true

variable {p : α → Bool} {n : ℕ} {xs ys : List α}

theorem HasRun.mono (run : HasRun p n xs) (there : xs <:+: ys) : HasRun p n ys := by
  obtain ⟨run, here, length, all⟩ := run
  exact ⟨run, here.trans there, length, all⟩

theorem hasRun_nil_iff : HasRun p n [] ↔ n = 0 := by
  constructor
  · rintro ⟨run, here, rfl, -⟩
    rw [List.eq_nil_of_infix_nil here]
    rfl
  · rintro rfl
    exact ⟨[], List.infix_rfl, rfl, fun x mem => absurd mem List.not_mem_nil⟩

/-- A suffix that satisfies `p` throughout lies in the run at the end. -/
theorem suffix_rtakeWhile {run : List α} (suffix : run <:+ xs) (all : ∀ x ∈ run, p x = true) :
    run <:+ xs.rtakeWhile p := by
  obtain ⟨lead, rfl⟩ := suffix
  have reversed : ∀ x ∈ run.reverse, p x = true := fun x mem => all x (List.mem_reverse.mp mem)
  rw [List.rtakeWhile, List.reverse_append, List.takeWhile_append_of_pos reversed,
    List.reverse_append, List.reverse_reverse]
  exact List.suffix_append _ _

theorem forall_rtakeWhile (xs : List α) : ∀ x ∈ xs.rtakeWhile p, p x = true := by
  intro x mem
  rw [List.rtakeWhile, List.mem_reverse] at mem
  exact List.mem_takeWhile_imp mem

/-- One more item makes a run if the run at the end is then long enough. -/
theorem hasRun_concat (x : α) :
    HasRun p n (xs ++ [x]) ↔ HasRun p n xs ∨ n ≤ ((xs ++ [x]).rtakeWhile p).length := by
  constructor
  · rintro ⟨run, here, rfl, all⟩
    rcases List.infix_concat_iff.mp here with ends | before
    · exact .inr (suffix_rtakeWhile ends all).length_le
    · exact .inl ⟨run, before, rfl, all⟩
  · rintro (before | long)
    · exact before.mono (List.prefix_append xs [x]).isInfix
    · have tail : ((xs ++ [x]).rtakeWhile p).rtake n <:+ xs ++ [x] :=
        (rtake_suffix _ n).trans (List.rtakeWhile_suffix p _)
      refine ⟨_, tail.isInfix, ?_, fun y mem => forall_rtakeWhile _ y ((rtake_suffix _ n).mem mem)⟩
      rw [length_rtake]
      omega

/-! ### The first run -/

/-- The first run of `n` items that satisfy `p`, and what comes before it. -/
structure FirstRun (p : α → Bool) (n : ℕ) (xs lead run : List α) : Prop where
  here : lead ++ run <+: xs
  length : run.length = n
  all : ∀ x ∈ run, p x = true
  first : ¬HasRun p n (lead ++ run).dropLast

/-- Where there is a run there is a first one. -/
theorem HasRun.exists_first (run : HasRun p n xs) (pos : 0 < n) :
    ∃ lead run, FirstRun p n xs lead run := by
  induction xs using List.reverseRecOn with
  | nil =>
      rw [hasRun_nil_iff] at run
      omega
  | append_singleton xs x ih =>
      by_cases before : HasRun p n xs
      · obtain ⟨lead, run, found⟩ := ih before
        exact ⟨lead, run, found.here.trans (List.prefix_append xs [x]), found.length, found.all,
          found.first⟩
      · have long := ((hasRun_concat x).mp run).resolve_left before
        obtain ⟨lead, whole⟩ : ((xs ++ [x]).rtakeWhile p).rtake n <:+ xs ++ [x] :=
          (rtake_suffix _ n).trans (List.rtakeWhile_suffix p _)
        refine ⟨lead, ((xs ++ [x]).rtakeWhile p).rtake n, ?_, ?_, ?_, ?_⟩
        · rw [whole]
        · rw [length_rtake]
          omega
        · exact fun y mem => forall_rtakeWhile _ y ((rtake_suffix _ n).mem mem)
        · rwa [whole, List.dropLast_concat]

/-- A prefix has a run exactly if it reaches the end of the first one. -/
theorem FirstRun.hasRun_iff {lead run : List α} (found : FirstRun p n xs lead run)
    (part : ys <+: xs) : HasRun p n ys ↔ (lead ++ run).length ≤ ys.length := by
  constructor
  · intro runs
    by_contra short
    have inside : ys <+: (lead ++ run).dropLast := by
      refine List.prefix_of_prefix_length_le part ((List.dropLast_prefix _).trans found.here) ?_
      rw [List.length_dropLast]
      omega
    exact found.first (runs.mono inside.isInfix)
  · intro reaches
    have inside : lead ++ run <+: ys := List.prefix_of_prefix_length_le found.here part reaches
    exact ⟨run, (List.suffix_append lead run).isInfix.trans inside.isInfix, found.length, found.all⟩

end Window
