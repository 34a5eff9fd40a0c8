import Mathlib.Data.Finset.Sort
import Mathlib.Data.List.DropRight
import Mathlib.Data.List.Infix
import Mathlib.Data.List.TakeWhile
import Mathlib.Data.String.Basic

/-!
# Text

Texts are lists of characters.  `lstrip`, `rstrip` and `strip` remove white space, and
`cut? needle text` splits a text around the first occurrence of `needle`; the slicing after a
`find` is this.

A stream brings a text in pieces, and a `needle` may lie across two of them.  What has to be
kept of the text so far is the longest end of it with which `needle` begins, `partialLen`:
`cut?_append_of_partial` says that no occurrence begins before it, whatever comes next.
-/

namespace Text

/-- White space, as `str.isspace` has it. -/
def isSpace (c : Char) : Bool :=
  let n := c.toNat
  (9 ≤ n && n ≤ 13) || (28 ≤ n && n ≤ 32) || n = 0x85 || n = 0xa0 || n = 0x1680 ||
    (0x2000 ≤ n && n ≤ 0x200a) || n = 0x2028 || n = 0x2029 || n = 0x202f || n = 0x205f || n = 0x3000

/-- The digits zero of the decimal systems that `\d` and `int` know. -/
def digitZeros : List ℕ :=
  [0x30, 0x660, 0x6f0, 0x7c0, 0x966, 0x9e6, 0xa66, 0xae6, 0xb66, 0xbe6, 0xc66, 0xce6, 0xd66, 0xde6,
    0xe50, 0xed0, 0xf20, 0x1040, 0x1090, 0x17e0, 0x1810, 0x1946, 0x19d0, 0x1a80, 0x1a90, 0x1b50,
    0x1bb0, 0x1c40, 0x1c50, 0xa620, 0xa8d0, 0xa900, 0xa9d0, 0xa9f0, 0xaa50, 0xabf0, 0xff10, 0x104a0,
    0x10d30, 0x11066, 0x110f0, 0x11136, 0x111d0, 0x112f0, 0x11450, 0x114d0, 0x11650, 0x116c0,
    0x11730, 0x118e0, 0x11950, 0x11c50, 0x11d50, 0x11da0, 0x16a60, 0x16ac0, 0x16b50, 0x1d7ce,
    0x1d7d8, 0x1d7e2, 0x1d7ec, 0x1d7f6, 0x1e140, 0x1e2f0, 0x1e950, 0x1fbf0]

/-- The value of a decimal digit. -/
def digit? (c : Char) : Option ℕ :=
  (digitZeros.find? fun n => n ≤ c.toNat && c.toNat < n + 10).map fun n => c.toNat - n

/-- `sorted`, of a set. -/
def sorted (names : Finset String) : List String := names.sort (· ≤ ·)

def lstrip (text : List Char) : List Char := text.dropWhile isSpace

def rstrip (text : List Char) : List Char := List.rdropWhile isSpace text

def strip (text : List Char) : List Char := rstrip (lstrip text)

theorem lstrip_append_of_ne_nil {text : List Char} (ne : lstrip text ≠ []) (more : List Char) :
    lstrip (text ++ more) = lstrip text ++ more := by
  induction text with
  | nil => exact absurd rfl ne
  | cons c text ih =>
      by_cases space : isSpace c = true
      · simp only [lstrip, List.cons_append, List.dropWhile_cons, space, if_true] at ne ⊢
        exact ih ne
      · simp [lstrip, space]

theorem lstrip_append_of_eq_nil {text : List Char} (empty : lstrip text = []) (more : List Char) :
    lstrip (text ++ more) = lstrip more := by
  exact List.dropWhile_append_of_pos (List.dropWhile_eq_nil_iff.mp empty)

/-- What `lstrip` leaves is an end of the text. -/
theorem lstrip_suffix (text : List Char) : lstrip text <:+ text := List.dropWhile_suffix _

/-- A text is blank if it is all white space. -/
theorem strip_eq_nil_iff {text : List Char} : strip text = [] ↔ ∀ c ∈ text, isSpace c = true := by
  rw [strip, rstrip, List.rdropWhile_eq_nil_iff]
  constructor
  · intro blank
    rw [← List.dropWhile_eq_nil_iff]
    by_contra left
    have first := List.head_dropWhile_not isSpace left
    exact absurd (blank _ (List.head_mem left)) (Bool.eq_false_iff.mp first)
  · intro blank c mem
    exact blank c ((lstrip_suffix text).mem mem)

theorem strip_rstrip_eq_nil_iff {text : List Char} : strip (rstrip text) = [] ↔ strip text = [] := by
  rw [strip_eq_nil_iff, strip_eq_nil_iff]
  constructor
  · intro blank c mem
    rw [← @List.rdropWhile_append_rtakeWhile _ isSpace text, List.mem_append] at mem
    exact mem.elim (blank c) List.mem_rtakeWhile_imp
  · intro blank c mem
    exact blank c ((List.rdropWhile_prefix isSpace text).mem mem)

/-- What `dropWhile` leaves begins with a character where it stopped. -/
theorem not_isSpace_of_lstrip {text rest : List Char} {c : Char} (left : lstrip text = c :: rest) :
    isSpace c = false := by
  induction text with
  | nil => cases left
  | cons d text ih =>
      rw [lstrip, List.dropWhile_cons] at left
      split at left
      · exact ih left
      · next other =>
          cases left
          exact Bool.eq_false_iff.mpr other

/-- A text that is stripped has no white space at its ends. -/
theorem strip_strip (text : List Char) : strip (strip text) = strip text := by
  have front : lstrip (strip text) = strip text := by
    match stripped : strip text with
    | [] => rfl
    | c :: rest =>
        have starts : c :: rest <+: lstrip text := stripped ▸ List.rdropWhile_prefix isSpace _
        obtain ⟨more, whole⟩ := starts
        have first := not_isSpace_of_lstrip whole.symm
        rw [lstrip, List.dropWhile_cons, first]
        rfl
  rw [strip, front]
  exact List.rdropWhile_idempotent isSpace _

section Cut

variable {α : Type*} [DecidableEq α]

/-- The text before and after the first occurrence of `needle`. -/
def cut? (needle : List α) : List α → Option (List α × List α)
  | [] => if needle = [] then some ([], []) else none
  | c :: text =>
      if needle.isPrefixOf (c :: text) then some ([], (c :: text).drop needle.length)
      else (cut? needle text).map fun parts => (c :: parts.1, parts.2)

theorem eq_of_cut? {needle text before after : List α}
    (found : cut? needle text = some (before, after)) : text = before ++ needle ++ after := by
  induction text generalizing before with
  | nil =>
      unfold cut? at found
      split at found
      · rename_i empty
        simp only [Option.some.injEq, Prod.mk.injEq] at found
        obtain ⟨rfl, rfl⟩ := found
        simp [empty]
      · exact absurd found (by simp)
  | cons c text ih =>
      unfold cut? at found
      split at found
      · rename_i here
        obtain ⟨rest, split⟩ := List.isPrefixOf_iff_prefix.mp here
        simp only [Option.some.injEq, Prod.mk.injEq] at found
        obtain ⟨rfl, rfl⟩ := found
        rw [← split]
        simp
      · obtain ⟨parts, cut, eq⟩ := Option.map_eq_some_iff.mp found
        simp only [Prod.mk.injEq] at eq
        obtain ⟨rfl, rfl⟩ := eq
        rw [ih cut]
        simp

/-- A text without an occurrence has none in an end of it. -/
theorem cut?_eq_none_of_suffix {needle text : List α} (none : cut? needle text = none)
    {tail : List α} (suffix : tail <:+ text) : cut? needle tail = .none := by
  obtain ⟨front, rfl⟩ := suffix
  induction front with
  | nil => exact none
  | cons c front ih =>
      refine ih ?_
      rw [List.cons_append, cut?] at none
      split at none
      · exact absurd none (by simp)
      · exact Option.map_eq_none_iff.mp none

/-- A text that begins with `needle` has an occurrence. -/
theorem cut?_ne_none_of_starts {needle text : List α} (here : needle <+: text) :
    cut? needle text ≠ none := by
  cases text with
  | nil =>
      have empty : needle = [] := List.prefix_nil.mp here
      simp [cut?, empty]
  | cons c text =>
      rw [cut?, if_pos (List.isPrefixOf_iff_prefix.mpr here)]
      simp

/-- An occurrence stays the first one when more text comes. -/
theorem cut?_append {needle text before after : List α}
    (found : cut? needle text = some (before, after)) (more : List α) :
    cut? needle (text ++ more) = some (before, after ++ more) := by
  induction text generalizing before with
  | nil =>
      unfold cut? at found
      split at found
      · rename_i empty
        simp only [Option.some.injEq, Prod.mk.injEq] at found
        obtain ⟨rfl, rfl⟩ := found
        cases more <;> simp [cut?, empty]
      · exact absurd found (by simp)
  | cons c text ih =>
      rw [List.cons_append, cut?]
      unfold cut? at found
      split at found
      · rename_i here
        have shown := List.isPrefixOf_iff_prefix.mp here
        have longer : needle <+: c :: (text ++ more) := shown.trans (List.prefix_append _ more)
        rw [if_pos (List.isPrefixOf_iff_prefix.mpr longer), ← List.cons_append,
          List.drop_append_of_le_length shown.length_le]
        simp only [Option.some.injEq, Prod.mk.injEq] at found
        obtain ⟨rfl, rfl⟩ := found
        rfl
      · rename_i other
        obtain ⟨parts, cut, eq⟩ := Option.map_eq_some_iff.mp found
        simp only [Prod.mk.injEq] at eq
        obtain ⟨rfl, rfl⟩ := eq
        rw [if_neg, ih cut, Option.map_some]
        -- the text that is there is long enough to show an occurrence at its head
        intro longer
        have long : needle.length ≤ (c :: text).length := by
          have := congrArg List.length (eq_of_cut? cut)
          simp only [List.length_append, List.length_cons] at this ⊢
          omega
        refine other (List.isPrefixOf_iff_prefix.mpr ?_)
        exact List.prefix_of_prefix_length_le (List.isPrefixOf_iff_prefix.mp longer)
          (List.prefix_append (c :: text) more) long

/-- No occurrence begins before an end of the text that is as long as any with which `needle`
begins. -/
theorem cut?_append_of_longest {needle front tail : List α}
    (none : cut? needle (front ++ tail) = none)
    (longest : ∀ suffix, suffix <:+ front ++ tail → suffix <+: needle →
      suffix.length ≤ tail.length) (more : List α) :
    cut? needle (front ++ tail ++ more) =
      (cut? needle (tail ++ more)).map fun parts => (front ++ parts.1, parts.2) := by
  induction front with
  | nil => simp
  | cons c front ih =>
      have rest := ih (cut?_eq_none_of_suffix none (List.suffix_cons c _))
        fun suffix here => longest suffix (here.trans (List.suffix_cons c _))
      rw [List.cons_append, List.cons_append, cut?, if_neg, rest, Option.map_map]
      · rfl
      · -- an occurrence at the head would lie in the text, or the text would be its beginning
        intro here
        rw [List.isPrefixOf_iff_prefix] at here
        rcases List.prefix_or_prefix_of_prefix here (List.prefix_append (c :: (front ++ tail)) more) with
          inside | beginning
        · exact cut?_ne_none_of_starts inside none
        · have := longest _ (List.suffix_refl _) beginning
          simp only [List.length_cons, List.length_append] at this
          omega

/-- The loop of `partialLen`, from `k` down. -/
def partialLenFrom (needle text : List α) : ℕ → ℕ
  | 0 => 0
  | k + 1 =>
      if (text.drop (text.length - (k + 1))).isPrefixOf needle then k + 1
      else partialLenFrom needle text k

/-- The length of the longest end of `text` that is a proper beginning of `needle`. -/
def partialLen (needle text : List α) : ℕ :=
  partialLenFrom needle text (min (needle.length - 1) text.length)

theorem partialLenFrom_le (needle text : List α) (k : ℕ) : partialLenFrom needle text k ≤ k := by
  induction k with
  | zero => exact le_rfl
  | succ k ih =>
      unfold partialLenFrom
      split
      · exact le_rfl
      · exact ih.trans (Nat.le_succ k)

theorem le_partialLenFrom {needle text suffix : List α} (here : suffix <:+ text)
    (beginning : suffix <+: needle) {k : ℕ} (le : suffix.length ≤ k) :
    suffix.length ≤ partialLenFrom needle text k := by
  induction k with
  | zero => exact le
  | succ k ih =>
      unfold partialLenFrom
      split
      · exact le
      · rename_i other
        rcases le.lt_or_eq with lt | eq
        · exact ih (Nat.lt_succ_iff.mp lt)
        · refine absurd (List.isPrefixOf_iff_prefix.mpr ?_) other
          rw [← eq, ← List.suffix_iff_eq_drop.mp here]
          exact beginning

theorem partialLen_le (needle text : List α) : partialLen needle text ≤ text.length :=
  (partialLenFrom_le _ _ _).trans (min_le_right _ _)

/-- What a stream may let go of: all of the text but its last `partialLen` characters. -/
theorem cut?_append_of_partial {needle text : List α} (none : cut? needle text = none)
    (more : List α) :
    cut? needle (text ++ more) =
      (cut? needle (text.drop (text.length - partialLen needle text) ++ more)).map fun parts =>
        (text.take (text.length - partialLen needle text) ++ parts.1, parts.2) := by
  have whole := List.take_append_drop (text.length - partialLen needle text) text
  conv_lhs => rw [← whole]
  refine cut?_append_of_longest (by rw [whole]; exact none) ?_ more
  rw [whole]
  intro suffix here beginning
  have le := partialLen_le needle text
  rw [List.length_drop, Nat.sub_sub_self le]
  refine le_partialLenFrom here beginning (le_min ?_ here.length_le)
  -- all of `needle` would be an occurrence
  rcases beginning.length_le.lt_or_eq with lt | eq
  · omega
  · refine absurd (cut?_eq_none_of_suffix none here) (cut?_ne_none_of_starts ?_)
    exact (beginning.eq_of_length eq).symm ▸ List.prefix_refl _

end Cut

end Text
