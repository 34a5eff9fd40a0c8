import Mathlib.Data.List.Basic
import Mathlib.Data.List.Infix

/-!
# Lines

`splitlines` cuts a text as Python's `str.splitlines` does: at ten line breaks, of which `\r\n` is one,
and without an empty line at the end.  `Whole` text has no break in it.

A sender that ends each of its records, all of them whole, with two newlines has written
`records.flatMap ended`.  `exists_of_prefix` says what has arrived of that if the connection is cut
somewhere: some of the records, and a beginning of the next one.
-/

namespace Lines

/-- The characters that end a line. -/
def isBreak (c : Char) : Bool :=
  (0x0a ≤ c.toNat && c.toNat ≤ 0x0d) || (0x1c ≤ c.toNat && c.toNat ≤ 0x1e) || c.toNat = 0x85 ||
    c.toNat = 0x2028 || c.toNat = 0x2029

/-- The lines of a text that goes on after `line`. -/
def splitFrom (line : List Char) : List Char → List (List Char)
  | [] => if line = [] then [] else [line]
  | '\r' :: '\n' :: text => line :: splitFrom [] text
  | c :: text => if isBreak c then line :: splitFrom [] text else splitFrom (line ++ [c]) text

/-- `str.splitlines`. -/
def splitlines (text : List Char) : List (List Char) := splitFrom [] text

/-- No line ends in this text. -/
def Whole (text : List Char) : Prop := ∀ c ∈ text, isBreak c = false

theorem Whole.of_subset {front text : List Char} (whole : Whole text) (sub : front ⊆ text) :
    Whole front := fun c mem => whole c (sub mem)

theorem splitFrom_cons {c : Char} (inside : isBreak c = false) (line text : List Char) :
    splitFrom line (c :: text) = splitFrom (line ++ [c]) text := by
  rw [splitFrom]
  · rw [if_neg (by simp [inside])]
  · rintro text' rfl -
    cases inside

theorem splitFrom_append {front : List Char} (whole : Whole front) (text : List Char) :
    ∀ line, splitFrom line (front ++ text) = splitFrom (line ++ front) text := by
  induction front with
  | nil => intro line; rw [List.nil_append, List.append_nil]
  | cons c front ih =>
      intro line
      rw [Whole, List.forall_mem_cons] at whole
      rw [List.cons_append, splitFrom_cons whole.1, ih whole.2, List.append_assoc]
      rfl

/-- A line that a newline ends. -/
theorem splitlines_newline {front : List Char} (whole : Whole front) (text : List Char) :
    splitlines (front ++ '\n' :: text) = front :: splitlines text := by
  rw [splitlines, splitFrom_append whole, List.nil_append, splitFrom]
  · rfl
  · intro text' other
    cases other

/-- A last line that nothing ends. -/
theorem splitlines_whole {front : List Char} (whole : Whole front) :
    splitlines front = if front = [] then [] else [front] := by
  have all := splitFrom_append whole [] []
  rw [List.append_nil, List.nil_append] at all
  rw [splitlines, all, splitFrom]

/-! ### Records that a blank line ends -/

/-- A record and the blank line after it. -/
def ended (record : List Char) : List Char := record ++ ['\n', '\n']

theorem splitlines_ended {record : List Char} (whole : Whole record) (text : List Char) :
    splitlines (ended record ++ text) = record :: [] :: splitlines text := by
  have none_yet : Whole [] := fun _ none => absurd none List.not_mem_nil
  have blank := splitlines_newline none_yet text
  rw [ended, List.append_assoc, List.cons_append, List.cons_append, List.nil_append,
    splitlines_newline whole]
  exact congrArg _ blank

/-- The lines of records, for a reader that passes over blank lines. -/
theorem filterMap_splitlines {α : Type*} {read : List Char → Option α} (blank : read [] = none)
    {records : List (List Char)} (whole : ∀ record ∈ records, Whole record) (text : List Char) :
    (splitlines (records.flatMap ended ++ text)).filterMap read =
      records.filterMap read ++ (splitlines text).filterMap read := by
  induction records with
  | nil => rfl
  | cons record records ih =>
      rw [List.forall_mem_cons] at whole
      rw [List.flatMap_cons, List.append_assoc, splitlines_ended whole.1, List.filterMap_cons,
        List.filterMap_cons_none blank, ih whole.2, List.filterMap_cons]
      cases read record <;> rfl

/-- What arrives of two texts, one after the other. -/
theorem prefix_append_cases {front first second : List Char} (arrived : front <+: first ++ second) :
    front <+: first ∨ ∃ more, more <+: second ∧ front = first ++ more := by
  rcases List.prefix_or_prefix_of_prefix arrived (List.prefix_append first second) with short | long
  · exact Or.inl short
  · obtain ⟨more, rfl⟩ := long
    exact Or.inr ⟨more, (List.prefix_append_right_inj first).mp arrived, rfl⟩

/-- What arrives of records when the connection is cut: some of them, and then a beginning of the
next one, which may have all of it but the blank line. -/
theorem exists_of_prefix {records : List (List Char)} {got : List Char}
    (front : got <+: records.flatMap ended) :
    ∃ arrived rest cut, records = arrived ++ rest ∧ got = arrived.flatMap ended ++ cut ∧
      (cut = [] ∨ ∃ record ∈ rest.head?, cut <+: record ∨ cut = record ++ ['\n']) := by
  induction records generalizing got with
  | nil => exact ⟨[], [], [], rfl, List.prefix_nil.mp front, Or.inl rfl⟩
  | cons record records ih =>
      rw [List.flatMap_cons, ended, List.append_assoc] at front
      rcases prefix_append_cases front with short | ⟨more, front', rfl⟩
      · exact ⟨[], record :: records, got, rfl, rfl, Or.inr ⟨record, rfl, Or.inl short⟩⟩
      · match more, front' with
        | [], _ =>
            refine ⟨[], record :: records, record ++ [], rfl, rfl, Or.inr ⟨record, rfl, Or.inl ?_⟩⟩
            rw [List.append_nil]
        | [c], front' =>
            obtain rfl := (List.cons_prefix_cons.mp front').1
            exact ⟨[], record :: records, record ++ ['\n'], rfl, rfl,
              Or.inr ⟨record, rfl, Or.inr rfl⟩⟩
        | c :: c' :: more, front' =>
            obtain ⟨rfl, front''⟩ := List.cons_prefix_cons.mp front'
            obtain ⟨rfl, rest_front⟩ := List.cons_prefix_cons.mp front''
            obtain ⟨arrived, rest, cut, rfl, rfl, last⟩ := ih rest_front
            refine ⟨record :: arrived, rest, cut, rfl, ?_, last⟩
            simp [ended]

end Lines
