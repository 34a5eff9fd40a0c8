import Roadstead.Lib.Json.Reread
import Roadstead.Lib.Lines

/-!
# A value on a line

What is printed is one line of printable characters
(`printable_dumps`), whatever the strings in it are.  An object that was cut off is not one:
`loads_of_prefix` says that nothing is read from a beginning of it.
-/

namespace Json

/-- Printable ASCII. -/
def Printable (text : List Char) : Prop := ∀ c ∈ text, 32 ≤ c.toNat ∧ c.toNat ≤ 126

instance (text : List Char) : Decidable (Printable text) :=
  List.decidableBAll (fun c : Char => 32 ≤ c.toNat ∧ c.toNat ≤ 126) text

namespace Printable

theorem nil : Printable [] := fun _ mem => absurd mem List.not_mem_nil

theorem cons {c : Char} {text : List Char} (here : 32 ≤ c.toNat ∧ c.toNat ≤ 126)
    (more : Printable text) : Printable (c :: text) :=
  List.forall_mem_cons.mpr ⟨here, more⟩

theorem append {front text : List Char} (first : Printable front) (more : Printable text) :
    Printable (front ++ text) :=
  List.forall_mem_append.mpr ⟨first, more⟩

theorem whole {text : List Char} (printable : Printable text) : Lines.Whole text := by
  intro c mem
  have bounds := printable c mem
  simp only [Lines.isBreak, Bool.or_eq_false_iff, Bool.and_eq_false_iff, decide_eq_false_iff_not]
  omega

theorem digits {text : List Char} (all : ∀ c ∈ text, c.isDigit = true) : Printable text := by
  intro c mem
  have bounds := Char.isDigit_iff_toNat.mp (all c mem)
  have zero : '0'.toNat = 48 := rfl
  have nine : '9'.toNat = 57 := rfl
  omega

end Printable

theorem printable_hexDigit (n : ℕ) :
    32 ≤ (n % 16).digitChar.toNat ∧ (n % 16).digitChar.toNat ≤ 126 := by
  have lt : n % 16 < 16 := Nat.mod_lt n (by decide)
  generalize n % 16 = d at lt
  interval_cases d <;> decide

theorem printable_escapeUnit (n : ℕ) : Printable (escapeUnit n) :=
  .cons (by decide) (.cons (by decide) (.cons (printable_hexDigit _) (.cons (printable_hexDigit _)
    (.cons (printable_hexDigit _) (.cons (printable_hexDigit _) .nil)))))

theorem printable_quoteChar (c : Char) : Printable (quoteChar c) := by
  have short {e : Char} (here : 32 ≤ e.toNat ∧ e.toNat ≤ 126) : Printable ['\\', e] :=
    .cons (by decide) (.cons here .nil)
  rw [quoteChar]
  split_ifs with h1 h2 h3 h4 h5 h6 h7 control wide
  · exact short (by decide)
  · exact short (by decide)
  · exact short (by decide)
  · exact short (by decide)
  · exact short (by decide)
  · exact short (by decide)
  · exact short (by decide)
  · exact printable_escapeUnit _
  · rw [codeUnits]
    split
    · rw [List.flatMap_cons, List.flatMap_nil]
      exact .append (printable_escapeUnit _) .nil
    · rw [List.flatMap_cons, List.flatMap_cons, List.flatMap_nil]
      exact .append (printable_escapeUnit _) (.append (printable_escapeUnit _) .nil)
  · exact .cons (by omega) .nil

theorem printable_quotedText (s : String) : Printable (quotedText s) := by
  refine .append (fun c mem => ?_) (.cons (by decide) .nil)
  obtain ⟨c', -, mem'⟩ := List.mem_flatMap.mp mem
  exact printable_quoteChar c' c mem'

theorem printable_toDigits (n : ℕ) : Printable (Nat.toDigits 10 n) := .digits isDigit_of_mem

theorem printable_intText (n : ℤ) : Printable (intText n) := by
  rw [intText]
  split
  · exact .cons (by decide) (printable_toDigits _)
  · exact printable_toDigits _

theorem printable_twoDigits (n : ℕ) : Printable (twoDigits n) := .digits (twoDigits_digits n).2.1

theorem printable_positional (q : ℚ) : Printable (positional q) :=
  .append (.digits fun c mem => isDigit_of_mem_padded q c (List.mem_of_mem_take mem))
    (.cons (by decide) (.digits (pointDigits_digits q).2))

theorem printable_scientific (q : ℚ) : Printable (scientific q) := by
  have digits : ∀ c ∈ (digitsOf q).rdropWhile (· = '0'), c.isDigit = true := fun c mem =>
    isDigit_of_mem c ((List.rdropWhile_prefix _ _).subset mem)
  have sign (n : ℤ) : 32 ≤ (if n < 0 then '-' else '+').toNat ∧
      (if n < 0 then '-' else '+').toNat ≤ 126 := by
    split <;> decide
  have exponent : Printable ('e' :: (if pointOf q - 1 < 0 then '-' else '+') ::
      twoDigits (pointOf q - 1).natAbs) :=
    .cons (by decide) (.cons (sign _) (printable_twoDigits _))
  rw [scientific]
  generalize (digitsOf q).rdropWhile (· = '0') = stripped at digits
  -- There is a point only in front of a second digit.
  cases stripped with
  | nil => exact .cons (by decide) (.cons (by decide) (.cons (by decide) .nil))
  | cons d more =>
      cases more with
      | nil => exact .append (.digits digits) exponent
      | cons d' ds =>
          rw [List.forall_mem_cons] at digits
          have first : Printable [d] := .digits (List.forall_mem_singleton.mpr digits.1)
          exact .append (.append first (.cons (by decide) (.digits digits.2))) exponent

theorem printable_fltText (x : Flt) : Printable (fltText x) := by
  have abs (q : ℚ) : Printable (reprAbs q) := by
    rw [reprAbs]
    split
    · exact printable_positional q
    · exact printable_scientific q
  cases x with
  | nan => exact .cons (by decide) (.cons (by decide) (.cons (by decide) .nil))
  | infinite negative => cases negative <;> decide
  | finite q =>
      have signed : fltText (.finite q) = if q < 0 then '-' :: reprAbs (-q) else reprAbs q := rfl
      rw [signed]
      split
      · exact .cons (by decide) (abs _)
      · exact abs q

mutual

/-- A value is printed on one line. -/
theorem printable_dumps : ∀ v : Json, Printable (dumps v)
  | null | bool true | bool false => by rw [dumps]; decide
  | int n => by rw [dumps]; exact printable_intText n
  | float x => by rw [dumps]; exact printable_fltText x
  | str s => by rw [dumps]; exact .cons (by decide) (printable_quotedText s)
  | arr [] => by rw [dumps]; decide
  | arr (v :: items) => by
      rw [dumps]
      exact .append (.append (.cons (by decide) (printable_dumps v)) (printable_dumpsItems items))
        (by decide)
  | obj [] => by rw [dumps]; decide
  | obj ((key, v) :: fields) => by
      rw [dumps]
      exact .append (.append (.append (.cons (by decide) (.cons (by decide) (printable_quotedText key)))
        (.cons (by decide) (.cons (by decide) (printable_dumps v)))) (printable_dumpsFields fields))
        (by decide)

theorem printable_dumpsItems : ∀ items : List Json, Printable (dumpsItems items)
  | [] => by rw [dumpsItems]; exact .nil
  | v :: items => by
      rw [dumpsItems]
      exact .append (.cons (by decide) (.cons (by decide) (printable_dumps v)))
        (printable_dumpsItems items)

theorem printable_dumpsFields : ∀ fields : List (String × Json), Printable (dumpsFields fields)
  | [] => by rw [dumpsFields]; exact .nil
  | (key, v) :: fields => by
      rw [dumpsFields]
      exact .append (.append (.cons (by decide) (.cons (by decide) (.cons (by decide)
        (printable_quotedText key)))) (.cons (by decide) (.cons (by decide) (printable_dumps v))))
        (printable_dumpsFields fields)

end

/-! ### Values that were cut off -/

section Cut

variable {fields : Fields}

/-- An object is between braces. -/
theorem dumps_obj (fields : Fields) : ∃ body, dumps (obj fields) = '{' :: (body ++ ['}']) := by
  match fields with
  | [] => exact ⟨[], rfl⟩
  | (key, v) :: fields =>
      refine ⟨'"' :: quotedText key ++ ':' :: ' ' :: dumps v ++ dumpsFields fields, ?_⟩
      rw [dumps]
      simp only [List.cons_append, List.append_assoc]

/-- No value is read from a beginning of an object that is not all of it. -/
theorem loads_of_prefix (exact : Exact (obj fields)) {front : List Char}
    (cut : front <+: dumps (obj fields)) (less : front ≠ dumps (obj fields)) :
    loads false front = none := by
  obtain ⟨more, whole⟩ := cut
  have some_left : more ≠ [] := fun nil => less (by rw [← whole, nil, List.append_nil])
  obtain ⟨body, braces⟩ := dumps_obj fields
  match front, whole with
  | [], _ => rfl
  | c :: front, whole =>
      have brace : c = '{' := by
        rw [braces] at whole
        exact (List.cons.inj whole).1
      have mark : (c :: front).head? ≠ some '\uFEFF' := by
        rw [brace]
        exact fun same => absurd (Option.some.inj same) (by decide)
      have text : (c :: front).dropWhile isWs = c :: front := by
        rw [brace]
        rfl
      rw [loads, if_neg mark]
      simp only [text]
      cases read : value false (c :: front).length (c :: front) with
      | none => rfl
      | some found =>
          -- the same value would be read from all of the text, with the rest of it left over
          obtain ⟨v, rest⟩ := found
          obtain ⟨v', rest', again, closed, same⟩ := rawDecode_append (s := c :: front) read more
          rw [whole] at again
          have full := rawDecode_dumps exact (Or.inl rfl : Ends [])
          rw [List.append_nil, again] at full
          obtain ⟨rfl, rfl⟩ := Prod.mk.inj (Option.some.inj full)
          have left := (same (closed.symm.trans rfl)).2
          exact absurd (List.append_eq_nil_iff.mp left.symm).2 some_left

end Cut

end Json
