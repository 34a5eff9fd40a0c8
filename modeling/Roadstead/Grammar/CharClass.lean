import Mathlib.Data.List.Infix
import Roadstead.Grammar.Source
import Roadstead.Lib.Json.Scan

/-!
# What a character class denotes

The inside of a class is read in two steps: `atoms`, the characters with a backslash taken together
with the next one, and `classChars`, what each stands for.  A class is then a list of `pieces`,
single characters and ranges, after a `^` of the others (`meaning`).  The escape `\-`, which the
parser does not know, is read as a hyphen; another one that it does not know has no meaning.

The removal of the escapes from the text is their removal from the atoms wherever no backslash that
is escaped itself stands before a hyphen (`atoms_dropHyphens`), and the removal from the pieces
wherever none of them is an end of a range (`pieces_filter`).
-/

namespace Roadstead

namespace Gbnf

/-! ### Atoms -/

inductive Atom where
  | plain (c : Char)
  | escape (c : Char)
  /-- A backslash at the end of the text. -/
  | lone
  deriving DecidableEq

def atoms : List Char → List Atom
  | [] => []
  | c :: s =>
      if c = '\\' then
        match s with
        | [] => [.lone]
        | d :: s => .escape d :: atoms s
      else .plain c :: atoms s

section Atoms

variable {s : List Char}

theorem atoms_escape (d : Char) (s : List Char) : atoms ('\\' :: d :: s) = .escape d :: atoms s :=
  rfl

theorem atoms_plain {c : Char} (plain : c ≠ '\\') (s : List Char) :
    atoms (c :: s) = .plain c :: atoms s := by
  rw [atoms.eq_def]
  exact if_neg plain

/-- Induction along the atoms of a text. -/
theorem atoms_induction {motive : List Char → Prop} (nil : motive []) (lone : motive ['\\'])
    (escape : ∀ d s, motive s → motive ('\\' :: d :: s))
    (plain : ∀ c s, c ≠ '\\' → motive s → motive (c :: s)) (s : List Char) : motive s := by
  induction s using atoms.induct with
  | case1 => exact nil
  | case2 => exact lone
  | case3 d s ih => exact escape d s ih
  | case4 c s other ih => exact plain c s other ih

theorem escapes_eq (s : List Char) :
    escapes s = (atoms s).filterMap fun a => match a with | .escape c => some c | _ => none := by
  induction s using atoms_induction with
  | nil | lone => rfl
  | escape d s ih => exact congrArg (List.cons d) ih
  | plain c s other ih =>
      rw [atoms_plain other, escapes.eq_def]
      exact (if_neg other).trans ih

theorem mem_escapes {c : Char} : c ∈ escapes s ↔ .escape c ∈ atoms s := by
  rw [escapes_eq, List.mem_filterMap]
  constructor
  · rintro ⟨a, mem, found⟩
    split at found
    · cases found
      exact mem
    · cases found
  · exact fun mem => ⟨_, mem, rfl⟩

theorem starts_plain_iff {c : Char} (plain : c ≠ '\\') :
    [c] <+: s ↔ [Atom.plain c] <+: atoms s := by
  induction s using atoms_induction with
  | nil => simp [atoms]
  | lone => simp [atoms, plain]
  | escape d s _ => simp [atoms_escape, plain]
  | plain d s other _ => simp [atoms_plain other]

theorem atoms_append (complete : .lone ∉ atoms s) (t : List Char) :
    atoms (s ++ t) = atoms s ++ atoms t := by
  induction s using atoms_induction with
  | nil => rfl
  | lone => exact absurd (List.mem_cons_self) complete
  | escape d s ih =>
      rw [atoms_escape, List.mem_cons, not_or] at complete
      rw [List.cons_append, List.cons_append, atoms_escape, atoms_escape, ih complete.2,
        List.cons_append]
  | plain c s other ih =>
      rw [atoms_plain other, List.mem_cons, not_or] at complete
      rw [List.cons_append, atoms_plain other, atoms_plain other, ih complete.2, List.cons_append]

/-- The last character of an atom. -/
def Atom.last : Atom → Char
  | .plain c => c
  | .escape c => c
  | .lone => '\\'

theorem getLast?_atoms (s : List Char) : (atoms s).getLast?.map Atom.last = s.getLast? := by
  induction s using atoms_induction with
  | nil | lone => rfl
  | escape d s ih =>
      rw [atoms_escape, List.getLast?_cons, List.getLast?_cons, List.getLast?_cons, ← ih]
      cases (atoms s).getLast? <;> rfl
  | plain c s other ih =>
      rw [atoms_plain other, List.getLast?_cons, List.getLast?_cons, ← ih]
      cases (atoms s).getLast? <;> rfl

/-- Where `\-` stands in the text: as an escape, or after a backslash that is escaped. -/
theorem hyphen_infix_iff : ['\\', '-'] <:+: s ↔
    .escape '-' ∈ atoms s ∨ [Atom.escape '\\', .plain '-'] <:+: atoms s := by
  induction s using atoms_induction with
  | nil => simp [atoms]
  | lone => decide
  | escape d s ih =>
      rw [atoms_escape, List.infix_cons_iff, List.infix_cons_iff, List.mem_cons, List.infix_cons_iff, ih]
      simp only [List.cons_prefix_cons, true_and, Atom.escape.injEq, List.nil_prefix, and_true,
        ← starts_plain_iff (by decide : '-' ≠ '\\')]
      tauto
  | plain c s other ih =>
      rw [atoms_plain other, List.infix_cons_iff, List.mem_cons, List.infix_cons_iff, ih]
      simp [Ne.symm other]

/-- The removal from the text is the removal of the escapes. -/
theorem atoms_dropHyphens (aligned : ¬[Atom.escape '\\', .plain '-'] <:+: atoms s) :
    atoms (dropHyphens s) = (atoms s).filter fun a => a ≠ .escape '-' := by
  induction s using atoms_induction with
  | nil | lone => rfl
  | escape d s ih =>
      rw [atoms_escape, List.infix_cons_iff, not_or] at aligned
      have rest := ih aligned.2
      by_cases hyphen : d = '-'
      · subst hyphen
        rw [dropHyphens, atoms_escape, List.filter_cons_of_neg (by simp), rest]
      · have kept : dropHyphens ('\\' :: d :: s) = '\\' :: d :: dropHyphens s := by
          rw [dropHyphens, dropHyphens]
          · rintro s' rfl rfl
            exact aligned.1 (by simp [atoms_plain])
          · rintro s' - same
            exact hyphen (List.cons.inj same).1
        rw [kept, atoms_escape, atoms_escape, List.filter_cons_of_pos (by simpa using hyphen), rest]
  | plain c s other ih =>
      rw [atoms_plain other, List.infix_cons_iff, not_or] at aligned
      have rest := ih aligned.2
      have kept : dropHyphens (c :: s) = c :: dropHyphens s := by
        rw [dropHyphens]
        exact fun _ same => absurd same other
      rw [kept, atoms_plain other, atoms_plain other, List.filter_cons_of_pos (by simp), rest]

end Atoms

/-! ### Characters of a class -/

/-- A character of a class as it is written; an escape but `\-` by its code point. -/
inductive ClassChar where
  | plain (c : Char)
  | hyphen
  | escaped (value : ℕ)
  deriving DecidableEq

def ClassChar.value : ClassChar → ℕ
  | .plain c => c.toNat
  | .hyphen => '-'.toNat
  | .escaped value => value

/-- What an escape of one character stands for. -/
def classEscape? (c : Char) : Option ℕ :=
  match c with
  | 'n' => some 10
  | 'r' => some 13
  | 't' => some 9
  | '\\' => some c.toNat
  | '"' => some c.toNat
  | '[' => some c.toNat
  | ']' => some c.toNat
  | _ => none

/-- The number of hexadecimal digits of an escape that is written with them. -/
def hexLength? (c : Char) : Option ℕ :=
  match c with
  | 'x' => some 2
  | 'u' => some 4
  | 'U' => some 8
  | _ => none

/-- The characters that atoms write, after `left` digits of an escape are still to come, which began
with `acc`; none if an escape is unknown. -/
def classChars : ℕ → ℕ → List Atom → Option (List ClassChar)
  | 0, _, [] => some []
  | 0, _, .plain c :: as => (classChars 0 0 as).map (.plain c :: ·)
  | 0, _, .escape c :: as =>
      if c = '-' then (classChars 0 0 as).map (.hyphen :: ·)
      else
        match hexLength? c with
        | some digits => classChars digits 0 as
        | none => (classEscape? c).bind fun value => (classChars 0 0 as).map (.escaped value :: ·)
  | left + 1, acc, .plain c :: as => (Json.hexValue? c).bind fun digit =>
      if left = 0 then (classChars 0 0 as).map (.escaped (acc * 16 + digit) :: ·)
      else classChars left (acc * 16 + digit) as
  | _, _, _ => none

/-- Part of a class: a character, or a range. -/
inductive Piece where
  | single (a : ClassChar)
  | range (low high : ClassChar)
  deriving DecidableEq

/-- The pieces that characters make: a hyphen between two of them is a range. -/
def pieces : List ClassChar → List Piece
  | [] => []
  | [a] => [.single a]
  | [a, b] => [.single a, .single b]
  | a :: b :: c :: cs =>
      if b = .plain '-' then .range a c :: pieces cs else .single a :: pieces (b :: c :: cs)

/-- A set of code points. -/
structure CharSet where
  negated : Bool
  pieces : List Piece

def Piece.Holds (n : ℕ) : Piece → Prop
  | .single a => n = a.value
  | .range low high => low.value ≤ n ∧ n ≤ high.value

def CharSet.Holds (set : CharSet) (n : ℕ) : Prop :=
  (∃ piece ∈ set.pieces, piece.Holds n) ↔ set.negated = false

/-- Whether the inside of a class begins with `^`. -/
def negates (inner : List Char) : Bool := decide ((atoms inner).head? = some (.plain '^'))

def classBody (inner : List Char) : List Atom :=
  if negates inner then (atoms inner).tail else atoms inner

/-- What the inside of a class denotes; nothing if an escape is unknown. -/
def meaning (inner : List Char) : Option CharSet :=
  (classChars 0 0 (classBody inner)).map fun cs => ⟨negates inner, pieces cs⟩

/-- What `classChars` gives, and how. -/
inductive Reads : ℕ → ℕ → List Atom → List ClassChar → Prop
  | nil {acc : ℕ} : Reads 0 acc [] []
  | plain {acc : ℕ} {c : Char} {as : List Atom} {cs : List ClassChar} :
      Reads 0 0 as cs → Reads 0 acc (.plain c :: as) (.plain c :: cs)
  | hyphen {acc : ℕ} {as : List Atom} {cs : List ClassChar} :
      Reads 0 0 as cs → Reads 0 acc (.escape '-' :: as) (.hyphen :: cs)
  | digits {acc : ℕ} {c : Char} {n : ℕ} {as : List Atom} {cs : List ClassChar} :
      c ≠ '-' → hexLength? c = some n → Reads n 0 as cs → Reads 0 acc (.escape c :: as) cs
  | escaped {acc : ℕ} {c : Char} {value : ℕ} {as : List Atom} {cs : List ClassChar} :
      c ≠ '-' → hexLength? c = none → classEscape? c = some value → Reads 0 0 as cs →
        Reads 0 acc (.escape c :: as) (.escaped value :: cs)
  | last {acc : ℕ} {c : Char} {digit : ℕ} {as : List Atom} {cs : List ClassChar} :
      Json.hexValue? c = some digit → Reads 0 0 as cs →
        Reads 1 acc (.plain c :: as) (.escaped (acc * 16 + digit) :: cs)
  | more {left acc : ℕ} {c : Char} {digit : ℕ} {as : List Atom} {cs : List ClassChar} :
      Json.hexValue? c = some digit → Reads (left + 1) (acc * 16 + digit) as cs →
        Reads (left + 2) acc (.plain c :: as) cs

section ClassChars

variable {left acc : ℕ} {as : List Atom} {cs : List ClassChar}

theorem classChars_eq_some_iff : classChars left acc as = some cs ↔ Reads left acc as cs := by
  constructor
  · intro read
    induction left, acc, as using classChars.induct generalizing cs with
    | case1 acc =>
        cases read
        exact .nil
    | case2 acc c as ih =>
        rw [classChars] at read
        obtain ⟨rest, found, rfl⟩ := Option.map_eq_some_iff.mp read
        exact .plain (ih found)
    | case3 acc as ih =>
        rw [classChars, if_pos rfl] at read
        obtain ⟨rest, found, rfl⟩ := Option.map_eq_some_iff.mp read
        exact .hyphen (ih found)
    | case4 acc c as other n length ih =>
        rw [classChars, if_neg other, length] at read
        exact .digits other length (ih read)
    | case5 acc c as other no_length ih =>
        rw [classChars, if_neg other, no_length] at read
        obtain ⟨value, known, rest⟩ := Option.bind_eq_some_iff.mp read
        obtain ⟨rest, found, rfl⟩ := Option.map_eq_some_iff.mp rest
        exact .escaped other no_length known (ih found)
    | case6 left acc c as ih ih' =>
        rw [classChars] at read
        obtain ⟨digit, known, rest⟩ := Option.bind_eq_some_iff.mp read
        cases left with
        | zero =>
            rw [if_pos rfl] at rest
            obtain ⟨rest, found, rfl⟩ := Option.map_eq_some_iff.mp rest
            exact .last known (ih found)
        | succ left => exact .more known (ih' digit rest)
    | case7 as left acc no_nil no_plain no_escape no_digit =>
        rw [classChars] at read
        · cases read
        · exact no_nil
        · exact no_plain
        · exact no_escape
        · exact no_digit
  · intro reads
    induction reads with
    | nil => rfl
    | plain _ ih => rw [classChars, ih]; rfl
    | hyphen _ ih => rw [classChars, if_pos rfl, ih]; rfl
    | digits other length _ ih => rw [classChars, if_neg other, length]; exact ih
    | escaped other no_length known _ ih => rw [classChars, if_neg other, no_length, known, ih]; rfl
    | last known _ ih => rw [classChars, known, ih]; rfl
    | more known _ ih => rw [classChars, known]; exact ih

/-- Where no digit is to come, the number so far does not matter. -/
theorem Reads.anew (reads : Reads 0 acc as cs) (acc' : ℕ) : Reads 0 acc' as cs := by
  cases reads with
  | nil => exact .nil
  | plain rest => exact .plain rest
  | hyphen rest => exact .hyphen rest
  | digits other length rest => exact .digits other length rest
  | escaped other no_length known rest => exact .escaped other no_length known rest

/-- The escapes removed from the atoms are removed from the characters. -/
theorem Reads.filter (reads : Reads left acc as cs) :
    Reads left acc (as.filter fun a => a ≠ .escape '-') (cs.filter fun a => a ≠ .hyphen) := by
  induction reads with
  | nil => exact .nil
  | plain _ ih => simpa using ih.plain
  | hyphen _ ih => simpa using ih.anew _
  | digits other length _ ih => simpa [other] using ih.digits other length
  | escaped other no_length known _ ih => simpa [other] using ih.escaped other no_length known
  | last known _ ih => simpa using ih.last known
  | more known _ ih => simpa using ih.more known

/-- A hyphen at the end. -/
theorem Reads.concat (reads : Reads left acc as cs) :
    Reads left acc (as ++ [.plain '-']) (cs ++ [.plain '-']) := by
  induction reads with
  | nil => exact .plain .nil
  | plain _ ih => exact ih.plain
  | hyphen _ ih => exact ih.hyphen
  | digits other length _ ih => exact ih.digits other length
  | escaped other no_length known _ ih => exact ih.escaped other no_length known
  | last known _ ih => exact ih.last known
  | more known _ ih => exact ih.more known

theorem Reads.hyphen_mem_iff (reads : Reads left acc as cs) : .escape '-' ∈ as ↔ .hyphen ∈ cs := by
  induction reads with
  | nil => simp
  | plain _ ih => simpa using ih
  | hyphen _ ih => simp
  | digits other length _ ih | escaped other no_length known _ ih => simpa [Ne.symm other] using ih
  | last known _ ih | more known _ ih => simpa using ih

theorem hexLength?_ne_zero {c : Char} {n : ℕ} (length : hexLength? c = some n) : n ≠ 0 := by
  unfold hexLength? at length
  split at length
  · exact Option.some.inj length ▸ by decide
  · exact Option.some.inj length ▸ by decide
  · exact Option.some.inj length ▸ by decide
  · cases length

theorem Reads.ne_nil (reads : Reads left acc as cs) :
    (left = 0 → (as = [] ↔ cs = [])) ∧ (left ≠ 0 → as ≠ [] ∧ cs ≠ []) := by
  induction reads with
  | nil | plain _ _ | hyphen _ _ => simp
  | digits _ length _ ih => simpa using (ih.2 (hexLength?_ne_zero length)).2
  | escaped _ _ _ _ _ | last _ _ _ => simp
  | more _ _ ih => simpa using (ih.2 (by omega)).2

theorem getLast?_cons_iff {α β : Type*} {a p : α} {b q : β} {xs : List α} {ys : List β}
    (empty : xs = [] ↔ ys = []) (first : a = p ↔ b = q)
    (last : xs.getLast? = some p ↔ ys.getLast? = some q) :
    (a :: xs).getLast? = some p ↔ (b :: ys).getLast? = some q := by
  cases xs with
  | nil =>
      rw [empty.mp rfl]
      simpa using first
  | cons x xs =>
      cases ys with
      | nil => exact absurd (empty.mpr rfl) (List.cons_ne_nil x xs)
      | cons y ys => rwa [List.getLast?_cons_cons, List.getLast?_cons_cons]

/-- The last character of a class is a hyphen where its last atom is one. -/
theorem Reads.getLast?_iff (reads : Reads left acc as cs) :
    as.getLast? = some (.plain '-') ↔ cs.getLast? = some (.plain '-') := by
  have later {n acc : ℕ} {as : List Atom} {cs : List ClassChar} (reads : Reads n acc as cs) (ne : n ≠ 0)
      (a : Atom) : (a :: as).getLast? = as.getLast? := by
    obtain ⟨b, as, rfl⟩ := List.exists_cons_of_ne_nil (reads.ne_nil.2 ne).1
    rw [List.getLast?_cons_cons]
  induction reads with
  | nil => simp
  | plain rest ih | hyphen rest ih => exact getLast?_cons_iff (rest.ne_nil.1 rfl) (by simp) ih
  | digits _ length rest ih =>
      rw [later rest (hexLength?_ne_zero length)]
      exact ih
  | escaped _ _ _ rest ih => exact getLast?_cons_iff (rest.ne_nil.1 rfl) (by simp) ih
  | last known rest ih =>
      refine getLast?_cons_iff (rest.ne_nil.1 rfl) ?_ ih
      simp only [Atom.plain.injEq, reduceCtorEq, iff_false]
      rintro rfl
      cases known
  | more _ rest ih =>
      rw [later rest (by omega)]
      exact ih

end ClassChars

section Pieces

variable {cs : List ClassChar}

/-- No range has an escaped hyphen for an end. -/
def FreeEnds (cs : List ClassChar) : Prop :=
  ∀ low high, .range low high ∈ pieces cs → low ≠ .hyphen ∧ high ≠ .hyphen

/-- A range up to a hyphen at the end is not empty. -/
def OpenEnd (cs : List ClassChar) : Prop :=
  ∀ low, (pieces cs).getLast? = some (.range low (.plain '-')) → low.value ≤ '-'.toNat

theorem pieces_cons {a : ClassChar} (single : ∀ c more, cs ≠ .plain '-' :: c :: more) :
    pieces (a :: cs) = .single a :: pieces cs := by
  cases cs with
  | nil => rfl
  | cons b cs =>
      cases cs with
      | nil => rfl
      | cons c cs =>
          rw [pieces, if_neg]
          rintro rfl
          exact single c cs rfl

theorem FreeEnds.tail {a b c : ClassChar} (other : b ≠ .plain '-')
    (free : FreeEnds (a :: b :: c :: cs)) : FreeEnds (b :: c :: cs) := by
  intro low high mem
  refine free low high ?_
  rw [pieces, if_neg other]
  exact List.mem_cons_of_mem _ mem

theorem FreeEnds.rest {a c : ClassChar} (free : FreeEnds (a :: .plain '-' :: c :: cs)) :
    a ≠ .hyphen ∧ c ≠ .hyphen ∧ FreeEnds cs := by
  have here := free a c (by rw [pieces, if_pos rfl]; exact List.mem_cons_self)
  refine ⟨here.1, here.2, fun low high mem => free low high ?_⟩
  rw [pieces, if_pos rfl]
  exact List.mem_cons_of_mem _ mem

/-- After an escaped hyphen there is no other one that makes a range. -/
theorem no_range_after_hyphen (free : FreeEnds (.hyphen :: cs)) (c : ClassChar)
    (more : List ClassChar) : (cs.filter fun a => a ≠ .hyphen) ≠ .plain '-' :: c :: more := by
  induction cs with
  | nil => exact (List.cons_ne_nil _ _).symm
  | cons d cs ih =>
      by_cases hyphen : d = .hyphen
      · subst hyphen
        rw [List.filter_cons_of_neg (by simp)]
        cases cs with
        | nil => exact (List.cons_ne_nil _ _).symm
        | cons e cs => exact ih (free.tail (by simp))
      · rw [List.filter_cons_of_pos (by simpa using hyphen)]
        intro same
        obtain ⟨rfl, rest⟩ := List.cons.inj same
        cases cs with
        | nil => cases rest
        | cons e cs => exact free.rest.1 rfl

/-- The escapes removed from the characters are removed from the pieces. -/
theorem pieces_filter (free : FreeEnds cs) : pieces (cs.filter fun a => a ≠ .hyphen) =
    (pieces cs).filter fun piece => piece ≠ .single .hyphen := by
  induction cs using pieces.induct with
  | case1 => rfl
  | case2 a => cases a <;> rfl
  | case3 a b => cases a <;> cases b <;> rfl
  | case4 a c cs ih =>
      obtain ⟨low, high, rest⟩ := free.rest
      rw [List.filter_cons_of_pos (by simpa using low), List.filter_cons_of_pos (by simp),
        List.filter_cons_of_pos (by simpa using high), pieces, if_pos rfl, pieces, if_pos rfl,
        List.filter_cons_of_pos (by simp), ih rest]
  | case5 a b c cs other ih =>
      have rest := ih (free.tail other)
      rw [pieces, if_neg other]
      by_cases hyphen : a = .hyphen
      · subst hyphen
        have dropped : ((.hyphen :: b :: c :: cs).filter fun a : ClassChar => a ≠ .hyphen) =
            (b :: c :: cs).filter fun a => a ≠ .hyphen := List.filter_cons_of_neg (by simp)
        rw [dropped, rest]
        exact (List.filter_cons_of_neg (by simp)).symm
      · have kept : ((a :: b :: c :: cs).filter fun a => a ≠ .hyphen) =
            a :: (b :: c :: cs).filter fun a => a ≠ .hyphen :=
          List.filter_cons_of_pos (by simpa using hyphen)
        have kept' : ((.single a :: pieces (b :: c :: cs)).filter fun piece => piece ≠ .single .hyphen) =
            .single a :: (pieces (b :: c :: cs)).filter fun piece => piece ≠ .single .hyphen :=
          List.filter_cons_of_pos (by simpa using hyphen)
        rw [kept, kept', ← rest]
        refine pieces_cons fun d more => ?_
        by_cases next : b = .hyphen
        · subst next
          rw [List.filter_cons_of_neg (by simp)]
          exact no_range_after_hyphen (free.tail other) d more
        · rw [List.filter_cons_of_pos (by simpa using next)]
          exact fun same => other (List.cons.inj same).1

theorem single_hyphen_mem (free : FreeEnds cs) (mem : .hyphen ∈ cs) :
    .single .hyphen ∈ pieces cs := by
  induction cs using pieces.induct with
  | case1 => cases mem
  | case2 a | case3 a b => simpa [pieces] using mem
  | case4 a c cs ih =>
      obtain ⟨low, high, rest⟩ := free.rest
      rw [pieces, if_pos rfl]
      refine List.mem_cons_of_mem _ (ih rest ?_)
      simpa [low.symm, high.symm] using mem
  | case5 a b c cs other ih =>
      rw [pieces, if_neg other]
      rcases List.mem_cons.mp mem with rfl | later
      · exact List.mem_cons_self
      · exact List.mem_cons_of_mem _ (ih (free.tail other) later)

theorem pieces_concat (other : cs.getLast? ≠ some (.plain '-')) :
    pieces (cs ++ [.plain '-']) = pieces cs ++ [.single (.plain '-')] := by
  induction cs using pieces.induct with
  | case1 | case2 a => rfl
  | case3 a b =>
      have ne : b ≠ .plain '-' := by simpa using other
      simp [pieces, ne]
  | case4 a c cs ih =>
      rw [List.cons_append, List.cons_append, List.cons_append, pieces, if_pos rfl, pieces, if_pos rfl,
        List.cons_append, ih]
      cases cs with
      | nil => simp
      | cons d cs => simpa using other
  | case5 a b c cs ne ih =>
      rw [List.cons_append, List.cons_append, List.cons_append, pieces, if_neg ne, pieces, if_neg ne,
        List.cons_append, ← ih (by simpa using other)]
      rfl

theorem pieces_ne_nil (ne : cs ≠ []) : pieces cs ≠ [] := by
  induction cs using pieces.induct with
  | case1 => exact absurd rfl ne
  | case2 a | case3 a b => exact List.cons_ne_nil _ _
  | case4 a c cs _ => rw [pieces, if_pos rfl]; exact List.cons_ne_nil _ _
  | case5 a b c cs other _ => rw [pieces, if_neg other]; exact List.cons_ne_nil _ _

/-- The last hyphen is in the set. -/
theorem holds_last (last : cs.getLast? = some (.plain '-')) (ended : OpenEnd cs) :
    ∃ piece ∈ pieces cs, piece.Holds '-'.toNat := by
  have later {piece : Piece} {cs : List ClassChar} (ne : cs ≠ []) :
      (piece :: pieces cs).getLast? = (pieces cs).getLast? := by
    obtain ⟨p, ps, same⟩ := List.exists_cons_of_ne_nil (pieces_ne_nil ne)
    rw [same, List.getLast?_cons_cons]
  induction cs using pieces.induct with
  | case1 => cases last
  | case2 a =>
      have same : a = .plain '-' := by simpa using last
      exact ⟨.single a, List.mem_cons_self, by rw [same]; rfl⟩
  | case3 a b =>
      have same : b = .plain '-' := by simpa using last
      exact ⟨.single b, List.mem_cons_of_mem _ List.mem_cons_self, by rw [same]; rfl⟩
  | case4 a c cs ih =>
      rw [OpenEnd, pieces, if_pos rfl] at ended
      rw [pieces, if_pos rfl]
      cases cs with
      | nil =>
          have same : c = .plain '-' := by simpa using last
          exact ⟨.range a c, List.mem_cons_self, ended a (by rw [same]; rfl), by rw [same]; exact le_rfl⟩
      | cons d cs =>
          rw [later (List.cons_ne_nil d cs)] at ended
          obtain ⟨piece, mem, holds⟩ := ih (by simpa using last) ended
          exact ⟨piece, List.mem_cons_of_mem _ mem, holds⟩
  | case5 a b c cs ne ih =>
      rw [OpenEnd, pieces, if_neg ne, later (List.cons_ne_nil b (c :: cs))] at ended
      rw [pieces, if_neg ne]
      obtain ⟨piece, mem, holds⟩ := ih (by simpa using last) ended
      exact ⟨piece, List.mem_cons_of_mem _ mem, holds⟩

end Pieces

end Gbnf

end Roadstead
