import Roadstead.Grammar.Source
import Roadstead.Lib.Json.Extend

/-!
# Recovery of a structured object

`recover_structured_object` and `root_object_keys` of `grammar.py`.  The scan tries each brace in
turn and goes on one character further when what it decodes there is refused, so that it gives the
first object of the text that conforms (`IsFirst`), and no other.  It also walks into an object that
it has refused: what it gives may be part of a larger one, which then has a key that is not allowed.

How `json.dumps` writes an object is a parameter.
-/

namespace Roadstead

namespace Gbnf

open Json (Fields rawDecode)

/-! ### The keys of the root rule -/

/-- `[A-Za-z0-9_]`. -/
def isKeyChar (c : Char) : Bool := isLetter c || isAsciiDigit c || c = '_'

/-- The key that the inside of a literal starts with, in quotes that are written with a backslash. -/
def keyLiteral? (inner : List Char) : Option String :=
  match inner with
  | '\\' :: '"' :: s =>
      let key := s.takeWhile isKeyChar
      if key ≠ [] ∧ ['\\', '"'] <+: s.dropWhile isKeyChar then some (String.ofList key) else none
  | _ => none

/-- `root_object_keys`. -/
def rootObjectKeys (src : List Char) : List String :=
  match (blocks (splitLines src)).2.find? fun block => ruleHeader block = some "root".toList with
  | none => []
  | some block =>
      let rhs := ((Text.cut? "::=".toList block).map Prod.snd).getD block
      ((tokenize rhs).filter fun t => t.kind = .string).filterMap fun t =>
        keyLiteral? t.text.tail.dropLast

/-! ### The scan -/

/-- A decoded object that the scan takes. -/
def Conforms (allowed : List String) (fields : Fields) : Prop :=
  fields ≠ [] ∧ ∀ field ∈ fields, field.1 ∈ allowed

instance (allowed : List String) (fields : Fields) : Decidable (Conforms allowed fields) :=
  inferInstanceAs (Decidable (_ ∧ _))

/-- The loop of `recover_structured_object`. -/
def scan (allowed : List String) : List Char → Option Fields
  | [] => none
  | c :: s =>
      if c = '{' then
        match rawDecode (c :: s) with
        | some (.obj fields, _) => if Conforms allowed fields then some fields else scan allowed s
        | _ => scan allowed s
      else scan allowed s

/-- The keys that are allowed: those that are given, and otherwise those of the grammar. -/
def anchor (grammar : Option (List Char)) (allowedKeys : Option (List String)) : List String :=
  (allowedKeys.or (grammar.map rootObjectKeys)).getD []

/-- `recover_structured_object`. -/
def recoverStructuredObject (dumps : Json → String) (output : List Char)
    (grammar : Option (List Char)) (allowedKeys : Option (List String)) : Option String :=
  if anchor grammar allowedKeys = [] then none
  else (scan (anchor grammar allowedKeys) output).map fun fields => dumps (.obj fields)

/-! ### What the scan gives -/

/-- An object that stands in the text after `before`. -/
def OccursAfter (text before : List Char) (fields : Fields) : Prop :=
  ∃ object rest, text = before ++ object ++ rest ∧ rawDecode object = some (.obj fields, [])

/-- The first object of the text that conforms. -/
def IsFirst (allowed : List String) (text : List Char) (fields : Fields) : Prop :=
  Conforms allowed fields ∧ ∃ before, OccursAfter text before fields ∧
    ∀ before' fields', before'.length < before.length → OccursAfter text before' fields' →
      ¬Conforms allowed fields'

section Scan

variable {allowed : List String} {text : List Char} {fields : Fields}

/-- An object is decoded where it stands, whatever comes after it. -/
theorem occursAfter_iff {before s : List Char} (split : text = before ++ s) :
    OccursAfter text before fields ↔ ∃ rest, rawDecode s = some (.obj fields, rest) := by
  subst split
  constructor
  · rintro ⟨object, rest, same, read⟩
    rw [List.append_assoc, List.append_cancel_left_eq] at same
    obtain ⟨v, r, found, -, whole⟩ := Json.rawDecode_append read rest
    obtain ⟨rfl, rfl⟩ := whole rfl
    exact ⟨_, same ▸ found⟩
  · rintro ⟨rest, read⟩
    obtain ⟨object, rfl, alone⟩ := Json.rawDecode_alone read
    exact ⟨object, rest, by rw [List.append_assoc], alone⟩

/-- What the scan does at a character: it takes the object there if that conforms. -/
theorem scan_cons (allowed : List String) (c : Char) (s : List Char) :
    (∃ fields, OccursAfter (c :: s) [] fields ∧ Conforms allowed fields ∧
        scan allowed (c :: s) = some fields) ∨
      (∀ fields, OccursAfter (c :: s) [] fields → ¬Conforms allowed fields) ∧
        scan allowed (c :: s) = scan allowed s := by
  have front {fields : Fields} : OccursAfter (c :: s) [] fields ↔
      ∃ rest, rawDecode (c :: s) = some (.obj fields, rest) := occursAfter_iff rfl
  have passed (other : ∀ fields rest, rawDecode (c :: s) = some (.obj fields, rest) →
      ¬Conforms allowed fields) (fields : Fields) (occurs : OccursAfter (c :: s) [] fields) :
      ¬Conforms allowed fields := by
    obtain ⟨rest, read⟩ := front.mp occurs
    exact other fields rest read
  rw [scan]
  by_cases brace : c = '{'
  · rw [if_pos brace]
    split
    · next fields rest read =>
        split
        · next conforms => exact .inl ⟨fields, front.mpr ⟨rest, read⟩, conforms, rfl⟩
        · next refused =>
            refine .inr ⟨passed fun fields' rest' read' => ?_, rfl⟩
            rw [read] at read'
            cases read'
            exact refused
    · next other => exact .inr ⟨passed fun fields rest read => (other fields rest read).elim, rfl⟩
  · rw [if_neg brace]
    exact .inr ⟨passed fun fields rest read => absurd (Json.rawDecode_obj_head read) brace, rfl⟩

theorem occursAfter_cons {c : Char} {s before : List Char} :
    OccursAfter (c :: s) (c :: before) fields ↔ OccursAfter s before fields := by
  constructor
  · rintro ⟨object, rest, same, read⟩
    exact ⟨object, rest, (List.cons.inj same).2, read⟩
  · rintro ⟨object, rest, rfl, read⟩
    exact ⟨object, rest, rfl, read⟩

/-- An object that does not stand at the front stands in the rest. -/
theorem OccursAfter.tail {c : Char} {s before : List Char} (occurs : OccursAfter (c :: s) before fields)
    (later : before ≠ []) : ∃ before', before = c :: before' ∧ OccursAfter s before' fields := by
  cases before with
  | nil => exact absurd rfl later
  | cons c' before' =>
      obtain ⟨object, rest, same, read⟩ := occurs
      obtain ⟨rfl, tails⟩ := List.cons.inj same
      exact ⟨before', rfl, object, rest, tails, read⟩

/-- The scan gives the first object that conforms, and nothing where none does. -/
theorem scan_eq_some_iff : scan allowed text = some fields ↔ IsFirst allowed text fields := by
  induction text with
  | nil =>
      refine iff_of_false (by simp [scan]) ?_
      rintro ⟨-, before, ⟨object, rest, same, read⟩, -⟩
      obtain ⟨⟨-, rfl⟩, -⟩ := List.append_eq_nil_iff.mp same.symm |>.imp_left List.append_eq_nil_iff.mp
      cases read
  | cons c s ih =>
      rcases scan_cons allowed c s with ⟨taken, occurs, conforms, found⟩ | ⟨refused, goes_on⟩
      · rw [found, Option.some.injEq]
        constructor
        · rintro rfl
          exact ⟨conforms, [], occurs, fun before' fields' shorter => absurd shorter (by simp)⟩
        · rintro ⟨conforms', before, occurs', first⟩
          have front : before = [] := by
            by_contra later
            exact first [] taken (List.length_pos_iff.mpr later) occurs conforms
          subst front
          have front {fields : Fields} : OccursAfter (c :: s) [] fields ↔
              ∃ rest, rawDecode (c :: s) = some (.obj fields, rest) := occursAfter_iff rfl
          obtain ⟨rest, read⟩ := front.mp occurs
          obtain ⟨rest', read'⟩ := front.mp occurs'
          rw [read] at read'
          cases read'
          rfl
      · rw [goes_on, ih]
        constructor
        · rintro ⟨conforms, before, occurs, first⟩
          refine ⟨conforms, c :: before, occursAfter_cons.mpr occurs, ?_⟩
          intro before' fields' shorter occurs'
          by_cases front : before' = []
          · subst front
            exact refused fields' occurs'
          · obtain ⟨before'', rfl, occurs''⟩ := occurs'.tail front
            exact first before'' fields' (by simpa using shorter) occurs''
        · rintro ⟨conforms, before, occurs, first⟩
          have later : before ≠ [] := by
            rintro rfl
            exact refused fields occurs conforms
          obtain ⟨before', rfl, occurs'⟩ := occurs.tail later
          refine ⟨conforms, before', occurs', fun before'' fields' shorter occurs'' => ?_⟩
          exact first (c :: before'') fields' (by simpa using shorter) (occursAfter_cons.mpr occurs'')

/-- An object that conforms, after text without a brace, is the first one. -/
theorem isFirst_of_junk {junk s rest : List Char} (no_brace : '{' ∉ junk)
    (read : rawDecode s = some (.obj fields, rest)) (conforms : Conforms allowed fields) :
    IsFirst allowed (junk ++ s) fields := by
  refine ⟨conforms, junk, (occursAfter_iff rfl).mpr ⟨rest, read⟩, ?_⟩
  rintro before' fields' shorter ⟨object, more, same, read'⟩
  -- the brace of an earlier object would stand in the junk
  cases object with
  | nil => cases read'
  | cons c object =>
      have brace := Json.rawDecode_obj_head read'
      subst brace
      rw [List.append_assoc] at same
      rcases List.append_eq_append_iff.mp same with ⟨between, rfl, -⟩ | ⟨between, rfl, tail⟩
      · simp only [List.length_append] at shorter
        omega
      · cases between with
        | nil => simp at shorter
        | cons d between =>
            obtain ⟨rfl, -⟩ := List.cons.inj tail
            exact absurd (List.mem_append_right before' List.mem_cons_self) no_brace

end Scan

/-- Every object that is recovered is the first of the text that conforms, and that of a text with
only junk before it is recovered. -/
theorem recover_sound (dumps : Json → String) (output : List Char) (grammar : Option (List Char))
    (allowedKeys : Option (List String)) :
    (∀ out, recoverStructuredObject dumps output grammar allowedKeys = some out →
      ∃ fields, out = dumps (.obj fields) ∧ IsFirst (anchor grammar allowedKeys) output fields) ∧
    ∀ junk s fields rest, output = junk ++ s → '{' ∉ junk →
      rawDecode s = some (.obj fields, rest) → Conforms (anchor grammar allowedKeys) fields →
        recoverStructuredObject dumps output grammar allowedKeys = some (dumps (.obj fields)) := by
  constructor
  · intro out recovered
    rw [recoverStructuredObject] at recovered
    split at recovered
    · cases recovered
    · obtain ⟨fields, found, rfl⟩ := Option.map_eq_some_iff.mp recovered
      exact ⟨fields, rfl, scan_eq_some_iff.mp found⟩
  · rintro junk s fields rest rfl no_brace read conforms
    have found := scan_eq_some_iff.mpr (isFirst_of_junk no_brace read conforms)
    have anchored : anchor grammar allowedKeys ≠ [] := by
      intro empty
      obtain ⟨first, others, rfl⟩ := List.exists_cons_of_ne_nil conforms.1
      have allowed := conforms.2 first List.mem_cons_self
      rw [empty] at allowed
      cases allowed
    rw [recoverStructuredObject, if_neg anchored, found, Option.map_some]

/-- `{"x":{"a":[]}}`. -/
def nestedText : List Char :=
  ['{', '"', 'x', '"', ':', '{', '"', 'a', '"', ':', '[', ']', '}', '}']

/-- The scan takes an object out of a larger one that it has refused. -/
theorem recovers_inner :
    recoverStructuredObject (fun _ => "") nestedText none (some ["a"]) = some "" ∧
      scan ["a"] nestedText = some [("a", .arr [])] ∧
      rawDecode nestedText = some (.obj [("x", .obj [("a", .arr [])])], []) := by
  have inner : scan ["a"] nestedText = some [("a", .arr [])] := by rfl
  refine ⟨?_, inner, rfl⟩
  rw [recoverStructuredObject, if_neg (by decide)]
  exact congrArg (Option.map _) inner

end Gbnf

end Roadstead
