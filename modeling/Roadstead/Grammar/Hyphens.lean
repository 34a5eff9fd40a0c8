import Roadstead.Grammar.Lexeme

/-!
# The rewrite of escaped hyphens

`_fix_charclass_hyphens` takes `\-` out of the text of a class and puts one hyphen at its end.  The
class denotes the same set where each `\-` stands for a character of its own (`HyphenSafe`): not
where the backslash is itself escaped, not where taking it out brings a `^` to the front, and not
where it is an end of a range.  Everything else of the grammar stays as it is, and is cut into the
same segments again (`segments_fix`).
-/

namespace Roadstead

namespace Gbnf

/-! ### One class -/

/-- A hyphen at the end, if there is none. -/
def closeUp (as : List Atom) : List Atom :=
  if as.getLast? = some (.plain '-') then as else as ++ [.plain '-']

/-- Each `\-` of a class is a character of its own. -/
structure HyphenSafe (inner : List Char) : Prop where
  /-- No backslash that is escaped itself stands before a hyphen. -/
  aligned : ¬[Atom.escape '\\', .plain '-'] <:+: atoms inner
  /-- A class that begins with `\-` does not go on with `^`. -/
  front : (atoms inner).head? = some (.escape '-') →
    ((atoms inner).filter fun a => a ≠ .escape '-').head? ≠ some (.plain '^')
  /-- No range begins or ends with `\-`, and what is left without them does not end with an empty range
  up to a hyphen. -/
  ends : ∀ cs, classChars 0 0 (classBody inner) = some cs →
    FreeEnds cs ∧ OpenEnd (cs.filter fun a => a ≠ .hyphen)

/-- The new class has no `\-`, and denotes what the old one does, if that denotes a set. -/
structure SameClass (inner inner' : List Char) : Prop where
  clean : '-' ∉ escapes inner'
  same : ∀ set, meaning inner = some set →
    ∃ set', meaning inner' = some set' ∧ ∀ n, set'.Holds n ↔ set.Holds n

section Class

variable {inner : List Char}

theorem closeUp_cons {a : Atom} (other : a ≠ .plain '-') (as : List Atom) :
    closeUp (a :: as) = a :: closeUp as := by
  rw [closeUp, closeUp]
  cases as with
  | nil => simp [other]
  | cons b as =>
      rw [List.getLast?_cons_cons]
      split
      · rfl
      · rfl

theorem head?_closeUp {a : Atom} {as : List Atom} (first : (closeUp as).head? = some a) :
    as.head? = some a ∨ a = .plain '-' := by
  rw [closeUp] at first
  split at first
  · exact .inl first
  · cases as with
    | nil => exact .inr (Option.some.inj first).symm
    | cons b as => exact .inl first

theorem mem_closeUp {a : Atom} {as : List Atom} (mem : a ∈ closeUp as) : a ∈ as ∨ a = .plain '-' := by
  rw [closeUp] at mem
  split at mem
  · exact .inl mem
  · simpa using mem

/-- The atoms of the new class. -/
theorem atoms_fixInner (complete : .lone ∉ atoms inner)
    (aligned : ¬[Atom.escape '\\', .plain '-'] <:+: atoms inner) (has : ['\\', '-'] <:+: inner) :
    atoms (fixInner inner) = closeUp ((atoms inner).filter fun a => a ≠ .escape '-') := by
  have rest := atoms_dropHyphens aligned
  have last : (dropHyphens inner).getLast? = some '-' ↔
      (atoms (dropHyphens inner)).getLast? = some (.plain '-') := by
    rw [← getLast?_atoms]
    constructor
    · intro found
      obtain ⟨a, here, same⟩ := Option.map_eq_some_iff.mp found
      have kept : a ≠ .escape '-' := by
        have mem := List.mem_of_getLast? here
        rw [rest] at mem
        simpa using (List.mem_filter.mp mem).2
      rw [here]
      cases a with
      | plain c => rw [← same]; rfl
      | escape c => exact absurd (congrArg Atom.escape same) kept
      | lone => cases same
    · intro found
      rw [found]
      rfl
  rw [fixInner, if_pos has, closeUp, ← rest]
  dsimp only
  simp only [last]
  split
  · rfl
  · refine atoms_append ?_ ['-']
    rw [rest]
    exact fun mem => complete (List.mem_filter.mp mem).1

theorem mem_atoms_fixInner (complete : .lone ∉ atoms inner)
    (aligned : ['\\', '-'] <:+: inner → ¬[Atom.escape '\\', .plain '-'] <:+: atoms inner) {a : Atom}
    (mem : a ∈ atoms (fixInner inner)) : a ≠ .escape '-' ∧ (a ∈ atoms inner ∨ a = .plain '-') := by
  by_cases has : ['\\', '-'] <:+: inner
  · rw [atoms_fixInner complete (aligned has) has] at mem
    rcases mem_closeUp mem with mem | rfl
    · obtain ⟨mem, kept⟩ := List.mem_filter.mp mem
      exact ⟨by simpa using kept, .inl mem⟩
    · exact ⟨by simp, .inr rfl⟩
  · rw [fixInner, if_neg has] at mem
    refine ⟨?_, .inl mem⟩
    rintro rfl
    exact has (hyphen_infix_iff.mpr (.inl mem))

/-- The front of the new class. -/
theorem classBody_fixInner (complete : .lone ∉ atoms inner) (has : ['\\', '-'] <:+: inner)
    (safe : HyphenSafe inner) : negates (fixInner inner) = negates inner ∧
      classBody (fixInner inner) = closeUp ((classBody inner).filter fun a => a ≠ .escape '-') := by
  have whole := atoms_fixInner complete safe.aligned has
  rw [classBody, classBody, negates, negates, whole]
  by_cases front : (atoms inner).head? = some (.plain '^')
  · obtain ⟨as, same⟩ : ∃ as, atoms inner = .plain '^' :: as := by
      cases found : atoms inner with
      | nil => rw [found] at front; cases front
      | cons a as =>
          rw [found] at front
          exact ⟨as, by rw [Option.some.inj front]⟩
    have kept : ((Atom.plain '^' :: as).filter fun a => a ≠ .escape '-') =
        .plain '^' :: as.filter fun a => a ≠ .escape '-' := List.filter_cons_of_pos (by simp)
    rw [same, kept, closeUp_cons (by simp)]
    simp
  · have front' : (closeUp ((atoms inner).filter fun a => a ≠ .escape '-')).head? ≠
        some (.plain '^') := by
      intro found
      rcases head?_closeUp found with here | here
      · cases same : atoms inner with
        | nil =>
            rw [same] at here
            cases here
        | cons a as =>
            by_cases hyphen : a = .escape '-'
            · exact safe.front (by rw [same, hyphen]; rfl) here
            · rw [same, List.filter_cons_of_pos (by simpa using hyphen)] at here
              rw [same] at front
              exact front here
      · cases here
    rw [decide_eq_false front', decide_eq_false front]
    exact ⟨rfl, rfl⟩

/-- The pieces of the new class cover what those of the old one do. -/
theorem holds_closeUp {as : List Atom} {cs : List ClassChar} (reads : Reads 0 0 as cs)
    (has : .escape '-' ∈ as) (free : FreeEnds cs) (ended : OpenEnd (cs.filter fun a => a ≠ .hyphen)) :
    ∃ cs', Reads 0 0 (closeUp (as.filter fun a => a ≠ .escape '-')) cs' ∧
      ∀ n, (∃ piece ∈ pieces cs', piece.Holds n) ↔ ∃ piece ∈ pieces cs, piece.Holds n := by
  have hyphen := single_hyphen_mem free (reads.hyphen_mem_iff.mp has)
  have left := reads.filter
  have kept (p : Piece) : p ∈ pieces (cs.filter fun a => a ≠ .hyphen) ↔
      p ∈ pieces cs ∧ p ≠ .single .hyphen := by
    rw [pieces_filter free, List.mem_filter, decide_eq_true_eq]
  -- A set that has the other pieces, and the hyphen, and no more than the old one, is the old one.
  have covers {ps : List Piece} (others : ∀ p ∈ pieces cs, p ≠ .single .hyphen → p ∈ ps)
      (hyphen' : ∃ p ∈ ps, p.Holds '-'.toNat)
      (only : ∀ p ∈ ps, p ∈ pieces cs ∨ p = .single (.plain '-')) (n : ℕ) :
      (∃ piece ∈ ps, piece.Holds n) ↔ ∃ piece ∈ pieces cs, piece.Holds n := by
    constructor
    · rintro ⟨piece, mem, holds⟩
      rcases only piece mem with mem | rfl
      · exact ⟨piece, mem, holds⟩
      · exact ⟨_, hyphen, holds⟩
    · rintro ⟨piece, mem, holds⟩
      by_cases same : piece = .single .hyphen
      · rw [same] at holds
        exact (show n = '-'.toNat from holds) ▸ hyphen'
      · exact ⟨piece, others piece mem same, holds⟩
  rw [closeUp]
  split
  · next last =>
      exact ⟨_, left, covers (fun p mem ne => (kept p).mpr ⟨mem, ne⟩)
        (holds_last (left.getLast?_iff.mp last) ended) fun p mem => .inl ((kept p).mp mem).1⟩
  · next other =>
      have concat := pieces_concat (mt left.getLast?_iff.mpr other)
      refine ⟨_, left.concat, covers (fun p mem ne => ?_) ⟨.single (.plain '-'), ?_, rfl⟩ fun p mem => ?_⟩
      · rw [concat]
        exact List.mem_append_left _ ((kept p).mpr ⟨mem, ne⟩)
      · rw [concat]
        exact List.mem_append_right _ List.mem_cons_self
      · rw [concat, List.mem_append, List.mem_singleton] at mem
        exact mem.imp_left fun mem => ((kept p).mp mem).1

theorem sameClass_fixInner (complete : .lone ∉ atoms inner)
    (safe : ['\\', '-'] <:+: inner → HyphenSafe inner) : SameClass inner (fixInner inner) where
  clean mem := (mem_atoms_fixInner complete (fun has => (safe has).aligned) (mem_escapes.mp mem)).1 rfl
  same set denotes := by
    by_cases has : ['\\', '-'] <:+: inner
    · obtain ⟨cs, read, rfl⟩ := Option.map_eq_some_iff.mp denotes
      obtain ⟨free, ended⟩ := (safe has).ends cs read
      have escape : .escape '-' ∈ classBody inner := by
        have mem := (hyphen_infix_iff.mp has).resolve_right (safe has).aligned
        rw [classBody]
        split
        · next front =>
            cases same : atoms inner with
            | nil =>
                rw [same] at mem
                cases mem
            | cons a as =>
                rw [negates, same, decide_eq_true_eq, List.head?_cons, Option.some.injEq] at front
                rw [same, front] at mem
                simpa using mem
        · exact mem
      obtain ⟨front, body⟩ := classBody_fixInner complete has (safe has)
      obtain ⟨cs', reads', covers⟩ :=
        holds_closeUp (classChars_eq_some_iff.mp read) escape free ended
      refine ⟨⟨negates inner, pieces cs'⟩, ?_, fun n => ?_⟩
      · rw [meaning, front, body, classChars_eq_some_iff.mpr reads', Option.map_some]
      · exact iff_congr (covers n) Iff.rfl
    · rw [fixInner, if_neg has]
      exact ⟨set, denotes, fun _ => Iff.rfl⟩

end Class

/-! ### The segments of a text -/

theorem length_segment (c : Char) (s : List Char) : (segment c s).2.length ≤ s.length := by
  have scanned (close : Char) : ((scanLiteral close s).2.drop 1).length ≤ s.length := by
    rw [List.length_drop]
    exact (Nat.sub_le _ _).trans (length_scanLiteral close s)
  unfold segment
  split
  · exact scanned '"'
  split
  · exact List.length_dropWhile_le _ s
  split
  · exact scanned ']'
  · exact le_rfl

theorem segment_advances : Turns.Advances fun c s => ([(segment c s).1], (segment c s).2) :=
  length_segment

theorem segmentsWithin_eq_turns (n : ℕ) (s : List Char) : segmentsWithin n s =
    Turns.turns (fun c s => ([(segment c s).1], (segment c s).2)) n s := by
  induction n generalizing s with
  | zero => cases s <;> rfl
  | succ n ih =>
      cases s with
      | nil => rfl
      | cons c s => rw [segmentsWithin, Turns.turns, ih]; rfl

theorem segments_cons (c : Char) (s : List Char) :
    segments (c :: s) = (segment c s).1 :: segments (segment c s).2 := by
  rw [segments, segmentsWithin_eq_turns, Turns.turns_cons segment_advances, segments,
    segmentsWithin_eq_turns]
  rfl

theorem segments_induction {motive : List Char → Prop} (nil : motive [])
    (turn : ∀ c s, motive (segment c s).2 → motive (c :: s)) (s : List Char) : motive s :=
  Turns.turns_induction segment_advances nil turn s

theorem fixCharclassHyphens_cons (c : Char) (s : List Char) : fixCharclassHyphens (c :: s) =
    (segment c s).1.fixed ++ fixCharclassHyphens (segment c s).2 := by
  rw [fixCharclassHyphens, segments_cons, List.flatMap_cons, fixCharclassHyphens]

/-- The segment that the new text has for one of the old text. -/
def Segment.rewritten : Segment → Segment
  | .text cs => .text cs
  | .charclass inner closed => .charclass (fixInner inner) closed

/-- A class is closed, and no backslash that is escaped itself stands before a hyphen in it, if it has
`\-`. -/
def Segment.Readable : Segment → Prop
  | .text _ => True
  | .charclass inner closed => closed = true ∧
      (['\\', '-'] <:+: inner → ¬[Atom.escape '\\', .plain '-'] <:+: atoms inner)

theorem segment_literal {s inner tail : List Char} (found : scanLiteral '"' s = (inner, tail)) :
    segment '"' s = (.text ('"' :: (inner ++ tail.take 1)), tail.drop 1) := by
  rw [segment, if_pos rfl, found]

theorem segment_comment (s : List Char) : segment '#' s =
    (.text ('#' :: s.takeWhile fun d => d ≠ '\n'), s.dropWhile fun d => d ≠ '\n') := rfl

theorem segment_class {s inner tail : List Char} (found : scanLiteral ']' s = (inner, tail)) :
    segment '[' s = (.charclass inner (!tail.isEmpty), tail.drop 1) := by
  rw [segment, if_neg (by decide), if_neg (by decide), if_pos rfl, found]

theorem segment_other {c : Char} (quote : c ≠ '"') (comment : c ≠ '#') (bracket : c ≠ '[')
    (s : List Char) : segment c s = (.text [c], s) := by
  rw [segment, if_neg quote, if_neg comment, if_neg bracket]

/-- A comment goes up to the newline, also in the new text. -/
theorem comment_append (s : List Char) :
    let after := fixCharclassHyphens (s.dropWhile fun d => d ≠ '\n')
    (((s.takeWhile fun d => d ≠ '\n') ++ after).takeWhile fun d => d ≠ '\n') =
        (s.takeWhile fun d => d ≠ '\n') ∧
      (((s.takeWhile fun d => d ≠ '\n') ++ after).dropWhile fun d => d ≠ '\n') = after := by
  induction s with
  | nil => exact ⟨rfl, rfl⟩
  | cons d s ih =>
      by_cases newline : d = '\n'
      · subst newline
        have first : fixCharclassHyphens ('\n' :: s) = '\n' :: fixCharclassHyphens s := by
          rw [fixCharclassHyphens_cons, segment_other (by decide) (by decide) (by decide)]
          rfl
        simp [first]
      · simpa [newline] using ih

/-- The new text starts with the new segment. -/
theorem segments_fixed (c : Char) (s : List Char) (readable : (segment c s).1.Readable) :
    segments ((segment c s).1.fixed ++ fixCharclassHyphens (segment c s).2) =
      (segment c s).1.rewritten :: segments (fixCharclassHyphens (segment c s).2) := by
  by_cases quote : c = '"'
  · subst quote
    obtain ⟨inner, tail, found⟩ : ∃ inner tail, scanLiteral '"' s = (inner, tail) := ⟨_, _, rfl⟩
    rw [segment_literal found, Segment.fixed, Segment.rewritten, List.cons_append, segments_cons]
    obtain ⟨same, rfl | ⟨rest, rfl, complete, plain⟩⟩ := scanLiteral_eq found
    · rw [List.append_nil] at same
      rw [same] at found
      have whole : inner ++ [].take 1 ++ fixCharclassHyphens ([].drop 1) = inner := by
        rw [List.take_nil, List.append_nil]
        exact List.append_nil inner
      rw [whole, segment_literal found]
      rfl
    · have again := scanLiteral_append (by decide) complete plain (fixCharclassHyphens rest)
      have split : inner ++ ('"' :: rest).take 1 ++ fixCharclassHyphens (('"' :: rest).drop 1) =
          inner ++ '"' :: fixCharclassHyphens rest := List.append_assoc _ _ _
      rw [split, segment_literal again]
      rfl
  by_cases comment : c = '#'
  · subst comment
    obtain ⟨text, after⟩ := comment_append s
    rw [segment_comment, Segment.fixed, List.cons_append, segments_cons, segment_comment, text, after]
    rfl
  by_cases bracket : c = '['
  · subst bracket
    obtain ⟨inner, tail, found⟩ : ∃ inner tail, scanLiteral ']' s = (inner, tail) := ⟨_, _, rfl⟩
    rw [segment_class found] at readable ⊢
    obtain ⟨same, rfl | ⟨rest, rfl, complete, plain⟩⟩ := scanLiteral_eq found
    · exact absurd readable.1 Bool.false_ne_true
    · have complete' : .lone ∉ atoms (fixInner inner) := fun mem =>
        complete ((mem_atoms_fixInner complete readable.2 mem).2.resolve_right (by decide))
      have plain' : .plain ']' ∉ atoms (fixInner inner) := fun mem =>
        plain ((mem_atoms_fixInner complete readable.2 mem).2.resolve_right (by decide))
      have again := scanLiteral_append (by decide) complete' plain' (fixCharclassHyphens rest)
      have split : Segment.fixed (.charclass inner (!(']' :: rest).isEmpty)) ++
          fixCharclassHyphens ((']' :: rest).drop 1) =
            '[' :: (fixInner inner ++ ']' :: fixCharclassHyphens rest) := by
        rw [Segment.fixed, List.cons_append, List.append_assoc]
        rfl
      rw [split, segments_cons, segment_class again]
      rfl
  · rw [segment_other quote comment bracket, Segment.fixed, List.singleton_append, segments_cons,
      segment_other quote comment bracket, Segment.rewritten]

/-- The new text is cut where the old one is. -/
theorem segments_fix (src : List Char) (readable : ∀ seg ∈ segments src, seg.Readable) :
    segments (fixCharclassHyphens src) = (segments src).map Segment.rewritten := by
  induction src using segments_induction with
  | nil => rfl
  | turn c s ih =>
      rw [segments_cons] at readable
      have rest := ih fun seg mem => readable seg (List.mem_cons_of_mem _ mem)
      rw [fixCharclassHyphens_cons, segments_fixed c s (readable _ List.mem_cons_self), rest,
        segments_cons, List.map_cons]

/-- No closed class ends in a lone backslash. -/
theorem complete_of_closed {src inner : List Char} (mem : .charclass inner true ∈ segments src) :
    .lone ∉ atoms inner := by
  induction src using segments_induction with
  | nil => cases mem
  | turn c s ih =>
      rw [segments_cons, List.mem_cons] at mem
      rcases mem with here | later
      · by_cases bracket : c = '['
        · subst bracket
          obtain ⟨inner', tail, found⟩ : ∃ inner' tail, scanLiteral ']' s = (inner', tail) := ⟨_, _, rfl⟩
          rw [segment_class found, Segment.charclass.injEq] at here
          obtain ⟨rfl, closed⟩ := here
          obtain ⟨-, rfl | ⟨rest, -, complete, -⟩⟩ := scanLiteral_eq found
          · cases closed
          · exact complete
        · rw [segment, if_neg bracket] at here
          split at here
          · cases here
          split at here
          · cases here
          · cases here
      · exact ih later

/-- The new segment is the old one: the same text, or a class that denotes the same set. -/
inductive Preserved : Segment → Segment → Prop
  | text (cs : List Char) : Preserved (.text cs) (.text cs)
  | charclass {inner inner' : List Char} {closed : Bool} : SameClass inner inner' →
      Preserved (.charclass inner closed) (.charclass inner' closed)

/-- The rewrite leaves what is outside the classes as it is, and each class with what it denotes, if
every class is closed and each `\-` in one is a character of its own. -/
theorem fixCharclassHyphens_preserves {src : List Char}
    (safe : ∀ inner closed, .charclass inner closed ∈ segments src →
      closed = true ∧ (['\\', '-'] <:+: inner → HyphenSafe inner)) :
    List.Forall₂ Preserved (segments src) (segments (fixCharclassHyphens src)) := by
  have readable : ∀ seg ∈ segments src, seg.Readable := by
    intro seg mem
    cases seg with
    | text cs => trivial
    | charclass inner closed =>
        exact ⟨(safe inner closed mem).1, fun has => ((safe inner closed mem).2 has).aligned⟩
  rw [segments_fix src readable, List.forall₂_map_right_iff, List.forall₂_same]
  intro seg mem
  cases seg with
  | text cs => exact .text cs
  | charclass inner closed =>
      obtain ⟨rfl, safe⟩ := safe inner closed mem
      exact .charclass (sameClass_fixInner (complete_of_closed mem) safe)

/-- The class `[a\-z]`. -/
theorem fixCharclassHyphens_escaped_hyphen : List.Forall₂ Preserved (segments ['[', 'a', '\\', '-', 'z', ']'])
    (segments (fixCharclassHyphens ['[', 'a', '\\', '-', 'z', ']'])) := by
  refine fixCharclassHyphens_preserves fun inner closed mem => ?_
  have same : segments ['[', 'a', '\\', '-', 'z', ']'] = [.charclass ['a', '\\', '-', 'z'] true] := rfl
  rw [same, List.mem_singleton, Segment.charclass.injEq] at mem
  obtain ⟨rfl, rfl⟩ := mem
  refine ⟨rfl, fun _ => ⟨by decide, by decide, fun cs read => ?_⟩⟩
  have chars : classChars 0 0 (classBody ['a', '\\', '-', 'z']) =
      some [.plain 'a', .hyphen, .plain 'z'] := by decide
  rw [chars] at read
  obtain rfl := Option.some.inj read
  exact ⟨by simp [FreeEnds, pieces], by simp [OpenEnd, pieces]⟩

/-- `[,-\-a]`, where `\-` ends a range, becomes `[,-a-]`, which has `A`. -/
theorem range_end_grows : ¬List.Forall₂ Preserved (segments ['[', ',', '-', '\\', '-', 'a', ']'])
    (segments (fixCharclassHyphens ['[', ',', '-', '\\', '-', 'a', ']'])) := by
  have same : segments ['[', ',', '-', '\\', '-', 'a', ']'] =
      [.charclass [',', '-', '\\', '-', 'a'] true] := rfl
  have same' : segments (fixCharclassHyphens ['[', ',', '-', '\\', '-', 'a', ']']) =
      [.charclass [',', '-', 'a', '-'] true] := rfl
  rw [same, same', List.forall₂_cons]
  rintro ⟨first, -⟩
  have kept : SameClass [',', '-', '\\', '-', 'a'] [',', '-', 'a', '-'] := by
    cases first with
    | charclass kept => exact kept
  have before : meaning [',', '-', '\\', '-', 'a'] =
      some ⟨false, [.range (.plain ',') .hyphen, .single (.plain 'a')]⟩ := rfl
  have after : meaning [',', '-', 'a', '-'] =
      some ⟨false, [.range (.plain ',') (.plain 'a'), .single (.plain '-')]⟩ := rfl
  obtain ⟨set, denotes, holds⟩ := kept.same _ before
  rw [after] at denotes
  obtain rfl := Option.some.inj denotes
  have wrong := (holds 'A'.toNat).mp (by simp [CharSet.Holds, Piece.Holds, ClassChar.value])
  simp [CharSet.Holds, Piece.Holds, ClassChar.value] at wrong

end Gbnf

end Roadstead
