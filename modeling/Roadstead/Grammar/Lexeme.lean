import Roadstead.Grammar.CharClass
import Roadstead.Lib.Turns

/-!
# Reading a grammar from the front

What one turn of the tokenizer, of the rewrite and of the search for repetitions takes of a text.
-/

namespace Roadstead

namespace Gbnf

/-! ### Literals and classes in a text -/

section Scan

variable {close : Char} {s inner tail : List Char}

/-- What a scan takes ends with the text or at the first closing character that no backslash hides. -/
theorem scanLiteral_eq (found : scanLiteral close s = (inner, tail)) : s = inner ++ tail ∧
    (tail = [] ∨ ∃ rest, tail = close :: rest ∧ .lone ∉ atoms inner ∧ .plain close ∉ atoms inner) := by
  induction s using atoms_induction generalizing inner with
  | nil | lone =>
      cases found
      exact ⟨rfl, .inl rfl⟩
  | escape d s ih =>
      have step : scanLiteral close ('\\' :: d :: s) =
          ('\\' :: d :: (scanLiteral close s).1, (scanLiteral close s).2) := rfl
      rw [step, Prod.mk.injEq] at found
      obtain ⟨rfl, rfl⟩ := found
      obtain ⟨split, ends⟩ := ih rfl
      refine ⟨?_, ends.imp_right ?_⟩
      · conv_lhs => rw [split]
        rfl
      · rintro ⟨rest, same, complete, plain⟩
        refine ⟨rest, same, ?_, ?_⟩
        · rw [atoms_escape]
          simpa using complete
        · rw [atoms_escape]
          simpa using plain
  | plain c s other ih =>
      have step : scanLiteral close (c :: s) = if c = close then ([], c :: s)
          else (c :: (scanLiteral close s).1, (scanLiteral close s).2) := by
        rw [scanLiteral.eq_def]
        exact if_neg other
      rw [step] at found
      split at found
      · next same =>
          cases found
          exact ⟨rfl, .inr ⟨s, by rw [same], by simp [atoms], by simp [atoms]⟩⟩
      · next ne =>
          rw [Prod.mk.injEq] at found
          obtain ⟨rfl, rfl⟩ := found
          obtain ⟨split, ends⟩ := ih rfl
          refine ⟨?_, ends.imp_right ?_⟩
          · conv_lhs => rw [split]
            rfl
          · rintro ⟨rest, same, complete, plain⟩
            refine ⟨rest, same, ?_, ?_⟩
            · rw [atoms_plain other]
              simpa using complete
            · rw [atoms_plain other]
              simpa [Ne.symm ne] using plain

theorem scanLiteral_append (special : close ≠ '\\') (complete : .lone ∉ atoms inner)
    (open_ : .plain close ∉ atoms inner) (rest : List Char) :
    scanLiteral close (inner ++ close :: rest) = (inner, close :: rest) := by
  induction inner using atoms_induction with
  | nil =>
      rw [List.nil_append, scanLiteral.eq_def]
      exact (if_neg special).trans (if_pos rfl)
  | lone => exact absurd (List.mem_cons_self) complete
  | escape d s ih =>
      rw [atoms_escape] at complete open_
      have found := ih (fun mem => complete (List.mem_cons_of_mem _ mem))
        fun mem => open_ (List.mem_cons_of_mem _ mem)
      have step : scanLiteral close ('\\' :: d :: (s ++ close :: rest)) =
          ('\\' :: d :: (scanLiteral close (s ++ close :: rest)).1,
            (scanLiteral close (s ++ close :: rest)).2) := rfl
      rw [List.cons_append, List.cons_append, step, found]
  | plain c s other ih =>
      rw [atoms_plain other] at complete open_
      have found := ih (fun mem => complete (List.mem_cons_of_mem _ mem))
        fun mem => open_ (List.mem_cons_of_mem _ mem)
      have ne : c ≠ close := by
        rintro rfl
        exact open_ List.mem_cons_self
      rw [List.cons_append, scanLiteral.eq_def]
      refine (if_neg other).trans ((if_neg ne).trans ?_)
      rw [found]

end Scan

theorem length_scanLiteral (close : Char) (s : List Char) : (scanLiteral close s).2.length ≤ s.length := by
  have split := (scanLiteral_eq (Prod.mk.eta : ((scanLiteral close s).1, (scanLiteral close s).2) = _).symm).1
  conv_rhs => rw [split]
  simp

/-! ### Tokens -/

/-- What one turn at `c` does with the text behind `c`.  A repetition is the one turn whose token
depends on what stands further on. -/
inductive Turn (c : Char) : Prop
  | alone (tok : Option Tok) (whole : tok ≠ some ⟨.op, ['{']⟩) (turn : ∀ s, lexeme c s = (tok, s))
  | span (tok : List Char → Option Tok) (p : Char → Bool) (whole : ∀ t, tok t ≠ some ⟨.op, ['{']⟩)
      (turn : ∀ s, lexeme c s = (tok (s.takeWhile p), s.dropWhile p))
  | literal (kind : TokKind) (close : Char) (special : close ≠ '\\') (whole : kind ≠ .op)
      (turn : ∀ s, lexeme c s = literalTok kind c close s)
  | define (turn : ∀ s, lexeme c s =
      if [':', '='] <+: s then (some ⟨.define, "::=".toList⟩, s.drop 2) else (none, s))
  | brace (opening : c = '{')

theorem lexeme_open_brace {s : List Char} (never : s.dropWhile (fun d => d ≠ '}') = []) :
    lexeme '{' s = (some ⟨.op, ['{']⟩, s) := by
  simp only [lexeme, never]
  rfl

theorem lexeme_closed_brace {s rest : List Char} {close : Char}
    (found : s.dropWhile (fun d => d ≠ '}') = close :: rest) :
    lexeme '{' s = (some ⟨.rep, '{' :: ((s.takeWhile fun d => d ≠ '}') ++ [close])⟩, rest) := by
  simp only [lexeme, found]
  rfl

theorem turn_at (c : Char) : Turn c := by
  by_cases comment : c = '#'
  · subst comment
    exact .span (fun _ => none) (fun d => d ≠ '\n') (fun _ => nofun) fun _ => rfl
  by_cases newline : c = '\n'
  · subst newline
    exact .alone (some ⟨.newline, ['\n']⟩) (by decide) fun _ => rfl
  by_cases blank : c = ' ' ∨ c = '\t' ∨ c = '\r'
  · refine .alone none nofun fun s => ?_
    rcases blank with rfl | rfl | rfl <;> rfl
  by_cases quote : c = '"'
  · subst quote
    exact .literal .string '"' (by decide) (by decide) fun _ => rfl
  by_cases bracket : c = '['
  · subst bracket
    exact .literal .charclass ']' (by decide) (by decide) fun _ => rfl
  by_cases define : c = ':'
  · subst define
    refine .define fun s => ?_
    by_cases starts : [':', '='] <+: s <;> simp [lexeme, starts]
    decide
  by_cases left : c = '('
  · subst left
    exact .alone (some ⟨.lparen, ['(']⟩) (by decide) fun _ => rfl
  by_cases right : c = ')'
  · subst right
    exact .alone (some ⟨.rparen, [')']⟩) (by decide) fun _ => rfl
  by_cases pipe : c = '|'
  · subst pipe
    exact .alone (some ⟨.pipe, ['|']⟩) (by decide) fun _ => rfl
  by_cases op : c = '*' ∨ c = '+' ∨ c = '?'
  · refine .alone (some ⟨.op, [c]⟩) ?_ fun s => ?_
    · rcases op with rfl | rfl | rfl <;> decide
    · rcases op with rfl | rfl | rfl <;> rfl
  by_cases brace : c = '{'
  · exact .brace brace
  by_cases letter : isLetter c = true
  · refine .span (fun t => some ⟨.name, c :: t⟩) isNameChar (fun _ => by simp) fun s => ?_
    simp [lexeme, *]
  · refine .alone none nofun fun s => ?_
    simp [lexeme, *]

theorem length_lexeme (c : Char) (s : List Char) : (lexeme c s).2.length ≤ s.length := by
  have dropped (n : ℕ) (t : List Char) (short : t.length ≤ s.length) : (t.drop n).length ≤ s.length := by
    rw [List.length_drop]
    exact (Nat.sub_le _ _).trans short
  cases turn_at c with
  | alone tok whole turn => rw [turn]
  | span tok p whole turn =>
      rw [turn]
      exact List.length_dropWhile_le p s
  | literal kind close special whole turn =>
      rw [turn]
      exact dropped 1 _ (length_scanLiteral close s)
  | define turn =>
      rw [turn]
      split
      · exact dropped 2 s le_rfl
      · exact le_rfl
  | brace opening =>
      subst opening
      cases found : s.dropWhile fun d => d ≠ '}' with
      | nil => rw [lexeme_open_brace found]
      | cons close rest =>
          have short := List.length_dropWhile_le (fun d : Char => d ≠ '}') s
          rw [found] at short
          rw [lexeme_closed_brace found]
          exact (Nat.le_succ _).trans short

theorem lexeme_advances : Turns.Advances fun c s => ((lexeme c s).1.toList, (lexeme c s).2) :=
  length_lexeme

theorem tokenizeWithin_eq_turns (n : ℕ) (s : List Char) : tokenizeWithin n s =
    Turns.turns (fun c s => ((lexeme c s).1.toList, (lexeme c s).2)) n s := by
  induction n generalizing s with
  | zero => cases s <;> rfl
  | succ n ih =>
      cases s with
      | nil => rfl
      | cons c s => rw [tokenizeWithin, Turns.turns, ih]

theorem tokenize_cons (c : Char) (s : List Char) :
    tokenize (c :: s) = (lexeme c s).1.toList ++ tokenize (lexeme c s).2 := by
  rw [tokenize, tokenizeWithin_eq_turns, Turns.turns_cons lexeme_advances, tokenize,
    tokenizeWithin_eq_turns]

/-! ### A text with a mark in it

What a turn takes before a mark does not depend on what comes after the mark. -/

section Mark

variable {c q : Char} {taken before x : List Char}

theorem takeWhile_eq_of_dropWhile {p : Char → Bool} {rest : List Char}
    (drop : (taken ++ rest).dropWhile p = rest) : (taken ++ rest).takeWhile p = taken := by
  have whole := List.takeWhile_append_dropWhile (p := p) (l := taken ++ rest)
  rw [drop] at whole
  exact List.append_cancel_right whole

theorem dropWhile_mark {p : Char → Bool}
    (drop : (taken ++ (before ++ q :: x)).dropWhile p = before ++ q :: x) (y : List Char) :
    (taken ++ (before ++ q :: y)).dropWhile p = before ++ q :: y := by
  have all : ∀ d ∈ taken, p d = true := by
    intro d mem
    rw [← takeWhile_eq_of_dropWhile drop] at mem
    exact List.mem_takeWhile_imp mem
  rw [List.dropWhile_append_of_pos all] at drop ⊢
  cases before with
  | nil =>
      rw [List.nil_append, List.dropWhile_cons] at drop ⊢
      split at drop
      · have short := List.length_dropWhile_le p x
        rw [drop, List.length_cons] at short
        omega
      · next stop => rw [if_neg stop]
  | cons d before =>
      rw [List.cons_append, List.dropWhile_cons] at drop ⊢
      split at drop
      · have short := List.length_dropWhile_le p (before ++ q :: x)
        rw [drop, List.length_cons] at short
        omega
      · next stop => rw [if_neg stop]

theorem starts_mark_iff {needle : List Char} (other : q ∉ needle) :
    needle <+: before ++ q :: x ↔ needle <+: before := by
  induction before generalizing needle with
  | nil =>
      cases needle with
      | nil => simp
      | cons d needle =>
          rw [List.nil_append, List.cons_prefix_cons]
          constructor
          · rintro ⟨rfl, -⟩
            exact absurd List.mem_cons_self other
          · exact fun starts => absurd (List.prefix_nil.mp starts) (List.cons_ne_nil d needle)
  | cons e before ih =>
      cases needle with
      | nil => simp
      | cons d needle =>
          rw [List.cons_append, List.cons_prefix_cons, List.cons_prefix_cons,
            ih fun mem => other (List.mem_cons_of_mem _ mem)]

theorem scanLiteral_mark {close : Char} (special : close ≠ '\\')
    (scan : (scanLiteral close (taken ++ (before ++ q :: x))).2.drop 1 = before ++ q :: x) :
    ∃ inner, ∀ y, scanLiteral close (taken ++ (before ++ q :: y)) = (inner, close :: (before ++ q :: y)) := by
  obtain ⟨inner, tail, found⟩ :
      ∃ inner tail, scanLiteral close (taken ++ (before ++ q :: x)) = (inner, tail) := ⟨_, _, rfl⟩
  rw [found] at scan
  obtain ⟨same, rfl | ⟨rest, rfl, complete, plain⟩⟩ := scanLiteral_eq found
  · simp at scan
  · refine ⟨inner, fun y => ?_⟩
    rw [List.drop_one, List.tail_cons] at scan
    have split : taken ++ (before ++ q :: x) = inner ++ [close] ++ (before ++ q :: x) := by
      rw [same, scan, List.append_assoc]
      rfl
    have first : taken = inner ++ [close] := List.append_cancel_right split
    rw [first, List.append_assoc]
    exact scanLiteral_append special complete plain _

/-- A turn before a mark; one that finds no end of a repetition has looked at everything. -/
theorem lexeme_mark (mark : q ≠ ':' ∧ q ≠ '=') {tok : Option Tok}
    (turn : lexeme c (taken ++ (before ++ q :: x)) = (tok, before ++ q :: x)) {y : List Char}
    (ends : tok = some ⟨.op, ['{']⟩ → '}' ∉ before ++ q :: y) :
    lexeme c (taken ++ (before ++ q :: y)) = (tok, before ++ q :: y) := by
  have nothing (same : taken ++ (before ++ q :: x) = before ++ q :: x) : taken = [] :=
    List.append_left_eq_self.mp same
  cases turn_at c with
  | alone tok' whole at_ =>
      rw [at_, Prod.mk.injEq] at turn ⊢
      exact ⟨turn.1, by rw [nothing turn.2, List.nil_append]⟩
  | span tok' p whole at_ =>
      rw [at_, Prod.mk.injEq] at turn ⊢
      have rest := dropWhile_mark turn.2 y
      rw [takeWhile_eq_of_dropWhile turn.2] at turn
      rw [takeWhile_eq_of_dropWhile rest]
      exact ⟨turn.1, rest⟩
  | literal kind close special whole at_ =>
      rw [at_, literalTok, Prod.mk.injEq] at turn ⊢
      obtain ⟨inner, found⟩ := scanLiteral_mark special turn.2
      rw [found x] at turn
      rw [found y]
      exact ⟨turn.1, rfl⟩
  | define at_ =>
      have starts (z : List Char) : [':', '='] <+: taken ++ (before ++ q :: z) ↔
          [':', '='] <+: taken ++ before := by
        rw [← List.append_assoc]
        refine starts_mark_iff ?_
        simp [mark]
      rw [at_] at turn ⊢
      by_cases define : [':', '='] <+: taken ++ before
      · rw [if_pos ((starts x).mpr define), Prod.mk.injEq] at turn
        rw [if_pos ((starts y).mpr define), Prod.mk.injEq]
        refine ⟨turn.1, ?_⟩
        have two : taken.length = 2 := by
          have lengths := congrArg List.length turn.2
          have long := ((starts x).mpr define).length_le
          simp only [List.length_drop, List.length_append, List.length_cons, List.length_nil] at lengths long
          omega
        rw [← two, List.drop_left]
      · rw [if_neg (mt (starts x).mp define), Prod.mk.injEq] at turn
        rw [if_neg (mt (starts y).mp define), Prod.mk.injEq]
        exact ⟨turn.1, by rw [nothing turn.2, List.nil_append]⟩
  | brace opening =>
      subst opening
      cases found : (taken ++ (before ++ q :: x)).dropWhile fun d => d ≠ '}' with
      | nil =>
          rw [lexeme_open_brace found, Prod.mk.injEq] at turn
          rw [nothing turn.2, List.nil_append, lexeme_open_brace, turn.1]
          rw [List.dropWhile_eq_nil_iff]
          rintro d mem
          simp only [ne_eq, decide_not, Bool.not_eq_true', decide_eq_false_iff_not]
          rintro rfl
          exact ends turn.1.symm mem
      | cons close rest =>
          rw [lexeme_closed_brace found, Prod.mk.injEq] at turn
          obtain ⟨tok, rfl⟩ := turn
          -- The mark stays where it is behind the closing brace.
          obtain ⟨inner, same⟩ : ∃ inner, taken = inner ++ [close] := by
            have split := List.takeWhile_append_dropWhile (p := fun d : Char => decide (d ≠ '}'))
              (l := taken ++ (before ++ q :: x))
            rw [found, List.append_cons] at split
            exact ⟨_, (List.append_cancel_right split).symm⟩
          have reassoc (z : List Char) : taken ++ (before ++ q :: z) =
              inner ++ ((close :: before) ++ q :: z) := by
            rw [same, List.append_assoc]
            rfl
          have found' : ((inner ++ ((close :: before) ++ q :: x)).dropWhile fun d => d ≠ '}') =
              (close :: before) ++ q :: x := by
            rw [← reassoc]
            exact found
          have again := dropWhile_mark found' y
          rw [reassoc y, lexeme_closed_brace again, takeWhile_eq_of_dropWhile again, ← tok, reassoc x,
            takeWhile_eq_of_dropWhile found']
          rfl

/-- The turn that finds no end of a repetition. -/
theorem lexeme_open {s : List Char} (turn : (lexeme c s).1 = some ⟨.op, ['{']⟩) : '}' ∉ s := by
  cases turn_at c with
  | alone tok whole at_ =>
      rw [at_] at turn
      exact absurd turn whole
  | span tok p whole at_ =>
      rw [at_] at turn
      exact absurd turn (whole _)
  | literal kind close special whole at_ =>
      rw [at_, literalTok, Option.some.injEq, Tok.mk.injEq] at turn
      exact absurd turn.1 whole
  | define at_ =>
      rw [at_] at turn
      split at turn <;> cases turn
  | brace opening =>
      subst opening
      cases found : s.dropWhile fun d => d ≠ '}' with
      | nil =>
          intro mem
          have stop := List.dropWhile_eq_nil_iff.mp found _ mem
          simp at stop
      | cons close rest =>
          rw [lexeme_closed_brace found] at turn
          cases turn

theorem dropWhile_before {p : Char → Bool} (stop : p q = false) :
    (before ++ q :: x).dropWhile p = before.dropWhile p ++ q :: x := by
  rw [List.dropWhile_append]
  split
  · next empty =>
      rw [List.isEmpty_iff.mp empty, List.dropWhile_cons_of_neg (by simp [stop]), List.nil_append]
  · rfl

theorem takeWhile_before {p : Char → Bool} (stop : p q = false) :
    (before ++ q :: x).takeWhile p = before.takeWhile p := by
  rw [List.takeWhile_append]
  split
  · next full =>
      rw [List.takeWhile_cons_of_neg (by simp [stop]), List.append_nil]
      exact ((List.takeWhile_prefix p).eq_of_length full).symm
  · rfl

end Mark

/-! ### Repetitions -/

section Repetitions

variable {q : Char} {before x : List Char}

/-- A character that is in no repetition. -/
structure Stops (q : Char) : Prop where
  space : Text.isSpace q = false
  decimal : isDecimal q = false
  comma : q ≠ ','
  close : q ≠ '}'
  opening : q ≠ '{'

theorem repetition?_mark (stops : Stops q) : repetition? (before ++ q :: x) =
    (repetition? before).map fun found => (found.1, found.2 ++ q :: x) := by
  rw [repetition?, repetition?]
  simp only [dropWhile_before stops.space, dropWhile_before stops.decimal,
    takeWhile_before stops.decimal]
  split
  · rfl
  generalize ((before.dropWhile Text.isSpace).dropWhile isDecimal).dropWhile Text.isSpace = rest
  cases rest with
  | nil =>
      rw [List.nil_append]
      split
      · next same => exact absurd (List.cons.inj same).1 stops.close
      · next same => exact absurd (List.cons.inj same).1 stops.comma
      · rfl
  | cons d rest =>
      by_cases close : d = '}'
      · subst close
        rfl
      by_cases comma : d = ','
      · subst comma
        simp only [List.cons_append, dropWhile_before stops.space, dropWhile_before stops.decimal,
          takeWhile_before stops.decimal]
        generalize ((rest.dropWhile Text.isSpace).dropWhile isDecimal).dropWhile Text.isSpace = last
        cases last with
        | nil =>
            rw [List.nil_append]
            split
            · next same => exact absurd (List.cons.inj same).1 stops.close
            · rfl
        | cons e last =>
            by_cases close : e = '}'
            · subst close
              rfl
            · simp [close]
      · simp [close, comma]

theorem length_repetition? {s : List Char} {found : (List Char × Option (List Char)) × List Char}
    (read : repetition? s = some found) : found.2.length ≤ s.length := by
  have shorter (t : List Char) :
      (((t.dropWhile Text.isSpace).dropWhile isDecimal).dropWhile Text.isSpace).length ≤ t.length :=
    ((List.length_dropWhile_le _ _).trans (List.length_dropWhile_le _ _)).trans
      (List.length_dropWhile_le _ t)
  rw [repetition?] at read
  dsimp only at read
  split at read
  · cases read
  split at read
  · next rest low =>
      cases read
      have short := shorter s
      rw [low] at short
      exact (Nat.le_succ _).trans short
  · next rest low =>
      split at read
      · next rest' high =>
          cases read
          have short := shorter s
          have short' := shorter rest
          rw [low] at short
          rw [high] at short'
          exact (Nat.le_succ _).trans (short'.trans ((Nat.le_succ _).trans short))
      · cases read
  · cases read

/-- One turn of the search. -/
def repetitionTurn (c : Char) (s : List Char) :
    List (List Char × Option (List Char)) × List Char :=
  match if c = '{' then repetition? s else none with
  | some (bounds, rest) => ([bounds], rest)
  | none => ([], s)

theorem repetition_advances : Turns.Advances repetitionTurn := by
  intro c s
  rw [repetitionTurn]
  split
  · next bounds rest found =>
      split at found
      · exact length_repetition? found
      · cases found
  · exact le_rfl

theorem repetitionsWithin_eq_turns (n : ℕ) (s : List Char) :
    repetitionsWithin n s = Turns.turns repetitionTurn n s := by
  induction n generalizing s with
  | zero => cases s <;> rfl
  | succ n ih =>
      cases s with
      | nil => rfl
      | cons c s =>
          rw [repetitionsWithin, Turns.turns, repetitionTurn]
          cases (if c = '{' then repetition? s else none) with
          | some found => exact congrArg (found.1 :: ·) (ih found.2)
          | none => exact ih s

theorem repetitions_cons (c : Char) (s : List Char) :
    repetitions (c :: s) = (repetitionTurn c s).1 ++ repetitions (repetitionTurn c s).2 := by
  rw [repetitions, repetitionsWithin_eq_turns, Turns.turns_cons repetition_advances, repetitions,
    repetitionsWithin_eq_turns]

/-- No repetition goes beyond the mark. -/
theorem repetitions_mark (stops : Stops q) (before x : List Char) :
    repetitions (before ++ q :: x) = repetitions before ++ repetitions x := by
  have turn_mark (c : Char) (s : List Char) : repetitionTurn c (s ++ q :: x) =
      ((repetitionTurn c s).1, (repetitionTurn c s).2 ++ q :: x) := by
    rw [repetitionTurn, repetitionTurn, repetition?_mark stops]
    by_cases brace : c = '{'
    · rw [if_pos brace, if_pos brace]
      cases repetition? s <;> rfl
    · rw [if_neg brace, if_neg brace]
  induction before using Turns.turns_induction repetition_advances with
  | nil =>
      rw [List.nil_append, repetitions_cons, repetitionTurn, if_neg stops.opening]
      rfl
  | turn c s ih =>
      rw [List.cons_append, repetitions_cons, repetitions_cons, turn_mark, ih, List.append_assoc]

end Repetitions

end Gbnf

end Roadstead
