import Roadstead.Grammar.Lexeme

/-!
# What a literal or a comment says

`validate` reads tokens, for which the inside of a literal or a comment is nothing, and searches the
text, where it is as good as anything else.  A repetition with a large bound counts wherever it
stands, and so does a header at the start of a line (`validate_replaced`).
-/

namespace Roadstead

namespace Gbnf

/-- The tokenizer comes to a literal or a comment behind `before`, whose inside is `old`; what comes
behind it is `after`. -/
inductive Encloses : List Char → List Char → List Char → Prop
  | literal {old after : List Char} : scanLiteral '"' (old ++ after) = (old, after) →
      Encloses ['"'] old after
  | comment {old after : List Char} : '\n' ∉ old → (∀ c ∈ after.head?, c = '\n') →
      Encloses ['#'] old after
  | turn {c : Char} {taken before old after : List Char} {tok : Option Tok} :
      lexeme c (taken ++ (before ++ (old ++ after))) = (tok, before ++ (old ++ after)) →
        Encloses before old after → Encloses (c :: (taken ++ before)) old after

/-- What may come behind the inside of a literal or a comment. -/
inductive Closes (text : List Char) : List Char → Prop
  | nothing : Closes text []
  | quote {tail : List Char} : Closes text ('"' :: tail)
  | newline {tail : List Char} : '\n' ∉ text → Closes text ('\n' :: tail)

/-- Text without quotes, backslashes or newlines. -/
def Plain (text : List Char) : Prop := ∀ c ∈ text, c ≠ '"' ∧ c ≠ '\\' ∧ c ≠ '\n'

/-- The character that opens a literal or a comment. -/
def IsMark (q : Char) : Prop := q = '"' ∨ q = '#'

section Encloses

variable {before old new after : List Char}

theorem Encloses.mark (encloses : Encloses before old after) :
    ∃ lead q, IsMark q ∧ before = lead ++ [q] := by
  induction encloses with
  | literal _ => exact ⟨[], '"', .inl rfl, rfl⟩
  | comment _ _ => exact ⟨[], '#', .inr rfl, rfl⟩
  | @turn c taken _ _ _ _ _ _ ih =>
      obtain ⟨lead, q, mark, rfl⟩ := ih
      exact ⟨c :: (taken ++ lead), q, mark, by simp⟩

theorem Encloses.closes (encloses : Encloses before old after) : Closes old after := by
  induction encloses with
  | literal scan =>
      obtain rfl | ⟨tail, rfl, -, -⟩ := (scanLiteral_eq scan).2
      · exact .nothing
      · exact .quote
  | @comment old after whole ends =>
      cases after with
      | nil => exact .nothing
      | cons c tail =>
          obtain rfl := ends c rfl
          exact .newline whole
  | turn _ _ ih => exact ih

theorem Closes.plain (closes : Closes old after) (plain : Plain new) : Closes new after := by
  cases closes with
  | nothing => exact .nothing
  | quote => exact .quote
  | newline _ => exact .newline fun mem => (plain _ mem).2.2 rfl

theorem IsMark.stops {q : Char} (mark : IsMark q) : Stops q := by
  rcases mark with rfl | rfl
  · exact ⟨by decide, by decide, by decide, by decide, by decide⟩
  · exact ⟨by decide, by decide, by decide, by decide, by decide⟩

end Encloses

/-! ### Tokens -/

/-- A token without what a literal says. -/
def Tok.blank (t : Tok) : Tok := if t.kind = .string then ⟨.string, []⟩ else t

@[simp] theorem Tok.blank_kind (t : Tok) : t.blank.kind = t.kind := by
  rw [Tok.blank]
  split
  · next string => exact string.symm
  · rfl

theorem Tok.blank_of_ne {t : Tok} (other : t.kind ≠ .string) : t.blank = t := if_neg other

theorem definedAndReferenced_blank (toks : List Tok) :
    definedAndReferenced (toks.map Tok.blank) = definedAndReferenced toks := by
  induction toks with
  | nil => rfl
  | cons t toks ih =>
      have next : ((toks.map Tok.blank).head?.map Tok.kind) = toks.head?.map Tok.kind := by
        cases toks with
        | nil => rfl
        | cons u toks => exact congrArg some u.blank_kind
      rw [List.map_cons, definedAndReferenced, definedAndReferenced, ih, next, Tok.blank_kind]
      by_cases name : t.kind = .name
      · rw [Tok.blank_of_ne (by rw [name]; decide)]
      · rw [if_neg name, if_neg name]

theorem charclassSpans_blank (toks : List Tok) :
    charclassSpans (toks.map Tok.blank) = charclassSpans toks := by
  induction toks with
  | nil => rfl
  | cons t toks ih =>
      rw [charclassSpans, charclassSpans] at ih ⊢
      by_cases charclass : t.kind = .charclass
      · rw [List.map_cons, Tok.blank_of_ne (by rw [charclass]; decide), List.filter_cons_of_pos (by simpa),
          List.filter_cons_of_pos (by simpa), List.map_cons, List.map_cons, ih]
      · rw [List.map_cons, List.filter_cons_of_neg (by simpa), List.filter_cons_of_neg (by simpa), ih]

section Replaced

variable {before old new after : List Char}

theorem scanLiteral_plain (plain : Plain new) (ends : after = [] ∨ ∃ tail, after = '"' :: tail) :
    scanLiteral '"' (new ++ after) = (new, after) := by
  induction new with
  | nil =>
      obtain rfl | ⟨tail, rfl⟩ := ends
      · rfl
      · rw [List.nil_append, scanLiteral.eq_def]
        exact (if_neg (by decide)).trans (if_pos rfl)
  | cons c new ih =>
      obtain ⟨quote, backslash, -⟩ := plain c List.mem_cons_self
      have rest := ih fun d mem => plain d (List.mem_cons_of_mem _ mem)
      rw [List.cons_append, scanLiteral.eq_def]
      refine (if_neg backslash).trans ((if_neg quote).trans ?_)
      rw [rest]

theorem tokenize_literal {inner rest : List Char} (scan : scanLiteral '"' (inner ++ rest) = (inner, rest)) :
    (tokenize ('"' :: (inner ++ rest))).map Tok.blank =
      ⟨.string, []⟩ :: (tokenize (rest.drop 1)).map Tok.blank := by
  have turn : lexeme '"' (inner ++ rest) = literalTok .string '"' '"' (inner ++ rest) := rfl
  rw [tokenize_cons, turn, literalTok, scan]
  rfl

theorem tokenize_comment {inner rest : List Char} (line : '\n' ∉ inner)
    (ends : ∀ c ∈ rest.head?, c = '\n') : tokenize ('#' :: (inner ++ rest)) = tokenize rest := by
  have turn : lexeme '#' (inner ++ rest) = (none, (inner ++ rest).dropWhile fun d => d ≠ '\n') := rfl
  have all : ∀ c ∈ inner, decide (c ≠ '\n') = true := by
    intro c mem
    rw [decide_eq_true_eq]
    rintro rfl
    exact line mem
  have stop : (rest.dropWhile fun d => d ≠ '\n') = rest := by
    cases rest with
    | nil => rfl
    | cons c rest => rw [List.dropWhile_cons_of_neg (by simpa using ends c rfl)]
  rw [tokenize_cons, turn, List.dropWhile_append_of_pos all, stop]
  rfl

/-- Tokens are those of the old text, but for what the literal says, if no repetition that is open in
front of it ends in the new text. -/
theorem tokenize_replaced (encloses : Encloses before old after) (plain : Plain new)
    (apart : '}' ∈ new → ⟨.op, ['{']⟩ ∉ tokenize before) :
    (tokenize (before ++ (new ++ after))).map Tok.blank =
      (tokenize (before ++ (old ++ after))).map Tok.blank := by
  induction encloses with
  | @literal old after scan =>
      have ends : after = [] ∨ ∃ tail, after = '"' :: tail :=
        (scanLiteral_eq scan).2.imp_right fun ⟨rest, same, _⟩ => ⟨rest, same⟩
      rw [List.singleton_append, List.singleton_append, tokenize_literal scan,
        tokenize_literal (scanLiteral_plain plain ends)]
  | @comment old after line ends =>
      have line' : '\n' ∉ new := fun mem => (plain _ mem).2.2 rfl
      rw [List.singleton_append, List.singleton_append, tokenize_comment line ends,
        tokenize_comment line' ends]
  | @turn c taken before old after tok turn encloses ih =>
      obtain ⟨lead, q, mark, rfl⟩ := encloses.mark
      have other : q ≠ ':' ∧ q ≠ '=' := by
        rcases mark with rfl | rfl <;> decide
      rw [List.append_assoc lead [q], List.singleton_append] at turn
      -- A repetition that is open when the literal comes has no end anywhere.
      have none (open_ : tok = some ⟨.op, ['{']⟩) : '}' ∉ taken ++ (lead ++ q :: (old ++ after)) :=
        lexeme_open (by rw [turn, open_])
      have alone := lexeme_mark other turn (y := []) fun open_ mem => none open_ (by
        simp only [List.mem_append, List.mem_cons, List.not_mem_nil, or_false] at mem ⊢
        tauto)
      have split : tokenize (c :: (taken ++ (lead ++ [q]))) = tok.toList ++ tokenize (lead ++ [q]) := by
        rw [tokenize_cons, alone]
      rw [split, List.mem_append, not_or] at apart
      have replaced := lexeme_mark other turn (y := new ++ after) fun open_ mem => by
        have clean : '}' ∉ new := fun mem => (apart mem).1 (by rw [open_]; exact List.mem_cons_self)
        have gone := none open_
        simp only [List.mem_append, List.mem_cons] at mem gone
        tauto
      have rest := ih fun mem => (apart mem).2
      have assoc (inner : List Char) : c :: (taken ++ (lead ++ [q])) ++ (inner ++ after) =
          c :: (taken ++ (lead ++ q :: (inner ++ after))) := by simp
      rw [assoc, assoc, tokenize_cons, tokenize_cons, turn, replaced, List.map_append, List.map_append]
      simp only [List.append_assoc, List.singleton_append] at rest
      rw [rest]

end Replaced

/-! ### Headers -/

/-- The errors of the headers of a text. -/
def headerErrors (src : List Char) : List GrammarError := (splitLines src).filterMap headerError

/-- The errors of the headers behind the first line. -/
def laterHeaderErrors (src : List Char) : List GrammarError :=
  (splitLines src).tail.filterMap headerError

section Lines

variable {line : List Char}

theorem splitLines_newline (whole : '\n' ∉ line) (x : List Char) :
    splitLines (line ++ '\n' :: x) = (line ++ ['\n']) :: splitLines x := by
  induction line with
  | nil => rfl
  | cons c line ih =>
      rw [List.mem_cons, not_or] at whole
      rw [List.cons_append, splitLines, if_neg (Ne.symm whole.1), ih whole.2]
      rfl

theorem splitLines_cons {c : Char} (other : c ≠ '\n') (s : List Char) :
    splitLines (c :: s) = (c :: (splitLines s).headD []) :: (splitLines s).tail := by
  rw [splitLines, if_neg other]
  cases splitLines s <;> rfl

theorem splitLines_append (whole : '\n' ∉ line) (ne : line ≠ []) (x : List Char) :
    splitLines (line ++ x) = (line ++ (splitLines x).headD []) :: (splitLines x).tail := by
  induction line with
  | nil => exact absurd rfl ne
  | cons c line ih =>
      rw [List.mem_cons, not_or] at whole
      rw [List.cons_append, splitLines_cons (Ne.symm whole.1)]
      cases line with
      | nil => rfl
      | cons d line =>
          rw [ih whole.2 (List.cons_ne_nil d line)]
          rfl

theorem laterHeaderErrors_line (whole : '\n' ∉ line) : laterHeaderErrors line = [] := by
  cases line with
  | nil => rfl
  | cons c line =>
      have one := splitLines_append whole (List.cons_ne_nil c line) []
      rw [List.append_nil] at one
      rw [laterHeaderErrors, one]
      rfl

theorem headerError_mark {q : Char} (mark : IsMark q) (before x : List Char) :
    headerError (before ++ q :: x) = headerError before := by
  have blank : isBlankChar q = false := by
    rcases mark with rfl | rfl <;> decide
  have named : isLooseNameChar q = false := by
    rcases mark with rfl | rfl <;> decide
  have define : q ∉ "::=".toList := by
    rcases mark with rfl | rfl <;> decide
  simp only [headerError, headerName, dropWhile_before blank, dropWhile_before named,
    takeWhile_before named, starts_mark_iff define]

theorem headerErrors_newline (whole : '\n' ∉ line) (x : List Char) :
    headerErrors (line ++ '\n' :: x) = (headerError (line ++ ['\n'])).toList ++ headerErrors x := by
  rw [headerErrors, splitLines_newline whole, List.filterMap_cons, headerErrors]
  cases headerError (line ++ ['\n']) <;> rfl

/-- No header goes over a mark. -/
theorem headerErrors_mark {q : Char} (mark : IsMark q) (before x : List Char) :
    headerErrors (before ++ q :: x) = headerErrors before ++ laterHeaderErrors x := by
  have other : q ≠ '\n' := by
    rcases mark with rfl | rfl <;> decide
  induction h : before.length using Nat.strong_induction_on generalizing before with
  | _ n ih =>
    by_cases newline : '\n' ∈ before
    · obtain ⟨line, rest, rfl, whole⟩ := List.eq_append_cons_of_mem newline
      have shorter : rest.length < n := by
        rw [← h, List.length_append, List.length_cons]
        omega
      rw [List.append_assoc, List.cons_append, headerErrors_newline whole,
        headerErrors_newline whole, ih _ shorter rest rfl, List.append_assoc]
    · have first : splitLines (before ++ q :: x) =
          (before ++ q :: (splitLines x).headD []) :: (splitLines x).tail := by
        cases before with
        | nil => exact splitLines_cons other x
        | cons c before =>
            rw [splitLines_append newline (List.cons_ne_nil c before), splitLines_cons other]
            rfl
      have same : headerErrors before = (headerError before).toList := by
        cases before with
        | nil => rfl
        | cons c before =>
            have one := splitLines_append newline (List.cons_ne_nil c before) []
            rw [List.append_nil] at one
            rw [headerErrors, one, List.filterMap_cons]
            simp only [splitLines, List.headD_nil, List.append_nil]
            cases headerError (c :: before) <;> rfl
      rw [headerErrors, first, List.filterMap_cons, headerError_mark mark, same, laterHeaderErrors]
      cases headerError before <;> rfl

theorem laterHeaderErrors_mark {q : Char} (mark : IsMark q) (x : List Char) :
    laterHeaderErrors (q :: x) = laterHeaderErrors x := by
  have other : q ≠ '\n' := by
    rcases mark with rfl | rfl <;> decide
  rw [laterHeaderErrors, splitLines_cons other, List.tail_cons, laterHeaderErrors]

theorem laterHeaderErrors_newline (whole : '\n' ∉ line) (x : List Char) :
    laterHeaderErrors (line ++ '\n' :: x) = headerErrors x := by
  rw [laterHeaderErrors, splitLines_newline whole, List.tail_cons, headerErrors]

/-- The headers of the inside, and those behind it. -/
theorem Closes.laterHeaderErrors_append {text after : List Char} (closes : Closes text after) :
    laterHeaderErrors (text ++ after) = laterHeaderErrors text ++ laterHeaderErrors after := by
  cases closes with
  | nothing => rw [List.append_nil, show laterHeaderErrors [] = [] from rfl, List.append_nil]
  | @quote tail =>
      rw [laterHeaderErrors_mark (.inl rfl)]
      by_cases newline : '\n' ∈ text
      · obtain ⟨line, rest, rfl, whole⟩ := List.eq_append_cons_of_mem newline
        rw [List.append_assoc, List.cons_append, laterHeaderErrors_newline whole,
          laterHeaderErrors_newline whole, headerErrors_mark (.inl rfl)]
      · rw [laterHeaderErrors_line newline, List.nil_append]
        cases text with
        | nil => exact laterHeaderErrors_mark (.inl rfl) tail
        | cons c text =>
            rw [laterHeaderErrors, splitLines_append newline (List.cons_ne_nil c text),
              splitLines_cons (by decide)]
            rfl
  | @newline tail whole =>
      rw [laterHeaderErrors_line whole, laterHeaderErrors_newline whole, List.nil_append]
      exact (laterHeaderErrors_newline List.not_mem_nil tail).symm

end Lines

/-! ### Validation -/

/-- The errors of the repetitions of a text. -/
def repetitionErrors (src : List Char) : List GrammarError :=
  (repetitions src).filterMap repetitionError

/-- The errors that the tokens of a text show. -/
def tokenErrors (toks : List Tok) : List GrammarError :=
  ((charclassSpans toks).flatMap escapes).filterMap escapeError ++
    ruleErrors (definedAndReferenced toks).1 (definedAndReferenced toks).2

theorem validate_eq (src : List Char) :
    validate src = repetitionErrors src ++ (headerErrors src ++ tokenErrors (tokenize src)) := by
  rw [validate, repetitionErrors, headerErrors, tokenErrors]
  simp only [List.append_assoc]

theorem tokenErrors_blank (toks : List Tok) : tokenErrors (toks.map Tok.blank) = tokenErrors toks := by
  rw [tokenErrors, tokenErrors, charclassSpans_blank, definedAndReferenced_blank]

theorem code_repetitionError {bounds : List Char × Option (List Char)} {e : GrammarError}
    (error : repetitionError bounds = some e) : e.code = "repetition_over_threshold" := by
  rw [repetitionError] at error
  split at error
  · cases error
    rfl
  · cases error

theorem code_headerError {line : List Char} {e : GrammarError} (error : headerError line = some e) :
    e.code ≠ "repetition_over_threshold" := by
  obtain ⟨name, -, rfl⟩ := Option.map_eq_some_iff.mp error
  simp

theorem code_tokenErrors {toks : List Tok} {e : GrammarError} (mem : e ∈ tokenErrors toks) :
    e.code ≠ "repetition_over_threshold" := by
  rw [tokenErrors, List.mem_append] at mem
  rcases mem with mem | mem
  · obtain ⟨c, -, error⟩ := List.mem_filterMap.mp mem
    rw [escapeError] at error
    split at error
    · cases error
    · cases error
      simp
  · rw [ruleErrors] at mem
    split at mem
    · rw [List.mem_singleton.mp mem]
      simp
    rw [List.mem_append] at mem
    rcases mem with mem | mem
    · split at mem
      · cases mem
      · rw [List.mem_singleton.mp mem]
        simp
    · obtain ⟨name, -, rfl⟩ := List.mem_map.mp mem
      simp

/-- The errors of repetitions are the first of all. -/
theorem filter_validate (src : List Char) :
    (validate src).filter (fun e => e.code = "repetition_over_threshold") = repetitionErrors src := by
  rw [validate_eq, List.filter_append, List.filter_append]
  have repetition : (repetitionErrors src).filter (fun e => e.code = "repetition_over_threshold") =
      repetitionErrors src := by
    rw [List.filter_eq_self]
    intro e mem
    obtain ⟨bounds, -, error⟩ := List.mem_filterMap.mp mem
    simpa using code_repetitionError error
  have header : (headerErrors src).filter (fun e => e.code = "repetition_over_threshold") = [] := by
    rw [List.filter_eq_nil_iff]
    intro e mem
    obtain ⟨line, -, error⟩ := List.mem_filterMap.mp mem
    simpa using code_headerError error
  have token : (tokenErrors (tokenize src)).filter (fun e => e.code = "repetition_over_threshold") = [] := by
    rw [List.filter_eq_nil_iff]
    intro e mem
    simpa using code_tokenErrors mem
  rw [repetition, header, token, List.append_nil, List.append_nil]

section Law

variable {before old new after : List Char}

/-- The text in front of a literal or a comment, and the text from its inside on. -/
theorem Encloses.split (encloses : Encloses before old after) : ∃ lead,
    (∀ x, repetitionErrors (before ++ x) = repetitionErrors lead ++ repetitionErrors x) ∧
      ∀ x, headerErrors (before ++ x) = headerErrors lead ++ laterHeaderErrors x := by
  obtain ⟨lead, q, mark, rfl⟩ := encloses.mark
  refine ⟨lead, fun x => ?_, fun x => ?_⟩
  · rw [List.append_assoc, List.singleton_append, repetitionErrors, repetitions_mark mark.stops,
      List.filterMap_append, repetitionErrors, repetitionErrors]
  · rw [List.append_assoc, List.singleton_append, headerErrors_mark mark]

/-- Replacing what a literal or a comment says changes nothing, for all that may be said. -/
def Law (src : List Char) : Prop :=
  ∀ before old after new, src = before ++ (old ++ after) → Encloses before old after → Plain new →
    validate (before ++ (new ++ after)) = validate src

/-- What two new texts say of repetitions is the same, if they make no difference. -/
theorem Law.repetitionErrors_eq (law : Law (before ++ (old ++ after)))
    (encloses : Encloses before old after) {new' : List Char} (plain : Plain new) (plain' : Plain new') :
    repetitionErrors (new ++ after) = repetitionErrors (new' ++ after) := by
  obtain ⟨lead, repetition, -⟩ := encloses.split
  have same : validate (before ++ (new ++ after)) = validate (before ++ (new' ++ after)) :=
    (law before old after new rfl encloses plain).trans
      (law before old after new' rfl encloses plain').symm
  have errors := congrArg (List.filter fun e => e.code = "repetition_over_threshold") same
  rw [filter_validate, filter_validate, repetition, repetition] at errors
  exact List.append_cancel_left errors

/-- A repetition of thousands. -/
def thousands (digit : Char) : List Char := ['{', digit, '0', '0', '0', '}']

theorem repetitionErrors_thousands {digit : Char} (decimal : isDecimal digit = true)
    (space : Text.isSpace digit = false) (x : List Char) : repetitionErrors (thousands digit ++ x) =
      (repetitionError ([digit, '0', '0', '0'], none)).toList ++ repetitionErrors x := by
  have zero : isDecimal '0' = true := rfl
  have close : isDecimal '}' = false := rfl
  have first : (digit :: '0' :: '0' :: '0' :: '}' :: x).dropWhile Text.isSpace =
      digit :: '0' :: '0' :: '0' :: '}' :: x := List.dropWhile_cons_of_neg (by simp [space])
  have low : (digit :: '0' :: '0' :: '0' :: '}' :: x).takeWhile isDecimal =
      [digit, '0', '0', '0'] := by simp [decimal, zero, close]
  have rest : (digit :: '0' :: '0' :: '0' :: '}' :: x).dropWhile isDecimal = '}' :: x := by
    simp [decimal, zero, close]
  have last : ('}' :: x).dropWhile Text.isSpace = '}' :: x := rfl
  have found : repetition? (digit :: '0' :: '0' :: '0' :: '}' :: x) =
      some (([digit, '0', '0', '0'], none), x) := by
    rw [repetition?]
    simp only [first, low, rest, last]
    rfl
  have turn : repetitionTurn '{' (digit :: '0' :: '0' :: '0' :: '}' :: x) =
      ([([digit, '0', '0', '0'], none)], x) := by
    rw [repetitionTurn, if_pos rfl, found]
  have split : thousands digit ++ x = '{' :: (digit :: '0' :: '0' :: '0' :: '}' :: x) := rfl
  rw [repetitionErrors, split, repetitions_cons, turn, List.filterMap_append, repetitionErrors]
  rw [List.filterMap_cons, List.filterMap_nil]
  cases repetitionError ([digit, '0', '0', '0'], none) <;> rfl

theorem plain_five : Plain (thousands '5') := by
  simp [Plain, thousands]

theorem plain_six : Plain (thousands '6') := by
  simp [Plain, thousands]

/-- The detail of an error begins with the repetition. -/
theorem repetitionError_large (bounds : List Char × Option (List Char))
    (large : maxRepetitionThreshold ≤ toInt bounds.1) :
    ∃ e, repetitionError bounds = some e ∧ '{' :: bounds.1 <+: e.detail.toList := by
  rw [repetitionError, if_pos (large.trans (Nat.le_max_left _ _))]
  refine ⟨_, rfl, ?_⟩
  simp only [String.toList_append, String.toList_ofList, List.append_assoc]
  exact ⟨_, rfl⟩

/-- The two repetitions have errors with different details. -/
theorem repetitionErrors_five_ne_six (x : List Char) :
    repetitionErrors (thousands '5' ++ x) ≠ repetitionErrors (thousands '6' ++ x) := by
  obtain ⟨five, error, more, detail⟩ :=
    repetitionError_large (['5', '0', '0', '0'], none) (by decide)
  obtain ⟨six, error', more', detail'⟩ :=
    repetitionError_large (['6', '0', '0', '0'], none) (by decide)
  rw [repetitionErrors_thousands rfl rfl, repetitionErrors_thousands rfl rfl, error, error']
  intro same
  have details := congrArg (fun e => e.detail.toList) (List.cons.inj same).1
  simp [← detail, ← detail'] at details

/-- A text keeps the law where nothing can be replaced. -/
theorem law_iff (src : List Char) : Law src ↔
    ¬∃ before old after, src = before ++ (old ++ after) ∧ Encloses before old after := by
  constructor
  · rintro law ⟨before, old, after, rfl, encloses⟩
    exact repetitionErrors_five_ne_six after (law.repetitionErrors_eq encloses plain_five plain_six)
  · intro none before old after new same encloses
    exact absurd ⟨before, old, after, same, encloses⟩ none

/-- One replacement: what is said of repetitions has to be the same, and the old text has no header that
is an error. -/
theorem validate_replaced (encloses : Encloses before old after) (plain : Plain new)
    (apart : '}' ∈ new → ⟨.op, ['{']⟩ ∉ tokenize before) :
    validate (before ++ (new ++ after)) = validate (before ++ (old ++ after)) ↔
      repetitionErrors (new ++ after) = repetitionErrors (old ++ after) ∧ laterHeaderErrors old = [] := by
  obtain ⟨lead, repetition, header⟩ := encloses.split
  have tokens : tokenErrors (tokenize (before ++ (new ++ after))) =
      tokenErrors (tokenize (before ++ (old ++ after))) := by
    rw [← tokenErrors_blank, tokenize_replaced encloses plain apart, tokenErrors_blank]
  have whole : laterHeaderErrors new = [] :=
    laterHeaderErrors_line fun mem => (plain _ mem).2.2 rfl
  have inside {text : List Char} (closes : Closes text after) : validate (before ++ (text ++ after)) =
      repetitionErrors lead ++ (repetitionErrors (text ++ after) ++ (headerErrors lead ++
        (laterHeaderErrors text ++ (laterHeaderErrors after ++
          tokenErrors (tokenize (before ++ (text ++ after))))))) := by
    rw [validate_eq, repetition, header, closes.laterHeaderErrors_append]
    simp only [List.append_assoc]
  have split := inside encloses.closes
  have split' := inside (encloses.closes.plain plain)
  rw [whole, List.nil_append, tokens] at split'
  constructor
  · intro same
    have errors := congrArg (List.filter fun e => e.code = "repetition_over_threshold") same
    rw [filter_validate, filter_validate, repetition, repetition] at errors
    have said := List.append_cancel_left errors
    rw [split, split', said] at same
    have headers := List.append_cancel_left (List.append_cancel_left (List.append_cancel_left same))
    exact ⟨said, List.append_left_eq_self.mp headers.symm⟩
  · rintro ⟨said, none⟩
    rw [split, split', said, none, List.nil_append]

/-- What a literal or a comment says counts: every text that has one breaks the law.  One replacement
changes nothing where the errors of repetitions stay, and no header of the old text was one. -/
theorem content_counts (src : List Char) :
    (Law src ↔ ¬∃ before old after, src = before ++ (old ++ after) ∧ Encloses before old after) ∧
    ∀ before old new after, src = before ++ (old ++ after) → Encloses before old after →
      Plain new → ('}' ∈ new → ⟨.op, ['{']⟩ ∉ tokenize before) →
        (validate (before ++ (new ++ after)) = validate src ↔
          repetitionErrors (new ++ after) = repetitionErrors (old ++ after) ∧
            laterHeaderErrors old = []) := by
  refine ⟨law_iff src, ?_⟩
  rintro before old new after rfl encloses plain apart
  exact validate_replaced encloses plain apart

/-- The text `root ::= "`. -/
def rootQuote : List Char := ['r', 'o', 'o', 't', ' ', ':', ':', '=', ' ', '"']

theorem encloses_rootQuote : Encloses rootQuote ['a'] ['"'] :=
  @Encloses.turn 'r' ['o', 'o', 't'] [' ', ':', ':', '=', ' ', '"'] _ _
    (some ⟨.name, ['r', 'o', 'o', 't']⟩) rfl <|
  @Encloses.turn ' ' [] [':', ':', '=', ' ', '"'] _ _ none rfl <|
  @Encloses.turn ':' [':', '='] [' ', '"'] _ _ (some ⟨.define, "::=".toList⟩) rfl <|
  @Encloses.turn ' ' [] ['"'] _ _ none rfl <|
  .literal rfl

/-- The grammar `root ::= "a"` is valid, `root ::= "{5000}"` is not. -/
theorem literal_refused : validate (rootQuote ++ (['a'] ++ ['"'])) = [] ∧
    validate (rootQuote ++ (thousands '5' ++ ['"'])) ≠ [] ∧ ¬Law (rootQuote ++ (['a'] ++ ['"'])) := by
  have valid : validate (rootQuote ++ (['a'] ++ ['"'])) = [] := by
    have tokens : tokenize (rootQuote ++ (['a'] ++ ['"'])) = [⟨.name, "root".toList⟩,
        ⟨.define, "::=".toList⟩, ⟨.string, ['"', 'a', '"']⟩] := rfl
    have rules : definedAndReferenced (tokenize (rootQuote ++ (['a'] ++ ['"']))) =
        (["root".toList], []) := by rw [tokens]; rfl
    have repetitions : repetitionErrors (rootQuote ++ (['a'] ++ ['"'])) = [] := rfl
    have headers : headerErrors (rootQuote ++ (['a'] ++ ['"'])) = [] := rfl
    have classes : charclassSpans (tokenize (rootQuote ++ (['a'] ++ ['"']))) = [] := by rw [tokens]; rfl
    rw [validate_eq, repetitions, headers, tokenErrors, classes, rules]
    simp [ruleErrors]
  have invalid : validate (rootQuote ++ (thousands '5' ++ ['"'])) ≠ [] := by
    obtain ⟨lead, repetition, -⟩ := encloses_rootQuote.split
    obtain ⟨e, error, -⟩ := repetitionError_large (['5', '0', '0', '0'], none) (by decide)
    intro none
    have errors := filter_validate (rootQuote ++ (thousands '5' ++ ['"']))
    rw [none, repetition, repetitionErrors_thousands rfl rfl, error] at errors
    simp at errors
  refine ⟨valid, invalid, fun law => invalid ?_⟩
  rw [law _ _ _ _ rfl encloses_rootQuote plain_five, valid]

end Law

end Gbnf

end Roadstead
