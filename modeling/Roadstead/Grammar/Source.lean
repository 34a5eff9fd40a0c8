import Mathlib.Data.List.Sort
import Mathlib.Data.List.Dedup
import Roadstead.Grammar
import Roadstead.Lib.Text

/-!
# The text of a grammar

`_fix_charclass_hyphens` and `validate` of `grammar.py`, and the tokenizer below them, on the
characters of a grammar.  The definitions follow the source; nothing is proved here.

A search with a regular expression is the function that reads one match where it starts.  A header
starts a line and does not leave it, so that the headers of a text are those of its lines.  The
positions of tokens are left out, nothing reads them; so is the limit on the digits of a number.
-/

namespace Roadstead

namespace Gbnf

/-! ### Characters -/

def isLetter (c : Char) : Bool := ('a' ≤ c && c ≤ 'z') || ('A' ≤ c && c ≤ 'Z')

def isAsciiDigit (c : Char) : Bool := '0' ≤ c && c ≤ '9'

/-- `[A-Za-z0-9-]`. -/
def isNameChar (c : Char) : Bool := isLetter c || isAsciiDigit c || c = '-'

/-- `[ \t]`. -/
def isBlankChar (c : Char) : Bool := c = ' ' || c = '\t'

def isDecimal (c : Char) : Bool := (Text.digit? c).isSome

/-- `int` of decimal digits. -/
def toInt (digits : List Char) : ℕ := digits.foldl (fun n d => 10 * n + (Text.digit? d).getD 0) 0

/-! ### The tokenizer -/

inductive TokKind where
  | name
  | define
  | string
  | charclass
  | lparen
  | rparen
  | pipe
  | op
  | rep
  | newline
  deriving DecidableEq

/-- `_Tok`. -/
structure Tok where
  kind : TokKind
  text : List Char
  deriving DecidableEq

/-- The inside of a literal or a character class, after its opening character, and the rest from its
closing character on; a backslash hides the character after it. -/
def scanLiteral (close : Char) : List Char → List Char × List Char
  | [] => ([], [])
  | c :: s =>
      if c = '\\' then
        match s with
        | [] => ([c], [])
        | d :: s => (c :: d :: (scanLiteral close s).1, (scanLiteral close s).2)
      else if c = close then ([], c :: s)
      else (c :: (scanLiteral close s).1, (scanLiteral close s).2)

/-- The token that a literal or a class gives, and the rest. -/
def literalTok (kind : TokKind) (opening close : Char) (s : List Char) : Option Tok × List Char :=
  let found := scanLiteral close s
  (some ⟨kind, opening :: (found.1 ++ found.2.take 1)⟩, found.2.drop 1)

/-- One turn of the loop of `_tokenize`, at the character `c`. -/
def lexeme (c : Char) (s : List Char) : Option Tok × List Char :=
  if c = '#' then (none, s.dropWhile fun d => d ≠ '\n')
  else if c = '\n' then (some ⟨.newline, [c]⟩, s)
  else if c = ' ' ∨ c = '\t' ∨ c = '\r' then (none, s)
  else if c = '"' then literalTok .string c '"' s
  else if c = '[' then literalTok .charclass c ']' s
  else if c = ':' ∧ [':', '='] <+: s then (some ⟨.define, "::=".toList⟩, s.drop 2)
  else if c = '(' then (some ⟨.lparen, [c]⟩, s)
  else if c = ')' then (some ⟨.rparen, [c]⟩, s)
  else if c = '|' then (some ⟨.pipe, [c]⟩, s)
  else if c = '*' ∨ c = '+' ∨ c = '?' then (some ⟨.op, [c]⟩, s)
  else if c = '{' then
    match s.dropWhile fun d => d ≠ '}' with
    | [] => (some ⟨.op, [c]⟩, s)
    | close :: rest => (some ⟨.rep, c :: ((s.takeWhile fun d => d ≠ '}') ++ [close])⟩, rest)
  else if isLetter c then (some ⟨.name, c :: s.takeWhile isNameChar⟩, s.dropWhile isNameChar)
  else (none, s)

def tokenizeWithin : ℕ → List Char → List Tok
  | n + 1, c :: s => (lexeme c s).1.toList ++ tokenizeWithin n (lexeme c s).2
  | _, _ => []

/-- `_tokenize`. -/
def tokenize (src : List Char) : List Tok := tokenizeWithin src.length src

/-- The names that stand before `::=`, and those that do not. -/
def definedAndReferenced : List Tok → List (List Char) × List (List Char)
  | [] => ([], [])
  | t :: ts =>
      let rest := definedAndReferenced ts
      if t.kind = .name then
        if ts.head?.map Tok.kind = some .define then (t.text :: rest.1, rest.2)
        else (rest.1, t.text :: rest.2)
      else rest

/-! ### Matches in the text -/

/-- Lines, each with its newline. -/
def splitLines : List Char → List (List Char)
  | [] => []
  | c :: s =>
      if c = '\n' then [c] :: splitLines s
      else match splitLines s with
        | [] => [[c]]
        | line :: lines => (c :: line) :: lines

/-- The name of a header at the start of a line, whose characters are `named`. -/
def headerName (named : Char → Bool) (line : List Char) : Option (List Char) :=
  let s := line.dropWhile isBlankChar
  let name := s.takeWhile named
  if name ≠ [] ∧ "::=".toList <+: (s.dropWhile named).dropWhile isBlankChar then some name else none

/-- `_RULE_HEADER_RE`. -/
def ruleHeader (line : List Char) : Option (List Char) :=
  (headerName isNameChar line).filter fun name => name.head?.any isLetter

/-- `[A-Za-z0-9_-]`. -/
def isLooseNameChar (c : Char) : Bool := isNameChar c || c = '_'

/-- The bounds of a repetition after its opening brace, and the rest. -/
def repetition? (s : List Char) : Option ((List Char × Option (List Char)) × List Char) :=
  let s := s.dropWhile Text.isSpace
  let low := s.takeWhile isDecimal
  let s := (s.dropWhile isDecimal).dropWhile Text.isSpace
  if low = [] then none
  else
    match s with
    | '}' :: rest => some ((low, none), rest)
    | ',' :: s =>
        let s := s.dropWhile Text.isSpace
        let high := s.takeWhile isDecimal
        match (s.dropWhile isDecimal).dropWhile Text.isSpace with
        | '}' :: rest => some ((low, if high = [] then none else some high), rest)
        | _ => none
    | _ => none

def repetitionsWithin : ℕ → List Char → List (List Char × Option (List Char))
  | n + 1, c :: s =>
      match if c = '{' then repetition? s else none with
      | some (bounds, rest) => bounds :: repetitionsWithin n rest
      | none => repetitionsWithin n s
  | _, _ => []

/-- `_REPETITION_RE.finditer`. -/
def repetitions (src : List Char) : List (List Char × Option (List Char)) :=
  repetitionsWithin src.length src

/-! ### Validation -/

/-- `MAX_REPETITION_THRESHOLD`. -/
def maxRepetitionThreshold : ℕ := 2000

/-- The error of a repetition, if its bound is too large. -/
def repetitionError (bounds : List Char × Option (List Char)) : Option GrammarError :=
  let bound := max (toInt bounds.1) (toInt (bounds.2.getD bounds.1))
  if maxRepetitionThreshold ≤ bound then
    some {
      code := "repetition_over_threshold"
      detail := r"{" ++ String.ofList bounds.1 ++ "," ++ String.ofList (bounds.2.getD []) ++ r"} bound " ++
        toString bound ++ " >= MAX_REPETITION_THRESHOLD (" ++ toString maxRepetitionThreshold ++ ")" }
  else none

/-- The error of a line that is the header of a rule with an underscore in its name. -/
def headerError (line : List Char) : Option GrammarError :=
  ((headerName isLooseNameChar line).filter fun name => '_' ∈ name).map fun name =>
    { code := "bad_rule_name"
      detail := "rule name '" ++ String.ofList name ++
        "' contains underscore (llama.cpp GBNF rejects underscores in some builds)"
      rule := some (String.ofList name) }

/-- `_VALID_CLASS_ESCAPES`. -/
def validClassEscapes : List Char := ['\\', ']', '[', '"', 'n', 'r', 't', 'x', 'u', 'U']

/-- The characters after a backslash, of the inside of a class. -/
def escapes : List Char → List Char
  | c :: s =>
      if c = '\\' then
        match s with
        | d :: s => d :: escapes s
        | [] => []
      else escapes s
  | [] => []

def escapeError (escape : Char) : Option GrammarError :=
  if escape ∈ validClassEscapes then none
  else some {
    code := "unknown_escape"
    detail := "char-class escape \\" ++ String.ofList [escape] ++
      " is not valid GBNF (b9357 rejects it)" }

/-- `_charclass_spans`: the texts of the classes without their first and last characters. -/
def charclassSpans (toks : List Tok) : List (List Char) :=
  (toks.filter fun t => t.kind = .charclass).map fun t => t.text.tail.dropLast

/-- The errors of the rules that are defined and referenced. -/
def ruleErrors (defined referenced : List (List Char)) : List GrammarError :=
  if defined = [] then [{ code := "unparseable", detail := "no rule definitions found" }]
  else
    (if "root".toList ∈ defined then []
      else [{ code := "no_root", detail := "grammar has no `root` rule" }]) ++
    (((referenced.filter fun name => name ∉ defined).map String.ofList).dedup.insertionSort
        (· ≤ ·)).map fun name =>
      { code := "undefined_rule"
        detail := "rule '" ++ name ++ "' referenced but never defined"
        rule := some name }

/-- `validate`. -/
def validate (src : List Char) : List GrammarError :=
  let toks := tokenize src
  let rules := definedAndReferenced toks
  (repetitions src).filterMap repetitionError ++ (splitLines src).filterMap headerError ++
    ((charclassSpans toks).flatMap escapes).filterMap escapeError ++ ruleErrors rules.1 rules.2

/-! ### Normalization -/

/-- Part of a grammar: text, or a character class, closed or not. -/
inductive Segment where
  | text (cs : List Char)
  | charclass (inner : List Char) (closed : Bool)
  deriving DecidableEq

/-- One turn of the loop of `_fix_charclass_hyphens`, at the character `c`. -/
def segment (c : Char) (s : List Char) : Segment × List Char :=
  if c = '"' then
    let found := scanLiteral '"' s
    (.text (c :: (found.1 ++ found.2.take 1)), found.2.drop 1)
  else if c = '#' then
    (.text (c :: s.takeWhile fun d => d ≠ '\n'), s.dropWhile fun d => d ≠ '\n')
  else if c = '[' then
    let found := scanLiteral ']' s
    (.charclass found.1 (!found.2.isEmpty), found.2.drop 1)
  else (.text [c], s)

def segmentsWithin : ℕ → List Char → List Segment
  | n + 1, c :: s => (segment c s).1 :: segmentsWithin n (segment c s).2
  | _, _ => []

def segments (src : List Char) : List Segment := segmentsWithin src.length src

/-- `inner.replace("\\-", "")`. -/
def dropHyphens : List Char → List Char
  | '\\' :: '-' :: s => dropHyphens s
  | c :: s => c :: dropHyphens s
  | [] => []

/-- The inside of a class, its `\-` moved to the end as one hyphen. -/
def fixInner (inner : List Char) : List Char :=
  if ['\\', '-'] <:+: inner then
    let rest := dropHyphens inner
    if rest.getLast? = some '-' then rest else rest ++ ['-']
  else inner

def Segment.fixed : Segment → List Char
  | .text cs => cs
  | .charclass inner _ => '[' :: (fixInner inner ++ [']'])

/-- `_fix_charclass_hyphens`. -/
def fixCharclassHyphens (src : List Char) : List Char := (segments src).flatMap Segment.fixed

/-- The lines of a text, from each header to the next: what stands before the first one, and the
blocks. -/
def blocks : List (List Char) → List Char × List (List Char)
  | [] => ([], [])
  | line :: lines =>
      let rest := blocks lines
      if (ruleHeader line).isSome then ([], (line ++ rest.1) :: rest.2)
      else (line ++ rest.1, rest.2)

end Gbnf

end Roadstead
