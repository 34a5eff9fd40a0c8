import Roadstead.Lib.Dict
import Roadstead.Lib.Json
import Roadstead.Lib.Text

/-!
# Grammar admission

`Correction.extract_grammar` and `Correction.process_grammar`, and the entry point of
`grammar.py`.  The definitions follow the source; nothing is proved here.

What `normalize` rewrites and what `validate` objects to are rules of GBNF, and nothing below
looks into them: they are the two functions of a `GrammarAuthority`, with the digest that the
memo is keyed by, and results hold for any.  The log lines are left out.
-/

namespace Roadstead

/-- `GrammarError`. -/
structure GrammarError where
  code : String
  detail : String
  rule : Option String := none
  deriving DecidableEq

/-- `GrammarResult`. -/
structure GrammarResult where
  ok : Bool
  /-- The normalized grammar; the original on failure. -/
  grammar : String
  errors : List GrammarError := []
  /-- Normalization changed the text. -/
  normalized : Bool := false
  deriving DecidableEq

namespace GrammarResult

/-- `error_payload`. -/
def errorPayload (result : GrammarResult) : Json.Fields :=
  [("error", .str "grammar_invalid"),
    ("detail", .str ("; ".intercalate (result.errors.map fun e => e.code ++ ": " ++ e.detail))),
    ("errors", .arr (result.errors.map fun e =>
      .obj [("code", .str e.code), ("detail", .str e.detail),
        ("rule", (e.rule.map Json.str).getD .null)]))]

end GrammarResult

/-- `normalize`, `validate` and `grammar_hash`. -/
structure GrammarAuthority where
  normalize : String → String
  validate : String → List GrammarError
  hash : String → String

/-- `not text.strip()`. -/
def isBlank (text : String) : Bool := decide (Text.strip text.toList = [])

/-- `normalize_and_validate`. -/
def GrammarAuthority.normalizeAndValidate (auth : GrammarAuthority) (src : String) : GrammarResult :=
  if isBlank src then
    { ok := false, grammar := src, errors := [{ code := "unparseable", detail := "empty grammar" }] }
  else
    let normalized := auth.normalize src
    let errors := auth.validate normalized
    { ok := errors.isEmpty
      grammar := if errors.isEmpty then normalized else src
      errors := errors
      normalized := decide (normalized ≠ src) }

/-- Where a grammar was found. -/
inductive GrammarLocation where
  | top
  | extraBody
  deriving DecidableEq

/-- The text of a value that is a string and not blank. -/
def grammarText (value : Json) : Option String :=
  match value with
  | .str g => if isBlank g then none else some g
  | _ => none

/-- The grammar of `extra_body`, if that is a mapping. -/
def extraGrammar (payload : Json.Fields) : Option String :=
  match payload.get "extra_body" with
  | .obj extra => grammarText (Json.Fields.get extra "grammar")
  | _ => none

/-- `extract_grammar`. -/
def extractGrammar (payload : Json.Fields) : Option (String × GrammarLocation) :=
  match grammarText (payload.get "grammar") with
  | some g => some (g, .top)
  | none => (extraGrammar payload).map fun g => (g, .extraBody)

/-- `grammar_cache` and `grammar_alerted`. -/
structure GrammarMemo where
  cache : Dict String GrammarResult := ∅
  alerted : List String := []
  deriving DecidableEq

/-- The payload with the grammar written back where it came from. -/
def writeGrammar (payload : Json.Fields) (grammar : String) : GrammarLocation → Json.Fields
  | .top => payload.set "grammar" (.str grammar)
  | .extraBody =>
      match payload.get "extra_body" with
      | .obj extra => payload.set "extra_body" (.obj (Json.Fields.set extra "grammar" (.str grammar)))
      | _ => payload

/-- `process_grammar`, for a request with or without `engaged(req)`: the payload that goes on,
or the error payload. -/
def processGrammar (auth : GrammarAuthority) (noStore : Bool) (memo : GrammarMemo)
    (payload : Json.Fields) : GrammarMemo × Except Json.Fields Json.Fields :=
  match extractGrammar payload with
  | none => (memo, .ok payload)
  | some (grammar, location) =>
      let h := auth.hash grammar
      let cached := if noStore then none else memo.cache.get? h
      let result := cached.getD (auth.normalizeAndValidate grammar)
      let memo :=
        if noStore ∨ cached.isSome then memo else { memo with cache := memo.cache.set h result }
      if result.ok then
        (memo, .ok (if result.normalized then writeGrammar payload result.grammar location else payload))
      else
        (if noStore ∨ h ∈ memo.alerted then memo else { memo with alerted := h :: memo.alerted },
          .error result.errorPayload)

end Roadstead
