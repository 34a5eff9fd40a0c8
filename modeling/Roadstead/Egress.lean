import Roadstead.Grammar
import Roadstead.Lib.Json.Scan
import Roadstead.Watched

/-!
# The guards of a completed reply

`Correction.apply` and the guards that it runs, in `correction.py`.  The definitions follow the
source; nothing is proved here.

A guard takes the result of a call and gives back what it leaves of it.  What it raises is caught
by the guard itself, and the result is then as it was: `Except Unit` is used inside a guard and
nowhere else.  Counters, log lines, metrics and the completion row that a correction rewrites are
left out, and with them the two guards that only count (`shadow_egress_detect`,
`detect_structured_empty`).

`json_repair` and `jsonschema` are functions of `Helpers`, and so are `json.dumps`, the `str` of a
value, the reader of grammars and the detector of loops, into which nothing below looks.
-/

namespace Roadstead.Egress

open Json (Fields)
open Watched (choice0 message)

/-- What the guards use of other code. -/
structure Helpers where
  /-- `json.dumps` with `ensure_ascii=False`. -/
  dumps : Json → List Char
  /-- `str` of a value that is no string. -/
  str : Json → String
  /-- `json_repair.loads`; `none` if it raises, or is not there. -/
  repairs : List Char → Option Json
  /-- The message with which `jsonschema` refuses a value. -/
  refuses : Fields → Json → Option (List Char)
  /-- A schema that `jsonschema` cannot read. -/
  unreadable : Fields → Bool
  rootObjectKeys : String → List String
  isDegenerateText : List Char → Bool

/-- A request as the guards read it. -/
structure Ask where
  /-- `payload_type` is `chat_completion`. -/
  chat : Bool
  endpoint : String
  payload : Fields
  jsonObjectStripped : Bool := false
  forcedToolSchema : Option Fields := none
  forcedToolName : String := ""
  /-- The `allowed_keys` of its entry in `thinking_active`. -/
  thinking : Option (List String) := none

inductive Status where
  | ok
  | error
  deriving DecidableEq

/-- The result of a call.  A body is a mapping: `call` reads its usage. -/
structure Result where
  status : Status
  response : Option Fields
  error : String := ""
  code : String := ""
  forcedToolTranslated : Bool := false
  degenerateUnrecovered : Bool := false
  schemaRepaired : Bool := false
  schemaRetried : Bool := false
  schemaUnrecoverable : Bool := false

/-- A result that is an error, without a body. -/
def Result.fail (result : Result) (error code : String) : Result :=
  { result with status := .error, response := none, error := error, code := code }

/-! ### Reading a body -/

/-- `_chat_completion_text`: a value that is true, or the empty string. -/
def chatCompletionText (body : Fields) : Json :=
  if ((message body).get "content").truthy then (message body).get "content" else .str ""

/-- `_response_tool_calls`. -/
def responseToolCalls (body : Fields) : List Json := (((message body).get "tool_calls").asArr?).getD []

/-- The body with another message in its first choice. -/
def setMessage (body msg : Fields) : Fields :=
  match body.get "choices" with
  | .arr (_ :: others) =>
      Fields.set body "choices" (.arr (.obj (Fields.set (choice0 body) "message" (.obj msg)) :: others))
  | _ => body

/-- Characters that are white space to `str.strip`, all of them. -/
def blank (text : List Char) : Bool := decide (Text.strip text = [])

/-- The number that digits go on with; one underscore may stand before a digit. -/
def digitsFrom (n : ℕ) : List Char → Option ℕ
  | [] => some n
  | '_' :: c :: cs => (Text.digit? c).bind fun d => digitsFrom (10 * n + d) cs
  | c :: cs => (Text.digit? c).bind fun d => digitsFrom (10 * n + d) cs

/-- Digits, the first without an underscore. -/
def natural? : List Char → Option ℕ
  | [] => none
  | c :: cs => (Text.digit? c).bind fun d => digitsFrom d cs

/-- `int` of a text. -/
def intOfText (text : List Char) : Option ℤ :=
  match Text.strip text with
  | '-' :: cs => (natural? cs).map fun n => -(n : ℤ)
  | '+' :: cs => (natural? cs).map fun n => (n : ℤ)
  | cs => (natural? cs).map fun n => (n : ℤ)

/-- `int(value or 0)`. -/
def intOf (value : Json) : Except Unit ℤ :=
  if value.truthy then
    match value with
    | .bool _ => .ok 1
    | .int n => .ok n
    | .float (.finite x) => .ok (Watched.truncate x)
    | .str s => (intOfText s.toList).elim (.error ()) .ok
    | _ => .error ()
  else .ok 0

/-- The `completion_tokens` of a body. -/
def outputTokens (body : Fields) : Except Unit ℤ :=
  intOf ((Watched.usageOf body).get "completion_tokens")

/-- The tokens that a truncated body is reported with; `record_truncation_event` reads the cap. -/
def truncatedTokens (req : Ask) (body : Fields) : Except Unit ℤ := do
  let tokens ← outputTokens body
  let _ ← intOf (req.payload.get "max_tokens")
  .ok tokens

/-! ### What a request expects -/

def extraBody (payload : Fields) : Fields := ((payload.get "extra_body").asObj?).getD []

/-- `request_is_structured`. -/
def requestIsStructured (req : Ask) : Bool :=
  req.chat &&
    (req.jsonObjectStripped || req.forcedToolSchema.isSome || (extractGrammar req.payload).isSome ||
      (req.payload.get "response_format").truthy || (req.payload.get "structured_outputs").truthy ||
      ["response_format", "structured_outputs", "guided_grammar", "guided_json", "guided_choice"].any
        fun key => ((extraBody req.payload).get key).truthy)

/-- A container asks for JSON. -/
def asksForJson (container : Fields) : Bool :=
  (match container.get "response_format" with
    | .obj rf => decide (Fields.get rf "type" ∈ [Json.str "json_object", Json.str "json_schema"])
    | _ => false) || ((container.get "guided_json").asObj?).isSome

/-- The grammar that `request_expects_json` looks at. -/
def statedGrammar (payload : Fields) : Option String :=
  match extractGrammar payload with
  | some (g, _) => some g
  | none =>
      match payload.get "structured_outputs" with
      | .obj so => grammarText (Fields.get so "grammar")
      | _ => none

/-- `request_expects_json`. -/
def requestExpectsJson (h : Helpers) (req : Ask) : Bool :=
  req.chat &&
    (req.jsonObjectStripped || req.forcedToolSchema.isSome || asksForJson req.payload ||
      asksForJson (extraBody req.payload) ||
      (statedGrammar req.payload).any fun g => !(h.rootObjectKeys g).isEmpty)

/-- The schema that a container declares. -/
def schemaIn (container : Fields) : Except Unit (Option Fields) := do
  let stated ←
    match container.get "response_format" with
    | .obj rf =>
        if Fields.get rf "type" = .str "json_schema" then
          match Fields.get rf "json_schema" with
          | .obj js => Except.ok (Fields.get js "schema").asObj?
          | js => if js.truthy then .error () else .ok none
        else .ok none
    | _ => .ok none
  .ok (stated.or (container.get "guided_json").asObj?)

/-- `_declared_schema`. -/
def declaredSchema (req : Ask) : Except Unit (Option Fields) :=
  match req.forcedToolSchema with
  | some schema => .ok (some schema)
  | none => do
      match ← schemaIn req.payload with
      | some schema => .ok (some schema)
      | none => schemaIn (extraBody req.payload)

/-! ### Forced tool calls -/

/-- What `_apply_forced_tool_answer` finds. -/
inductive Translation where
  | translated
  | absent
  | unusable
  | malformed
  deriving DecidableEq

/-- `str((tc.get("function") or {}).get("name") or "")`. -/
def calledName (h : Helpers) (tc : Fields) : Except Unit String :=
  match tc.get "function" with
  | .obj fn =>
      match Fields.get fn "name" with
      | .str name => .ok name
      | name => .ok (if name.truthy then h.str name else "")
  | fn => if fn.truthy then .error () else .ok ""

/-- The tool calls of this name; what is no mapping is passed over. -/
def callsNamed (h : Helpers) (name : String) : List Json → Except Unit (List Fields)
  | [] => .ok []
  | .obj tc :: tcs => do
      let called ← calledName h tc
      let rest ← callsNamed h name tcs
      .ok (if called = name then tc :: rest else rest)
  | _ :: tcs => callsNamed h name tcs

/-- `_forced_tool_arguments`. -/
def forcedToolArguments (h : Helpers) (tc : Fields) : Option (List Char) :=
  match (tc.get "function").get "arguments" with
  | .obj args => some (h.dumps (.obj args))
  | .str args =>
      if blank args.toList then none
      else
        match Json.loads false args.toList with
        | some (.obj _) => some args.toList
        | _ => none
  | _ => none

/-- `_apply_forced_tool_answer`: what it finds, and the body after it. -/
def applyForcedToolAnswer (h : Helpers) (name : String) (body : Fields) : Translation × Fields :=
  match body.get "choices" with
  | .arr (.obj ch :: others) =>
      match Fields.get ch "message" with
      | .obj msg =>
          match callsNamed h name (responseToolCalls body) with
          | .error _ => (.malformed, body)
          | .ok [] => (.absent, body)
          | .ok (tc :: _) =>
              match forcedToolArguments h tc with
              | none => (.unusable, body)
              | some args =>
                  let answer := Fields.erase (Fields.set msg "content" (.str (.ofList args))) "tool_calls"
                  let ch := Fields.set ch "message" (.obj answer)
                  let ch :=
                    if Fields.get ch "finish_reason" ∈ [Json.null, .str "", .str "tool_calls"] then
                      Fields.set ch "finish_reason" (.str "stop")
                    else ch
                  (.translated, Fields.set body "choices" (.arr (.obj ch :: others)))
      | _ => (.malformed, body)
  | _ => (.malformed, body)

/-- `finalize_forced_tool_schema`. -/
def finalizeForcedToolSchema (h : Helpers) (req : Ask) (result : Result) : Result :=
  match result.response with
  | some body =>
      if req.forcedToolSchema.isSome ∧ result.status = .ok ∧ req.chat = true then
        match applyForcedToolAnswer h req.forcedToolName body with
        | (.translated, body) => { result with response := some body, forcedToolTranslated := true }
        | (.unusable, _) =>
            match truncatedTokens req body with
            | .ok tokens =>
                result.fail ("backend " ++ req.endpoint ++ " truncated structured output (the forced " ++
                  "tool call carried no parseable JSON object in its arguments, output_tokens=" ++
                  toString tokens ++ ")") "toolcall_truncated"
            | .error _ => result
        | _ => result
      else result
  | none => result

/-! ### Thinking -/

/-- `recover_structured_object`: the first object in the text with none but the allowed keys. -/
def recoverStructuredObject (h : Helpers) (allowed : List String) : List Char → Option (List Char)
  | [] => none
  | c :: cs =>
      if c = '{' then
        match Json.rawDecode (c :: cs) with
        | some (.obj fields, _) =>
            if fields ≠ [] ∧ ∀ field ∈ fields, field.1 ∈ allowed then some (h.dumps (.obj fields))
            else recoverStructuredObject h allowed cs
        | _ => recoverStructuredObject h allowed cs
      else recoverStructuredObject h allowed cs

/-- A text that is an object with none but the allowed keys. -/
def conforms (allowed : List String) (text : List Char) : Bool :=
  match Json.loads false text with
  | some (.obj fields) => decide (∀ field ∈ fields, field.1 ∈ allowed)
  | _ => false

/-- The message of the first choice, if the body is a chat completion. -/
def message? (body : Fields) : Option Fields := ((choice0 body).get "message").asObj?

/-- `finalize_thinking`. -/
def finalizeThinking (h : Helpers) (req : Ask) (result : Result) : Result :=
  match req.thinking, result.response with
  | some allowed, some body =>
      match message? body with
      | some msg =>
          match Fields.get msg "content" with
          | .str content =>
              if result.status ≠ .ok ∨ allowed = [] ∨ conforms allowed content.toList = true then result
              else
                match recoverStructuredObject h allowed content.toList with
                | some text =>
                    { result with
                      response := some (setMessage body (Fields.set msg "content" (.str (.ofList text)))) }
                | none =>
                    result.fail ("thinking structured-output recovery failed: " ++
                      if (choice0 body).get "finish_reason" = .str "length" then
                        "thinking output truncated (finish=length) — raise ROADSTEAD_PROXY_THINKING_BUDGET"
                      else "thinking structured output unrecoverable") result.code
          | _ => result
      | none => result
  | _, _ => result

/-! ### Loops -/

/-- Flags, endpoint and moment of a reply. -/
structure Setting where
  degenerationGuard : Bool
  degenerationShadow : Bool
  structuredValidity : Bool
  schemaBackstop : Bool
  schemaBackstopShadow : Bool
  /-- The endpoint of the request is configured. -/
  configured : Bool
  /-- `mislabels_truncated_tool_calls` of the provider. -/
  mislabels : Bool
  /-- Fewer than two re-dispatches are in flight. -/
  degenFree : Bool
  /-- How many re-dispatches the deadline leaves time for. -/
  degenTries : ℕ
  /-- Fewer than two retries are in flight, and there is time for one. -/
  retryFree : Bool

/-- What the backend replies when it is asked again; `none` where the call fails. -/
structure Replies where
  redispatch : ℕ → Option Fields
  retry : Option Fields

/-- The text of a body is a loop. -/
def loops (h : Helpers) (body : Fields) : Bool :=
  match chatCompletionText body with
  | .str text => h.isDegenerateText text.toList
  | _ => false

/-- A body with a text that is no loop. -/
def isClean (h : Helpers) (body : Fields) : Except Unit Bool :=
  match chatCompletionText body with
  | .str text => .ok (decide (text ≠ "") && !h.isDegenerateText text.toList)
  | _ => .error ()

/-- The first clean body. -/
def firstClean (h : Helpers) : List (Option Fields) → Except Unit (Option Fields)
  | [] => .ok none
  | none :: replies => firstClean h replies
  | some body :: replies => do
      if ← isClean h body then .ok (some body) else firstClean h replies

/-- `finish_reason` of the first choice is `length`. -/
def capped (body : Fields) : Bool := decide ((choice0 body).get "finish_reason" = .str "length")

/-- The replies of the two re-dispatches, as far as there is time. -/
def Setting.tried (s : Setting) (replies : Replies) : List (Option Fields) :=
  ((List.range 2).take s.degenTries).map replies.redispatch

/-- `maybe_correct_degenerate`. -/
def maybeCorrectDegenerate (h : Helpers) (s : Setting) (replies : Replies) (req : Ask) (result : Result) :
    Result :=
  match result.response with
  | some body =>
      if s.degenerationGuard = false ∨ result.status ≠ .ok ∨ req.chat = false ∨ loops h body = false ∨
          s.degenerationShadow = true then result
      else if capped body then { result with degenerateUnrecovered := true }
      else if s.configured = false then result
      else if s.degenFree = false then { result with degenerateUnrecovered := true }
      else
        match firstClean h (s.tried replies) with
        | .ok (some body) => { result with response := some body }
        | .ok none => { result with degenerateUnrecovered := true }
        | .error _ => result
  | none => result

/-! ### Cut tool calls -/

/-- `_arg_str_valid`. -/
def argStrValid (tc : Fields) : Bool :=
  match (tc.get "function").get "arguments" with
  | .str args => blank args.toList || (Json.loads false args.toList).isSome
  | _ => true

/-- The arguments of every tool call are valid. -/
def argsValid (body : Fields) : Bool :=
  (responseToolCalls body).all fun tc => (tc.asObj?).all argStrValid

/-- `enforce_toolcall_truncation`. -/
def enforceToolcallTruncation (s : Setting) (req : Ask) (result : Result) : Result :=
  match result.response with
  | some body =>
      if s.structuredValidity = false ∨ result.status ≠ .ok ∨ req.chat = false ∨ s.mislabels = false ∨
          argsValid body = true then result
      else
        match truncatedTokens req body with
        | .ok tokens =>
            result.fail ("backend " ++ req.endpoint ++ " truncated structured output " ++
              "(finish_reason=tool_calls mislabel — tool_call arguments cut mid-JSON, output_tokens=" ++
              toString tokens ++ ")") "toolcall_truncated"
        | .error _ => result
  | none => result

/-! ### Schemas -/

/-- `_schema_valid`. -/
def schemaValid (h : Helpers) (schema : Option Fields) (value : Json) : Bool :=
  schema.all fun schema => h.unreadable schema || (h.refuses schema value).isNone

/-- `_content_valid`. -/
def contentValid (h : Helpers) (schema : Option Fields) (text : List Char) : Bool :=
  (Json.loads false text).any (schemaValid h schema)

/-- `_repair_json_text`. -/
def repairJsonText (h : Helpers) (text : List Char) : Option Json :=
  if blank text then none
  else (h.repairs text).filter fun value => decide (value ∉ [Json.str "", Json.null])

/-- A tool call with repaired arguments. -/
def repairCall (h : Helpers) (tc : Json) : Option Json :=
  match tc.get "function" with
  | .obj fn =>
      match Fields.get fn "arguments" with
      | .str args =>
          if blank args.toList || (Json.loads false args.toList).isSome then some tc
          else
            (repairJsonText h args.toList).map fun value =>
              .obj (Fields.set ((tc.asObj?).getD []) "function"
                (.obj (Fields.set fn "arguments" (.str (.ofList (h.dumps value))))))
      | _ => some tc
  | _ => some tc

/-- `_clone_with_content`. -/
def cloneWithContent (body : Fields) (text : List Char) : Fields :=
  setMessage body (Fields.set (message body) "content" (.str (.ofList text)))

/-- `_clone_with_repaired_args`. -/
def cloneWithRepairedArgs (h : Helpers) (body : Fields) : Option Fields :=
  match (message body).get "tool_calls" with
  | .arr tcs =>
      (tcs.mapM (repairCall h)).map fun tcs =>
        setMessage body (Fields.set (message body) "tool_calls" (.arr tcs))
  | _ => none

/-- The result of `_conform_body`. -/
inductive Conformed where
  | ok
  | repaired (body : Fields)
  | failed

/-- The content passes, where it is looked at. -/
def contentOk (h : Helpers) (schema : Option Fields) (expectJsonContent : Bool) (body : Fields) :
    Except Unit Bool :=
  if expectJsonContent then
    match chatCompletionText body with
    | .str content => .ok (blank content.toList || contentValid h schema content.toList)
    | _ => .error ()
  else .ok true

/-- The body with its content repaired. -/
def repairContent (h : Helpers) (schema : Option Fields) (body : Fields) : Option Fields :=
  match chatCompletionText body with
  | .str content =>
      ((repairJsonText h content.toList).filter (schemaValid h schema)).map fun value =>
        cloneWithContent body (h.dumps value)
  | _ => none

/-- `_conform_body`. -/
def conformBody (h : Helpers) (schema : Option Fields) (expectJsonContent : Bool) (body : Fields) :
    Except Unit Conformed := do
  let fine ← contentOk h schema expectJsonContent body
  if fine && argsValid body then .ok .ok
  else
    match if fine then some body else repairContent h schema body with
    | none => .ok .failed
    | some repaired =>
        if argsValid body then .ok (.repaired repaired)
        else .ok ((cloneWithRepairedArgs h repaired).elim .failed .repaired)

/-- The first line of a message. -/
def firstLine (text : List Char) : List Char :=
  text.takeWhile fun c =>
    c ∉ ['\n', '\r', '\x0b', '\x0c', '\x1c', '\x1d', '\x1e', '\u0085', '\u2028', '\u2029']

/-- `_validation_error`. -/
def validationError (h : Helpers) (schema : Option Fields) (body : Fields) : Except Unit String :=
  let parsed := (chatCompletionText body).asStr?.bind fun content => Json.loads false content.toList
  match parsed with
  | none => .ok "the output was not valid JSON"
  | some value =>
      match schema.bind fun schema => h.refuses schema value with
      | some [] => .error ()
      | some text =>
          .ok ("the JSON did not match the schema (" ++ String.ofList ((firstLine text).take 200) ++ ")")
      | none =>
          if argsValid body then .ok "the output did not satisfy the required format"
          else .ok "a tool call's arguments were not valid JSON"

/-- The reply of the retry, translated back if the request was translated. -/
def retryBody (h : Helpers) (req : Ask) (body : Fields) : Fields :=
  if req.forcedToolSchema.isSome ∧ req.forcedToolName ≠ "" then
    (applyForcedToolAnswer h req.forcedToolName body).2
  else body

/-- The body that `_conform_body` lets through, if it does. -/
def conformed? (h : Helpers) (schema : Option Fields) (expectJsonContent : Bool) (body : Fields) :
    Option Fields :=
  match conformBody h schema expectJsonContent body with
  | .ok .ok => some body
  | .ok (.repaired body) => some body
  | _ => none

/-- `_schema_retry`. -/
def schemaRetry (h : Helpers) (s : Setting) (replies : Replies) (req : Ask) (schema : Option Fields)
    (expectJsonContent : Bool) : Option Fields :=
  if s.retryFree = false ∨ s.configured = false then none
  else replies.retry.bind fun body => conformed? h schema expectJsonContent (retryBody h req body)

/-- The request declares tools. -/
def hasTools (req : Ask) : Bool :=
  (req.payload.get "tools").truthy || (req.payload.get "tool_choice").truthy

/-- The result that nothing repaired. -/
def unrecoverable (req : Ask) (errorMsg : String) (result : Result) : Result :=
  { result.fail ("backend " ++ req.endpoint ++ " produced schema-invalid structured output (" ++
      errorMsg ++ "); repair + one retry failed") "schema_invalid" with
    schemaUnrecoverable := true }

/-- `maybe_repair_schema`, where it is not disabled: what is left of the result, unless it raises. -/
def repairSchema (h : Helpers) (s : Setting) (replies : Replies) (req : Ask) (result : Result)
    (body : Fields) : Except Unit Result := do
  let schema ← declaredSchema req
  match ← conformBody h schema (requestExpectsJson h req) body with
  | .ok => Except.ok result
  | .repaired body =>
      if s.schemaBackstopShadow then .ok result
      else .ok { result with response := some body, schemaRepaired := true }
  | .failed => do
      let errorMsg ← validationError h schema body
      if s.schemaBackstopShadow then .ok result
      else
        match schemaRetry h s replies req schema (requestIsStructured req) with
        | some body => .ok { result with response := some body, schemaRetried := true }
        | none => .ok (unrecoverable req errorMsg result)

/-- `maybe_repair_schema`. -/
def maybeRepairSchema (h : Helpers) (s : Setting) (replies : Replies) (req : Ask) (result : Result) :
    Result :=
  match result.response with
  | some body =>
      if s.schemaBackstop = false ∨ result.status ≠ .ok ∨ req.chat = false ∨
          (requestIsStructured req || hasTools req) = false then result
      else
        match repairSchema h s replies req result body with
        | .ok result => result
        | .error _ => result
  | none => result

/-! ### The floor -/

/-- `enforce_structured_validity`. -/
def enforceStructuredValidity (h : Helpers) (s : Setting) (req : Ask) (result : Result) : Result :=
  match result.response with
  | some body =>
      if s.structuredValidity = false ∨ result.status ≠ .ok ∨ requestExpectsJson h req = false then result
      else
        match chatCompletionText body with
        | .str content =>
            if blank content.toList || (Json.loads false content.toList).isSome then result
            else
              match outputTokens body with
              | .ok tokens =>
                  result.fail ("backend " ++ req.endpoint ++ " returned invalid JSON for a structured " ++
                    "request (content does not parse; output_tokens=" ++ toString tokens ++ ")")
                    "structured_invalid_json"
              | .error _ => result
        | _ => result
  | none => result

/-- What `apply` does after the two finalisers. -/
def correct (h : Helpers) (s : Setting) (replies : Replies) (req : Ask) (result : Result) : Result :=
  let result := maybeCorrectDegenerate h s replies req result
  let result := enforceToolcallTruncation s req result
  let result := maybeRepairSchema h s replies req result
  enforceStructuredValidity h s req result

/-- `Correction.apply`. -/
def apply (h : Helpers) (s : Setting) (replies : Replies) (req : Ask) (result : Result) : Result :=
  correct h s replies req (finalizeThinking h req (finalizeForcedToolSchema h req result))

/-! ### The gates before `apply` -/

/-- `tool_call_is_complete`. -/
def toolCallIsComplete (tc : Json) : Bool :=
  match tc.get "function" with
  | .obj fn =>
      match Fields.get fn "name" with
      | .str name =>
          !blank name.toList &&
            match Fields.get fn "arguments" with
            | .obj _ => true
            | .str args => !blank args.toList && ((Json.loads false args.toList).bind Json.asObj?).isSome
            | _ => false
      | _ => false
  | _ => false

/-- `is_truncated_tool_turn`, of a body. -/
def isTruncatedToolTurn (req : Ask) (body : Fields) : Bool :=
  let calls := responseToolCalls body
  let finish := (choice0 body).get "finish_reason"
  req.chat && (((req.payload.get "tools").asArr?).any fun tools => !tools.isEmpty) &&
    if finish = .str "length" then !calls.any toolCallIsComplete
    else if finish ∈ [Json.str "tool_calls", .str "stop"] ∧ calls ≠ [] then
      match req.payload.get "max_tokens" with
      | .int cap =>
          decide (0 < cap ∧
            cap ≤ Watched.coerceTokenCount ((Watched.usageOf body).get "completion_tokens") 0)
      | _ => false
    else false

/-- A first reply that `execute_sync` fails as truncated, before it is corrected. -/
def truncated (req : Ask) (body : Fields) : Bool :=
  (capped body && requestIsStructured req) || isTruncatedToolTurn req body

end Roadstead.Egress
