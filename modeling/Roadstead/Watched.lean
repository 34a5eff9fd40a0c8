import Mathlib.Data.Rat.Floor
import Roadstead.Providers
import Roadstead.ThinkBleed

/-!
# Plain and watched calls

The two ways in which `backend.py` gets a chat completion for a caller that did not ask for a
stream: `call`, which reads one body, and `call_watched`, which reads a stream of chunks with a
detector of blank runs and reassembles a body.  The definitions follow the source; nothing is
proved here.

A payload is what goes on the wire, after the switch is made canonical and the provider has
prepared it.  The transport is left out: deadlines, the cap on the bytes of a stream, statuses
other than 200.  A `choices` that cannot be indexed raises in the repair of the stream, and is
passed over by the reassembly.
-/

namespace Roadstead.Watched

open Json (Fields)
open ThinkBleed

/-! ### What both calls read -/

/-- An endpoint as the calls read it. -/
structure Endpoint where
  /-- `"reasoning" in capabilities`. -/
  reasons : Bool
  /-- `repair_close_only_reasoning`. -/
  repairCloseOnly : Bool
  forcesReasoning : Bool
  /-- The name of the provider is `vllm`. -/
  vllm : Bool
  effectiveModelId : String

/-- `_thinking_switched_off`. -/
def thinkingSwitchedOff (payload : Fields) : Bool :=
  match payload.get "chat_template_kwargs" with
  | .obj ck => thinkingKwargNames.any fun name => decide (Fields.get ck name = .bool false)
  | _ => false

/-- `_close_only_expected`. -/
def closeOnlyExpected (ep : Endpoint) (payload : Fields) (stream : Bool) : Bool :=
  if thinkingSwitchedOff payload then false
  else if stream then ep.repairCloseOnly
  else ep.repairCloseOnly || ep.forcesReasoning

/-- `default_reasoning_key`. -/
def defaultReasoningKey (ep : Endpoint) : String :=
  if ep.vllm then "reasoning" else "reasoning_content"

/-- `int` of a finite float. -/
def truncate (x : ℚ) : ℤ := if 0 ≤ x then ⌊x⌋ else ⌈x⌉

/-- A number that is not negative, as an integer; a Boolean is none. -/
def count? : Json → Option ℕ
  | .int n => if 0 ≤ n then some n.toNat else none
  | .float (.finite x) => if 0 ≤ truncate x then some (truncate x).toNat else none
  | _ => none

/-- `coerce_token_count`. -/
def coerceTokenCount (candidate : Json) (default : ℕ) : ℕ := (count? candidate).getD default

/-- `extract_cached_tokens`, of a mapping. -/
def extractCachedTokens (usage : Fields) : Option ℕ :=
  match (usage.get "prompt_tokens_details").get? "cached_tokens" with
  | some cached => count? cached
  | none => count? (usage.get "cached_tokens")

/-- The errors of `empty_completion_error`, with what their texts name. -/
inductive EmptyCompletion where
  | budgetSpent (outputTokens reasoningChars : ℕ)
  | nothing (outputTokens : ℕ) (finishReason : Json)

/-- `msg.get("reasoning") or msg.get("reasoning_content")`, as a text. -/
def reasoningText (msg : Fields) : List Char :=
  if textOf (msg.get "reasoning") ≠ [] then textOf (msg.get "reasoning")
  else textOf (msg.get "reasoning_content")

/-- `empty_completion_error`. -/
def emptyCompletionError (msg : Fields) (finishReason : Json) (outputTokens : ℕ) :
    Option EmptyCompletion :=
  if Text.strip (textOf (msg.get "content")) ≠ [] ∨ (msg.get "tool_calls").truthy then none
  else if Text.strip (reasoningText msg) ≠ [] ∧ finishReason = .str "length" then
    some (.budgetSpent outputTokens (reasoningText msg).length)
  else some (.nothing outputTokens finishReason)

/-- `BackendResponse`. -/
structure Response where
  body : Fields
  inputTokens : ℕ
  outputTokens : ℕ
  finishReason : Json
  cachedTokens : Option ℕ

/-! ### The plain call -/

/-- The first choice of a body, `{}` if it has none. -/
def choice0 (body : Fields) : Fields :=
  match body.get "choices" with
  | .arr (.obj ch :: _) => ch
  | _ => []

/-- The message of the first choice, `{}` if it has none. -/
def message (body : Fields) : Fields := ((choice0 body).get "message").asObj?.getD []

/-- `repair_body`. -/
def repairBody (body : Fields) (closeOnly : Bool) (defaultKey : String) : Fields :=
  match body.get "choices" with
  | .arr (.obj ch :: others) =>
      match Fields.get ch "message" with
      | .obj msg =>
          match repairMessage msg closeOnly defaultKey with
          | some (msg, _) =>
              Fields.set body "choices" (.arr (.obj (Fields.set ch "message" (.obj msg)) :: others))
          | none => body
      | _ => body
  | _ => body

/-- `body.get("usage") or {}`, where it is a mapping. -/
def usageOf (body : Fields) : Fields := (body.get "usage").asObj?.getD []

/-- `call`, from the body of the reply on. -/
def call (ep : Endpoint) (payload body : Fields) : Except EmptyCompletion Response :=
  let outputTokens := coerceTokenCount ((usageOf body).get "completion_tokens") 0
  let served :=
    if ep.reasons then
      repairBody body (closeOnlyExpected ep payload false) (defaultReasoningKey ep)
    else body
  let finishReason := (choice0 served).get "finish_reason"
  match emptyCompletionError (message served) finishReason outputTokens with
  | some error => .error error
  | none => .ok
      { body := served
        inputTokens := coerceTokenCount ((usageOf body).get "prompt_tokens") 0
        outputTokens := outputTokens
        finishReason := finishReason
        cachedTokens := extractCachedTokens (usageOf body) }

/-! ### The watched call -/

/-- `_BLANK_CHARS`. -/
def isBlank (c : Char) : Bool :=
  c ∈ [' ', '\t', '\n', '\r', '\x0b', '\x0c', '\u00a0', '\u200b', '\u200c', '\u200d', '\u2060', '\ufeff']

/-- `StructuredBlankRunDetector`; an endpoint without a threshold has one that never fires. -/
structure Detector where
  threshold : ℕ
  run : ℕ := 0
  contentChars : ℕ := 0
  fired : Bool := false

/-- The run after some characters, and whether it reached the threshold. -/
def Detector.scan (threshold run : ℕ) : List Char → ℕ × Bool
  | [] => (run, false)
  | c :: cs =>
      if isBlank c then
        if threshold ≤ run + 1 then (run + 1, true) else scan threshold (run + 1) cs
      else scan threshold 0 cs

/-- `feed`. -/
def Detector.feed (detector : Detector) (delta : List Char) : Detector :=
  if detector.threshold = 0 ∨ detector.fired ∨ delta = [] then detector
  else
    let scanned := Detector.scan detector.threshold detector.run delta
    { detector with
      run := scanned.1
      contentChars := detector.contentChars + delta.length
      fired := scanned.2 }

/-- What `call_watched` has seen of a stream. -/
structure Watch where
  content : List Char := []
  reasoning : List Char := []
  reasoningKey : String := "reasoning_content"
  id : Json
  object : Json
  created : Json
  model : Json
  finishReason : Json := .null
  stopReason : Json := .null
  logprobs : Json := .null
  inputTokens : ℕ := 0
  outputTokens : ℕ := 0
  cachedTokens : Option ℕ := none
  lastUsage : Option Fields := none

/-- A string that is not empty, or what was there before. -/
def textOr (value before : Json) : Json :=
  match value with
  | .str s => if s = "" then before else .str s
  | _ => before

/-- The names that a chunk brings. -/
def Watch.header (w : Watch) (chunk : Fields) : Watch :=
  { w with
    id := textOr (chunk.get "id") w.id
    object :=
      match chunk.get "object" with
      | .str s => textOr (.str (s.replace ".chunk" "")) w.object
      | _ => w.object
    created := (intValue? (chunk.get "created")).elim w.created fun _ => chunk.get "created"
    model := textOr (chunk.get "model") w.model }

/-- The usage that a chunk brings. -/
def Watch.usage (w : Watch) : Json → Watch
  | .obj usage =>
      { w with
        lastUsage := some usage
        inputTokens := coerceTokenCount (Fields.get usage "prompt_tokens") w.inputTokens
        outputTokens := coerceTokenCount (Fields.get usage "completion_tokens") w.outputTokens
        cachedTokens := (extractCachedTokens usage).or w.cachedTokens }
  | _ => w

/-- The fields of a choice beside its delta. -/
def Watch.labels (w : Watch) (choice : Fields) : Watch :=
  { w with
    finishReason :=
      if (choice.get "finish_reason").truthy then choice.get "finish_reason" else w.finishReason
    stopReason := if choice.has "stop_reason" then choice.get "stop_reason" else w.stopReason
    logprobs := if choice.has "logprobs" then choice.get "logprobs" else w.logprobs }

/-- The reasoning of a delta. -/
def Watch.think (w : Watch) (delta : Fields) : Watch :=
  if textOf (delta.get "reasoning") ≠ [] then
    { w with reasoning := w.reasoning ++ textOf (delta.get "reasoning"), reasoningKey := "reasoning" }
  else if textOf (delta.get "reasoning_content") ≠ [] then
    { w with
      reasoning := w.reasoning ++ textOf (delta.get "reasoning_content")
      reasoningKey := "reasoning_content" }
  else w

/-- `_assemble_body`. -/
def Watch.assembleBody (w : Watch) : Fields :=
  let msg : Fields :=
    [("role", .str "assistant"), ("content", .str (.ofList w.content))] ++
      if w.reasoning = [] then [] else [(w.reasoningKey, .str (.ofList w.reasoning))]
  [("id", w.id), ("object", w.object), ("created", w.created), ("model", w.model),
    ("choices", .arr [.obj [("index", .int 0), ("message", .obj msg), ("logprobs", w.logprobs),
      ("finish_reason", w.finishReason), ("stop_reason", w.stopReason)]])] ++
    match w.lastUsage with
    | some usage => [("usage", .obj usage)]
    | none =>
        if w.inputTokens = 0 ∧ w.outputTokens = 0 ∧ w.cachedTokens = none then []
        else
          [("usage", .obj ([("prompt_tokens", .int w.inputTokens),
            ("completion_tokens", .int w.outputTokens),
            ("total_tokens", .int (w.inputTokens + w.outputTokens))] ++
            match w.cachedTokens with
            | some cached => [("prompt_tokens_details", .obj [("cached_tokens", .int cached)])]
            | none => []))]

/-- `estimate_tokens_from_chars`. -/
def estimateTokensFromChars (chars : ℕ) : ℕ := max 1 (chars / 4)

/-- One turn of the loop; the detector has the content before the reasoning is read. -/
def Watch.add (w : Watch) (detector : Detector) (parsed : Json) : Watch × Detector :=
  match parsed with
  | .obj chunk =>
      let w := (w.header chunk).usage (Fields.get chunk "usage")
      match Fields.get chunk "choices" with
      | .arr (.obj choice :: _) =>
          let w := w.labels choice
          let piece := StreamRepair.pieceOf (StreamRepair.deltaOf choice)
          let w := { w with content := w.content ++ piece }
          let detector := detector.feed piece
          if detector.fired then (w, detector)
          else (w.think (StreamRepair.deltaOf choice), detector)
      | _ => (w, detector)
  | _ => (w, detector)

/-- The loop, until the detector fires. -/
def Watch.read (w : Watch) (detector : Detector) : List Json → Watch × Detector
  | [] => (w, detector)
  | parsed :: chunks =>
      let next := w.add detector parsed
      if next.2.fired then next else Watch.read next.1 next.2 chunks

/-- What becomes of a watched call. -/
inductive Outcome where
  | answered (response : Response)
  | refused (error : EmptyCompletion)
  /-- `StructuredBlankRunAborted`. -/
  | aborted (bodySoFar : Fields) (detector : Detector) (inputTokens outputTokens : ℕ)

/-- The chunks that `stream` yields of the backend's. -/
def streamed (ep : Endpoint) (payload : Fields) (chunks : List (Json × String)) :
    Except Unit (List Json) :=
  if ep.reasons then do
    let repair : StreamRepair :=
      { holdClose := closeOnlyExpected ep payload true, key := defaultReasoningKey ep }
    let (frames, repair) ← repair.feedAll chunks
    .ok ((frames ++ repair.finish.1).map Frame.parsed)
  else .ok (chunks.map Prod.fst)

/-- The payload of the stream: usage is asked for. -/
def streamPayload (payload : Fields) : Fields :=
  Fields.set (Fields.set payload "stream" (.bool true)) "stream_options"
    (.obj (Fields.set ((payload.get "stream_options").asObj?.getD []) "include_usage" (.bool true)))

/-- The end of `call_watched`. -/
def Watch.answer (w : Watch) : Outcome :=
  let w : Watch :=
    if w.lastUsage = none ∧ w.content ≠ [] then
      { w with outputTokens := estimateTokensFromChars w.content.length }
    else w
  match emptyCompletionError (message w.assembleBody) w.finishReason w.outputTokens with
  | some error => .refused error
  | none => .answered
      { body := w.assembleBody
        inputTokens := w.inputTokens
        outputTokens := w.outputTokens
        finishReason := w.finishReason
        cachedTokens := w.cachedTokens }

/-- `call_watched`, from the chunks of the reply on. -/
def callWatched (ep : Endpoint) (payload : Fields) (requestId : String) (now : ℤ) (threshold : ℕ)
    (chunks : List (Json × String)) : Except Unit Outcome := do
  let parsed ← streamed ep (streamPayload payload) chunks
  let start : Watch :=
    { id := .str ("chatcmpl-" ++ requestId)
      object := .str "chat.completion"
      created := .int now
      model := .str ep.effectiveModelId }
  let (w, detector) := start.read { threshold := threshold } parsed
  if detector.fired then
    let tokens := if w.outputTokens = 0 then estimateTokensFromChars w.content.length else w.outputTokens
    .ok (.aborted w.assembleBody detector w.inputTokens tokens)
  else .ok w.answer

end Roadstead.Watched
