import Roadstead.Lib.Json.OneLine
import Roadstead.Request
import Roadstead.Sanitizer
import Roadstead.Spend
import Roadstead.TimeoutModel

/-!
# A stream on the wire

The two ends of a streamed answer.  `streamGenerator` is the generator that
`handle_streaming_submit` of `lifecycle.py` answers with: what it yields for the events that it gets
from its queue, at each of the three doors.  `stream` and `textStream` are the readers of
`client/_client.py`.  The definitions follow the source; nothing is proved here.

## The proxy's end

The events are those that are put on such a queue, with what was measured in them.  The OpenAI door
sends the chunks of the backend as they come and `[DONE]` after them; the two doors of our own put
each event into a frame, open with one that names the request, and end with `done` or `error`.  The
blocks of `enriched.py` are derived from a request as it stands when they are made, so the last frame
may name another endpoint than the first.

## The client's end

A reader has the lines of the body and nothing else.  How `str` writes a value that is no string is a
parameter of the reader, and so is the way in which the transport cuts lines.  That the two ends agree
is `Roadstead.StreamWire.Received` for the items and `Roadstead.StreamWire.Texts` for the text.
-/

namespace Roadstead.StreamWire

open Json (Fields dumps)
open ToolCallStreamSanitizer

/-- The slots of the tool-call sanitizer. -/
abbrev Slots := ToolCallStreamSanitizer.Slots

/-! ### The blocks of a frame -/

/-- `wire`: the door at which the stream was asked for. -/
inductive Wire where
  | enriched
  | legacy
  | openai
  deriving DecidableEq

/-- A float of a frame. -/
def number (q : ℚ) : Json := .float (.finite q)

/-- The value of a field that may be `None`. -/
def optional {α : Type} (f : α → Json) (value : Option α) : Json := (value.map f).getD .null

/-- A request with what else the blocks say of it: the endpoint that has it now, and its price, of
which the amounts are floats. -/
structure Served where
  req : QueuedRequest
  requested : String := ""
  routedTo : String := ""
  declaredAgentId : String := ""
  deadlineIsDefault : Bool := false
  /-- `_provider_name`. -/
  provider : String := ""
  /-- `backend_engine` of the endpoint, or nothing. -/
  engine : String := ""
  /-- `effective_model_id` of the endpoint, or nothing. -/
  model : String := ""
  price : TokenPrice
  priceDetail : String := ""
  decimal : Json.Decimal price.inputUsdPerMtok ∧ Json.Decimal price.outputUsdPerMtok

/-- The truth value of a text that may be `None`. -/
def filled (text : Option String) : Bool := text.getD "" ≠ ""

section Blocks

variable (s : Served)

/-- What moved the request off the endpoint that was chosen for it. -/
def substitution : Json :=
  if filled s.req.spilledFrom then .str "spill"
  else if filled s.req.degradedFrom then .str "failover"
  else .null

/-- `attribution`. -/
def attribution : Fields :=
  [("requested", .str s.requested),
    ("resolved", .str s.routedTo),
    ("endpoint", .str s.req.endpoint),
    ("substituted", .bool (decide (s.routedTo ≠ "") && decide (s.routedTo ≠ s.req.endpoint))),
    ("substitution", substitution s),
    ("provider", .str s.provider),
    ("engine", .str s.engine),
    ("model", .str s.model)]

/-- `identity_block`. -/
def identityBlock : Fields :=
  [("agent_id", .str s.req.agentId)] ++
    (if s.declaredAgentId = "" then []
      else [("declared", .str s.declaredAgentId),
        ("honoured", .bool (decide (s.declaredAgentId = s.req.agentId)))]) ++
    if s.req.noStoreOutcome = "" then [] else [("no_store", .str s.req.noStoreOutcome)]

/-- The name of a source of prices. -/
def sourceName : PriceSource → String
  | .provider => "provider"
  | .config => "config"
  | .imputed => "imputed"

/-- `TokenPrice.as_dict`. -/
def priceDict : Fields :=
  [("input_usd_per_mtok", number s.price.inputUsdPerMtok),
    ("output_usd_per_mtok", number s.price.outputUsdPerMtok),
    ("source", .str (sourceName s.price.source)),
    ("real", .bool s.price.real),
    ("detail", .str s.priceDetail)]

/-- `cost_block`. -/
def costBlock (inputTokens outputTokens : ℤ) : Fields :=
  let amount := roundTo 6 (s.price.costUsd inputTokens outputTokens)
  [("spent_usd", number (if s.price.real then amount else 0)),
    ("avoided_usd", number (if s.price.real then 0 else amount)),
    ("price", .obj (priceDict s))]

/-- `timing_block`. -/
def timingBlock (queueWaitMs backendLatencyMs : ℚ) (ttftMs predictedMs : Option ℚ) : Fields :=
  [("queue_wait_ms", number (roundTo 1 queueWaitMs)),
    ("backend_latency_ms", number (roundTo 1 backendLatencyMs)),
    ("ttft_ms", optional (fun t => number (roundTo 1 t)) (ttftMs.filter (· ≠ 0))),
    ("total_ms", number (roundTo 1 (queueWaitMs + backendLatencyMs))),
    ("deadline_s", number (roundTo 3 s.req.timeoutS)),
    ("deadline_source", .str (if s.deadlineIsDefault then "computed" else "caller")),
    ("predicted_ms", optional (fun p => number (roundTo 1 p)) (predictedMs.filter (· ≠ 0)))]

end Blocks

/-! ### Events and frames -/

/-- What the producer puts on the queue of a stream. -/
inductive Event where
  | admitted (queueWaitMs : ℚ)
  | chunk (data : List Char)
  /-- `ttftMs` is 0 if no token came. -/
  | done (queueWaitMs backendLatencyMs ttftMs : ℚ) (promptTokens completionTokens : ℤ)
      (degradedFrom : Option String)
  | error (message : String) (code : Option String)

/-- The dictionary of an event. -/
def Event.fields : Event → Fields
  | admitted queueWaitMs =>
      [("type", .str "admitted"), ("queue_wait_ms", number (roundTo 1 queueWaitMs))]
  | chunk data => [("type", .str "chunk"), ("data", .str (.ofList data))]
  | done queueWaitMs backendLatencyMs ttftMs promptTokens completionTokens degradedFrom =>
      [("type", .str "done"),
        ("queue_wait_ms", number (roundTo 1 queueWaitMs)),
        ("backend_latency_ms", number (roundTo 1 backendLatencyMs)),
        ("ttft_ms", number (roundTo 1 ttftMs)),
        ("usage", .obj [("prompt_tokens", .int promptTokens),
          ("completion_tokens", .int completionTokens)])] ++
        if filled degradedFrom then
          [("degraded", .bool true), ("degraded_from", optional .str degradedFrom)]
        else []
  | error message code =>
      [("type", .str "error"), ("error", .str message)] ++
        if filled code then [("code", optional .str code)] else []

/-- `_enriched_done`, of the event with these measurements. -/
def enrichedDone (s : Served) (queueWaitMs backendLatencyMs ttftMs : ℚ)
    (promptTokens completionTokens : ℤ) : Fields :=
  [("type", .str "done"),
    ("request_id", .str s.req.requestId),
    ("attribution", .obj (attribution s ++
      [("cost", .obj (costBlock s promptTokens completionTokens))])),
    ("identity", .obj (identityBlock s)),
    ("timing", .obj (timingBlock s (roundTo 1 queueWaitMs) (roundTo 1 backendLatencyMs)
      (some (roundTo 1 ttftMs)) none)),
    ("usage", .obj [("input_tokens", .int promptTokens),
      ("output_tokens", .int completionTokens),
      ("slot_seconds", number (roundTo 3 s.req.estimatedCostSs))])]

/-- The frame that opens a stream. -/
def openingFrame (wire : Wire) (s : Served) (predictedMs : Option ℚ) : Option Fields :=
  match wire with
  | .enriched => some
      [("type", .str "accepted"),
        ("request_id", .str s.req.requestId),
        ("attribution", .obj (attribution s)),
        ("timing", .obj (timingBlock s 0 0 none predictedMs))]
  | .legacy => some [("type", .str "queued"), ("request_id", .str s.req.requestId)]
  | .openai => none

/-- `"data: "`. -/
def dataPrefix : List Char := "data: ".toList

/-- `f"data: {text}\n\n"`. -/
def sse (text : List Char) : List Char := Lines.ended (dataPrefix ++ text)

/-- What the sanitizer returns. -/
def Output.text : Output → List Char
  | .raw data => data
  | .dumped chunk => dumps chunk

/-! ### The generator -/

/-- What the generator knows beside the events: `wire`, `uniform_correction_enabled()`, the request
when the stream opens and when its last event is read, `_predicted_ms`, and `consumer_wait_s`. -/
structure Door where
  wire : Wire
  uniform : Bool := false
  opening : Served
  closing : Served
  predictedMs : Option ℚ := none
  consumerWaitS : ℚ := 0

/-- The frame of an event at a door of our own. -/
def Door.frame (d : Door) (slots : Slots) : Event → Slots × Fields
  | .chunk data =>
      if d.uniform then
        let fed := feed slots data
        (fed.1, (Event.chunk (Output.text fed.2)).fields)
      else (slots, (Event.chunk data).fields)
  | .done queueWaitMs backendLatencyMs ttftMs promptTokens completionTokens degradedFrom =>
      (slots, if d.wire = .enriched then
          enrichedDone d.closing queueWaitMs backendLatencyMs ttftMs promptTokens completionTokens
        else (Event.done queueWaitMs backendLatencyMs ttftMs promptTokens completionTokens
          degradedFrom).fields)
  | event => (slots, event.fields)

/-- The generator leaves its loop after this event. -/
def Event.isTerminal : Event → Bool
  | done _ _ _ _ _ _ => true
  | error _ _ => true
  | _ => false

/-- The frames for the events that come, one by one; `none` is the end of the consumer's patience. -/
def Door.frames (d : Door) : Slots → List (Option Event) → List Fields
  | _, [] => []
  | _, none :: _ => [[("type", .str "error"), ("error", .str "timeout")]]
  | slots, some event :: events =>
      let made := d.frame slots event
      made.2 :: if event.isTerminal then [] else d.frames made.1 events

/-- An error, as an OpenAI client reads it. -/
def openaiError (message kind : String) (code : Option String) : Json :=
  .obj [("error", .obj ([("message", .str message), ("type", .str kind)] ++
    if filled code then [("code", optional .str code)] else []))]

/-- What comes after `data: ` at the door for OpenAI clients. -/
def Door.payloads (d : Door) : Slots → List (Option Event) → List (List Char)
  | _, [] => []
  | _, none :: _ =>
      [dumps (openaiError (.ofList ("proxy stream timeout after ".toList ++
        Json.intText (Binary64.roundHalfEven d.consumerWaitS) ++ "s".toList)) "proxy_timeout" none)]
  | slots, some (.chunk data) :: events =>
      let fed := feed slots data
      Output.text fed.2 :: d.payloads fed.1 events
  | _, some (.done _ _ _ _ _ _) :: _ => ["[DONE]".toList]
  | _, some (.error message code) :: _ => [dumps (openaiError message "proxy_error" code)]
  | slots, some (.admitted _) :: events => d.payloads slots events

/-- The frames of a stream at a door of our own. -/
def Door.sent (d : Door) (events : List (Option Event)) : List Fields :=
  (openingFrame d.wire d.opening d.predictedMs).toList ++ d.frames ∅ events

/-- What the generator yields. -/
def Door.streamGenerator (d : Door) (events : List (Option Event)) : List (List Char) :=
  if d.wire = .openai then (d.payloads ∅ events).map sse
  else (d.sent events).map fun frame => sse (dumps (.obj frame))

/-! ### The client -/

/-- `RoadsteadError`, as a stream raises it. -/
structure RoadsteadError where
  message : String
  code : String
  requestId : String
  body : Fields

/-- How a stream ends for its reader. -/
inductive Ending where
  /-- There are no more lines. -/
  | exhausted
  /-- The marker of another door. -/
  | marker
  /-- The frame `done`. -/
  | done
  | raised (e : RoadsteadError)
  /-- A frame that is no object has no `get`. -/
  | crashed

section Client

-- Python's `str`
variable (str : Json → String)

/-- What is raised for an error frame. -/
def errorOf (frame : Fields) : RoadsteadError where
  message := str (if (frame.get "error").truthy then frame.get "error" else .str "stream error")
  code := str (if (frame.get "code").truthy then frame.get "code" else .str "")
  requestId := str (if (frame.get "request_id").truthy then frame.get "request_id" else .str "")
  body := frame

/-- What a line carries. -/
inductive Item where
  | marker
  | frame (v : Json)

/-- A line of the response, if it carries anything. -/
def item? (line : List Char) : Option Item :=
  let line := Text.strip line
  if dataPrefix <+: line then
    let raw := line.drop dataPrefix.length
    if raw = "[DONE]".toList then some .marker else (Json.loads false raw).map .frame
  else none

/-- `AsyncRoadsteadClient.stream`: what it yields for the lines of a response, and how it ends. -/
def stream : List (List Char) → List Fields × Ending
  | [] => ([], .exhausted)
  | line :: lines =>
      match item? line with
      | none => stream lines
      | some .marker => ([], .marker)
      | some (.frame (.obj frame)) =>
          if Fields.get frame "type" = .str "error" then ([], .raised (errorOf str frame))
          else if Fields.get frame "type" = .str "done" then ([frame], .done)
          else
            let rest := stream lines
            (frame :: rest.1, rest.2)
      | some (.frame _) => ([], .crashed)

/-- The text of a choice, if it has one; `none` is an exception that nothing catches. -/
def choiceText : Json → Option (Option Json)
  | .obj choice =>
      match Fields.get? choice "delta" with
      | some (.obj delta) =>
          let content := Fields.get delta "content"
          some (if content.truthy then some content else none)
      | none => some none
      -- any other value has no `get`
      | some _ => none
  | _ => some none

/-- The text of a chunk: that of its first choice. -/
def textOf (chunk : Json) : Option (Option Json) :=
  match chunk.get "choices" with
  | .arr (choice :: _) => choiceText choice
  | _ => some none

/-- The text of a frame, if it is a chunk that has one. -/
def deltaOf (frame : Fields) : Option (Option Json) :=
  if Fields.get frame "type" = .str "chunk" then
    match (Fields.get frame "data").asStr?.bind fun data => Json.loads false data.toList with
    | some chunk => textOf chunk
    | none => some none
  else some none

/-- `text_stream`, for the frames that `stream` yields; `false` if a frame made it raise. -/
def textStream : List Fields → List Json × Bool
  | [] => ([], true)
  | frame :: frames =>
      match deltaOf frame with
      | none => ([], false)
      | some delta =>
          let rest := textStream frames
          (delta.toList ++ rest.1, rest.2)

end Client

end Roadstead.StreamWire
