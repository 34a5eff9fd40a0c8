import Roadstead.Request

/-!
# The dispatch task

`Lifecycle.execute_dispatch` with `execute_sync` and `execute_streaming`: what one
dispatch task does between two of its awaits.  The definitions follow the source;
nothing is proved here.

## A coroutine as a table of segments

A task is suspended at an `Await`, which carries the local variables that are still
needed.  When it is resumed, a `Wake` says what it is resumed with: the clock, the
answer of `endpoint_healthy`, and the `Outcome` of what was awaited.  It then runs to
its next await, and that is a `Segment`: the `Effect`s it has on the rest of the
proxy, in order, and the await it stops at, or `none` when the task has ended.  An
outcome that what is awaited cannot have leaves the task where it is.

## What is left to parameters

`Policy` holds the verdicts `execute_sync` and `execute_streaming` ask for and act
on: the predicates of `correction.py`, the flags, the retry limit.  Nothing is
assumed about them.  What the stream detectors say about a chunk, how a coalesced
chunk is split, and whether an aborted body can be salvaged are part of the outcome.
Counters, log lines and persistence are left out, and so is the `id_slot` that slot
affinity writes into the payload: of that block only the call that can raise is kept.
The token counts of a backend are taken to fit a double, so that `record_completion`,
which averages them, returns.
-/

namespace Roadstead

/-- The `status` of a completion. -/
inductive Status where
  | ok
  | error
  | timeout
  | cancelled
  | truncated
  deriving DecidableEq

/-! ### What a backend answers -/

/-- `BackendResponse`. -/
structure BackendResponse where
  body : String
  inputTokens : ℤ := 0
  outputTokens : ℤ := 0
  finishReason : Option String := none
  deriving DecidableEq

/-- `needle in text`. -/
def occursIn (needle text : String) : Bool :=
  text.toList.tails.any needle.toList.isPrefixOf

/-- A `BackendError` that is not a `BackendTimeout`; the flag marks the subclass
`BackendUnavailable`. -/
structure BackendFault where
  unavailable : Bool := false
  statusCode : ℤ
  detail : String := ""
  deriving DecidableEq

namespace BackendFault

/-- `str(exc)`. -/
def message (f : BackendFault) : String := s!"backend error {f.statusCode}: {f.detail}"

def emptyCompletion (f : BackendFault) : Bool := occursIn "empty completion" f.detail

def isTransientBackendError (f : BackendFault) : Bool := f.unavailable || f.emptyCompletion

def isStructuredGenerationFault (f : BackendFault) : Bool :=
  !f.unavailable && decide (f.statusCode = 500) &&
    (occursIn "internal server error" f.detail.toLower ||
      occursIn "internalservererror" f.detail.toLower)

end BackendFault

/-- `StructuredBlankRunAborted`, with the response that can be salvaged from it when
the text before the blank run is complete JSON. -/
structure BlankRunAbort where
  salvaged : Option BackendResponse := none
  runChars : ℕ
  contentChars : ℕ
  inputTokens : ℤ := 0
  outputTokens : ℤ := 0
  elapsedS : ℚ := 0
  deriving DecidableEq

/-- What the detectors of the stream loop say about a chunk. -/
inductive ChunkVerdict where
  | relay
  /-- A detector raises `TimeoutError`; the text of the error frame. -/
  | abort (message : String)
  /-- The reasoning loops, after that many characters, and the answer is asked for
  again. -/
  | answerNow (reasoningChars : ℕ)
  deriving DecidableEq

/-- A `"chunk"` event: the frames it is relayed as (none for a usage-only chunk that
was not asked for, two for a coalesced finish chunk), and what it carries. -/
structure Chunk where
  parts : List String
  /-- `delta.content`, when that is a string. -/
  content : String := ""
  /-- `delta.tool_calls`. -/
  toolCalls : List String := []
  finishReason : Option String := none
  usage : Option (ℤ × ℤ) := none
  hasContent : Bool := false
  verdict : ChunkVerdict := .relay
  deriving DecidableEq

/-- What `async for event in backend_stream` gets next. -/
inductive StreamEvent where
  | chunk (c : Chunk)
  | hold
  | done
  /-- The stream is over without a `done`. -/
  | ended
  deriving DecidableEq

/-! ### What the caller gets -/

/-- The payload of `resolve_error`. -/
structure Failure where
  message : String
  backendStatus : Option ℤ := none
  partialContent : Option String := none
  code : Option String := none
  deriving DecidableEq

/-- What a future is resolved with. -/
inductive Answer where
  | ok (response : BackendResponse)
  | error (failure : Failure)
  | timeout
  deriving DecidableEq

/-- A frame on a stream queue. -/
inductive Frame where
  | admitted (queueWaitMs : ℚ)
  | chunk (data : String)
  | done (inputTokens outputTokens : ℤ)
  | error (failure : Failure)
  deriving DecidableEq

namespace Frame

/-- The frames after which the consumer leaves its loop. -/
def isTerminal : Frame → Bool
  | done _ _ => true
  | error _ => true
  | _ => false

end Frame

/-! ### Awaits -/

/-- The payload of the next attempt. -/
inductive DispatchPayload where
  | caller
  /-- With `min_tokens`, after an empty completion. -/
  | minTokens
  deriving DecidableEq

/-- The variables of `execute_sync` that outlive an attempt. -/
structure SyncVars where
  attempts : ℕ := 0
  t0 : ℚ := 0
  dispatchPayload : DispatchPayload := .caller
  structuredFaultRetried : Bool := false
  blankRunRetried : Bool := false
  deriving DecidableEq

/-- The variables of `execute_streaming`. -/
structure StreamVars where
  t0 : ℚ := 0
  inputTokens : ℤ := 0
  outputTokens : ℤ := 0
  lastFinishReason : Option String := none
  sawBackendDone : Bool := false
  chunksRelayed : ℕ := 0
  accumulatedContent : String := ""
  streamToolCalls : List String := []
  deriving DecidableEq

/-- The variables of `_answer_now_stream`, and the length of the loop before it. -/
structure AnswerVars where
  reasoningChars : ℕ
  outTokens : ℤ := 0
  relayed : ℕ := 0
  hasContent : Bool := false
  deriving DecidableEq

/-- What follows once a frame is on the queue. -/
inductive After where
  /-- Open the backend stream. -/
  | openStream
  /-- Relay the other parts of the chunk, then await the next event. -/
  | relay (parts : List String) (v : StreamVars)
  /-- Await the next event of the answer-now stream. -/
  | answer (v : StreamVars) (a : AnswerVars)
  /-- Put the `done` frame. -/
  | terminate (v : StreamVars) (duration : ℚ)
  /-- Record the completion; the duration is measured now if it was not before. -/
  | record (status : Status) (v : StreamVars) (duration : Option ℚ)
  deriving DecidableEq

/-- Where a dispatch task is suspended; `queue` is the caller whose queue it holds. -/
inductive Await where
  /-- Created; no part of the body has run. -/
  | start
  /-- `await self.state.backend.call(…)`, or `call_watched`. -/
  | call (v : SyncVars)
  /-- `await asyncio.sleep(_RETRY_BACKOFF_S)`. -/
  | backoff (v : SyncVars)
  /-- `await stream_q.put(frame)`. -/
  | put (queue : ℕ) (frame : Frame) (after : After)
  /-- `async for event in backend_stream`. -/
  | stream (queue : ℕ) (v : StreamVars)
  /-- `async for event in answer_stream`. -/
  | answerNow (queue : ℕ) (v : StreamVars) (a : AnswerVars)
  deriving DecidableEq

/-- What a task is resumed with. -/
inductive Outcome where
  /-- The first step, the end of a sleep, or a try to put. -/
  | ready
  | responded (r : BackendResponse)
  | blankRun (b : BlankRunAbort)
  /-- `BackendTimeout`, or `TimeoutError` from a watchdog. -/
  | timedOut (message : String)
  | failed (f : BackendFault)
  /-- Any other `Exception`. -/
  | raised (message : String)
  | event (e : StreamEvent)
  deriving DecidableEq

structure Wake where
  now : ℚ := 0
  healthy : Bool := true
  outcome : Outcome := .ready
  deriving DecidableEq

/-- What a segment does to the rest of the proxy. -/
inductive Effect where
  /-- `resolve_error(req, …)`. -/
  | resolveError (failure : Failure)
  /-- `future.set_result(result)`. -/
  | setResult (response : BackendResponse)
  /-- A frame put on a queue. -/
  | put (queue : ℕ) (frame : Frame)
  /-- `record_completion(req, decision, duration, input_tokens, output_tokens, status)`. -/
  | recordCompletion (status : Status) (duration : ℚ) (inputTokens outputTokens : ℤ)
  deriving DecidableEq

/-- The status an effect records. -/
def Effect.status? : Effect → Option Status
  | .recordCompletion status _ _ _ => some status
  | _ => none

structure Segment where
  effects : List Effect
  next : Option Await

namespace Segment

/-- Run to an await without any effect. -/
def suspend (a : Await) : Segment := ⟨[], some a⟩

/-- Do `e` first. -/
def after (e : Effect) (s : Segment) : Segment := ⟨e :: s.effects, s.next⟩

/-- The exits: some effects, then the completion is recorded. -/
def finish (effects : List Effect) (status : Status) (duration : ℚ) (inputTokens : ℤ := 0)
    (outputTokens : ℤ := 0) : Segment :=
  ⟨effects ++ [.recordCompletion status duration inputTokens outputTokens], none⟩

end Segment

open Segment

/-! ### Verdicts and constants -/

/-- An error that replaces the `done` frame of a stream. -/
structure StreamFault where
  failure : Failure
  status : Status

/-- The verdicts and settings a dispatch task acts on. -/
structure Policy where
  transientRetryMax : ℕ := 1
  degenerateLengthEnforce : Bool := false
  requestIsStructured : QueuedRequest → Bool := fun _ => false
  /-- `_chat_completion_text`. -/
  chatCompletionText : BackendResponse → String := fun r => r.body
  /-- `_degenerate_text_arm` and its formatted evidence. -/
  degenerateTextArm : String → Option (String × String) := fun _ => none
  /-- `is_truncated_tool_turn`, with `truncated_tool_turn_message`. -/
  truncatedToolTurn : QueuedRequest → BackendResponse → Option String := fun _ _ => none
  /-- The end-of-stream guards, on what the stream carried. -/
  streamGuard : QueuedRequest → StreamVars → Option StreamFault := fun _ _ => none
  /-- The synthesized terminal chunk. -/
  finishChunk : QueuedRequest → String := fun _ => ""

/-- `_MIN_RETRY_BUDGET_S`. -/
def minRetryBudgetS : ℚ := 5

/-- What a dispatch task reads and never writes: the policy, the role of the
endpoint, the decision, and `t0` of `execute_dispatch`. -/
structure DispatchCtx where
  policy : Policy
  role : String
  decision : DispatchDecision
  began : ℚ

namespace DispatchCtx

variable (c : DispatchCtx)

def req : QueuedRequest := c.decision.request

/-- `except asyncio.CancelledError` of `execute_dispatch`. -/
def onCancelled (now : ℚ) : Segment :=
  finish [.resolveError
    { message := "llm proxy stream cancelled (consumer disconnected)" }] .cancelled (now - c.began)

/-- `except Exception` of `execute_dispatch`. -/
def onException (now : ℚ) (message : String) : Segment :=
  finish [.resolveError { message := message }] .error (now - c.began)

/-! ### `execute_sync` -/

/-- The top of the `while` loop. -/
def attempt (v : SyncVars) (now : ℚ) : Segment :=
  if c.req.timeoutDeadline - now ≤ 0 then
    let role := c.role
    let message :=
      if c.req.band = .background then
        s!"backend {role} deadline exceeded in queue — backpressure"
      else s!"backend {role} deadline exceeded before dispatch"
    finish [.resolveError { message := message }] .timeout 0
  else suspend (.call { v with attempts := v.attempts + 1, t0 := now })

/-- The failure of a structured response that ran into `max_tokens`. -/
def truncation (r : BackendResponse) : Failure :=
  let role := c.role
  let tokens := r.outputTokens
  let text := c.policy.chatCompletionText r
  let truncated : Failure :=
    { message := s!"backend {role} truncated structured output (finish_reason=length, output_tokens={tokens})"
      partialContent := if text = "" then none else some text }
  match c.policy.degenerateTextArm text with
  | none => truncated
  | some (arm, evidence) =>
      if c.policy.degenerateLengthEnforce then
        { message := s!"backend {role} degenerate structured output (repetition loop, arm={arm} {evidence}, finish_reason=length, output_tokens={tokens})" }
      else truncated

/-- From the response on. -/
def serve (v : SyncVars) (now : ℚ) (r : BackendResponse) : Segment :=
  let duration := now - v.t0
  if r.finishReason = some "length" ∧ c.policy.requestIsStructured c.req = true then
    finish [.resolveError (c.truncation r)] .truncated duration r.inputTokens r.outputTokens
  else
    match c.policy.truncatedToolTurn c.req r with
    | some message =>
        finish [.resolveError { message := message, code := some "truncated_tool_turn" }]
          .truncated duration r.inputTokens r.outputTokens
    | none => finish [.setResult r] .ok duration r.inputTokens r.outputTokens

/-- `except StructuredBlankRunAborted`. -/
def onBlankRun (v : SyncVars) (w : Wake) (b : BlankRunAbort) : Segment :=
  match b.salvaged with
  | some r => c.serve v w.now r
  | none =>
      if v.blankRunRetried = false ∧ minRetryBudgetS < c.req.timeoutDeadline - w.now ∧
          w.healthy = true then
        suspend (.backoff { v with blankRunRetried := true, dispatchPayload := .caller })
      else
        let role := c.role
        let run := b.runChars
        let content := b.contentChars
        let tokens := b.outputTokens
        finish [.resolveError
          { message := s!"backend {role} degenerate structured output (blank-run loop, arm=blank_run, run_chars={run}, content_chars={content}, output_tokens={tokens})" }]
          .truncated b.elapsedS b.inputTokens b.outputTokens

/-- `except (BackendUnavailable, BackendError)`. -/
def onFault (v : SyncVars) (w : Wake) (f : BackendFault) : Segment :=
  let structuredFault :=
    !v.structuredFaultRetried && f.isStructuredGenerationFault && c.policy.requestIsStructured c.req
  if (f.isTransientBackendError || structuredFault) = true ∧
      v.attempts ≤ c.policy.transientRetryMax ∧
      minRetryBudgetS < c.req.timeoutDeadline - w.now ∧ w.healthy = true then
    suspend (.backoff
      (if c.req.payloadType = "chat_completion" ∧ f.emptyCompletion = true then
        { v with dispatchPayload := .minTokens }
      else if structuredFault = true then { v with structuredFaultRetried := true }
      else v))
  else
    finish [.resolveError { message := f.message, backendStatus := some f.statusCode }] .error
      (w.now - v.t0)

/-- Resumed at `backend.call`. -/
def onCall (v : SyncVars) (w : Wake) : Segment :=
  match w.outcome with
  | .responded r => c.serve v w.now r
  | .blankRun b => c.onBlankRun v w b
  | .timedOut message =>
      finish [.resolveError { message := message }] .timeout (w.now - v.t0)
  | .failed f => c.onFault v w f
  | .raised message => c.onException w.now message
  | .ready => suspend (.call v)
  | .event _ => suspend (.call v)

/-- Resumed at the sleep before a retry. -/
def onBackoff (v : SyncVars) (w : Wake) : Segment :=
  match w.outcome with
  | .ready => c.attempt v w.now
  | .raised message => c.onException w.now message
  | _ => suspend (.backoff v)

/-! ### `execute_streaming` -/

variable (queue : ℕ)

/-- From the start to the first put.  A request whose queue is gone has no consumer. -/
def openQueue : Option ℕ → Segment
  | none => finish [] .cancelled 0
  | some queue => suspend (.put queue (.admitted c.decision.queueWaitMs) .openStream)

/-- Relay the parts of a chunk, then await the next event. -/
def relay (v : StreamVars) : List String → Segment
  | [] => suspend (.stream queue v)
  | part :: parts =>
      suspend (.put queue (.chunk part)
        (.relay parts { v with chunksRelayed := v.chunksRelayed + 1 }))

/-- The terminal frame: the `done` frame, or the error of the guards. -/
def terminate (v : StreamVars) (fault : Option StreamFault) (duration : ℚ) : Segment :=
  match fault with
  | some fault =>
      suspend (.put queue (.error fault.failure) (.record fault.status v (some duration)))
  | none =>
      let status : Status :=
        if v.lastFinishReason = some "length" ∧ c.policy.requestIsStructured c.req = true then
          .truncated
        else .ok
      suspend (.put queue (.done v.inputTokens v.outputTokens) (.record status v (some duration)))

/-- After the stream loop: the guards, and the repair of a missing finish chunk. -/
def conclude (v : StreamVars) (now : ℚ) : Segment :=
  let fault := c.policy.streamGuard c.req v
  if v.lastFinishReason = none ∧ v.sawBackendDone = true ∧ 0 < v.chunksRelayed ∧
      fault.isNone = true then
    suspend (.put queue (.chunk (c.policy.finishChunk c.req))
      (.terminate { v with lastFinishReason := some "stop" } (now - v.t0)))
  else c.terminate queue v fault (now - v.t0)

/-- The `except` branches of the stream loop: an error frame, then the completion. -/
def abortStream (v : StreamVars) (message : String) (status : Status) : Segment :=
  suspend (.put queue (.error { message := message }) (.record status v none))

/-- The variables after a chunk was looked at.  The content is accumulated whether or
not a guard will read it. -/
def noted (v : StreamVars) (ch : Chunk) : StreamVars :=
  { v with
    inputTokens := (ch.usage.map Prod.fst).getD v.inputTokens
    outputTokens := (ch.usage.map Prod.snd).getD v.outputTokens
    lastFinishReason := ch.finishReason.orElse fun _ => v.lastFinishReason
    accumulatedContent := v.accumulatedContent ++ ch.content
    streamToolCalls := v.streamToolCalls ++ ch.toolCalls }

def onEvent (v : StreamVars) (now : ℚ) : StreamEvent → Segment
  | .chunk ch =>
      match ch.verdict with
      | .relay => relay queue (noted v ch) ch.parts
      | .abort message => abortStream queue (noted v ch) message .timeout
      | .answerNow chars => suspend (.answerNow queue (noted v ch) { reasoningChars := chars })
  | .hold => suspend (.stream queue v)
  | .done => c.conclude queue { v with sawBackendDone := true } now
  | .ended => c.conclude queue v now

/-- Resumed at the stream loop. -/
def onStream (v : StreamVars) (w : Wake) : Segment :=
  match w.outcome with
  | .event e => c.onEvent queue v w.now e
  | .timedOut message => abortStream queue v message .timeout
  | .failed f => abortStream queue v f.message .error
  | .raised message => abortStream queue v message .error
  | _ => suspend (.stream queue v)

/-- The end of `_answer_now_stream`, which answers `(0, False)` unless it relayed
some content. -/
def answered (v : StreamVars) (a : AnswerVars) (sawDone : Bool) (now : ℚ) : Segment :=
  if 0 < a.relayed ∧ a.hasContent = true ∧ (a.outTokens ≠ 0 ∨ sawDone = true) then
    c.conclude queue
      { v with
        outputTokens := v.outputTokens + a.outTokens
        sawBackendDone := v.sawBackendDone || sawDone
        lastFinishReason := v.lastFinishReason.orElse fun _ => some "stop" } now
  else
    let chars := a.reasoningChars
    abortStream queue v
      s!"backend reasoning entered a repeating cycle and stopped making progress after {chars} reasoning chars; the answer-now re-ask returned nothing"
      .error

/-- A failure of `_answer_now_stream`, which never raises. -/
def unanswered (v : StreamVars) (a : AnswerVars) (now : ℚ) : Segment :=
  c.answered queue v { reasoningChars := a.reasoningChars } false now

/-- Resumed at the answer-now stream. -/
def onAnswerNow (v : StreamVars) (a : AnswerVars) (w : Wake) : Segment :=
  match w.outcome with
  | .event (.chunk ch) =>
      suspend (.put queue (.chunk (ch.parts.headD ""))
        (.answer v
          { a with
            outTokens := (ch.usage.map Prod.snd).getD a.outTokens
            relayed := a.relayed + 1
            hasContent := a.hasContent || ch.hasContent }))
  | .event .done => c.answered queue v a true w.now
  | .event .ended => c.answered queue v a false w.now
  | .timedOut _ => c.unanswered queue v a w.now
  | .failed _ => c.unanswered queue v a w.now
  | .raised _ => c.unanswered queue v a w.now
  | _ => suspend (.answerNow queue v a)

/-- What follows a put. -/
def onPut (after : After) (now : ℚ) : Segment :=
  match after with
  | .openStream => suspend (.stream queue { t0 := now })
  | .relay parts v => relay queue v parts
  | .answer v a => suspend (.answerNow queue v a)
  | .terminate v duration => c.terminate queue v none duration
  | .record status v duration =>
      finish [] status (duration.getD (now - v.t0)) v.inputTokens v.outputTokens

/-- Resumed at a put.  The relay of a chunk is inside the `try` of the stream loop and
under its watchdog; a put outside lets an exception escape to `execute_dispatch`. -/
def onQueue (room : Bool) (frame : Frame) (after : After) (w : Wake) : Segment :=
  match w.outcome with
  | .ready =>
      if room then (c.onPut queue after w.now).after (.put queue frame)
      else suspend (.put queue frame after)
  | .timedOut message =>
      match after with
      | .relay _ v => abortStream queue v message .timeout
      | _ => suspend (.put queue frame after)
  | .raised message =>
      match after with
      | .relay _ v => abortStream queue v message .error
      | .answer v a => c.unanswered queue v a w.now
      | _ => c.onException w.now message
  | _ => suspend (.put queue frame after)

end DispatchCtx

/-! ### `execute_dispatch` -/

/-- The slot-affinity block calls `session_id.encode()` on a value that has no UTF-8
encoding, before the `try` is entered. -/
def affinityFault (epCfg : EndpointConfig) (req : QueuedRequest) : Bool :=
  epCfg.slotAffinity && decide (req.payloadType = "chat_completion") && req.sessionId.truthy &&
    decide (req.band = .interactive) && !req.sessionId.encodes

/-- The body up to its first await.  `queue` is what `pending_streams` holds under
the id of the request. -/
def executeDispatch (cfg : ProxyConfig) (c : DispatchCtx) (queue : Option ℕ) (now : ℚ) :
    Segment :=
  let endpoint := c.req.endpoint
  match cfg.endpoints.get? endpoint with
  | none => ⟨[.resolveError { message := s!"unknown endpoint {endpoint}" }], none⟩
  | some epCfg =>
      if affinityFault epCfg c.req = true then ⟨[], none⟩
      else if c.req.stream = true then c.openQueue queue
      else c.attempt {} now

/-- Resume a task that was not cancelled; `room` says whether the queue it wants to
put to has room. -/
def DispatchCtx.resume (cfg : ProxyConfig) (c : DispatchCtx) (queue : Option ℕ) (room : Bool)
    (a : Await) (w : Wake) : Segment :=
  match a with
  | .start =>
      match w.outcome with
      | .ready => executeDispatch cfg c queue w.now
      | _ => suspend .start
  | .call v => c.onCall v w
  | .backoff v => c.onBackoff v w
  | .put q frame after => c.onQueue q room frame after w
  | .stream q v => c.onStream q v w
  | .answerNow q v a => c.onAnswerNow q v a w

/-- Deliver a cancellation: the body of a task that has not begun never runs, any
other await is inside the `try` of `execute_dispatch`. -/
def DispatchCtx.cancelled (c : DispatchCtx) (a : Await) (now : ℚ) : Segment :=
  match a with
  | .start => ⟨[], none⟩
  | _ => c.onCancelled now

end Roadstead
