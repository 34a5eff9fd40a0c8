import Roadstead.Config
import Roadstead.CostModel

/-!
# Requests

`QueuedRequest` and the records the scheduler exchanges with its caller, with the
fields scheduling and dispatch read or write.

A Python request is an object, and the scheduler moves the *object* between its
queues.  `ref` stands for that identity: no operation of the scheduler reads it,
and no operation changes it.
-/

namespace Roadstead

/-- `session_id`, which is whatever JSON value the body carried. -/
inductive SessionId where
  /-- A string, as its code points; JSON can spell a lone surrogate. -/
  | text (codePoints : List ℕ)
  /-- Any other value, `None` included, with its truth value. -/
  | other (truthy : Bool)
  deriving DecidableEq

namespace SessionId

/-- The truth value of `req.session_id`. -/
def truthy : SessionId → Bool
  | text codePoints => codePoints ≠ []
  | other b => b

/-- Whether `session_id.encode()` returns: UTF-8 has no surrogates, and only
strings have the method. -/
def encodes : SessionId → Bool
  | text codePoints => codePoints.all fun c => c < 0xD800 ∨ 0xDFFF < c
  | other _ => false

end SessionId

/-- `QueuedRequest`. -/
structure QueuedRequest where
  /-- The identity of the object. -/
  ref : ℕ := 0
  requestId : String
  agentId : String
  endpoint : String
  priority : LLMPriority := .p1TurnSupport
  band : PriorityBand
  callSite : String := "unknown"
  payloadType : String := "chat_completion"
  payload : Payload := {}
  timeoutDeadline : ℚ
  enqueuedAt : ℚ := 0
  timeoutS : ℚ := 0
  estimatedCostSs : ℚ := 0
  estInputTokens : ℕ := 0
  stream : Bool := false
  ctxPerSlotAtAdmission : ℤ := 0
  /-- The class the request was submitted for, once failover has moved it. -/
  degradedFrom : Option String := none
  spilledFrom : Option String := none
  allowDegrade : Option Bool := none
  allowSpill : Option Bool := none
  sessionId : SessionId := .other false
  turnId : Option String := none
  callerId : Option String := none
  noStoreOutcome : String := ""
  deriving DecidableEq

namespace QueuedRequest

/-- The truth value of `req.spilled_from`: neither `None` nor the empty string. -/
def hasSpilled (r : QueuedRequest) : Bool := r.spilledFrom.getD "" ≠ ""

/-- `no_store`: the content of the request reaches no store and no log. -/
def noStore (r : QueuedRequest) : Bool := r.noStoreOutcome = "honoured"

/-- `_fits_context`. -/
def fitsContext (r : QueuedRequest) (ctxLimit : ℤ) : Bool :=
  contextFit r.payload r.payloadType ctxLimit

/-- What a request keeps through all its moves: everything but the endpoint that
serves it, the cost and token estimates, and the spill record. -/
def core (r : QueuedRequest) : ℕ × String × String × PriorityBand × ℚ :=
  (r.ref, r.requestId, r.agentId, r.band, r.timeoutDeadline)

end QueuedRequest

/-- A request being processed by a backend. -/
structure ActiveRequest where
  request : QueuedRequest
  dispatchedAt : ℚ
  estimatedRemainingS : ℚ := 0
  deriving DecidableEq

/-- The result of a dispatch decision. -/
structure DispatchDecision where
  request : QueuedRequest
  queueWaitMs : ℚ
  occupancyAtDispatch : ℕ
  deriving DecidableEq

/-- Reported by the caller when a dispatched request finishes. -/
structure CompletionRecord where
  requestId : String
  durationS : ℚ
  inputTokens : ℤ := 0
  outputTokens : ℤ := 0
  success : Bool := true
  occupancyDuring : ℤ := 0
  deriving DecidableEq

/-- What to do with one request at the head of its band. -/
inductive Admission where
  | dispatch
  | spill
  | defer
  deriving DecidableEq, Repr

end Roadstead
