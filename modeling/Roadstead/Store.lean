import Roadstead.Request

/-!
# The restart queue

The table `proxy_queue` of `queue.py`: `persist_enqueue`, `persist_dispatch`,
`persist_complete`, `persist_expire`, and `recover_queued`, which rebuilds the requests
that were still queued when the process died.  The definitions follow the source;
nothing is proved here.

The table is keyed by request id, so it is a dictionary.  A column that holds a payload
holds text, and the two functions between payloads and text are those of a `Codec`.
Every write is applied.  A monotonic clock restarts with its process, so the columns
`enqueued_at` and `timeout_deadline` of a dead process mean nothing; `recover_queued`
reads the wall clock and the budget instead.
-/

namespace Roadstead

/-- `json.dumps` and `json.loads`; text that does not parse has no payload. -/
structure Codec where
  dumps : Payload → String
  loads : String → Option Payload

/-- The `status` of a row. -/
inductive RowStatus where
  | queued
  | dispatched
  deriving DecidableEq

/-- A row of `proxy_queue`. -/
structure QueueRow where
  requestId : String
  agentId : String
  endpoint : String
  priority : ℤ
  callSite : String
  payloadType : String
  payloadJson : String
  status : RowStatus := .queued
  enqueuedAt : ℚ
  timeoutDeadline : ℚ
  estimatedCost : ℚ
  sessionId : SessionId
  turnId : Option String
  stream : Bool
  /-- Wall time; zero where an old row has none. -/
  enqueuedWall : ℚ
  timeoutS : ℚ
  callerId : Option String
  deriving DecidableEq

namespace QueueRow

/-- The row `persist_enqueue` writes at the wall time `wall`. -/
def ofRequest (codec : Codec) (req : QueuedRequest) (wall : ℚ) : QueueRow where
  requestId := req.requestId
  agentId := req.agentId
  endpoint := req.endpoint
  priority := req.priority.value
  callSite := req.callSite
  payloadType := req.payloadType
  payloadJson := codec.dumps req.payload
  enqueuedAt := req.enqueuedAt
  timeoutDeadline := req.timeoutDeadline
  estimatedCost := req.estimatedCostSs
  sessionId := req.sessionId
  turnId := req.turnId
  stream := req.stream
  enqueuedWall := wall
  timeoutS := req.timeoutS
  callerId := req.callerId

variable (row : QueueRow)

/-- `ts_budget if ts_budget else 180.0`. -/
def budget : ℚ := if row.timeoutS ≠ 0 then row.timeoutS else 180

/-- The wall time since the request was persisted; nothing is known about an old row. -/
def elapsed (wall : ℚ) : ℚ := if row.enqueuedWall ≠ 0 then max 0 (wall - row.enqueuedWall) else 0

/-- No budget is left. -/
def isSpent (wall : ℚ) : Bool :=
  decide (row.enqueuedWall ≠ 0 ∧ row.budget - row.elapsed wall ≤ 0)

/-- The request `recover_queued` builds from the row, in a process whose monotonic clock
reads `now`. -/
def rebuild (cfg : ProxyConfig) (payload : Payload) (wall now : ℚ) : QueuedRequest where
  requestId := row.requestId
  agentId := row.agentId
  endpoint := cfg.normalizeEndpoint row.endpoint
  priority := .coerce row.priority
  band := (LLMPriority.coerce row.priority).band
  callSite := row.callSite
  payloadType := row.payloadType
  payload := payload
  timeoutDeadline := now + (row.budget - row.elapsed wall)
  enqueuedAt := now - row.elapsed wall
  timeoutS := row.budget
  estimatedCostSs := row.estimatedCost
  sessionId := row.sessionId
  turnId := row.turnId
  callerId := row.callerId
  stream := row.stream

end QueueRow

/-- The table `proxy_queue`. -/
structure PersistentQueue where
  rows : Dict String QueueRow := ∅

namespace PersistentQueue

variable (q : PersistentQueue)

/-- `persist_enqueue`; a request that is not stored gets no row. -/
def persistEnqueue (codec : Codec) (req : QueuedRequest) (wall : ℚ) : PersistentQueue :=
  if req.noStore then q else ⟨q.rows.set req.requestId (.ofRequest codec req wall)⟩

def persistDispatch (requestId : String) : PersistentQueue :=
  ⟨q.rows.modify requestId fun row => { row with status := .dispatched }⟩

/-- `persist_complete`, as far as this table is concerned. -/
def persistComplete (requestId : String) : PersistentQueue := ⟨q.rows.erase requestId⟩

def persistExpire (requestId : String) : PersistentQueue := ⟨q.rows.erase requestId⟩

/-- `DELETE FROM proxy_queue WHERE ...`. -/
def deleteWhere (p : QueueRow → Bool) : PersistentQueue :=
  ⟨(q.rows.entries.filter fun e => p e.2).foldl (fun rows e => rows.erase e.1) q.rows⟩

/-- The rows `recover_queued` selects: neither dispatched nor streaming. -/
def selected : PersistentQueue :=
  (q.deleteWhere fun row => row.status = .dispatched).deleteWhere fun row =>
    decide (row.status = .queued) && row.stream

/-- `recover_queued` at the wall time `wall`, in a process whose clock reads `now`: the
requests, and the table it leaves. -/
def recoverQueued (cfg : ProxyConfig) (codec : Codec) (wall now : ℚ) :
    List QueuedRequest × PersistentQueue :=
  let q := q.selected
  ((q.rows.values.filter fun row => decide (row.status = .queued) && !row.isSpent wall).map fun row =>
      row.rebuild cfg ((codec.loads row.payloadJson).getD {}) wall now,
    q.deleteWhere fun row => decide (row.status = .queued) && row.isSpent wall)

end PersistentQueue

end Roadstead
