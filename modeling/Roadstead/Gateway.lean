import Roadstead.Failover
import Roadstead.Lifecycle
import Roadstead.Store

/-!
# The gateway

`Lifecycle.handle_submit` from the request it creates to the queue it puts it on, with
what it consults on the way: the response cache, the on-demand manager, the circuit
breaker with failover, load shedding, and the corrections that end in
`extend_deadline_for_granted_budget`.  The proxy of `Lifecycle` is what runs behind it.
The definitions follow the source; nothing is proved here.

## Turns

A submission is one turn, unless its endpoint is loaded on demand: `ensure_loaded` takes
a lock for each endpoint and holds it across the `POST` to the dispatcher, so a handler
can be suspended waiting for the lock or for the dispatcher.  Such a handler is a `Load`.
The next turns are those of the proxy (`GatewayEvent.turn`), with the scheduler asking
this gateway about the health of an endpoint, and the turns of the other parties: the
poller (any change of `Health`, and `refresh`), `fast_fail_interactive`, the loop of the
on-demand manager, and a sync handler that goes on after its answer was corrected.

## What is left to parameters

A `Submission` is what `handle_submit` has made of the body when it calls
`QueuedRequest.create`; the gates before that point and the context gate refuse or let
pass without touching the state.  What the corrections make of the payload, what the
timeout model advises, and what `Correction.apply` makes of an answer are given with the
event, and nothing is assumed about them.  An `enqueue` that raises is in `Gateway.Raising`.

## What no turn reads

`Handler.asked`, `Handler.payload`, `Handler.counted`, `CacheEntry.origin` and `reroutes`
are history, kept so that the theorems can speak about it.
-/

namespace Roadstead

open Scheduler

/-! ### Submissions -/

/-- The arguments of `QueuedRequest.create`, and what is done to the request later on. -/
structure Submission where
  requestId : String
  agentId : String
  /-- `resolve_endpoint(body)`. -/
  endpoint : String
  priority : LLMPriority := .p1TurnSupport
  callSite : String := "unknown"
  payloadType : String := "chat_completion"
  payload : Payload := {}
  timeoutS : ℚ := 180
  sessionId : SessionId := .other false
  turnId : Option String := none
  callerId : Option String := none
  allowDegrade : Option Bool := none
  allowSpill : Option Bool := none
  noStoreOutcome : String := ""
  /-- The payload after the corrections. -/
  corrected : QueuedRequest → Payload := QueuedRequest.payload
  /-- `effective_timeout_advice(...)["recommended_timeout_s"]`, or `none` when that raises. -/
  recommendedTimeoutS : QueuedRequest → Option ℚ := fun _ => none

namespace Submission

/-- `QueuedRequest.create`.  A request that is not stored is not spilled either. -/
def create (cfg : ProxyConfig) (s : Submission) (now : ℚ) : QueuedRequest where
  requestId := s.requestId
  agentId := s.agentId
  endpoint := cfg.normalizeEndpoint s.endpoint
  priority := s.priority
  band := s.priority.band
  callSite := s.callSite
  payloadType := s.payloadType
  payload := s.payload
  timeoutDeadline := now + s.timeoutS
  enqueuedAt := now
  timeoutS := s.timeoutS
  stream := s.payload.stream
  ctxPerSlotAtAdmission :=
    if s.payloadType = "chat_completion" then
      ((cfg.endpoints.get? (cfg.normalizeEndpoint s.endpoint)).map
        EndpointConfig.contextPerSlot).getD 0
    else 0
  allowDegrade := s.allowDegrade
  allowSpill := if s.noStoreOutcome = "honoured" then some false else s.allowSpill
  sessionId := s.sessionId
  turnId := s.turnId
  callerId := s.callerId
  noStoreOutcome := s.noStoreOutcome

/-- The deadline `extend_deadline_for_granted_budget` raises `timeout_s` to, when it does:
an integer `max_tokens` was raised, and the advice for it is longer. -/
def grantedTimeoutS (s : Submission) (before : Option MaxTokens) (req : QueuedRequest) :
    Option ℚ :=
  match req.payload.maxTokens, before with
  | some (.int after), some (.int before) =>
      if 0 < after ∧ 0 < before ∧ before < after then
        match s.recommendedTimeoutS req with
        | some advised => if advised ≠ 0 ∧ req.timeoutS < advised then some advised else none
        | none => none
      else none
  | _, _ => none

/-- `extend_deadline_for_granted_budget`. -/
def extendDeadlineForGrantedBudget (s : Submission) (before : Option MaxTokens)
    (req : QueuedRequest) : QueuedRequest :=
  match s.grantedTimeoutS before req with
  | some advised => { req with timeoutS := advised }
  | none => req

/-- The request with its corrected payload. -/
def correct (s : Submission) (req : QueuedRequest) : QueuedRequest :=
  { req with payload := s.corrected req }

/-- The corrections of `handle_submit`, from the reasoning replay on. -/
def prepare (s : Submission) (req : QueuedRequest) : QueuedRequest :=
  s.extendDeadlineForGrantedBudget req.payload.maxTokens (s.correct req)

end Submission

/-! ### The response cache -/

/-- `cache_key`; the digest of the source stands for the pair it is computed from. -/
abbrev CacheKey := String × Payload

/-- A cached response. -/
structure CacheEntry where
  expiresAt : ℚ
  response : BackendResponse
  /-- The request the response was produced for. -/
  origin : ℕ
  deriving DecidableEq

/-- `DeterministicCache`; the dictionary is ordered from the least recently used. -/
structure DeterministicCache where
  entries : Dict CacheKey CacheEntry := ∅
  maxSize : ℕ := 256
  ttlS : ℚ := 300

namespace DeterministicCache

/-- `cache_key`: only a request at temperature zero that does not stream has one. -/
def cacheKey (endpoint : String) (payload : Payload) : Option CacheKey :=
  if payload.temperature ≠ some 0 then none
  else if payload.stream then none
  else some (endpoint, payload)

/-- The key `handle_submit` looks a request up under; a request that is not stored is not
cached either. -/
def keyOf (req : QueuedRequest) : Option CacheKey :=
  if req.noStore then none else cacheKey req.endpoint req.payload

/-- `get`. -/
def get (c : DeterministicCache) (key : CacheKey) (now : ℚ) :
    Option BackendResponse × DeterministicCache :=
  match c.entries.get? key with
  | none => (none, c)
  | some e =>
      if e.expiresAt < now then (none, { c with entries := c.entries.erase key })
      else (some e.response, { c with entries := (c.entries.erase key).set key e })

/-- `get` for a request that has a key. -/
def lookup (c : DeterministicCache) (key : Option CacheKey) (now : ℚ) :
    Option BackendResponse × DeterministicCache :=
  match key with
  | none => (none, c)
  | some key => c.get key now

/-- `while len(self._cache) > self._max_size: self._cache.popitem(last=False)`. -/
def evict (c : DeterministicCache) : DeterministicCache :=
  { c with
    entries := (c.entries.keys.take (c.entries.size - c.maxSize)).foldl Dict.erase c.entries }

/-- `put`, for a response that was produced for `origin`. -/
def put (c : DeterministicCache) (key : CacheKey) (response : BackendResponse) (origin : ℕ)
    (now : ℚ) : DeterministicCache :=
  evict { c with entries := (c.entries.erase key).set key ⟨now + c.ttlS, response, origin⟩ }

end DeterministicCache

/-! ### On-demand endpoints -/

/-- `_EndpointState` of the on-demand manager. -/
structure OnDemandState where
  leaseId : Option String := none
  inflight : ℕ := 0
  lastActivity : ℚ := 0
  lastHeartbeat : ℚ := 0
  deriving DecidableEq

/-- `_STUCK_INFLIGHT_S`. -/
def stuckInflightS : ℚ := 1200

/-- `_HOLD_IDLE_S`. -/
def holdIdleS : ℚ := 60

namespace OnDemandState

/-- `request_done`. -/
def requestDone (st : OnDemandState) (now : ℚ) : OnDemandState :=
  { st with inflight := st.inflight - 1, lastActivity := now }

/-- The leak guard of the loop. -/
def isStuck (st : OnDemandState) (now : ℚ) : Bool :=
  decide (st.leaseId ≠ none ∧ 0 < st.inflight ∧ stuckInflightS ≤ now - st.lastActivity)

/-- The condition under which the loop gives the lease back. -/
def isIdle (st : OnDemandState) (now : ℚ) : Bool :=
  decide (st.leaseId ≠ none ∧ st.inflight = 0 ∧ holdIdleS ≤ now - st.lastActivity)

end OnDemandState

/-- What becomes of the `POST` to the dispatcher. -/
inductive Posted where
  /-- `httpx.HTTPError`, or a status other than 200; the text of `OnDemandUnavailable`. -/
  | failed (exc : String)
  /-- Status 200; the `lease_id` of the body. -/
  | loaded (leaseId : Option String)
  /-- Status 200, and the body is no JSON object. -/
  | broken
  deriving DecidableEq

/-- A submit handler inside `ensure_loaded`. -/
structure Load where
  submission : Submission
  req : QueuedRequest
  cacheKey : Option CacheKey
  /-- It holds the lock and is waiting for the dispatcher. -/
  posting : Bool := false

/-- The submit handler of a request that was enqueued. -/
structure Handler where
  /-- The endpoint the request was created for. -/
  asked : String
  /-- The payload it was created with. -/
  payload : Payload
  cacheKey : Option CacheKey
  /-- `ensure_loaded` returned for it. -/
  counted : Bool
  /-- The handler has returned. -/
  returned : Bool := false
  deriving DecidableEq

/-- What the handler of a request that was admitted keeps. -/
def Load.handler (load : Load) (counted : Bool) : Handler where
  asked := load.req.endpoint
  payload := load.req.payload
  cacheKey := load.cacheKey
  counted := counted

/-- What a request is refused with before it is enqueued. -/
structure Rejection where
  requestId : String
  status : ℕ
  code : String
  error : String
  degradedRefusal : Option String := none
  deriving DecidableEq

/-- The result `Correction.apply` leaves for the rest of `handle_sync_submit`. -/
structure CorrectedResult where
  ok : Bool := true
  response : BackendResponse
  degenerateUnrecovered : Bool := false
  schemaUnrecoverable : Bool := false
  deriving DecidableEq

/-! ### The state -/

/-- The state of the gateway. -/
structure Gateway where
  proxy : Proxy
  health : Health := {}
  failover : Failover := {}
  /-- The on-demand manager. -/
  onDemand : Dict String OnDemandState := ∅
  cache : DeterministicCache := {}
  /-- `shed_depth`. -/
  shedDepth : ℕ := 64
  loads : Dict ℕ Load := ∅
  nextLoad : ℕ := 0
  handlers : Dict ℕ Handler := ∅
  rejections : List Rejection := []
  /-- Every reroute: the request, and the endpoint it was moved off. -/
  reroutes : List (ℕ × String) := []

/-- One turn of the event loop. -/
inductive GatewayEvent where
  /-- `handle_submit`. -/
  | submit (s : Submission) (now : ℚ)
  /-- A handler gets the lock of `ensure_loaded`. -/
  | acquire (load : ℕ) (now : ℚ)
  /-- The dispatcher answers a handler. -/
  | posted (load : ℕ) (outcome : Posted) (now : ℚ)
  /-- A handler is cancelled inside `ensure_loaded`. -/
  | abort (load : ℕ)
  /-- A turn of the proxy. -/
  | turn (e : Event)
  /-- A sync handler goes on after `Correction.apply`. -/
  | finish (ref : ℕ) (result : CorrectedResult) (now : ℚ)
  /-- A request that was rebuilt from the store is enqueued at startup; `payload` is what
  its row and the JSON guard give. -/
  | recovered (row : QueueRow) (payload : Payload) (wall now : ℚ)
  | fastFailInteractive (ep reason : String) (now : ℚ)
  /-- Any change of what `endpoint_healthy` reads. -/
  | health (h : Health)
  /-- `failover.refresh` of the poller. -/
  | refresh (now : ℚ)
  /-- The leak guard of the on-demand loop. -/
  | leakGuard (ep : String) (now : ℚ)
  /-- The heartbeat of the on-demand loop; whether the dispatcher still has the lease. -/
  | heartbeat (ep : String) (kept : Bool) (now : ℚ)
  /-- The idle watchdog of the on-demand loop. -/
  | release (ep : String) (now : ℚ)

/-- Move a queued request: `cancel`, `Failover.apply` and `enqueue` of one object. -/
def World.reroute (cfg : ProxyConfig) (w : World) (req : QueuedRequest) (target : String) : World :=
  { w with
    sched := enqueue cfg (w.sched.cancel req.requestId).1 (Failover.apply cfg req target) }

/-- `Scheduler.queued_requests`. -/
def Scheduler.queuedRequests (s : Scheduler) (ep : String) (bands : List PriorityBand) :
    List QueuedRequest :=
  bands.flatMap fun band => ((s.queueOf ep).queues band).values.flatten

namespace Gateway

/-- The gateway of a process that has just started. -/
def init (cfg : ProxyConfig) (cost : CostModel) (budgets : BudgetManager) (shedDepth : ℕ := 64) :
    Gateway where
  proxy := Proxy.init cfg cost budgets
  onDemand := Dict.setAll ∅ ((cfg.endpoints.keys.filter cfg.manages).map fun ep => (ep, {}))
  shedDepth := shedDepth

variable (cfg : ProxyConfig)

/-! ### Health and failover -/

/-- `endpoint_healthy`. -/
def healthy (g : Gateway) (now : ℚ) (ep : String) : Bool := g.health.endpointHealthy cfg now ep

/-- `failover.refresh`. -/
def refreshed (g : Gateway) (now : ℚ) : Gateway :=
  { g with
    failover := g.failover.refresh cfg (g.healthy cfg now) g.proxy.world.sched.degradedInflight now }

/-- `failover.plan`. -/
def plan (g : Gateway) (now : ℚ) (req : QueuedRequest) : Failover.FailoverPlan :=
  g.failover.plan cfg (g.healthy cfg now) req

/-- `on_demand.request_done`. -/
def requestDone (g : Gateway) (ep : String) (now : ℚ) : Gateway :=
  { g with onDemand := g.onDemand.modify ep fun st => st.requestDone now }

/-! ### From the circuit breaker to the queue -/

/-- `queue_by_band` of `endpoint_snapshot`. -/
def queueByBand (g : Gateway) (req : QueuedRequest) : ℕ :=
  (g.proxy.world.sched.queueOf req.endpoint).bandDepth req.band

/-- The band as it is spelled in a message. -/
def bandName : PriorityBand → String
  | .interactive => "interactive"
  | .foreground => "foreground"
  | .background => "background"

/-- The refusal of the circuit breaker. -/
def circuitRejection (g : Gateway) (req : QueuedRequest) (plan : Failover.FailoverPlan) :
    Rejection :=
  let source := cfg.normalizeEndpoint req.endpoint
  let endpoint := req.endpoint
  let (code, err) :=
    if source ∈ g.health.pausedEndpoints then
      ("draining", s!"backend {endpoint} paused for maintenance (drain) — backpressure")
    else if source ∈ g.health.collapsedEndpoints ∧ g.health.goodputCollapseEnforce = true then
      ("goodput_collapse",
        s!"backend {endpoint} is occupied and producing almost nothing (goodput collapse) — backpressure")
    else ("circuit_open", s!"backend {endpoint} unavailable (circuit open)")
  match plan with
  | .refuse refusal =>
      { requestId := req.requestId, status := 503, code := code, error := err ++ refusal.detail
        degradedRefusal := some refusal.code }
  | _ => { requestId := req.requestId, status := 503, code := code, error := err }

/-- The refusal of load shedding. -/
def shedRejection (req : QueuedRequest) : Rejection :=
  let endpoint := req.endpoint
  let band := bandName req.band
  { requestId := req.requestId, status := 429, code := "backpressure"
    error := s!"backpressure: {endpoint} {band} queue saturated" }

/-- Refuse a request, and release the hold it may have. -/
def reject (g : Gateway) (req : QueuedRequest) (rejection : Rejection) (now : ℚ) : Gateway :=
  { g.requestDone req.endpoint now with rejections := g.rejections ++ [rejection] }

/-- The branch of `handle_submit`: `handle_streaming_submit` or `handle_sync_submit`, up to
its first await.  `source` is the endpoint the request was moved off, if it was. -/
def enqueue (g : Gateway) (s : Submission) (req : QueuedRequest) (handler : Handler)
    (source : Option String) : Gateway :=
  let ref := g.proxy.world.enqueued.length
  { g with
    proxy := g.proxy.submit cfg (s.prepare req)
    handlers := g.handlers.set ref handler
    reroutes := g.reroutes ++ (source.map fun source => (ref, source)).toList }

/-- Load shedding, the corrections, and the queue. -/
def shed (g : Gateway) (s : Submission) (req : QueuedRequest) (handler : Handler)
    (source : Option String) (now : ℚ) : Gateway :=
  if req.band ≠ .interactive ∧ g.shedDepth ≤ g.queueByBand req then
    g.reject req (shedRejection req) now
  else g.enqueue cfg s req handler source

/-- `handle_submit` from the circuit breaker on. -/
def circuitBreaker (g : Gateway) (s : Submission) (req : QueuedRequest) (handler : Handler) (now : ℚ) :
    Gateway :=
  if g.healthy cfg now req.endpoint then g.shed cfg s req handler none now
  else
    let g := g.refreshed cfg now
    match g.plan cfg now req with
    | .reroute target =>
        (g.requestDone req.endpoint now).shed cfg s (Failover.apply cfg req target) handler
          (some (cfg.normalizeEndpoint req.endpoint)) now
    | plan =>
        if req.band ≠ .background then
          g.reject req (g.circuitRejection cfg req plan) now
        else g.shed cfg s req handler none now

/-! ### `ensure_loaded` -/

/-- `ensure_loaded` with the lock held: count the request, and ask for a lease unless there
is one. -/
def ensure (g : Gateway) (id : ℕ) (load : Load) (now : ℚ) : Gateway :=
  let held := ((g.onDemand.get? load.req.endpoint).bind OnDemandState.leaseId).isSome
  let g :=
    { g with
      onDemand := g.onDemand.modify load.req.endpoint fun st =>
        { st with inflight := st.inflight + 1, lastActivity := now } }
  if held then
    ({ g with loads := g.loads.erase id }).circuitBreaker cfg load.submission load.req
      (load.handler true) now
  else { g with loads := g.loads.set id { load with posting := true } }

/-- Some handler holds the lock of `ep` or is waiting for it. -/
def contended (g : Gateway) (ep : String) : Bool :=
  g.loads.values.any fun load => load.req.endpoint = ep

/-- The lock of `ep` is held. -/
def locked (g : Gateway) (ep : String) : Bool :=
  g.loads.values.any fun load => load.posting && decide (load.req.endpoint = ep)

/-- `handle_submit`, up to its first await. -/
def submit (g : Gateway) (s : Submission) (now : ℚ) : Gateway :=
  let req := s.create cfg now
  let key := DeterministicCache.keyOf req
  let found := g.cache.lookup key now
  let g := { g with cache := found.2 }
  -- An empty response body is falsy, and goes on as a miss.
  if found.1.any fun r => r.body ≠ "" then g
  else
    let load : Load := { submission := s, req := req, cacheKey := key }
    if cfg.manages req.endpoint then
      let id := g.nextLoad
      let contended := g.contended req.endpoint
      let g := { g with nextLoad := id + 1 }
      if contended then { g with loads := g.loads.set id load } else g.ensure cfg id load now
    else g.circuitBreaker cfg s req (load.handler false) now

/-- A waiting handler gets the lock. -/
def acquire (g : Gateway) (id : ℕ) (now : ℚ) : Gateway :=
  match g.loads.get? id with
  | none => g
  | some load =>
      if load.posting || g.locked load.req.endpoint then g else g.ensure cfg id load now

/-- The handler goes on when the dispatcher has answered. -/
def posted (g : Gateway) (id : ℕ) (outcome : Posted) (now : ℚ) : Gateway :=
  match g.loads.get? id with
  | none => g
  | some load =>
      if load.posting then
        let ep := load.req.endpoint
        let g := { g with loads := g.loads.erase id }
        match outcome with
        | .failed exc =>
            let rejection : Rejection :=
              { requestId := load.req.requestId, status := 503, code := "on_demand_unavailable"
                error := s!"on-demand backend {ep} could not be loaded — backpressure: {exc}" }
            { g with
              onDemand := g.onDemand.modify ep fun st => { st with inflight := st.inflight - 1 }
              rejections := g.rejections ++ [rejection] }
        | .loaded leaseId =>
            ({ g with
              onDemand := g.onDemand.modify ep fun st =>
                { st with leaseId := leaseId, lastHeartbeat := now } }).circuitBreaker cfg load.submission
              load.req (load.handler true) now
        | .broken => g
      else g

/-- A handler is cancelled inside `ensure_loaded`. -/
def abort (g : Gateway) (id : ℕ) : Gateway := { g with loads := g.loads.erase id }

/-! ### Turns of the proxy -/

/-- The scheduler asks this gateway about health. -/
def oracles (g : Gateway) (o : Oracles) (now : ℚ) : Oracles :=
  { o with isEndpointHealthy := some fun _ ep => g.healthy cfg now ep }

/-- The endpoints whose hold the next segment of the task of `ref` releases: that of its
request, once for each completion it records. -/
def completing (policy : Policy) (g : Gateway) (ref : ℕ) (w : Wake) : List String :=
  match g.proxy.tasks.get? ref with
  | none => []
  | some t =>
      match t.await with
      | none => []
      | some a =>
          ((g.proxy.segmentOf cfg policy t a w).effects.filterMap Effect.status?).map fun _ =>
            t.decision.request.endpoint

/-- A turn of the proxy.  A task that records its completion releases the hold on its
endpoint. -/
def turn (policy : Policy) (g : Gateway) : Event → Gateway
  | .submit _ => g
  | .fastFail _ _ => g
  | .tick o now => { g with proxy := g.proxy.schedulerLoop cfg (g.oracles cfg o now) now }
  | .task ref w =>
      (g.completing cfg policy ref w).foldl (fun g ep => g.requestDone ep w.now)
        { g with proxy := g.proxy.runTask cfg policy ref w }
  | e => { g with proxy := g.proxy.step cfg policy e }

/-! ### The end of a sync handler -/

/-- The response a waiter was given, with the request it was produced for. -/
def answerOf (g : Gateway) (ref : ℕ) : Option ℕ :=
  match (g.proxy.waiters.get? ref).map Waiter.received with
  | some [(origin, .ok _)] => some origin
  | _ => none

/-- `handle_sync_submit` from `Correction.apply` on: cache the response if it may be
cached. -/
def finish (g : Gateway) (ref : ℕ) (result : CorrectedResult) (now : ℚ) : Gateway :=
  match g.handlers.get? ref, g.answerOf ref with
  | some handler, some origin =>
      if handler.returned then g
      else
        let g := { g with handlers := g.handlers.set ref { handler with returned := true } }
        match handler.cacheKey with
        | none => g
        | some key =>
            if result.ok ∧ !result.degenerateUnrecovered ∧ !result.schemaUnrecoverable ∧
                result.response.finishReason ≠ some "length" then
              { g with cache := g.cache.put key result.response origin now }
            else g
  | _, _ => g

/-! ### `fast_fail_interactive` -/

/-- Release a queued request with an error. -/
def releaseQueued (p : Proxy) (req : QueuedRequest) (failure : Failure) : Proxy :=
  ({ p with world := p.world.step cfg (.cancel req.requestId) }).resolveError req failure

/-- The body of the loop of `fast_fail_interactive`. -/
def fastFailOne (ep reason : String) (now : ℚ) (g : Gateway) (req : QueuedRequest) : Gateway :=
  match g.plan cfg now req with
  | .reroute target =>
      { g with
        proxy := { g.proxy with world := g.proxy.world.reroute cfg req target }
        reroutes := g.reroutes ++ [(req.ref, cfg.normalizeEndpoint req.endpoint)] }
  | .refuse refusal =>
      let clause := refusal.detail
      { g with
        proxy := releaseQueued cfg g.proxy req
          { message := s!"backend {ep} unavailable ({reason}){clause}" } }
  | .nothing =>
      { g with
        proxy := releaseQueued cfg g.proxy req
          { message := s!"backend {ep} unavailable ({reason})" } }

/-- `fast_fail_interactive`. -/
def fastFailInteractive (g : Gateway) (ep reason : String) (now : ℚ) : Gateway :=
  let g := g.refreshed cfg now
  (g.proxy.world.sched.queuedRequests ep [.interactive, .foreground]).foldl
    (fastFailOne cfg ep reason now) g

/-- The end of startup: `scheduler.enqueue` of a request nobody waits for. -/
def recovered (g : Gateway) (req : QueuedRequest) : Gateway :=
  { g with proxy := { g.proxy with world := g.proxy.world.step cfg (.enqueue req) } }

/-! ### The loop of the on-demand manager -/

/-- The leak guard. -/
def leakGuard (g : Gateway) (ep : String) (now : ℚ) : Gateway :=
  { g with
    onDemand := g.onDemand.modify ep fun st =>
      if st.isStuck now then { st with inflight := 0 } else st }

/-- The heartbeat; a lease the dispatcher has lost is dropped. -/
def heartbeat (g : Gateway) (ep : String) (kept : Bool) (now : ℚ) : Gateway :=
  { g with
    onDemand := g.onDemand.modify ep fun st =>
      if st.leaseId = none then st
      else if kept then { st with lastHeartbeat := now }
      else { st with leaseId := none } }

/-- The idle watchdog gives the lease back. -/
def release (g : Gateway) (ep : String) (now : ℚ) : Gateway :=
  { g with
    onDemand := g.onDemand.modify ep fun st =>
      if st.isIdle now then { st with leaseId := none } else st }

/-! ### Runs -/

def step (policy : Policy) (g : Gateway) : GatewayEvent → Gateway
  | .submit s now => g.submit cfg s now
  | .acquire load now => g.acquire cfg load now
  | .posted load outcome now => g.posted cfg load outcome now
  | .abort load => g.abort load
  | .turn e => g.turn cfg policy e
  | .finish ref result now => g.finish ref result now
  | .recovered row payload wall now => g.recovered cfg (row.rebuild cfg payload wall now)
  | .fastFailInteractive ep reason now => g.fastFailInteractive cfg ep reason now
  | .health h => { g with health := h }
  | .refresh now => g.refreshed cfg now
  | .leakGuard ep now => g.leakGuard ep now
  | .heartbeat ep kept now => g.heartbeat ep kept now
  | .release ep now => g.release ep now

def run (policy : Policy) (g : Gateway) (events : List GatewayEvent) : Gateway :=
  Runs.run (step cfg policy) g events

end Gateway

end Roadstead
