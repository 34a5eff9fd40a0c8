import Roadstead.AgentBudget
import Roadstead.EndpointQueue
import Roadstead.Lib.Run

/-!
# The scheduler

`scheduler.py`: `Scheduler.enqueue`, `tick`, `complete` and `cancel` as functions
on an explicit state.  The definitions follow the source statement by statement;
nothing is proved here.

## What the source asks of the outside

`is_endpoint_healthy` and `may_spend` are callbacks.  Nothing is known about their
answers, and two calls of one tick may be answered differently (both read clocks),
so an `Oracles` value answers each *call*: a `CallSite` names the pass, the band
and the attempt a call is made from, which identifies it within its tick.

## What a tick reports

`on_timeout`, `on_dispatch` and `on_spill` are recorded instead of called.  A
dispatch or a spill is recorded as a `Moment`, together with the live state it
happened in, so that a property can be stated about "the moment of the dispatch"
and not only about the state between two ticks.

## What is left to another layer

The functions here are total: they are those of calls whose estimates return.  An estimate can
raise, out of `enqueue` and, from a spill, out of the middle of `tick`; `Scheduler.Raising` adds
these ends of a call.
-/

namespace Roadstead

/-- Where in a tick a callback is called: the endpoint pass, the band (`none`
before the band loop) and the attempt. -/
structure CallSite where
  pass : String
  band : Option PriorityBand := none
  attempt : ℕ := 0
  deriving DecidableEq

/-- The callbacks of one tick; `none` is a callback nobody set. -/
structure Oracles where
  isEndpointHealthy : Option (CallSite → String → Bool) := none
  maySpend : Option (CallSite → String → Bool) := none

namespace Oracles

/-- The answer about an endpoint; unset means healthy. -/
def healthy (o : Oracles) (site : CallSite) (endpoint : String) : Bool :=
  match o.isEndpointHealthy with
  | none => true
  | some f => f site endpoint

/-- The answer about an agent; unset means unconstrained. -/
def spendAllowed (o : Oracles) (site : CallSite) (agentId : String) : Bool :=
  match o.maySpend with
  | none => true
  | some f => f site agentId

end Oracles

/-- `Scheduler`. -/
structure Scheduler where
  queues : Dict String EndpointQueue
  active : Dict String (Dict String ActiveRequest)
  budgets : BudgetManager
  cost : CostModel
  totalDispatched : ℕ := 0
  totalTimeouts : ℕ := 0
  totalCompleted : ℕ := 0
  totalSpilled : ℕ := 0

/-- What the dispatch loop reported. -/
inductive PassEvent where
  /-- `on_dispatch`. -/
  | dispatch (decision : DispatchDecision)
  /-- `on_spill`, with the request as it was at the head of its deque. -/
  | spill (req : QueuedRequest) (target : String)

/-- An event of the pass over `endpoint`, with the state just before it and the
callbacks of its tick. -/
structure Moment where
  before : Scheduler
  oracles : Oracles
  endpoint : String
  site : CallSite
  event : PassEvent

namespace Scheduler

/-- `Scheduler.__init__`. -/
def init (cfg : ProxyConfig) (cost : CostModel) (budgets : BudgetManager) : Scheduler where
  queues := cfg.endpoints.map fun _ _ => .empty
  active := cfg.endpoints.map fun _ _ => ∅
  budgets := budgets
  cost := cost

/-- `self._queues[ep]`, empty where there is none. -/
def queueOf (s : Scheduler) (ep : String) : EndpointQueue := (s.queues.get? ep).getD .empty

/-- `self._active.get(ep, {})`. -/
def activeOf (s : Scheduler) (ep : String) : Dict String ActiveRequest :=
  (s.active.get? ep).getD ∅

/-- Mutate the queue object of `ep`. -/
def setQueue (s : Scheduler) (ep : String) (eq : EndpointQueue) : Scheduler :=
  { s with queues := s.queues.set ep eq }

/-- `len(self._active[ep])`. -/
def inFlight (s : Scheduler) (ep : String) : ℕ := (s.activeOf ep).size

/-- The background requests in flight on `ep`. -/
def bgInFlight (s : Scheduler) (ep : String) : ℕ :=
  (s.activeOf ep).sum fun _ ar => if ar.request.band = .background then 1 else 0

/-! ### Enqueue -/

/-- A queue and an active map for an endpoint that has none. -/
def ensureEndpoint (s : Scheduler) (ep : String) : Scheduler :=
  if ep ∈ s.queues.keys then s
  else { s with queues := s.queues.set ep .empty, active := s.active.set ep ∅ }

/-- The request with the token and cost estimates `enqueue` stores in it. -/
def estimated (s : Scheduler) (req : QueuedRequest) : QueuedRequest :=
  { req with
    estInputTokens := req.payload.inputTokens
    estimatedCostSs := s.cost.estimateCost req.endpoint req.payload.inputTokens
      req.payload.maxOutput req.callSite (s.activeOf req.endpoint).size }

/-- What `enqueue` has done when it comes to the payload: the endpoint has a queue and the agent a
budget. -/
def prepared (cfg : ProxyConfig) (s : Scheduler) (req : QueuedRequest) : Scheduler :=
  let s := s.ensureEndpoint req.endpoint
  let agentCfg := cfg.agentConfig req.agentId
  { s with
    budgets := s.budgets.getOrCreate req.agentId agentCfg.weight agentCfg.maxBalanceSs
      req.enqueuedAt }

/-- `enqueue`, of a payload that can be estimated; `Scheduler.Raising` has the others. -/
def enqueue (cfg : ProxyConfig) (s : Scheduler) (req : QueuedRequest) : Scheduler :=
  let s := prepared cfg s req
  s.setQueue req.endpoint ((s.queueOf req.endpoint).enqueue (s.estimated req))

/-! ### The admission decision -/

/-- `_available_for_band`. -/
def availableForBand (s : Scheduler) (epCfg : EndpointConfig) (band : PriorityBand)
    (currentInFlight : ℕ) (eq : EndpointQueue) : ℤ :=
  let totalFree := epCfg.effectiveMaxSlots - currentInFlight
  if totalFree ≤ 0 then 0
  else if band = .background then
    min totalFree (max 0 (epCfg.backgroundCapSlots - s.bgInFlight epCfg.endpointClass))
  else if 0 < eq.bandDepth .background then
    let ceiling := max 1 (epCfg.effectiveMaxSlots - epCfg.backgroundFloorSlots)
    let nonBgInFlight := (currentInFlight : ℤ) - s.bgInFlight epCfg.endpointClass
    max 0 (ceiling - nonBgInFlight)
  else totalFree

/-- `_spill_target`: the endpoint class `epCfg` may spill to, or `""`. -/
def spillTarget (cfg : ProxyConfig) (o : Oracles) (site : CallSite) (epCfg : EndpointConfig) :
    String :=
  let target := epCfg.spillTo
  if target = "" ∨ target ∉ cfg.endpoints.keys then ""
  else if target = epCfg.endpointClass then ""
  else if o.healthy site target = false then ""
  else target

/-- `_admit`: dispatch locally, spill, or defer. -/
def admission (cfg : ProxyConfig) (o : Oracles) (site : CallSite) (s : Scheduler)
    (epCfg : EndpointConfig) (req : QueuedRequest) (currentOccupancy : ℕ)
    (bandAvailable : ℤ) (target : String) : Admission :=
  if epCfg.maxSlots ≤ 0 then .defer
  else if 0 < bandAvailable ∧ (currentOccupancy : ℤ) < epCfg.effectiveMaxSlots then .dispatch
  else if target = "" then .defer
  else if req.hasSpilled then .defer
  else if (cfg.agentConfig req.agentId).spillOk = false then .defer
  else if req.allowSpill = some false then .defer
  else if o.spendAllowed site req.agentId = false then .defer
  else
    match cfg.endpoints.get? target with
    | none => .defer
    | some tgtCfg =>
        if req.fitsContext tgtCfg.contextPerSlot = false then .defer
        else if tgtCfg.effectiveMaxSlots ≤ (s.activeOf target).size then .defer
        else .spill

/-- The request as `_spill` rewrites it. -/
def spilledTo (cfg : ProxyConfig) (req : QueuedRequest) (target : String) : QueuedRequest :=
  { req with
    spilledFrom := some req.endpoint
    endpoint := target
    ctxPerSlotAtAdmission := ((cfg.endpoints.get? target).map (·.contextPerSlot)).getD 0 }

/-- `_spill`: move `req` onto the queue of `target`. -/
def spill (cfg : ProxyConfig) (s : Scheduler) (req : QueuedRequest) (target : String) :
    Scheduler :=
  enqueue cfg { s with totalSpilled := s.totalSpilled + 1 } (spilledTo cfg req target)

/-- The bookkeeping of a dispatch: charge, claim the slot, count. -/
def startRequest (s : Scheduler) (ep agentId : String) (req : QueuedRequest) (now : ℚ) :
    Scheduler :=
  { s with
    budgets := s.budgets.charge agentId req.estimatedCostSs now
    active := s.active.set ep ((s.activeOf ep).set req.requestId
      { request := req, dispatchedAt := now, estimatedRemainingS := req.estimatedCostSs })
    totalDispatched := s.totalDispatched + 1 }

/-! ### The dispatch loop -/

/-- The variables of `_dispatch_endpoint` that live through all bands. -/
structure Pass where
  sched : Scheduler
  decisions : List DispatchDecision := []
  trace : List Moment := []

/-- The variables of the loop over one band. -/
structure BandVars extends Pass where
  available : ℤ
  attempts : ℕ := 0

/-- What the loop over one band reads and never writes. -/
structure BandCtx where
  cfg : ProxyConfig
  oracles : Oracles
  epName : String
  epCfg : EndpointConfig
  now : ℚ
  /-- `len(active)` when the pass over the endpoint began. -/
  inFlight : ℕ
  band : PriorityBand
  target : String

/-- One round of the `while` loop; `none` leaves it. -/
def bandStep (c : BandCtx) (v : BandVars) : Option BandVars :=
  let eq := v.sched.queueOf c.epName
  if eq.bandDepth c.band = 0 then none
  else
    let site : CallSite := ⟨c.epName, some c.band, v.attempts + 1⟩
    let v := { v with attempts := v.attempts + 1 }
    let candidates := eq.agentsInBand c.band
    if candidates = [] then none
    else
      match v.sched.budgets.pickAgent candidates (eq.waitByAgent c.band c.now) with
      | none => none
      | some agentId =>
          match eq.peek c.band agentId with
          | none => some { v with sched := v.sched.setQueue c.epName (eq.rotateRobin c.band) }
          | some req =>
              let totalOcc := c.inFlight + v.decisions.length
              match admission c.cfg c.oracles site v.sched c.epCfg req totalOcc v.available
                  c.target with
              | .defer => none
              | .spill =>
                  -- `dequeue` returns the request `peek` showed; `_spill` re-enqueues it, and
                  -- the round-robin list that is rotated is the one left by the dequeue.
                  match eq.dequeue c.band agentId with
                  | (none, eq) =>
                      some { v with
                        sched := v.sched.setQueue c.epName (eq.rotateRobin c.band) }
                  | (some spilled, eq) =>
                      let s := spill c.cfg (v.sched.setQueue c.epName eq) spilled c.target
                      some { v with
                        sched := s.setQueue c.epName ((s.queueOf c.epName).rotateRobin c.band)
                        trace := v.trace ++
                          [⟨v.sched, c.oracles, c.epName, site, .spill spilled c.target⟩] }
              | .dispatch =>
                  match eq.dequeue c.band agentId with
                  | (none, eq) => some { v with sched := v.sched.setQueue c.epName eq }
                  | (some req, eq) =>
                      let s := (v.sched.setQueue c.epName eq).startRequest c.epName agentId req
                        c.now
                      let decision : DispatchDecision :=
                        { request := req
                          queueWaitMs := (c.now - req.enqueuedAt) * 1000
                          occupancyAtDispatch := totalOcc }
                      some { v with
                        sched := s.setQueue c.epName ((s.queueOf c.epName).rotateRobin c.band)
                        decisions := v.decisions ++ [decision]
                        available := v.available - 1
                        trace := v.trace ++
                          [⟨v.sched, c.oracles, c.epName, site, .dispatch decision⟩] }

/-- The body of the loop over the bands in `_dispatch_endpoint`. -/
def dispatchBand (cfg : ProxyConfig) (o : Oracles) (ep : String) (epCfg : EndpointConfig)
    (now : ℚ) (inFlight : ℕ) (p : Pass) (band : PriorityBand) : Pass :=
  let eq := p.sched.queueOf ep
  if eq.bandDepth band = 0 then p
  else
    let available :=
      p.sched.availableForBand epCfg band (inFlight + p.decisions.length) eq
    let target := spillTarget cfg o ⟨ep, some band, 0⟩ epCfg
    if available ≤ 0 ∧ target = "" then p
    else
      let maxAttempts := eq.bandDepth band + (eq.agentsInBand band).length
      (Loop.iterate (bandStep ⟨cfg, o, ep, epCfg, now, inFlight, band, target⟩) maxAttempts
        { toPass := p, available := available }).toPass

/-- `_dispatch_endpoint`. -/
def dispatchEndpoint (cfg : ProxyConfig) (o : Oracles) (now : ℚ) (s : Scheduler) (ep : String)
    (epCfg : EndpointConfig) : Pass :=
  if ep ∉ s.queues.keys then { sched := s }
  else if o.healthy ⟨ep, none, 0⟩ ep = false then { sched := s }
  else
    PriorityBand.all.foldl (dispatchBand cfg o ep epCfg now (s.inFlight ep)) { sched := s }

/-! ### Tick -/

/-- The expiry step of `tick`: the scheduler left behind and the requests handed to
`on_timeout`. -/
def expireQueues (s : Scheduler) (now : ℚ) : Scheduler × List QueuedRequest :=
  let expired := s.queues.values.flatMap fun eq => (eq.expireBefore now).2
  ({ s with
      queues := s.queues.map fun _ eq => (eq.expireBefore now).1
      totalTimeouts := s.totalTimeouts + expired.length }, expired)

/-- One endpoint of the dispatch step of `tick`: run its pass and collect what it
decided and reported. -/
def dispatchNext (cfg : ProxyConfig) (o : Oracles) (now : ℚ) (p : Pass)
    (e : String × EndpointConfig) : Pass :=
  let pass := dispatchEndpoint cfg o now p.sched e.1 e.2
  { sched := pass.sched
    decisions := p.decisions ++ pass.decisions
    trace := p.trace ++ pass.trace }

/-- The dispatch step of `tick`: every configured endpoint, in configuration order. -/
def dispatchAll (cfg : ProxyConfig) (o : Oracles) (now : ℚ) (s : Scheduler) : Pass :=
  cfg.endpoints.entries.foldl (dispatchNext cfg o now) { sched := s }

/-- What one tick returns and reports. -/
structure TickOut extends Pass where
  timeouts : List QueuedRequest

/-- `tick`: replenish, expire, dispatch. -/
def tick (cfg : ProxyConfig) (o : Oracles) (s : Scheduler) (now : ℚ) : TickOut :=
  let s := { s with budgets := s.budgets.replenish now }
  let expired := s.expireQueues now
  { toPass := dispatchAll cfg o now expired.1, timeouts := expired.2 }

/-! ### Complete and cancel -/

/-- The endpoint whose active map holds `requestId`, the first one in order. -/
def activeEndpoint (s : Scheduler) (requestId : String) : Option String :=
  (s.active.entries.find? fun e => e.2.contains requestId).map Prod.fst

/-- `complete`; the second component is the active request that was hit, if any. -/
def complete (s : Scheduler) (record : CompletionRecord) :
    Scheduler × Option ActiveRequest :=
  match s.activeEndpoint record.requestId with
  | none => (s, none)
  | some ep =>
      match (s.activeOf ep).get? record.requestId with
      | none => (s, none)
      | some ar =>
          ({ s with
              totalCompleted := s.totalCompleted + 1
              active := s.active.set ep ((s.activeOf ep).erase record.requestId)
              budgets := s.budgets.retroactiveAdjust ar.request.agentId
                ar.request.estimatedCostSs record.durationS
              cost :=
                if record.success then
                  s.cost.recordCompletion ep ar.request.callSite record.inputTokens
                    record.outputTokens record.durationS record.occupancyDuring
                else s.cost }, some ar)

/-- The deques `cancel` walks, in order. -/
def places (s : Scheduler) : List (String × PriorityBand × String) :=
  s.queues.entries.flatMap fun e =>
    PriorityBand.all.flatMap fun band =>
      ((e.2.queues band).keys.map fun agentId => (e.1, band, agentId))

/-- `cancel`; the second component is the request that was removed, if any (the
source answers whether there was one). -/
def cancel (s : Scheduler) (requestId : String) : Scheduler × Option QueuedRequest :=
  let holds (place : String × PriorityBand × String) : Bool :=
    ((s.queueOf place.1).deque place.2.1 place.2.2).any fun r => r.requestId = requestId
  match s.places.find? holds with
  | none => (s, none)
  | some (ep, band, agentId) =>
      let q := (s.queueOf ep).deque band agentId
      let rest := q.eraseP fun r => r.requestId = requestId
      (s.setQueue ep ((s.queueOf ep).writeBack band agentId rest),
        q.find? fun r => r.requestId = requestId)

/-! ### Views -/

/-- The requests queued on `ep` in `band`. -/
def waiting (s : Scheduler) (ep : String) (band : PriorityBand) : Multiset QueuedRequest :=
  (s.queueOf ep).bandContents band

/-- All queued requests. -/
def queued (s : Scheduler) : Multiset QueuedRequest := s.queues.sum fun _ eq => eq.contents

/-- All requests in flight. -/
def running (s : Scheduler) : Multiset QueuedRequest :=
  s.active.sum fun _ m => m.sum fun _ ar => {ar.request}

end Scheduler

end Roadstead
