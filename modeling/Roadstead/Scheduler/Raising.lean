import Roadstead.CostModel.Charged
import Roadstead.Scheduler.Bands

/-!
# Estimates that raise

`Scheduler.enqueue` estimates the cost of a request from its payload, and a payload is whatever JSON
the caller sent.  The functions of `Scheduler` are total, because `Payload` has numbers where the
estimate reads numbers; here are the calls as they end when the estimate raises.

## Where an estimate is made

`enqueue` makes one, after the endpoint has got its queue and the agent its budget.  A spill makes
another one: `_spill` has taken the request from its deque and re-pointed it when it calls `enqueue`
again, and there the cost model is that of another endpoint.  A `max_tokens` of 400 digits is cut
down to an average where the call site is known, and overflows a double where it is not.

## What an exception leaves

It leaves what was done before it.  A call of `enqueue` leaves the queue and the budget, and no
request (`prepared`).  A tick ends at the first spill whose estimate raises: the moments before it
stand, and the spilled request is in nobody's hands, since it was taken from its deque and is in no
other place.  Up to that spill the tick is the one of `Scheduler`, so `World.fault` finds the state
in its trace.

## What the results ask of a run

`World.estimable` asks that each estimate of a call returns, and returns the number that the request
is stored with.  The arithmetic of the model is exact; costs, scores and what completions report are
asked to be below `2 ^ 500`, so that no sum, square or average of them leaves the doubles either.  A
cost that is infinite or NaN is not such a number: `pick_agent` passes over an agent whose score is
`-inf`, and no balance of the model can be.

* `request_conservation`: every request is in exactly one place; `request_lost_by_spill` is a run
  that loses one.
* `band_strictness` and `work_conservation`: `Scheduler.Bands`, over runs.
-/

namespace Roadstead

open Json (Fields)
open Scheduler

/-- Numbers of which no sum, square or average leaves the doubles. -/
def moderate (q : ℚ) : Bool := decide (|q| < 2 ^ 500)

section Calls

variable (b : Builtins) (json : Payload → Fields) (cfg : ProxyConfig)

/-! ### One call of `enqueue` -/

/-- The estimates `enqueue` makes of a request, whose payload is the JSON object `json` gives. -/
def Scheduler.estimate (s : Scheduler) (req : QueuedRequest) : Except Raised Estimates :=
  (prepared cfg s req).estimates b req.endpoint req.callSite (json req.payload)

/-- What `enqueue` leaves when its estimate raises. -/
def Scheduler.enqueueFault (s : Scheduler) (req : QueuedRequest) : Option Scheduler :=
  match s.estimate b json cfg req with
  | .ok _ => none
  | .error _ => some (prepared cfg s req)

/-- The estimates are the numbers that `enqueue` stores. -/
def Scheduler.estimable (s : Scheduler) (req : QueuedRequest) : Bool :=
  let stored := (prepared cfg s req).estimated req
  decide (s.estimate b json cfg req =
      .ok ⟨stored.estInputTokens, .finite stored.estimatedCostSs⟩) &&
    moderate stored.estimatedCostSs

theorem Scheduler.enqueueFault_of_estimable {s : Scheduler} {req : QueuedRequest}
    (returns : s.estimable b json cfg req = true) : s.enqueueFault b json cfg req = none := by
  rw [Scheduler.estimable, Bool.and_eq_true, decide_eq_true_eq] at returns
  rw [Scheduler.enqueueFault, returns.1]

/-- The call of `enqueue` that a spill makes: the request is out of the deque of its band and agent,
and the spill is counted. -/
def Moment.spillCall (m : Moment) : Option (Scheduler × QueuedRequest) :=
  match m.event with
  | .dispatch _ => none
  | .spill req target =>
      let eq := ((m.before.queueOf m.endpoint).dequeue req.band req.agentId).2
      some ({ m.before.setQueue m.endpoint eq with totalSpilled := m.before.totalSpilled + 1 },
        spilledTo cfg req target)

/-- What a spill leaves when its estimate raises. -/
def Moment.fault (m : Moment) : Option Scheduler :=
  (m.spillCall cfg).bind fun call => call.1.enqueueFault b json cfg call.2

/-! ### One call of the scheduler -/

/-- What an exception leaves of a call, where one escapes.  A tick has expired its queues by then,
and its decisions are lost with it. -/
def World.fault (w : World) : Op → Option World
  | .enqueue req =>
      (w.sched.enqueueFault b json cfg (w.identified req)).map fun s => { w with sched := s }
  | .tick o now =>
      let out := tick cfg o w.sched now
      (out.trace.findSome? (Moment.fault b json cfg)).map fun s =>
        { w with
          sched := s
          timedOut := w.timedOut ++ out.timeouts
          trace := w.trace ++ out.trace.takeWhile fun m => (m.fault b json cfg).isNone }
  | _ => none

/-- A call into the scheduler, whether it returns or raises. -/
def World.raising : World → Op → World := Runs.faulty (World.step cfg) (World.fault b json cfg)

/-- Every estimate of the call returns the number that is stored, and so far as doubles are concerned
nothing overflows: neither the scores that `pick_agent` compares, nor the averages that a completion
is added to. -/
def World.estimable (w : World) : Op → Bool
  | .enqueue req => w.sched.estimable b json cfg (w.identified req)
  | .tick o now =>
      (w.sched.budgets.agents.values.all fun budget => moderate budget.score) &&
        (tick cfg o w.sched now).trace.all fun m =>
          (m.spillCall cfg).all fun call => call.1.estimable b json cfg call.2
  | .complete record =>
      moderate record.durationS && moderate record.inputTokens && moderate record.outputTokens
  | _ => true

/-- Nothing escapes from such a call. -/
theorem World.fault_of_estimable {w : World} {op : Op} (returns : w.estimable b json cfg op = true) :
    w.fault b json cfg op = none := by
  cases op with
  | enqueue req => exact Option.map_eq_none_iff.mpr (enqueueFault_of_estimable b json cfg returns)
  | tick o now =>
      refine Option.map_eq_none_iff.mpr (List.findSome?_eq_none_iff.mpr fun m hm => ?_)
      rw [World.estimable, Bool.and_eq_true] at returns
      have here := List.all_eq_true.mp returns.2 m hm
      rw [Moment.fault]
      cases call : m.spillCall cfg with
      | none => rfl
      | some call' =>
          rw [call] at here
          exact enqueueFault_of_estimable b json cfg here
  | complete record | cancel id | pruneIdle now ttl => rfl

end Calls

/-! ### Conservation -/

/-- The JSON object of a payload without messages. -/
def Payload.object (p : Payload) : Fields :=
  match p.maxTokens with
  | none => []
  | some (.int n) => [("max_tokens", .int n)]
  | some (.float q) => [("max_tokens", .float (.finite q))]

section Runs

variable (b : Builtins) (json : Payload → Fields) (cfg : ProxyConfig) (cost : CostModel)
  (budgets : BudgetManager)

/-- In every run that enqueues each id once and whose estimates all return, every request that was
ever enqueued is in exactly one place, dispatches are completions and requests in flight, and nobody
is told of a request both that it was dispatched and that it timed out. -/
theorem request_conservation (ops : List Op) (distinct : DistinctIds ops)
    (along : Runs.Along (World.raising b json cfg) (fun w op => w.estimable b json cfg op = true)
      (World.init cfg cost budgets) ops) :
    Conserved (Runs.run (World.raising b json cfg) (World.init cfg cost budgets) ops) := by
  obtain ⟨same, -⟩ := Runs.run_faulty (fun _ _ => World.fault_of_estimable b json cfg) along
  rw [World.raising, same]
  exact conserved_run cfg cost budgets distinct

/-- Conservation over a run with a spill and a cancel. -/
theorem request_conservation_small_fleet :
    let ops := [.enqueue (localRequest "x" .interactive), .enqueue (localRequest "y" .background),
      .enqueue (localRequest "z" .interactive), .tick {} 1, .cancel "y"]
    DistinctIds ops ∧
      Conserved (Runs.run (World.raising noText Payload.object smallFleet)
        (World.init smallFleet {} {}) ops) :=
  ⟨by decide, request_conservation noText Payload.object smallFleet {} {} _
    (by decide +kernel) (by decide +kernel)⟩

/-- Two endpoints, and five completions of one call site on the first of them. -/
def localHistory : CostModel :=
  (List.range 5).foldl (fun c _ => c.recordCompletion "local" "unknown" 10 100 1 1)
    { models := ⟨[("local", .registered "local" 2 (4 / 10000) none),
        ("remote", .registered "remote" 1 (4 / 10000) none)], by decide +kernel⟩ }

/-- A request whose `max_tokens` has 401 digits. -/
def hugeRequest (id : String) : QueuedRequest :=
  { localRequest id .interactive with payload := { maxTokens := some (.int (10 ^ 400)) } }

/-- The slots of `local` are taken and `z` is spilled.  Its `max_tokens` is cut down to the average
on `local` and overflows on `remote`: `z` was taken from its deque, and is nowhere. -/
theorem request_lost_by_spill :
    let ops := [.enqueue (localRequest "x" .interactive), .enqueue (localRequest "y" .interactive),
      .enqueue (hugeRequest "z"), .tick {} 1]
    DistinctIds ops ∧
      ¬Conserved (Runs.run (World.raising noText Payload.object smallFleet)
        (World.init smallFleet localHistory {}) ops) := by
  refine ⟨by decide, fun conserved => ?_⟩
  -- three were enqueued, and two are somewhere
  have all := congrArg Multiset.card conserved.located
  rw [Multiset.card_map, Multiset.card_map] at all
  exact absurd all (by decide +kernel)

/-! ### Bands -/

/-- A run whose estimates all return and which reuses no live id keeps the invariant. -/
theorem consistent_raising {ops : List Op}
    (along : Runs.Along (World.raising b json cfg)
      (fun w op => Fresh w op ∧ w.estimable b json cfg op = true) (World.init cfg cost budgets) ops) :
    Consistent cfg (Runs.run (World.raising b json cfg) (World.init cfg cost budgets) ops) := by
  obtain ⟨same, plain⟩ := Runs.run_faulty
    (fun _ _ guard => World.fault_of_estimable b json cfg guard.2) along
  rw [World.raising, same]
  exact consistent_run cfg cost budgets (plain.mono fun _ _ guard => guard.1)

/-- In every state that a run reaches which reuses no live id and whose estimates all return, and in
which every agent with queued work has a budget: a tick whose estimates return does not raise, and
each of its passes respects the bands. -/
theorem band_strictness (ops : List Op)
    (along : Runs.Along (World.raising b json cfg)
      (fun w op => Fresh w op ∧ w.estimable b json cfg op = true) (World.init cfg cost budgets) ops)
    (o : Oracles) (now : ℚ) {ep : String} {epCfg : EndpointConfig}
    (hcfg : cfg.endpoints.get? ep = some epCfg) :
    let w := Runs.run (World.raising b json cfg) (World.init cfg cost budgets) ops
    w.sched.Budgeted → w.estimable b json cfg (.tick o now) = true →
      w.fault b json cfg (.tick o now) = none ∧ BandStrict cfg o now w.sched ep epCfg := by
  intro w budgeted returns
  have inv := consistent_raising b json cfg cost budgets along
  exact ⟨World.fault_of_estimable b json cfg returns,
    bandStrict_of_budgeted inv.wf inv.unique budgeted o now hcfg⟩

/-- Requests of two bands, each of them estimated, and the tick after them. -/
theorem estimable_servedInSamePass :
    let w := Runs.run (World.raising noText Payload.object wideFleet) (World.init wideFleet {} {})
      servedInSamePass
    Runs.Along (World.raising noText Payload.object wideFleet)
        (fun w op => Fresh w op ∧ w.estimable noText Payload.object wideFleet op = true)
        (World.init wideFleet {} {}) servedInSamePass ∧
      w.sched.Budgeted ∧ w.estimable noText Payload.object wideFleet (.tick {} 1) = true := by
  decide +kernel

/-- A background request is dispatched past an interactive one, at the ceiling. -/
theorem band_strictness_wide_fleet :
    let w := Runs.run (World.raising noText Payload.object wideFleet) (World.init wideFleet {} {})
      servedInSamePass
    w.fault noText Payload.object wideFleet (.tick {} 1) = none ∧
      BandStrict wideFleet {} 1 w.sched "local" wideEndpoint := by
  obtain ⟨along, budgeted, returns⟩ := estimable_servedInSamePass
  exact band_strictness noText Payload.object wideFleet {} {} servedInSamePass along {} 1 rfl budgeted
    returns

/-- In every such state, a tick whose estimates return leaves a request of the first two bands waiting
on an endpoint that is healthy only if the endpoint is full, or because slots are kept for background
work that was queued when the pass over the endpoint began. -/
theorem work_conservation (ops : List Op)
    (along : Runs.Along (World.raising b json cfg)
      (fun w op => Fresh w op ∧ w.estimable b json cfg op = true) (World.init cfg cost budgets) ops)
    (o : Oracles) (now : ℚ) {ep : String} {epCfg : EndpointConfig}
    (hcfg : cfg.endpoints.get? ep = some epCfg) (healthy : o.healthy ⟨ep, none, 0⟩ ep = true) :
    let w := Runs.run (World.raising b json cfg) (World.init cfg cost budgets) ops
    w.sched.Budgeted → w.estimable b json cfg (.tick o now) = true →
      w.fault b json cfg (.tick o now) = none ∧
        WorkConserving cfg o now w.sched ep epCfg
          fun before _ => before.waiting ep .background ≠ 0 := by
  intro w budgeted returns
  have inv := consistent_raising b json cfg cost budgets along
  exact ⟨World.fault_of_estimable b json cfg returns,
    workConserving_of_budgeted inv.wf inv.unique budgeted o now hcfg healthy⟩

/-- Slots kept for background work that the same pass then serves. -/
theorem work_conservation_wide_fleet :
    let w := Runs.run (World.raising noText Payload.object wideFleet) (World.init wideFleet {} {})
      servedInSamePass
    w.fault noText Payload.object wideFleet (.tick {} 1) = none ∧
      WorkConserving wideFleet {} 1 w.sched "local" wideEndpoint
        fun before _ => before.waiting "local" .background ≠ 0 := by
  obtain ⟨along, budgeted, returns⟩ := estimable_servedInSamePass
  exact work_conservation noText Payload.object wideFleet {} {} servedInSamePass along {} 1 rfl rfl
    budgeted returns

end Runs

end Roadstead
