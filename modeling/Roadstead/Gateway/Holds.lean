import Roadstead.Gateway.Identity
import Roadstead.Lifecycle.Unsettled

/-!
# Holds on the endpoints that are loaded on demand

`ensure_loaded` counts a request in, and `request_done` counts one out, of whatever endpoint
the request names when it is called.  In between the request is in other hands: it is
refused, shed, moved by failover, queued, spilled, timed out, cancelled, dispatched.  The
lease of the endpoint is kept for as long as the count is positive.

`Gateway.outstanding` is what the count stands for: the requests that were counted for the
endpoint, have not settled, and have not been moved.  `HoldsConserved` says that the two are
equal, up to the handlers that are still waiting for the dispatcher and have counted
themselves.

## The ways around `request_done`

The exits of `handle_submit` release the hold, and so does `record_completion`.  A request
that ends in a queue reaches neither: when it expires (`on_admission_timeout`), when the
waiter of its caller gives up, when `fast_fail_interactive` releases or moves it, when it is
spilled.  The same is true of a handler whose `POST` is cancelled or answered with a body
that cannot be read, and of a task that ends before the `try` of `execute_dispatch`.  In the
other direction, a request that was recovered from the store was never counted, and its
completion releases the hold of another.

`settlesHolds` is the condition that a turn takes none of them with a request that holds
something.  One more way is an `enqueue` that raises, and belongs to `Gateway.Raising`.

## The argument

`Holding` is the invariant: the tasks and the handlers are those of the requests, and the
count of an endpoint is the number of handlers that wait for the dispatcher and of requests
that hold it.  `Holding.balanced_step` goes through the turns and compares what each does to
the two sides; `holding_run` is the induction.  What the watchdog does follows from the count
(`Holding.holdsConserved`), and so does that a count falls only together with what it counts
(`Holding.falls`).
-/

namespace Roadstead

open Scheduler

variable {cfg : ProxyConfig} {policy : Policy} {g g' : Gateway}

namespace Gateway

/-! ### The property and its condition -/

/-- `ensure_loaded(ep)` returned for the request, and it has not been moved since. -/
def counts (g : Gateway) (ep : String) (r : QueuedRequest) : Bool :=
  decide (r.endpoint = ep) && r.degradedFrom.isNone && r.spilledFrom.isNone &&
    (g.handlers.get? r.ref).any fun handler => handler.counted && decide (handler.asked = ep)

/-- The request holds the endpoint it stands on. -/
def holding (g : Gateway) (r : QueuedRequest) : Bool := g.counts r.endpoint r

/-- `inflight` of the manager's state for `ep`. -/
def inflight (g : Gateway) (ep : String) : ℕ :=
  ((g.onDemand.get? ep).map OnDemandState.inflight).getD 0

/-- `lease_id` of the manager's state for `ep`. -/
def lease (g : Gateway) (ep : String) : Option String :=
  (g.onDemand.get? ep).bind OnDemandState.leaseId

/-- The handlers that wait for the dispatcher's answer about `ep`. -/
def loading (g : Gateway) (ep : String) : ℕ :=
  g.loads.sum fun _ load => if load.posting && decide (load.req.endpoint = ep) then 1 else 0

/-- The requests that were counted for `ep` and have neither settled nor been moved. -/
def outstanding (g : Gateway) (ep : String) : ℕ := g.proxy.unsettled (g.counts ep)

end Gateway

/-- The counts of the manager are the holds there are. -/
structure HoldsConserved (cfg : ProxyConfig) (g : Gateway) : Prop where
  /-- A handler that waits for the dispatcher has counted itself before `ensure_loaded`
  returns. -/
  balanced : ∀ ep, cfg.manages ep = true → g.inflight ep = g.loading ep + g.outstanding ep
  /-- A lease is given back only when no counted request is left. -/
  givenBack : ∀ ep now, cfg.manages ep = true → g.lease ep ≠ none →
    (g.release ep now).lease ep = none → g.loading ep = 0 ∧ g.outstanding ep = 0
  /-- The lease of an endpoint that nobody holds is given back once it has been idle. -/
  released : ∀ ep st now, cfg.manages ep = true → g.onDemand.get? ep = some st →
    g.loading ep = 0 → g.outstanding ep = 0 → holdIdleS ≤ now - st.lastActivity →
      (g.release ep now).lease ep = none

namespace Gateway

/-- The handler is waiting for the dispatcher. -/
def posting (g : Gateway) (id : ℕ) : Bool := (g.loads.get? id).any Load.posting

/-- The next step of the task of `ref` does not end a task outside the `try` that has a
hold to release, and does not release what its request does not hold. -/
def settlesTask (cfg : ProxyConfig) (policy : Policy) (g : Gateway) (ref : ℕ) (w : Wake) : Bool :=
  match g.proxy.tasks.get? ref with
  | none => true
  | some t =>
      if g.holding t.decision.request then
        decide (t.await ≠ some .start) || (!t.cancelRequested &&
          !(cfg.endpoints.get? t.decision.request.endpoint).any fun epCfg =>
            affinityFault epCfg t.decision.request)
      else (g.completing cfg policy ref w).all fun ep => decide (g.inflight ep = 0)

/-- A turn that loses no hold. -/
def settlesHolds (cfg : ProxyConfig) (policy : Policy) (g : Gateway) : GatewayEvent → Bool
  | .posted id .broken _ => !g.posting id
  | .abort id => !g.posting id
  | .turn (.tick o now) =>
      let out := Scheduler.tick cfg (g.oracles cfg o now) g.proxy.world.sched now
      (out.timeouts.all fun r => !g.holding r) && out.trace.all fun m =>
        match m.event with
        | .spill req _ => !g.holding req
        | .dispatch _ => true
  | .turn (.task ref w) => g.settlesTask cfg policy ref w
  | .turn (.clientTimeout ref) => (g.proxy.timesOut ref).all fun r => !g.holding r
  | .fastFailInteractive ep _ _ =>
      (g.proxy.world.sched.queuedRequests ep [.interactive, .foreground]).all fun r => !g.holding r
  | .leakGuard ep now => (g.onDemand.get? ep).all fun st => !st.isStuck now
  | _ => true

/-! ### What is counted -/

variable {r : QueuedRequest}

theorem counts_iff {ep : String} :
    g.counts ep r = true ↔ r.endpoint = ep ∧ r.degradedFrom = none ∧ r.spilledFrom = none ∧
      ∃ handler, g.handlers.get? r.ref = some handler ∧ handler.counted = true ∧
        handler.asked = ep := by
  simp [counts, Option.any_eq_true, and_assoc]

theorem counts_of_not_holding (free : g.holding r = false) (ep : String) :
    g.counts ep r = false := by
  by_cases here : r.endpoint = ep
  · subst here
    exact free
  · simp [counts, here]

/-- A request that holds something holds nothing else. -/
theorem counts_of_holding (holds : g.holding r = true) (ep : String) :
    g.counts ep r = decide (r.endpoint = ep) := by
  by_cases here : r.endpoint = ep
  · subst here
    rw [decide_eq_true rfl]
    exact holds
  · simp [counts, here]

theorem counts_of_degraded {source : String} (moved : r.degradedFrom = some source)
    (ep : String) : g.counts ep r = false := by
  simp [counts, moved]

theorem counts_moved (s : Scheduler) (req : QueuedRequest) (target ep : String) :
    g.counts ep (moved cfg s req target) = false := by
  simp [counts, moved, Scheduler.estimated, spilledTo]

theorem counts_of_unhandled (unhandled : g.handlers.get? r.ref = none)
    (ep : String) : g.counts ep r = false := by
  simp [counts, unhandled]

theorem counts_of_handlers (same : g'.handlers.get? r.ref = g.handlers.get? r.ref) (ep : String) :
    g'.counts ep r = g.counts ep r := by
  rw [counts, counts, same]

/-! ### The manager's count -/

/-- One state of the manager is rewritten. -/
theorem inflight_modify {ep' : String} {f : OnDemandState → OnDemandState}
    (onDemand : g'.onDemand = g.onDemand.modify ep' f) (ep : String) :
    g'.inflight ep =
      if ep' = ep then ((g.onDemand.get? ep).map fun st => (f st).inflight).getD 0
      else g.inflight ep := by
  rw [inflight, onDemand, Dict.get?_modify, Option.map_map]
  split
  · rename_i here
    subst here
    simp [Function.comp_def]
  · rename_i elsewhere
    simp [Function.comp_def, Ne.symm elsewhere, inflight]

/-- The heartbeat, the watchdog and the answer of the dispatcher leave the counts alone. -/
theorem inflight_of_same {ep' : String} {f : OnDemandState → OnDemandState}
    (onDemand : g'.onDemand = g.onDemand.modify ep' f)
    (same : ∀ st, g.onDemand.get? ep' = some st → (f st).inflight = st.inflight) (ep : String) :
    g'.inflight ep = g.inflight ep := by
  rw [inflight_modify onDemand]
  split
  · rename_i here
    subst here
    rw [inflight]
    cases h : g.onDemand.get? ep' with
    | none => rfl
    | some st => exact same st h
  · rfl

theorem inflight_pred {ep' : String} {f : OnDemandState → OnDemandState}
    (onDemand : g'.onDemand = g.onDemand.modify ep' f)
    (less : ∀ st, (f st).inflight = st.inflight - 1) (ep : String) :
    g'.inflight ep = g.inflight ep - if ep' = ep then 1 else 0 := by
  rw [inflight_modify onDemand]
  split
  · rw [inflight]
    cases g.onDemand.get? ep with
    | none => rfl
    | some st => exact less st
  · rfl

theorem inflight_requestDone (ep' : String) (now : ℚ) (ep : String) :
    (g.requestDone ep' now).inflight ep = g.inflight ep - if ep' = ep then 1 else 0 :=
  inflight_pred (f := fun st => st.requestDone now) rfl (fun _ => rfl) ep

theorem inflight_foldl_requestDone (eps : List String) (now : ℚ) (ep : String) :
    (eps.foldl (fun g ep => g.requestDone ep now) g).inflight ep = g.inflight ep - eps.count ep := by
  induction eps generalizing g with
  | nil => rfl
  | cons ep' eps ih =>
      rw [List.foldl_cons, ih, inflight_requestDone, List.count_cons, Nat.sub_sub]
      simp only [beq_iff_eq, Nat.add_comm]

/-! ### The handlers that wait for the dispatcher -/

/-- A handler that is not waiting for the dispatcher is written over. -/
theorem loading_set {id : ℕ} (idle : g.posting id = false) {load : Load}
    (loads : g'.loads = g.loads.set id load) (ep : String) :
    g'.loading ep =
      g.loading ep + if load.posting && decide (load.req.endpoint = ep) then 1 else 0 := by
  rw [loading, loading, loads]
  cases h : g.loads.get? id with
  | none => exact Dict.sum_set_of_not_mem _ (Dict.get?_eq_none_iff.mp h) load
  | some old =>
      have traded := Dict.sum_set_of_get? (fun (_ : ℕ) (load : Load) =>
        if load.posting && decide (load.req.endpoint = ep) then 1 else 0) h load
      have waits : old.posting = false := by
        rw [posting, h] at idle
        exact idle
      simpa [waits] using traded

/-- A handler goes on, or is cancelled. -/
theorem loading_erase {id : ℕ} {load : Load} (waits : g.loads.get? id = some load)
    (loads : g'.loads = g.loads.erase id) (ep : String) :
    g'.loading ep + (if load.posting && decide (load.req.endpoint = ep) then 1 else 0) =
      g.loading ep := by
  rw [loading, loading, loads]
  exact Dict.sum_erase _ waits

theorem loading_erase_idle {id : ℕ} (idle : g.posting id = false)
    (loads : g'.loads = g.loads.erase id) (ep : String) : g'.loading ep = g.loading ep := by
  cases h : g.loads.get? id with
  | none => rw [loading, loading, loads, Dict.erase_of_not_mem (Dict.get?_eq_none_iff.mp h)]
  | some load =>
      have waits : load.posting = false := by
        rw [posting, h] at idle
        exact idle
      have erased := loading_erase h loads ep
      simpa [waits] using erased

/-! ### The invariant -/

/-- The counts of the manager, while one request that was counted for `extra` is on its way
from `ensure_loaded` to a queue. -/
def Balanced (cfg : ProxyConfig) (extra : Option String) (g : Gateway) : Prop :=
  ∀ ep, cfg.manages ep = true →
    g.inflight ep = g.loading ep + g.outstanding ep + if extra = some ep then 1 else 0

/-- The invariant of the runs that lose no hold. -/
structure Holding (cfg : ProxyConfig) (g : Gateway) : Prop where
  tasked : Tasked cfg g.proxy.world g.proxy.tasks
  created : LoadsCreated cfg g
  numbered : ∀ id ∈ g.loads.keys, id < g.nextLoad
  handled : ∀ ref ∈ g.handlers.keys, ref < g.proxy.world.enqueued.length
  managed : ∀ ep, cfg.manages ep = true → ep ∈ g.onDemand.keys
  balanced : Balanced cfg none g

namespace Balanced

variable {extra : Option String}

theorem of_same (balanced : Balanced cfg extra g) (inflight : ∀ ep, g'.inflight ep = g.inflight ep)
    (loading : ∀ ep, g'.loading ep = g.loading ep)
    (outstanding : ∀ ep, g'.outstanding ep = g.outstanding ep) : Balanced cfg extra g' := by
  intro ep managed
  rw [inflight, loading, outstanding]
  exact balanced ep managed

/-- `request_done` for the request that is on its way; where nobody was counted, nothing is
released. -/
theorem requestDone (balanced : Balanced cfg extra g) {ep : String} (now : ℚ)
    (owes : extra = some ep ∨ extra = none ∧ cfg.manages ep = false) :
    Balanced cfg none (g.requestDone ep now) := by
  intro ep' managed
  have before := balanced ep' managed
  have same : (g.requestDone ep now).loading ep' = g.loading ep' ∧
      (g.requestDone ep now).outstanding ep' = g.outstanding ep' := ⟨rfl, rfl⟩
  rw [inflight_requestDone, same.1, same.2, before]
  rcases owes with rfl | ⟨rfl, free⟩
  · simp
  · -- No managed endpoint is named, so no count changes.
    have elsewhere : ep ≠ ep' := by
      rintro rfl
      rw [free] at managed
      exact absurd managed (by simp)
    simp [elsewhere]

theorem reject (balanced : Balanced cfg extra g) {req : QueuedRequest} (rejection : Rejection)
    (now : ℚ) (owes : extra = some req.endpoint ∨ extra = none ∧ cfg.manages req.endpoint = false) :
    Balanced cfg none (g.reject req rejection now) :=
  balanced.requestDone now owes

end Balanced

/-- The requests that are there keep their handlers when one is enqueued. -/
theorem outstanding_enqueue (tasked : Tasked cfg g.proxy.world g.proxy.tasks) {req : QueuedRequest}
    (world : g'.proxy.world = g.proxy.world.step cfg (.enqueue req))
    (tasks : g'.proxy.tasks = g.proxy.tasks)
    (handlers : ∀ ref < g.proxy.world.enqueued.length, g'.handlers.get? ref = g.handlers.get? ref)
    (ep : String) :
    g'.outstanding ep = g.outstanding ep +
      if g'.counts ep (g.proxy.world.sched.estimated (g.proxy.world.identified req)) then 1 else 0 := by
  have consistent := tasked.consistent
  have old {r : QueuedRequest} (hr : r ∈ g.proxy.world.everywhere) : g'.counts ep r = g.counts ep r :=
    counts_of_handlers (handlers r.ref (consistent.ref_lt hr)) ep
  rw [outstanding, outstanding, Proxy.unsettled_enqueue consistent.wf world tasks]
  congr 1
  refine Proxy.unsettled_congr (fun r hr => old ?_) fun ref t ht => old ?_
  · exact Multiset.mem_add.mpr (.inl (Multiset.mem_add.mpr (.inl hr)))
  · exact consistent.mem_everywhere_of_dispatched (tasked.own ref t ht).2.1

namespace Balanced

variable {extra : Option String}

/-- The request that is on its way reaches its queue, unless it was moved. -/
theorem enqueue (balanced : Balanced cfg extra g)
    (tasked : Tasked cfg g.proxy.world g.proxy.tasks) (s : Submission) {req : QueuedRequest}
    {handler : Handler} (source : Option String)
    (counted : ∀ ep, cfg.manages ep = true →
      ((req.endpoint = ep ∧ req.degradedFrom = none ∧ req.spilledFrom = none ∧
        handler.counted = true ∧ handler.asked = ep) ↔ extra = some ep)) :
    Balanced cfg none (g.enqueue cfg s req handler source) := by
  intro ep managed
  have arrived := @outstanding_enqueue cfg g (g.enqueue cfg s req handler source) tasked
    (s.prepare req) (Proxy.world_submit _ _) (Proxy.tasks_submit _ _) (fun ref lt => by
      show (g.handlers.set g.proxy.world.enqueued.length handler).get? ref = _
      rw [Dict.get?_set_of_ne _ lt.ne]) ep
  have found : (g.enqueue cfg s req handler source).handlers.get? g.proxy.world.enqueued.length =
      some handler := Dict.get?_set_self _ _ _
  have stored : (g.enqueue cfg s req handler source).counts ep
      (g.proxy.world.sched.estimated (g.proxy.world.identified (s.prepare req))) = true ↔
        extra = some ep := by
    obtain ⟨_, prepared⟩ := s.prepare_eq req
    rw [counts_iff, ← counted ep managed, prepared]
    constructor
    · rintro ⟨here, unmoved, unspilled, handler', found', holds⟩
      obtain rfl := Option.some.inj (found.symm.trans found')
      exact ⟨here, unmoved, unspilled, holds⟩
    · rintro ⟨here, unmoved, unspilled, holds⟩
      exact ⟨here, unmoved, unspilled, handler, found, holds⟩
  -- The count is not touched: what was on its way is now outstanding.
  have same : (g.enqueue cfg s req handler source).inflight ep = g.inflight ep ∧
      (g.enqueue cfg s req handler source).loading ep = g.loading ep := ⟨rfl, rfl⟩
  rw [same.1, same.2, arrived, balanced ep managed, if_neg (by simp : none ≠ some ep)]
  simp only [stored]
  omega

/-- From the circuit breaker on, a counted request reaches a queue, is moved, or is refused. -/
theorem circuitBreaker {load : Load} {counted : Bool}
    (balanced : Balanced cfg (if counted then some load.req.endpoint else none) g)
    (tasked : Tasked cfg g.proxy.world g.proxy.tasks) (created : Created cfg load)
    (uncounted : counted = false → cfg.manages load.req.endpoint = false) (now : ℚ) :
    Balanced cfg none
      (g.circuitBreaker cfg load.submission load.req (load.handler counted) now) := by
  have owes : (if counted then some load.req.endpoint else none) = some load.req.endpoint ∨
      (if counted then some load.req.endpoint else none) = none ∧
        cfg.manages load.req.endpoint = false := by
    cases counted with
    | true => exact .inl rfl
    | false => exact .inr ⟨rfl, uncounted rfl⟩
  obtain ⟨_, hreq, -⟩ := created
  -- Unmoved, the request is counted for the endpoint it was created for.
  have stands (ep : String) : (load.req.endpoint = ep ∧ load.req.degradedFrom = none ∧
      load.req.spilledFrom = none ∧ (load.handler counted).counted = true ∧
        (load.handler counted).asked = ep) ↔
      (if counted then some load.req.endpoint else none) = some ep := by
    have unmoved : load.req.degradedFrom = none ∧ load.req.spilledFrom = none := by
      rw [hreq]
      exact ⟨rfl, rfl⟩
    cases counted <;> simp [Load.handler, unmoved]
  have refreshed : Balanced cfg (if counted then some load.req.endpoint else none)
      (g.refreshed cfg now) := balanced
  rcases circuitBreaker_cases cfg g load.submission load.req (load.handler counted) now with
    ⟨-, rejection, heq⟩ | ⟨g₁, req₁, source, past, heq⟩
  · rw [heq]
    exact refreshed.reject rejection now owes
  · rw [heq]
    rcases shed_cases cfg g₁ load.submission req₁ (load.handler counted) source now with
      shed | enqueued
    · rw [shed]
      cases past with
      | closed _ => exact balanced.reject _ now owes
      | deferred _ _ _ => exact refreshed.reject _ now owes
      | rerouted _ plan =>
          -- The hold was released before the move, and the target is not managed.
          have target := ProxyConfig.pairOf_spec (Failover.plan_eq_reroute_iff.mp plan).2.pair
          exact (refreshed.requestDone now owes).reject _ now (.inr ⟨rfl, target.2⟩)
    · rw [enqueued]
      cases past with
      | closed _ => exact balanced.enqueue tasked _ _ fun ep _ => stands ep
      | deferred _ _ _ => exact refreshed.enqueue tasked _ _ fun ep _ => stands ep
      | rerouted _ _ =>
          refine (refreshed.requestDone now owes).enqueue tasked _ _ fun ep _ => ?_
          simp [Failover.apply]

/-- `ensure_loaded` with the lock held. -/
theorem ensure (balanced : Balanced cfg none g)
    (tasked : Tasked cfg g.proxy.world g.proxy.tasks)
    (managed : ∀ ep, cfg.manages ep = true → ep ∈ g.onDemand.keys) {id : ℕ} {load : Load}
    (created : Created cfg load) (idle : g.posting id = false) (now : ℚ) :
    Balanced cfg none (g.ensure cfg id load now) := by
  have counted {g' : Gateway} (onDemand : g'.onDemand = g.onDemand.modify load.req.endpoint fun st =>
      { st with inflight := st.inflight + 1, lastActivity := now }) (ep : String)
      (manages : cfg.manages ep = true) :
      g'.inflight ep = g.inflight ep + if load.req.endpoint = ep then 1 else 0 := by
    rw [inflight_modify onDemand]
    split
    · obtain ⟨st, hst⟩ := Dict.mem_keys_iff.mp (managed ep manages)
      rw [inflight, hst]
      rfl
    · rfl
  unfold Gateway.ensure
  dsimp only
  split
  · -- The lease is there: the request goes on, and is counted.
    refine Balanced.circuitBreaker (fun ep manages => ?_) ?_ created (by simp) now
    · rw [counted rfl ep manages, loading_erase_idle idle rfl ep, balanced ep manages]
      simp only [if_true, Option.some.injEq, reduceCtorEq, if_false, Nat.add_zero]
      rfl
    · exact tasked
  · -- There is no lease: the handler has counted itself, and waits for the dispatcher.
    intro ep manages
    rw [counted rfl ep manages, loading_set idle rfl ep, balanced ep manages]
    simp only [Bool.true_and, decide_eq_true_eq, reduceCtorEq, if_false, Nat.add_zero]
    exact Nat.add_right_comm _ _ _

end Balanced

/-! ### What a turn leaves of the invariant's frame -/

/-- The way from the circuit breaker leaves the numbering and the managed endpoints alone. -/
theorem books_circuitBreaker (cfg : ProxyConfig) (g : Gateway) (s : Submission)
    (req : QueuedRequest) (handler : Handler) (now : ℚ) :
    (g.circuitBreaker cfg s req handler now).nextLoad = g.nextLoad ∧
      (g.circuitBreaker cfg s req handler now).onDemand.keys = g.onDemand.keys := by
  rcases circuitBreaker_cases cfg g s req handler now with ⟨-, _, heq⟩ | ⟨g₁, req₁, source, past, heq⟩
  · rw [heq]
    exact ⟨rfl, Dict.keys_map _ _⟩
  · have same : g₁.nextLoad = g.nextLoad ∧ g₁.onDemand.keys = g.onDemand.keys := by
      cases past with
      | closed _ | deferred _ _ _ => exact ⟨rfl, rfl⟩
      | rerouted _ _ => exact ⟨rfl, Dict.keys_map _ _⟩
    rcases shed_cases cfg g₁ s req₁ handler source now with shed | enqueued
    · rw [heq, shed]
      exact ⟨same.1, (Dict.keys_map _ _).trans same.2⟩
    · rw [heq, enqueued]
      exact same

/-- The next number is new, and the managed endpoints are those of the configuration. -/
theorem books_step (numbered : ∀ id ∈ g.loads.keys, id < g.nextLoad) (e : GatewayEvent) :
    (∀ id ∈ (g.step cfg policy e).loads.keys, id < (g.step cfg policy e).nextLoad) ∧
      (g.step cfg policy e).onDemand.keys = g.onDemand.keys := by
  have erased (id : ℕ) : ∀ id' ∈ (g.loads.erase id).keys, id' < g.nextLoad :=
    fun id' h => numbered id' (Dict.mem_keys_erase.mp h).2
  have ensured {g' : Gateway} (numbered : ∀ id ∈ g'.loads.keys, id < g'.nextLoad) {id : ℕ}
      (known : id < g'.nextLoad) (load : Load) (now : ℚ) :
      (∀ id' ∈ (g'.ensure cfg id load now).loads.keys, id' < (g'.ensure cfg id load now).nextLoad) ∧
        (g'.ensure cfg id load now).onDemand.keys = g'.onDemand.keys := by
    unfold Gateway.ensure
    dsimp only
    split
    · rw [(same_circuitBreaker _ _ _ _ _ _).1, (books_circuitBreaker _ _ _ _ _ _).1,
        (books_circuitBreaker _ _ _ _ _ _).2]
      exact ⟨fun id' h => numbered id' (Dict.mem_keys_erase.mp h).2, Dict.keys_map _ _⟩
    · refine ⟨fun id' h => ?_, Dict.keys_map _ _⟩
      rcases Dict.mem_keys_set.mp h with rfl | old
      · exact known
      · exact numbered id' old
  cases e with
  | submit s now =>
      have later : ∀ id ∈ g.loads.keys, id < g.nextLoad + 1 :=
        fun id h => (numbered id h).trans (Nat.lt_succ_self _)
      simp only [step, submit]
      split
      · exact ⟨numbered, rfl⟩
      · split
        · split
          · refine ⟨fun id h => ?_, rfl⟩
            rcases Dict.mem_keys_set.mp h with rfl | old
            · exact Nat.lt_succ_self _
            · exact later id old
          · exact @ensured
              { g with cache := (g.cache.lookup _ now).2, nextLoad := g.nextLoad + 1 } later _
              (Nat.lt_succ_self _) _ now
        · rw [(same_circuitBreaker _ _ _ _ _ _).1, (books_circuitBreaker _ _ _ _ _ _).1,
            (books_circuitBreaker _ _ _ _ _ _).2]
          exact ⟨numbered, rfl⟩
  | acquire id now =>
      simp only [step, acquire]
      split
      · exact ⟨numbered, rfl⟩
      · rename_i load waits
        split
        · exact ⟨numbered, rfl⟩
        · exact ensured numbered (numbered id (Dict.mem_keys_iff.mpr ⟨load, waits⟩)) load now
  | posted id outcome now =>
      simp only [step, posted]
      split
      · exact ⟨numbered, rfl⟩
      · split
        · cases outcome with
          | failed exc => exact ⟨erased id, Dict.keys_map _ _⟩
          | loaded leaseId =>
              rw [(same_circuitBreaker _ _ _ _ _ _).1, (books_circuitBreaker _ _ _ _ _ _).1,
                (books_circuitBreaker _ _ _ _ _ _).2]
              exact ⟨erased id, Dict.keys_map _ _⟩
          | broken => exact ⟨erased id, rfl⟩
        · exact ⟨numbered, rfl⟩
  | abort id => exact ⟨erased id, rfl⟩
  | turn e =>
      cases e with
      | task ref w =>
          refine List.foldlRecOn (motive := fun g' : Gateway =>
            (∀ id ∈ g'.loads.keys, id < g'.nextLoad) ∧ g'.onDemand.keys = g.onDemand.keys)
            (g.completing cfg policy ref w) _ ⟨numbered, rfl⟩ fun g' same _ _ => ?_
          exact ⟨same.1, (Dict.keys_map _ _).trans same.2⟩
      | _ => exact ⟨numbered, rfl⟩
  | finish ref result now =>
      simp only [step]
      rcases finish_cases g ref result now with heq | ⟨_, _, -, -, heq | ⟨_, -, -, heq⟩⟩ <;>
        rw [heq] <;> exact ⟨numbered, rfl⟩
  | recovered row payload wall now => exact ⟨numbered, rfl⟩
  | fastFailInteractive ep reason now =>
      obtain ⟨proxy, reroutes, heq⟩ := fastFailInteractive_eq cfg policy g ep reason now
      rw [heq]
      exact ⟨numbered, rfl⟩
  | health h | refresh now => exact ⟨numbered, rfl⟩
  | leakGuard ep now | heartbeat ep kept now | release ep now => exact ⟨numbered, Dict.keys_map _ _⟩

/-! ### One turn -/

/-- A task releases the endpoint of its request, once for each completion of the segment. -/
theorem completing_eq {ref : ℕ} {t : Task} {a : Await} (ht : g.proxy.tasks.get? ref = some t)
    (ha : t.await = some a) (w : Wake) :
    g.completing cfg policy ref w =
      ((g.proxy.segmentOf cfg policy t a w).effects.filterMap Effect.status?).map
        fun _ => t.decision.request.endpoint := by
  unfold completing
  rw [ht]
  dsimp only
  rw [ha]

/-- A task that is not there or has ended does nothing. -/
theorem idle_task {ref : ℕ} (idle : (g.proxy.tasks.get? ref).bind Task.await = none) (w : Wake) :
    g.proxy.runTask cfg policy ref w = g.proxy ∧ g.completing cfg policy ref w = [] := by
  unfold Proxy.runTask completing
  cases ht : g.proxy.tasks.get? ref with
  | none => exact ⟨rfl, rfl⟩
  | some t =>
      have ha : t.await = none := by
        rw [ht] at idle
        exact idle
      dsimp only
      rw [ha]
      exact ⟨rfl, rfl⟩

namespace Holding

/-- A segment releases the endpoint of a request that settles, or it finds nothing there to
release. -/
theorem releases (inv : Holding cfg g) {ref : ℕ} {w : Wake}
    (settles : g.settlesTask cfg policy ref w = true) (ep : String) :
    (g.proxy.runTask cfg policy ref w).unsettled (g.counts ep) +
        (g.completing cfg policy ref w).count ep = g.outstanding ep ∨
      (g.proxy.runTask cfg policy ref w).unsettled (g.counts ep) = g.outstanding ep ∧
        (ep ∈ g.completing cfg policy ref w → g.inflight ep = 0) := by
  cases running : (g.proxy.tasks.get? ref).bind Task.await with
  | none =>
      obtain ⟨still, nothing⟩ := @idle_task cfg policy g ref running w
      rw [still, nothing]
      exact .inl rfl
  | some a =>
      obtain ⟨t, ht, ha⟩ := Option.bind_eq_some_iff.mp running
      have ran := @Proxy.unsettled_runTask cfg policy (g.counts ep) g.proxy ref t a ht ha w
      unfold settlesTask at settles
      rw [ht] at settles
      dsimp only at settles
      split at settles
      · -- The request holds its endpoint: the segment that ends the task releases it once.
        rename_i holds
        obtain ⟨epCfg, hcfg⟩ := (inv.tasked.own ref t ht).2.2
        have recorded := (g.proxy.segmentOf_settles policy hcfg (a := a) (fun hstart => by
          rw [ha, hcfg, hstart] at settles
          simpa using settles) w).1
        left
        rw [completing_eq ht ha, List.map_const', List.count_replicate, recorded]
        rw [counts_of_holding holds] at ran
        refine Eq.trans ?_ ran
        cases (g.proxy.segmentOf cfg policy t a w).next.isNone <;> simp
      · -- It holds nothing, and may only release where nothing is counted.
        rename_i free
        rw [counts_of_not_holding (by simpa using free) ep, Bool.and_false] at ran
        exact .inr ⟨ran, fun mem => of_decide_eq_true (List.all_eq_true.mp settles ep mem)⟩

theorem task (inv : Holding cfg g) {ref : ℕ} {w : Wake}
    (settles : g.settlesTask cfg policy ref w = true) :
    Balanced cfg none (g.turn cfg policy (.task ref w)) := by
  intro ep managed
  have released : (g.turn cfg policy (.task ref w)).inflight ep =
      g.inflight ep - (g.completing cfg policy ref w).count ep :=
    inflight_foldl_requestDone _ w.now ep
  have rest : (g.turn cfg policy (.task ref w)).loading ep = g.loading ep ∧
      (g.turn cfg policy (.task ref w)).outstanding ep =
        (g.proxy.runTask cfg policy ref w).unsettled (g.counts ep) := by
    simp only [turn, foldl_requestDone]
    exact ⟨rfl, rfl⟩
  have before : g.inflight ep = g.loading ep + g.outstanding ep := inv.balanced ep managed
  rw [released, rest.1, rest.2, if_neg (by simp), Nat.add_zero]
  rcases inv.releases settles ep with settled | ⟨same, zero⟩
  · omega
  · rw [same]
    by_cases mem : ep ∈ g.completing cfg policy ref w
    · have := zero mem
      omega
    · rw [List.count_eq_zero_of_not_mem mem]
      exact before

/-- A tick that neither times out nor spills a request that holds something. -/
theorem tick (inv : Holding cfg g) {o : Oracles} {now : ℚ}
    (settles : g.settlesHolds cfg policy (.turn (.tick o now)) = true) :
    Balanced cfg none (g.turn cfg policy (.tick o now)) := by
  rw [settlesHolds, Bool.and_eq_true] at settles
  obtain ⟨alive, unspilled⟩ := settles
  refine inv.balanced.of_same (fun _ => rfl) (fun _ => rfl) fun ep => ?_
  show (g.proxy.schedulerLoop cfg (g.oracles cfg o now) now).unsettled (g.counts ep) = _
  have counted := @Proxy.unsettled_tick cfg (g.oracles cfg o now) now (g.counts ep) g.proxy inv.tasked
    (fun m hm req target spill => by
      have free := List.all_eq_true.mp unspilled m hm
      rw [spill] at free
      rw [counts_moved, counts_of_not_holding (by simpa using free)])
  -- What times out holds nothing.
  have none : (Scheduler.tick cfg (g.oracles cfg o now) g.proxy.world.sched now).timeouts.countP
      (g.counts ep) = 0 := by
    refine List.countP_eq_zero.mpr fun r hr => ?_
    have free := List.all_eq_true.mp alive r hr
    rw [counts_of_not_holding (by simpa using free)]
    exact Bool.false_ne_true
  rw [none] at counted
  exact counted

theorem turn (inv : Holding cfg g) {e : Event}
    (settles : g.settlesHolds cfg policy (.turn e) = true) :
    Balanced cfg none (g.turn cfg policy e) := by
  have quiet {e : Event} (quiet : e.Quiet) (proxy : (g.turn cfg policy e) =
      { g with proxy := g.proxy.step cfg policy e }) : Balanced cfg none (g.turn cfg policy e) := by
    rw [proxy]
    refine inv.balanced.of_same (fun _ => rfl) (fun _ => rfl) fun ep => ?_
    exact Proxy.unsettled_quiet quiet
  cases e with
  | submit req | fastFail req reason => exact inv.balanced
  | tick o now => exact inv.tick settles
  | task ref w => exact inv.task settles
  | clientTimeout ref =>
      refine inv.balanced.of_same (fun _ => rfl) (fun _ => rfl) fun ep => ?_
      show (g.proxy.clientTimeout cfg ref).unsettled (g.counts ep) = _
      have counted := @Proxy.unsettled_clientTimeout cfg (g.counts ep) g.proxy ref
      have none : (g.proxy.timesOut ref).toList.countP (g.counts ep) = 0 := by
        refine List.countP_eq_zero.mpr fun r hr => ?_
        have free := Option.all_eq_true _ _ |>.mp settles r (Option.mem_toList.mp hr)
        rw [counts_of_not_holding (by simpa using free)]
        exact Bool.false_ne_true
      rw [none] at counted
      exact counted
  | taskDone ref | deliver ref | abandon ref | openStream ref | readFrame ref | consumerTimeout ref
  | leave ref => exact quiet trivial rfl

/-- `fast_fail_interactive` moves or releases a request that holds nothing. -/
theorem fastFailOne (balanced : Balanced cfg none g) (consistent : Consistent cfg g.proxy.world)
    {req : QueuedRequest} (queued : req ∈ g.proxy.world.sched.queued) (free : g.holding req = false)
    (ep reason : String) (now : ℚ) : Balanced cfg none (g.fastFailOne cfg ep reason now req) := by
  rcases fastFailOne_cases cfg ep reason now g req with ⟨target, -, heq⟩ | ⟨failure, heq⟩
  · rw [heq]
    refine balanced.of_same (fun _ => rfl) (fun _ => rfl) fun ep' => ?_
    obtain ⟨⟨others, before, after⟩, -, -⟩ :=
      World.reroute_effect consistent.wf consistent.unique queued target
    have moved : g.counts ep' (rerouted cfg g.proxy.world.sched req target) = false :=
      counts_of_degraded rfl ep'
    show (g.proxy.world.reroute cfg req target).sched.queued.countP (fun r => g.counts ep' r) + _ =
      g.proxy.world.sched.queued.countP (fun r => g.counts ep' r) + _
    rw [before, after, Multiset.countP_cons, Multiset.countP_cons, moved, counts_of_not_holding free]
    rfl
  · rw [heq]
    refine balanced.of_same (fun _ => rfl) (fun _ => rfl) fun ep' => ?_
    obtain ⟨_, _, _, _, -, hcancel⟩ := consistent.unique.cancel_eq queued
    have counted := @Proxy.unsettled_cancel cfg (g.counts ep') g.proxy
      (releaseQueued cfg g.proxy req failure) req.requestId rfl rfl
    rw [hcancel, Option.toList_some, List.countP_singleton, counts_of_not_holding free] at counted
    exact counted

theorem submit (inv : Holding cfg g) (s : Submission) (now : ℚ) :
    Balanced cfg none (g.submit cfg s now) := by
  -- The number of the handler is new, so writing it takes nobody's place.
  have unused : g.posting g.nextLoad = false := by
    rw [posting, Dict.get?_eq_none_iff.mpr fun h => lt_irrefl _ (inv.numbered _ h)]
    rfl
  unfold Gateway.submit
  dsimp only
  split
  · exact inv.balanced
  · split
    · split
      · refine inv.balanced.of_same (fun _ => rfl) (fun ep => ?_) fun _ => rfl
        rw [loading_set unused rfl ep]
        simp
      · refine Balanced.ensure ?_ ?_ ?_ ?_ ?_ now
        · exact inv.balanced
        · exact inv.tasked
        · exact inv.managed
        · exact ⟨now, rfl, rfl⟩
        · exact unused
    · rename_i unmanaged
      refine @Balanced.circuitBreaker cfg _
        ⟨s, s.create cfg now, DeterministicCache.keyOf (s.create cfg now), false⟩ false ?_ ?_
        ⟨now, rfl, rfl⟩ ?_ now
      · exact inv.balanced
      · exact inv.tasked
      · exact fun _ => by simpa using unmanaged

theorem acquire (inv : Holding cfg g) (id : ℕ) (now : ℚ) :
    Balanced cfg none (g.acquire cfg id now) := by
  unfold Gateway.acquire
  split
  · exact inv.balanced
  · rename_i load waits
    split
    · exact inv.balanced
    · rename_i free
      have idle : g.posting id = false := by
        rw [posting, waits]
        simp only [Bool.or_eq_true, not_or, Bool.not_eq_true] at free
        exact free.1
      exact inv.balanced.ensure inv.tasked inv.managed (inv.created id load waits) idle now

/-- The dispatcher answers: the handler goes on with its hold, or gives it up. -/
theorem posted (inv : Holding cfg g) {id : ℕ} {outcome : Posted} {now : ℚ}
    (settles : g.settlesHolds cfg policy (.posted id outcome now) = true) :
    Balanced cfg none (g.posted cfg id outcome now) := by
  unfold Gateway.posted
  split
  · exact inv.balanced
  · rename_i load waits
    split
    · rename_i posting
      dsimp only
      have erased {g' : Gateway} (loads : g'.loads = g.loads.erase id) (ep : String) :
          g'.loading ep + (if load.req.endpoint = ep then 1 else 0) = g.loading ep := by
        have erased := loading_erase waits loads ep
        simpa [posting] using erased
      cases outcome with
      | failed exc =>
          intro ep managed
          have before := inv.balanced ep managed
          have gone := @erased { g with loads := g.loads.erase id } rfl ep
          rw [inflight_pred (g := g) (f := fun st => { st with inflight := st.inflight - 1 }) rfl
            (fun _ => rfl) ep]
          show g.inflight ep - _ = loading { g with loads := g.loads.erase id } ep + g.outstanding ep + _
          omega
      | loaded leaseId =>
          refine Balanced.circuitBreaker (fun ep managed => ?_) ?_ (inv.created id load waits)
            (by simp) now
          · have before := inv.balanced ep managed
            have gone := @erased { g with loads := g.loads.erase id } rfl ep
            rw [inflight_of_same (g := g)
              (f := fun st => { st with leaseId := leaseId, lastHeartbeat := now }) rfl
              (fun _ _ => rfl) ep]
            show g.inflight ep = loading { g with loads := g.loads.erase id } ep + g.outstanding ep + _
            simp only [if_true, Option.some.injEq, reduceCtorEq, if_false, Nat.add_zero] at before ⊢
            omega
          · exact inv.tasked
      | broken =>
          -- The hold of the handler would be lost here.
          have idle : g.posting id = false := by simpa [settlesHolds] using settles
          rw [Gateway.posting, waits] at idle
          exact absurd (posting.symm.trans idle) (by simp)
    · exact inv.balanced

theorem finish (inv : Holding cfg g) (ref : ℕ) (result : CorrectedResult) (now : ℚ) :
    Balanced cfg none (g.finish ref result now) := by
  have kept {g' : Gateway} {handler : Handler} (hhandler : g.handlers.get? ref = some handler)
      (proxy : g'.proxy = g.proxy)
      (handlers : g'.handlers = g.handlers.set ref { handler with returned := true }) (ep : String) :
      g'.outstanding ep = g.outstanding ep := by
    have same : g'.counts ep = g.counts ep := by
      funext r
      rw [counts, counts, handlers, Dict.get?_set]
      split
      · rename_i here
        rw [here, hhandler]
        rfl
      · rfl
    rw [outstanding, outstanding, same, proxy]
  rcases finish_cases g ref result now with heq | ⟨handler, _, hhandler, -, heq | ⟨_, -, -, heq⟩⟩
  · rw [heq]
    exact inv.balanced
  · rw [heq]
    exact inv.balanced.of_same (fun _ => rfl) (fun _ => rfl) (kept hhandler rfl rfl)
  · rw [heq]
    exact inv.balanced.of_same (fun _ => rfl) (fun _ => rfl) (kept hhandler rfl rfl)

/-- A request that was recovered from the store holds nothing. -/
theorem recovered (inv : Holding cfg g) (req : QueuedRequest) :
    Balanced cfg none (g.recovered cfg req) := by
  refine inv.balanced.of_same (fun _ => rfl) (fun _ => rfl) fun ep => ?_
  have unhandled : g.handlers.get? g.proxy.world.enqueued.length = none :=
    Dict.get?_eq_none_iff.mpr fun h => lt_irrefl _ (inv.handled _ h)
  have arrived := @outstanding_enqueue cfg g (g.recovered cfg req) inv.tasked req rfl rfl
    (fun _ _ => rfl) ep
  have free := @counts_of_unhandled (g.recovered cfg req)
    (g.proxy.world.sched.estimated (g.proxy.world.identified req)) unhandled ep
  rw [free] at arrived
  exact arrived

/-- Every turn that loses no hold keeps the counts. -/
theorem balanced_step (inv : Holding cfg g) {e : GatewayEvent}
    (settles : g.settlesHolds cfg policy e = true) : Balanced cfg none (g.step cfg policy e) := by
  cases e with
  | submit s now => exact inv.submit s now
  | acquire id now => exact inv.acquire id now
  | posted id outcome now => exact inv.posted settles
  | abort id =>
      have idle : g.posting id = false := by simpa [settlesHolds] using settles
      exact inv.balanced.of_same (fun _ => rfl) (loading_erase_idle idle rfl) fun _ => rfl
  | turn e => exact inv.turn settles
  | finish ref result now => exact inv.finish ref result now
  | recovered row payload wall now => exact inv.recovered _
  | fastFailInteractive ep reason now =>
      have each := List.all_eq_true.mp settles
      refine (fastFailInteractive_queued (fun g' => Balanced cfg none g' ∧
        g'.handlers = g.handlers) inv.tasked.consistent ⟨inv.balanced, rfl⟩ ?_).2.1
      rintro req g' snapshot consistent queued ⟨balanced, handlers⟩
      have free : g'.holding req = false := by
        rw [holding, counts_of_handlers (g := g) (by rw [handlers])]
        simpa [holding] using each req snapshot
      refine ⟨fastFailOne balanced consistent queued free ep reason now, ?_⟩
      rcases fastFailOne_cases cfg ep reason now g' req with ⟨target, -, heq⟩ | ⟨failure, heq⟩
      · rw [heq]
        exact handlers
      · rw [heq]
        exact handlers
  | health h | refresh now => exact inv.balanced
  | leakGuard ep now =>
      refine inv.balanced.of_same (inflight_of_same
        (f := fun st => if st.isStuck now then { st with inflight := 0 } else st) rfl
        fun st hst => ?_) (fun _ => rfl) fun _ => rfl
      rw [settlesHolds, hst] at settles
      rw [if_neg (by simpa using settles)]
  | heartbeat ep kept now =>
      refine inv.balanced.of_same (inflight_of_same (f := fun st =>
        if st.leaseId = none then st
        else if kept then { st with lastHeartbeat := now } else { st with leaseId := none }) rfl
        fun st _ => ?_) (fun _ => rfl) fun _ => rfl
      split
      · rfl
      · split <;> rfl
  | release ep now =>
      refine inv.balanced.of_same (inflight_of_same
        (f := fun st => if st.isIdle now then { st with leaseId := none } else st) rfl
        fun st _ => ?_) (fun _ => rfl) fun _ => rfl
      split <;> rfl

theorem step (inv : Holding cfg g) {e : GatewayEvent} (fresh : g.fresh cfg e = true)
    (settles : g.settlesHolds cfg policy e = true) : Holding cfg (g.step cfg policy e) where
  tasked := tasked_step inv.tasked fresh
  created := inv.created.step e
  numbered := (books_step inv.numbered e).1
  handled := handled_step inv.handled e
  managed := by
    intro ep managed
    rw [(books_step inv.numbered e).2]
    exact inv.managed ep managed
  balanced := inv.balanced_step settles

theorem init (cfg : ProxyConfig) (cost : CostModel) (budgets : BudgetManager) (shedDepth : ℕ) :
    Holding cfg (Gateway.init cfg cost budgets shedDepth) where
  tasked := .init cfg cost budgets
  created := .init cfg cost budgets shedDepth
  numbered := by simp [Gateway.init]
  handled := by simp [Gateway.init]
  managed := by
    intro ep managed
    have known : ep ∈ cfg.endpoints.keys := by
      unfold ProxyConfig.manages at managed
      split at managed
      · exact absurd managed (by simp)
      · rename_i epCfg hcfg
        exact Dict.mem_keys_iff.mpr ⟨epCfg, hcfg⟩
    refine Dict.mem_keys_iff.mpr ⟨{}, Dict.get?_setAll_of_mem ?_ ?_⟩
    · exact List.mem_map_of_mem (List.mem_filter.mpr ⟨known, managed⟩)
    · intro e he _
      obtain ⟨_, -, rfl⟩ := List.mem_map.mp he
      rfl
  balanced := by
    intro ep _
    have idle : (Gateway.init cfg cost budgets shedDepth).inflight ep = 0 := by
      rw [inflight]
      cases h : (Gateway.init cfg cost budgets shedDepth).onDemand.get? ep with
      | none => rfl
      | some st =>
          rcases Dict.get?_setAll_cases h with new | old
          · obtain ⟨_, -, heq⟩ := List.mem_map.mp new
            rw [← (Prod.mk.inj heq).2]
            rfl
          · exact absurd old (by simp)
    have nobody : (Gateway.init cfg cost budgets shedDepth).outstanding ep = 0 := by
      show (Scheduler.init cfg cost budgets).queued.countP _ + 0 = 0
      rw [queued_init]
      rfl
    rw [idle, nobody]
    rfl

/-! ### What follows -/

theorem holdsConserved (inv : Holding cfg g) : HoldsConserved cfg g where
  balanced := fun ep managed => inv.balanced ep managed
  givenBack := by
    intro ep now managed leased gone
    -- A lease goes only where the watchdog found the count at zero.
    have free : g.inflight ep = 0 := by
      cases h : g.onDemand.get? ep with
      | none => rw [inflight, h]; rfl
      | some st =>
          rw [lease, release, Dict.get?_modify, h] at gone
          rw [lease, h] at leased
          by_cases idle : st.isIdle now = true
          · rw [inflight, h]
            exact (of_decide_eq_true idle).2.1
          · simp only [Option.map_some, if_true, if_neg idle] at gone
            exact absurd gone leased
    have total := inv.balanced ep managed
    simp only [reduceCtorEq, if_false] at total
    omega
  released := by
    intro ep st now managed hst loading outstanding waited
    have free : g.inflight ep = 0 := by
      rw [inv.balanced ep managed, loading, outstanding]
      rfl
    rw [lease, release, Dict.get?_modify, hst]
    rw [inflight, hst] at free
    by_cases leased : st.leaseId = none
    · simp only [Option.map_some, if_true]
      split
      · rfl
      · exact leased
    · have idle : st.isIdle now = true := decide_eq_true ⟨leased, free, waited⟩
      simp only [Option.map_some, if_true, if_pos idle]
      rfl

/-- A count falls only when a counted request settles, is moved, or is given up by the dispatcher. -/
theorem falls (inv : Holding cfg g) {e : GatewayEvent} (fresh : g.fresh cfg e = true)
    (settles : g.settlesHolds cfg policy e = true) {ep : String} (managed : cfg.manages ep = true)
    (fewer : (g.step cfg policy e).inflight ep < g.inflight ep) :
    (g.step cfg policy e).loading ep + (g.step cfg policy e).outstanding ep <
      g.loading ep + g.outstanding ep := by
  have balanced := inv.holdsConserved.balanced ep managed
  have stepped := (inv.step fresh settles).holdsConserved.balanced ep managed
  rw [← balanced, ← stepped]
  exact fewer

end Holding

/-- Every run in which no live id is reused and no turn loses a hold keeps the invariant. -/
theorem holding_run (cfg : ProxyConfig) (policy : Policy) (cost : CostModel) (budgets : BudgetManager)
    (shedDepth : ℕ) {events : List GatewayEvent}
    (along : Runs.Along (Gateway.step cfg policy)
      (fun g e => g.fresh cfg e = true ∧ g.settlesHolds cfg policy e = true)
      (Gateway.init cfg cost budgets shedDepth) events) :
    Holding cfg (Runs.run (Gateway.step cfg policy) (Gateway.init cfg cost budgets shedDepth) events) :=
  Runs.run_invariant (Holding cfg) (fun _ _ inv guard => inv.step guard.1 guard.2)
    (.init cfg cost budgets shedDepth) along

end Gateway

end Roadstead
