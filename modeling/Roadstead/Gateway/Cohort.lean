import Roadstead.Gateway.Dwell
import Roadstead.Gateway.Identity

/-!
# The degraded cohort

Failover moves a request off its endpoint from two places: the circuit breaker of
`handle_submit`, and `fast_fail_interactive` for what is queued already.  `degraded_from`
is the only trace a move leaves on the request, and `degraded_inflight` counts by it.

The second place also sees requests that were moved before: `plan` does not read
`degraded_from`, so a request that waits on a failover target is moved once more when that
target trips, and `apply` overwrites what the first move wrote (`rerouted_twice`).  It also
sees requests that were spilled, whose endpoint is not the one the caller asked for.

`failover_cohort` is the result for the runs in which `fast_fail_interactive` reroutes
only requests that stand where they were asked for.  Its invariant, `Cohort`, ties the
mark on every request to the history of the reroutes.
-/

namespace Roadstead

open Scheduler

variable {cfg : ProxyConfig} {policy : Policy} {g : Gateway}

namespace Gateway

/-! ### The property and its condition -/

/-- The endpoint a request was created for; one that was recovered from the store has no
handler, and was created for the endpoint it was first enqueued on. -/
def askedOf (g : Gateway) (ref : ℕ) : Option String :=
  match g.handlers.get? ref with
  | some handler => some handler.asked
  | none => (g.proxy.world.enqueued[ref]?).map QueuedRequest.endpoint

/-- `fast_fail_interactive` reroutes only requests that stand on the endpoint they were
created for, and a name that is rerouted is canonical. -/
def steady (cfg : ProxyConfig) (g : Gateway) : GatewayEvent → Bool
  | .fastFailInteractive ep _ now =>
      (g.proxy.world.sched.queuedRequests ep [.interactive, .foreground]).all fun r =>
        ((g.refreshed cfg now).plan cfg now r).target?.isNone ||
          decide (r.degradedFrom = none ∧ r.spilledFrom = none ∧
            cfg.normalizeEndpoint r.endpoint = r.endpoint)
  | e =>
      (g.handled cfg e).all fun (_, req, now) =>
        g.healthy cfg now req.endpoint || ((g.refreshed cfg now).plan cfg now req).target?.isNone ||
          decide (cfg.normalizeEndpoint req.endpoint = req.endpoint)

end Gateway

/-- What failover has done to the requests that are queued or in flight. -/
structure FailoverCohort (g : Gateway) : Prop where
  /-- No request is rerouted twice. -/
  once : (g.reroutes.map Prod.fst).Nodup
  /-- `degraded_from` names the endpoint the caller asked for. -/
  asked : ∀ r ∈ g.proxy.world.sched.live, ∀ source, r.degradedFrom = some source →
    g.askedOf r.ref = some source
  /-- `degraded_inflight` counts the whole cohort. -/
  counted : ∀ source, g.proxy.world.sched.degradedInflight source =
    g.proxy.world.sched.live.countP fun r => (r.ref, source) ∈ g.reroutes

/-- When a turn changes `degraded_endpoints`. -/
structure FailoverTransitions (cfg : ProxyConfig) (policy : Policy) (g : Gateway)
    (e : GatewayEvent) : Prop where
  enters : ∀ source, source ∉ g.failover.degradedEndpoints →
    source ∈ (g.step cfg policy e).failover.degradedEndpoints →
      ∃ now, Gateway.time e = some now ∧ Failover.Enters cfg (g.healthy cfg now) source
  leaves : ∀ source ∈ g.failover.degradedEndpoints,
    source ∉ (g.step cfg policy e).failover.degradedEndpoints →
      ∃ now, Gateway.time e = some now ∧ g.healthy cfg now source = true ∧
        Failover.dwellS cfg source ≤ now - g.failover.since now source ∧
        ∀ r ∈ g.proxy.world.sched.live, (r.ref, source) ∉ g.reroutes

/-! ### The invariant -/

/-- The mark of a request says whether and off what it was moved; without a mark, and
unspilled, it stands where it was asked for. -/
structure QueuedRequest.Marked (reroutes : List (ℕ × String)) (asked : ℕ → Option String)
    (r : QueuedRequest) : Prop where
  marked : ∀ source, r.degradedFrom = some source ↔ (r.ref, source) ∈ reroutes
  stands : r.degradedFrom = none → r.spilledFrom = none → asked r.ref = some r.endpoint

namespace Gateway

/-- The invariant of the runs in which failover is steady. -/
structure Cohort (cfg : ProxyConfig) (g : Gateway) : Prop where
  consistent : Consistent cfg g.proxy.world
  created : LoadsCreated cfg g
  every : g.proxy.world.Every (QueuedRequest.Marked g.reroutes g.askedOf)
  once : (g.reroutes.map Prod.fst).Nodup
  known : ∀ p ∈ g.reroutes,
    p.1 < g.proxy.world.enqueued.length ∧ g.askedOf p.1 = some p.2
  handled : ∀ ref handler, g.handlers.get? ref = some handler →
    ref < g.proxy.world.enqueued.length

end Gateway

namespace Gateway.Cohort

/-- A turn that moves nothing. -/
theorem of_same (inv : Cohort cfg g) {g' : Gateway} (created : LoadsCreated cfg g')
    (consistent : Consistent cfg g'.proxy.world)
    (every : g'.proxy.world.Every (QueuedRequest.Marked g.reroutes g.askedOf))
    (enqueued : g'.proxy.world.enqueued = g.proxy.world.enqueued)
    (handlers : g'.handlers = g.handlers) (reroutes : g'.reroutes = g.reroutes) :
    Cohort cfg g' := by
  have asked : g'.askedOf = g.askedOf := by
    funext ref
    rw [askedOf, askedOf, handlers, enqueued]
  refine ⟨consistent, created, ?_, ?_, ?_, ?_⟩
  · rw [reroutes, asked]
    exact every
  · rw [reroutes]
    exact inv.once
  · rw [reroutes, asked, enqueued]
    exact inv.known
  · rw [handlers, enqueued]
    exact inv.handled

/-- One more identity leaves the others what they were. -/
theorem askedOf_of_lt {g' : Gateway} {ref : ℕ} (lt : ref < g.proxy.world.enqueued.length)
    {req : QueuedRequest} (enqueued : g'.proxy.world.enqueued = g.proxy.world.enqueued ++ [req])
    (handlers : g'.handlers.get? ref = g.handlers.get? ref) : g'.askedOf ref = g.askedOf ref := by
  rw [askedOf, askedOf, handlers, enqueued, List.getElem?_append_left lt]

/-- A new request joins, with the reroute it may have gone through. -/
theorem enqueue (inv : Cohort cfg g) (source : Option String) {g' : Gateway} {req : QueuedRequest}
    (created : LoadsCreated cfg g') (world : g'.proxy.world = g.proxy.world.step cfg (.enqueue req))
    (fresh : Fresh g.proxy.world (.enqueue req))
    (handlers : ∀ ref < g.proxy.world.enqueued.length, g'.handlers.get? ref = g.handlers.get? ref)
    (bound : ∀ ref handler, g'.handlers.get? ref = some handler →
      ref ≤ g.proxy.world.enqueued.length)
    (reroutes : g'.reroutes =
      g.reroutes ++ (source.map fun source => (g.proxy.world.enqueued.length, source)).toList)
    (mark : req.degradedFrom = source)
    (stands : source = none → g'.askedOf g.proxy.world.enqueued.length = some req.endpoint)
    (moved : ∀ from', source = some from' →
      g'.askedOf g.proxy.world.enqueued.length = some from') : Cohort cfg g' := by
  have enqueued : g'.proxy.world.enqueued =
      g.proxy.world.enqueued ++ [g.proxy.world.identified req] := by rw [world]; rfl
  have length : g'.proxy.world.enqueued.length = g.proxy.world.enqueued.length + 1 := by
    rw [enqueued, List.length_append]
    rfl
  have asked (ref : ℕ) (lt : ref < g.proxy.world.enqueued.length) :
      g'.askedOf ref = g.askedOf ref := askedOf_of_lt lt enqueued (handlers ref lt)
  have unknown (source : String) : (g.proxy.world.enqueued.length, source) ∉ g.reroutes :=
    fun h => absurd (inv.known _ h).1 (lt_irrefl _)
  have added (ref : ℕ) (from' : String) : (ref, from') ∈ g'.reroutes ↔
      (ref, from') ∈ g.reroutes ∨ (ref = g.proxy.world.enqueued.length ∧ source = some from') := by
    rw [reroutes, List.mem_append]
    cases source with
    | none => simp
    | some source => simp [eq_comm]
  refine ⟨world ▸ inv.consistent.enqueue fresh, created, ?_, ?_, ?_, ?_⟩
  · -- The requests that were there keep their marks; the new one gets its own.
    have old : g.proxy.world.Every (QueuedRequest.Marked g'.reroutes g'.askedOf) := by
      intro r hr
      have lt := inv.consistent.ref_lt hr
      have marked := inv.every r hr
      refine ⟨fun source => ?_, ?_⟩
      · rw [added, marked.marked]
        simp [lt.ne]
      · rw [asked _ lt]
        exact marked.stands
    rw [world]
    refine old.enqueue inv.consistent.wf ⟨fun source' => ?_, fun unmarked _ => ?_⟩
    · rw [added]
      show req.degradedFrom = some source' ↔ _
      rw [mark]
      simp [Scheduler.estimated, World.identified, unknown]
    · exact stands (mark ▸ unmarked)
  · rw [reroutes, List.map_append, List.nodup_append]
    refine ⟨inv.once, ?_, ?_⟩
    · cases source <;> simp
    · intro ref href ref' href' same
      obtain ⟨⟨_, from'⟩, hp, rfl⟩ := List.mem_map.mp href
      cases source with
      | none => simp at href'
      | some source =>
          obtain rfl : ref' = g.proxy.world.enqueued.length := by simpa using href'
          exact unknown from' (same ▸ hp)
  · rintro ⟨ref, from'⟩ hp
    rw [length]
    rcases (added ref from').mp hp with hp | ⟨rfl, hsource⟩
    · obtain ⟨lt, known⟩ := inv.known _ hp
      exact ⟨by omega, (asked ref lt).trans known⟩
    · exact ⟨by omega, moved from' hsource⟩
  · intro ref handler h
    have := bound ref handler h
    omega

/-- A queued request that stands where it was asked for is moved. -/
theorem reroute (inv : Cohort cfg g) {g' : Gateway} {req : QueuedRequest} {target : String}
    (hr : req ∈ g.proxy.world.sched.queued) (unmarked : req.degradedFrom = none)
    (unspilled : req.spilledFrom = none)
    (canonical : cfg.normalizeEndpoint req.endpoint = req.endpoint)
    (created : LoadsCreated cfg g')
    (world : g'.proxy.world = g.proxy.world.reroute cfg req target)
    (handlers : g'.handlers = g.handlers)
    (reroutes : g'.reroutes = g.reroutes ++ [(req.ref, cfg.normalizeEndpoint req.endpoint)]) :
    Cohort cfg g' := by
  have enqueued : g'.proxy.world.enqueued = g.proxy.world.enqueued := by rw [world]; rfl
  have asked : g'.askedOf = g.askedOf := by
    funext ref
    rw [askedOf, askedOf, handlers, enqueued]
  have here : req ∈ g.proxy.world.everywhere :=
    Multiset.mem_add.mpr (.inl (Multiset.mem_add.mpr (.inl hr)))
  have mark := inv.every req here
  have unknown (source : String) : (req.ref, source) ∉ g.reroutes := by
    rw [← mark.marked, unmarked]
    simp
  obtain ⟨others, before, after⟩ :=
    World.everywhere_reroute inv.consistent.wf inv.consistent.unique hr target
  refine ⟨world ▸ inv.consistent.reroute hr target, created, ?_, ?_, ?_, ?_⟩
  · have refs := inv.consistent.nodup_refs
    rw [before, Multiset.map_cons, Multiset.nodup_cons] at refs
    intro r hr
    rw [world, after] at hr
    rw [reroutes, asked]
    rcases Multiset.mem_cons.mp hr with rfl | hr
    · refine ⟨fun source => ?_, fun none _ => ?_⟩
      · show some (cfg.normalizeEndpoint req.endpoint) = some source ↔ (req.ref, source) ∈ _
        rw [List.mem_append, List.mem_singleton]
        constructor
        · intro h
          rw [Option.some.inj h]
          exact .inr rfl
        · rintro (h | h)
          · exact absurd h (unknown source)
          · rw [(Prod.mk.inj h).2]
      · exact absurd none (by simp [rerouted, Failover.apply, Scheduler.estimated])
    · have ne : r.ref ≠ req.ref := fun h => refs.1 (h ▸ Multiset.mem_map_of_mem _ hr)
      have marked := inv.every r (by rw [before]; exact Multiset.mem_cons_of_mem hr)
      refine ⟨fun source => ?_, marked.stands⟩
      rw [marked.marked, List.mem_append, List.mem_singleton]
      simp [ne]
  · rw [reroutes, List.map_append, List.nodup_append]
    refine ⟨inv.once, by simp, ?_⟩
    intro ref href ref' href' same
    obtain ⟨⟨_, source⟩, hp, rfl⟩ := List.mem_map.mp href
    obtain rfl : ref' = req.ref := by simpa using href'
    exact unknown source (same ▸ hp)
  · rintro ⟨ref, source⟩ hp
    rw [enqueued, asked]
    rw [reroutes, List.mem_append, List.mem_singleton] at hp
    rcases hp with hp | hp
    · exact inv.known _ hp
    · obtain ⟨rfl, rfl⟩ := Prod.mk.inj hp
      refine ⟨inv.consistent.ref_lt here, ?_⟩
      rw [canonical]
      exact mark.stands unmarked unspilled
  · rw [handlers, enqueued]
    exact inv.handled

/-- The turns that admit a request. -/
theorem admitting (inv : Cohort cfg g) {e : GatewayEvent} (admitting : Admitting e)
    (fresh : g.fresh cfg e = true)
    (steady : (g.handled cfg e).all (fun x => g.healthy cfg x.2.2 x.2.1.endpoint ||
      ((g.refreshed cfg x.2.2).plan cfg x.2.2 x.2.1).target?.isNone ||
        decide (cfg.normalizeEndpoint x.2.1.endpoint = x.2.1.endpoint)) = true) :
    Cohort cfg (g.step cfg policy e) := by
  have created : LoadsCreated cfg (g.step cfg policy e) := inv.created.step e
  rcases admission_cases cfg policy g admitting with
    quiet | ⟨g₀, load, counted, now, g₁, req₁, source, same, brings, past, heq⟩
  · exact inv.of_same created (quiet.proxy ▸ inv.consistent) (quiet.proxy ▸ inv.every)
      (by rw [quiet.proxy]) quiet.handlers quiet.reroutes
  · obtain ⟨_, hreq, -⟩ := brings.created inv.created
    obtain ⟨submitted, stepped, reroutes⟩ :=
      admitted_frame same past load.submission (load.handler counted)
    rw [← heq] at submitted stepped reroutes
    have world : (g.step cfg policy e).proxy.world =
        g.proxy.world.step cfg (.enqueue (load.submission.prepare req₁)) := by
      rw [submitted, Proxy.world_submit]
    have asked : (g.step cfg policy e).askedOf g.proxy.world.enqueued.length =
        some load.req.endpoint := by
      rw [askedOf, stepped, Dict.get?_set_self]
      rfl
    refine inv.enqueue source created world (fresh_admitted fresh brings past) ?_ ?_ reroutes
      ?_ ?_ ?_
    · intro ref lt
      rw [stepped, Dict.get?_set_of_ne _ lt.ne]
    · intro ref handler h
      rw [stepped, Dict.get?_set] at h
      split at h
      · rename_i same
        exact same.le
      · exact (inv.handled ref handler h).le
    · rw [Submission.degradedFrom_prepare]
      rw [hreq] at past
      cases past <;> rfl
    · intro none
      rw [asked, Submission.endpoint_prepare]
      cases past with
      | closed _ | deferred _ _ _ => rfl
      | rerouted _ _ => exact absurd none (by simp)
    · intro from' hsource
      rw [asked]
      cases past with
      | closed _ | deferred _ _ _ => exact absurd hsource (by simp)
      | @rerouted target sick plan =>
          rw [brings.handled] at steady
          rw [same.plan_refreshed] at plan
          rw [same.healthy] at sick
          have canonical : cfg.normalizeEndpoint load.req.endpoint = load.req.endpoint := by
            simpa [sick, plan, Failover.FailoverPlan.target?] using steady
          rw [← Option.some.inj hsource, canonical]

/-- A turn of the proxy moves requests between its queues, and marks none. -/
theorem turn (inv : Cohort cfg g) (e : Event) : Cohort cfg (g.turn cfg policy e) := by
  have created : LoadsCreated cfg (g.turn cfg policy e) := inv.created.step (.turn e)
  have consistent : Consistent cfg (g.turn cfg policy e).proxy.world :=
    consistent_step inv.consistent (e := .turn e) (by rfl)
  obtain ⟨onDemand, heq⟩ := @turn_eq cfg policy g e
  have kept : (g.turn cfg policy e).proxy.world.Every (QueuedRequest.Marked g.reroutes g.askedOf) ∧
      (g.turn cfg policy e).proxy.world.enqueued = g.proxy.world.enqueued := by
    rw [proxy_turn]
    cases h : g.proxied cfg e with
    | none => exact ⟨inv.every, rfl⟩
    | some e' =>
        refine Proxy.world_turn (fun w => w.Every (QueuedRequest.Marked g.reroutes g.askedOf) ∧
          w.enqueued = g.proxy.world.enqueued) (proxied_ne_submit h) ⟨inv.every, rfl⟩ ?_ ?_ ?_
        · intro o now _
          refine ⟨(inv.every.tick inv.consistent.wf ?_).1, rfl⟩
          -- A spill leaves the mark, and its own record beside it.
          intro m _ req target _ marked
          exact ⟨marked.marked, fun _ unspilled =>
            absurd unspilled (by simp [moved, Scheduler.estimated, spilledTo])⟩
        · exact fun w record inv => ⟨inv.1.complete record, inv.2⟩
        · exact fun w id inv => ⟨inv.1.cancel id, inv.2⟩
  exact inv.of_same created consistent kept.1 kept.2 (by rw [heq]) (by rw [heq])

theorem finish (inv : Cohort cfg g) (ref : ℕ) (result : CorrectedResult) (now : ℚ) :
    Cohort cfg (g.finish ref result now) := by
  have created : LoadsCreated cfg (g.finish ref result now) :=
    @LoadsCreated.step cfg {} g inv.created (.finish ref result now)
  rcases finish_cases g ref result now with heq | ⟨handler, _, hhandler, -, h⟩
  · rw [heq]
    exact inv
  · obtain ⟨proxy, -, reroutes, -⟩ := @finish_frame g ref result now
    have handlers : (g.finish ref result now).handlers =
        g.handlers.set ref { handler with returned := true } := by
      rcases h with h | ⟨_, -, -, h⟩ <;> rw [h]
    have asked : (g.finish ref result now).askedOf = g.askedOf := by
      funext ref'
      rw [askedOf, askedOf, handlers, proxy, Dict.get?_set]
      split
      · rename_i same
        split at same
        · rename_i here
          obtain rfl := Option.some.inj same
          rw [here, hhandler]
        · rw [same]
      · rename_i none
        split at none
        · exact absurd none (by simp)
        · rw [none]
    refine ⟨proxy ▸ inv.consistent, created, ?_, ?_, ?_, ?_⟩
    · rw [reroutes, asked, proxy]
      exact inv.every
    · rw [reroutes]
      exact inv.once
    · rw [reroutes, asked, proxy]
      exact inv.known
    · intro ref' handler' h'
      rw [proxy]
      rw [handlers, Dict.get?_set] at h'
      split at h'
      · rename_i here
        rw [here]
        exact inv.handled ref handler hhandler
      · exact inv.handled ref' handler' h'

/-- Failover is refreshed. -/
theorem refreshed (inv : Cohort cfg g) (now : ℚ) : Cohort cfg (g.refreshed cfg now) :=
  inv.of_same inv.created inv.consistent inv.every rfl rfl rfl

theorem step (inv : Cohort cfg g) {e : GatewayEvent} (fresh : g.fresh cfg e = true)
    (steady : g.steady cfg e = true) : Cohort cfg (g.step cfg policy e) := by
  cases e with
  | submit s now | acquire id now | posted id outcome now =>
      exact inv.admitting trivial fresh steady
  | turn e => exact inv.turn e
  | finish ref result now => exact inv.finish ref result now
  | recovered row payload wall now =>
      have unhandled : g.handlers.get? g.proxy.world.enqueued.length = none := by
        cases h : g.handlers.get? g.proxy.world.enqueued.length with
        | none => rfl
        | some handler => exact absurd (inv.handled _ _ h) (lt_irrefl _)
      refine inv.enqueue none inv.created rfl (of_decide_eq_true fresh)
        (fun _ _ => rfl) (fun ref handler h => (inv.handled ref handler h).le) ?_ rfl ?_ ?_
      · exact (List.append_nil _).symm
      · intro _
        show askedOf _ _ = _
        rw [askedOf]
        show (match g.handlers.get? _ with | some handler => _ | none => _) = _
        rw [unhandled]
        simp [Gateway.step, Gateway.recovered, World.step, World.identified]
      · exact fun _ h => absurd h (by simp)
  | fastFailInteractive ep reason now =>
      have each := List.all_eq_true.mp steady
      refine (fastFailInteractive_queued (fun g' => Cohort cfg g' ∧
        g'.failover = (g.refreshed cfg now).failover ∧ g'.health = g.health) inv.consistent
        ⟨inv.refreshed now, rfl, rfl⟩ ?_).2.1
      rintro req g' snapshot consistent queued ⟨inv', failover, health⟩
      have created := inv'.created.fastFailOne ep reason now req
      rcases fastFailOne_cases cfg ep reason now g' req with ⟨target, plan, heq⟩ | ⟨failure, heq⟩
      · have plan : (g.refreshed cfg now).plan cfg now req = .reroute target := by
          rw [← plan]
          exact congrFun (plan_of_same failover health now).symm req
        obtain ⟨unmarked, unspilled, canonical⟩ : req.degradedFrom = none ∧
            req.spilledFrom = none ∧ cfg.normalizeEndpoint req.endpoint = req.endpoint := by
          simpa [plan, Failover.FailoverPlan.target?] using each req snapshot
        rw [heq] at created ⊢
        refine ⟨?_, failover, health⟩
        exact inv'.reroute queued unmarked unspilled canonical created rfl rfl rfl
      · have every : (g'.proxy.world.step cfg (.cancel req.requestId)).Every
            (QueuedRequest.Marked g'.reroutes g'.askedOf) := inv'.every.cancel req.requestId
        rw [heq] at created ⊢
        refine ⟨?_, failover, health⟩
        exact inv'.of_same created (consistent.cancel req.requestId) every rfl rfl rfl
  | abort id => exact inv.of_same (inv.created.step (.abort id)) inv.consistent inv.every rfl rfl rfl
  | health h => exact inv.of_same inv.created inv.consistent inv.every rfl rfl rfl
  | refresh now => exact inv.refreshed now
  | leakGuard ep now | heartbeat ep kept now | release ep now =>
      exact inv.of_same inv.created inv.consistent inv.every rfl rfl rfl

theorem init (cfg : ProxyConfig) (cost : CostModel) (budgets : BudgetManager) (shedDepth : ℕ) :
    Cohort cfg (Gateway.init cfg cost budgets shedDepth) where
  consistent := .init cfg cost budgets
  created := .init cfg cost budgets shedDepth
  every := .init cfg cost budgets
  once := List.nodup_nil
  known := by simp [Gateway.init]
  handled := by
    intro ref handler h
    exact absurd h (by simp [Gateway.init])

/-! ### The result -/

theorem failoverCohort (inv : Cohort cfg g) : FailoverCohort g where
  once := inv.once
  asked := by
    intro r hr source mark
    exact (inv.known _ (((inv.every.live hr).marked source).mp mark)).2
  counted := by
    intro source
    rw [Scheduler.degradedInflight_eq]
    exact Multiset.countP_congr rfl fun r hr => propext ((inv.every.live hr).marked source)

theorem transitions (inv : Cohort cfg g) (e : GatewayEvent) : FailoverTransitions cfg policy g e where
  enters := by
    intro source serving degraded
    rcases @refreshes_step cfg policy g e with same | ⟨now, timed, refreshed⟩
    · exact absurd (same ▸ degraded) serving
    · rw [refreshed] at degraded
      exact ⟨now, timed, Failover.entered_of_mem_refresh serving degraded⟩
  leaves := by
    intro source degraded left
    rcases @refreshes_step cfg policy g e with same | ⟨now, timed, refreshed⟩
    · exact absurd (same ▸ degraded) left
    · rw [refreshed] at left
      have leaves := Failover.left_of_not_mem_refresh degraded left
      refine ⟨now, timed, leaves.recovered, leaves.dwelt, fun r hr rerouted => ?_⟩
      have drained := leaves.drained
      rw [Scheduler.degradedInflight_eq, Multiset.countP_eq_zero] at drained
      exact drained r hr (((inv.every.live hr).marked source).mpr rerouted)

end Gateway.Cohort

/-- In every run in which no live id is reused and `fast_fail_interactive` reroutes only
requests that stand where they were asked for, no request is rerouted twice, every mark
names the endpoint the caller asked for, and `degraded_endpoints` changes by the two
transitions only. -/
theorem failover_cohort (cfg : ProxyConfig) (policy : Policy) (cost : CostModel)
    (budgets : BudgetManager) (shedDepth : ℕ) (events : List GatewayEvent)
    (along : Runs.Along (Gateway.step cfg policy)
      (fun g e => g.fresh cfg e = true ∧ g.steady cfg e = true)
      (Gateway.init cfg cost budgets shedDepth) events) :
    FailoverCohort (Gateway.run cfg policy (Gateway.init cfg cost budgets shedDepth) events) ∧
      ∀ before e after, events = before ++ e :: after →
        FailoverTransitions cfg policy
          (Gateway.run cfg policy (Gateway.init cfg cost budgets shedDepth) before) e := by
  have inv {events : List GatewayEvent} (along : Runs.Along (Gateway.step cfg policy)
      (fun g e => g.fresh cfg e = true ∧ g.steady cfg e = true)
      (Gateway.init cfg cost budgets shedDepth) events) :
      Gateway.Cohort cfg
        (Gateway.run cfg policy (Gateway.init cfg cost budgets shedDepth) events) :=
    Runs.run_invariant (Gateway.Cohort cfg) (fun _ _ inv guard => inv.step guard.1 guard.2)
      (.init cfg cost budgets shedDepth) along
  refine ⟨(inv along).failoverCohort, ?_⟩
  rintro before e after rfl
  exact (inv along.split.1).transitions e

/-- A request is rerouted by the circuit breaker, one by `fast_fail_interactive`, and the
main endpoint comes back. -/
theorem failover_cohort_chain_fleet :
    let events : List GatewayEvent :=
      [.submit (mainSubmission "x") 0, .health mainDown,
        .fastFailInteractive "main" "probe" 1, .submit (mainSubmission "y") 2, .health {},
        .refresh 3]
    let g := Gateway.run chainFleet {} (Gateway.init chainFleet {} {} 64) events
    g.reroutes = [(0, "main"), (1, "main")] ∧ FailoverCohort g ∧
      ∀ before e after, events = before ++ e :: after →
        FailoverTransitions chainFleet {}
          (Gateway.run chainFleet {} (Gateway.init chainFleet {} {} 64) before) e :=
  ⟨by decide, failover_cohort chainFleet {} {} {} 64 _ (by decide)⟩

/-- The main endpoint is down and a request for it waits on the spare one, which goes down
as well: the request is moved on to the last endpoint. -/
theorem rerouted_twice :
    ¬FailoverCohort
      (Gateway.run chainFleet {} (Gateway.init chainFleet {} {} 64)
        [.health mainDown, .submit (mainSubmission "x") 0,
          .health { mainDown with endpointHealth := ⟨[("main", false), ("spare", false)], by decide⟩ },
          .fastFailInteractive "spare" "probe" 1]) :=
  fun cohort => absurd cohort.once (by decide)

end Roadstead
