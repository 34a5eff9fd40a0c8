import Mathlib.Data.Multiset.Count
import Roadstead.Gateway.Steps

/-!
# Traffic during the dwell

A source endpoint that failed stays in `degraded_endpoints` until it is healthy again, its
degraded cohort has drained, and `failover_dwell_s` has passed.  Until then the requests
that its failover target may serve should go to the target.

`Failover.plan` sends them there, but it is asked only about an endpoint that is unhealthy
at the moment.  An endpoint that is healthy again and still dwells gets its requests
straight away (`queued_during_dwell`), and nothing but live health stands before an
endpoint that a spill or a reroute names.

`failover_dwell` is the result for the runs in which live health never hides an endpoint
from `plan`.  What a turn newly queues is the difference of two multisets, so the proof
follows one property, `World.Adds`, through the operations of the scheduler.
-/

namespace Roadstead

open Scheduler

variable {cfg : ProxyConfig} {policy : Policy} {g : Gateway}

/-! ### What is newly queued -/

theorem mem_cons_sub {α : Type*} [DecidableEq α] {a r : α} {s t : Multiset α}
    (h : r ∈ (a ::ₘ s) - t) : r = a ∨ r ∈ s - t := by
  by_cases same : r = a
  · exact .inl same
  · rw [Multiset.mem_sub, Multiset.count_cons_of_ne same] at h
    exact .inr (Multiset.mem_sub.mpr h)

/-- Everything that is queued now and was not queued before satisfies the predicate. -/
def World.Adds (before : Multiset QueuedRequest) (P : QueuedRequest → Prop) (w : World) : Prop :=
  ∀ r ∈ w.sched.queued - before, P r

namespace World.Adds

variable {w : World} {before : Multiset QueuedRequest} {P : QueuedRequest → Prop}

theorem refl (w : World) : w.Adds w.sched.queued P := by
  intro r hr
  exact absurd (Multiset.mem_sub.mp hr) (lt_irrefl _)

theorem of_le (adds : w.Adds before P) {w' : World} (le : w'.sched.queued ≤ w.sched.queued) :
    w'.Adds before P :=
  fun r hr => adds r (Multiset.mem_of_le (tsub_le_tsub_right le before) hr)

theorem of_cons (adds : w.Adds before P) {w' : World} {req : QueuedRequest}
    (cons : w'.sched.queued = req ::ₘ w.sched.queued) (new : P req) : w'.Adds before P := by
  intro r hr
  rw [cons] at hr
  rcases mem_cons_sub hr with rfl | hr
  · exact new
  · exact adds r hr

theorem enqueue (adds : w.Adds before P) (wf : w.sched.WellFormed cfg) {req : QueuedRequest}
    (new : P (w.sched.estimated (w.identified req))) : (w.step cfg (.enqueue req)).Adds before P :=
  adds.of_cons (wf.queued_enqueue _) new

theorem complete (adds : w.Adds before P) (record : CompletionRecord) :
    (w.step cfg (.complete record)).Adds before P :=
  adds.of_le (w.queued_complete cfg record).le

theorem cancel (adds : w.Adds before P) (id : String) : (w.step cfg (.cancel id)).Adds before P := by
  refine adds.of_le ?_
  rcases w.step_cancel cfg id with ⟨-, same⟩ | ⟨ep, b, a, req, rest, holds, -, stepped⟩
  · rw [same]
  · rw [stepped, queued_takeOut holds]
    exact Multiset.le_cons_self _ _

theorem reroute (adds : w.Adds before P) (wf : w.sched.WellFormed cfg) {req : QueuedRequest}
    {target : String}
    (new : P ((w.sched.cancel req.requestId).1.estimated (Failover.apply cfg req target))) :
    (w.reroute cfg req target).Adds before P := by
  have taken : (w.step cfg (.cancel req.requestId)).sched.WellFormed cfg :=
    World.wellFormed_step wf (.cancel req.requestId)
  have left : (w.step cfg (.cancel req.requestId)).Adds before P := adds.cancel req.requestId
  exact left.of_cons (taken.queued_enqueue _) new

/-- A tick newly queues what it spills. -/
theorem tick (adds : w.Adds before P) (wf : w.sched.WellFormed cfg) {o : Oracles} {now : ℚ}
    (spills : ∀ m ∈ (Scheduler.tick cfg o w.sched now).trace, ∀ req target,
      m.event = .spill req target → P (moved cfg m.before req target)) :
    (w.step cfg (.tick o now)).Adds before P := by
  have expired : (w.sched.afterExpiry now).queued ≤ w.sched.queued := by
    rw [← wf.queued_afterExpiry o now]
    exact Multiset.le_add_right _ _
  have start : ∀ r ∈ (w.sched.afterExpiry now).queued - before, P r :=
    fun r hr => adds r (Multiset.mem_of_le (tsub_le_tsub_right expired before) hr)
  refine (dispatchAll_invariant (fun p => (∀ m ∈ p.trace, ∀ req target,
    m.event = .spill req target → P (moved cfg m.before req target)) →
      ∀ r ∈ p.sched.queued - before, P r) (wf.afterExpiry now) (fun _ => start) ?_).1 spills
  intro p m p' hwf hp move spills
  have adds := hp fun m hm => spills m (by cases move <;> exact List.mem_append_left _ hm)
  cases move with
  | @dispatch ep epCfg band agentId req rest occ attempt configured head =>
      intro r hr
      refine adds r (Multiset.mem_of_le (tsub_le_tsub_right ?_ before) hr)
      rw [queued_afterDispatch head now]
      exact Multiset.le_cons_self _ _
  | @spill ep epCfg band agentId req rest target attempt configured head _ _ _ _ =>
      obtain ⟨others, took, after⟩ := hwf.queued_afterSpill head target
      intro r hr
      rw [after] at hr
      rcases mem_cons_sub hr with rfl | hr
      · exact spills _ (List.mem_append_right _ (List.mem_singleton_self _)) req target rfl
      · refine adds r (Multiset.mem_of_le (tsub_le_tsub_right ?_ before) hr)
        rw [took]
        exact Multiset.le_cons_self _ _

end World.Adds

/-! ### The property and its condition -/

/-- Every configured class is its own canonical name. -/
def ProxyConfig.Canonical (cfg : ProxyConfig) : Prop :=
  ∀ ep ∈ cfg.endpoints.keys, cfg.normalizeEndpoint ep = ep

instance : Decidable cfg.Canonical := inferInstanceAs (Decidable (∀ ep ∈ cfg.endpoints.keys, _))

/-- The endpoint of the request is not degraded, or failover may not move the request. -/
def Gateway.Settled (cfg : ProxyConfig) (g : Gateway) (now : ℚ) (r : QueuedRequest) : Prop :=
  r.endpoint ∈ g.failover.degradedEndpoints →
    ∀ target, ¬Failover.Degradable cfg (g.healthy cfg now) r r.endpoint target

/-- What the dwell asks of one turn. -/
structure DwellBites (cfg : ProxyConfig) (policy : Policy) (g : Gateway) (e : GatewayEvent) :
    Prop where
  /-- Nothing that failover may move is newly queued on a degraded endpoint. -/
  queued : ∀ r ∈ (g.step cfg policy e).proxy.world.sched.queued - g.proxy.world.sched.queued,
    ∃ now, Gateway.time e = some now ∧
      Gateway.Settled cfg (g.step cfg policy e) now r
  /-- Nor is it spilled to one, should the tick go on to dispatch it there. -/
  spilled : ∀ o now, e = .turn (.tick o now) →
    ∀ m ∈ (Scheduler.tick cfg (g.oracles cfg o now) g.proxy.world.sched now).trace, ∀ req endpoint,
      m.event = .spill req endpoint → endpoint ∈ g.failover.degradedEndpoints →
        ∀ target, ¬Failover.Degradable cfg (g.healthy cfg now) req endpoint target
  /-- An endpoint stops being degraded by the leave transition only. -/
  leaves : ∀ source ∈ g.failover.degradedEndpoints,
    source ∉ (g.step cfg policy e).failover.degradedEndpoints →
      ∃ now, Gateway.time e = some now ∧
        Failover.Leaves cfg (g.healthy cfg now) g.proxy.world.sched.degradedInflight now g.failover
          source

namespace Gateway

/-- Live health lets the request through to an endpoint that failover would move it off. -/
def hides (cfg : ProxyConfig) (g : Gateway) (now : ℚ) (req : QueuedRequest) : Bool :=
  g.healthy cfg now req.endpoint && (g.plan cfg now req).target?.isSome

/-- The state the circuit breaker decides in: it refreshes failover for a sick endpoint. -/
def asked (cfg : ProxyConfig) (g : Gateway) (now : ℚ) (req : QueuedRequest) : Gateway :=
  if g.healthy cfg now req.endpoint then g else g.refreshed cfg now

/-- The corrections leave a request that is too large for the failover target of its
endpoint too large for it. -/
def staysTooLarge (cfg : ProxyConfig) (s : Submission) (req : QueuedRequest) : Bool :=
  (cfg.pairOf (cfg.normalizeEndpoint req.endpoint)).all fun target =>
    let limit := ((cfg.endpoints.get? target).map EndpointConfig.contextPerSlot).getD 0
    !(s.prepare req).fitsContext limit || req.fitsContext limit

/-- Live health hides nothing from `plan` in this turn. -/
def unhidden (cfg : ProxyConfig) (g : Gateway) : GatewayEvent → Bool
  | .turn (.tick _ now) =>
      decide (∀ r ∈ g.proxy.world.sched.queued, ∀ epCfg ∈ (cfg.endpoints.get? r.endpoint).toList,
        g.hides cfg now { r with endpoint := epCfg.spillTo } = false)
  | .recovered row payload wall now =>
      (g.plan cfg now (row.rebuild cfg payload wall now)).target?.isNone
  | .fastFailInteractive ep _ now =>
      (g.proxy.world.sched.queuedRequests ep [.interactive, .foreground]).all fun r =>
        ((g.refreshed cfg now).plan cfg now r).target?.all fun target =>
          !(g.refreshed cfg now).hides cfg now (Failover.apply cfg r target)
  | e =>
      (g.handled cfg e).all fun (s, req, now) =>
        !(g.asked cfg now req).hides cfg now (s.prepare (g.passed cfg req now)) &&
          (g.healthy cfg now req.endpoint || staysTooLarge cfg s req)

end Gateway

/-- Whether a corrected request may be moved differs from the original in its size only. -/
theorem Failover.Degradable.of_prepare {healthy : String → Bool} {s : Submission}
    {req : QueuedRequest} {source target : String}
    (may : Failover.Degradable cfg healthy (s.prepare req) source target)
    (fits : req.fitsContext
      (((cfg.endpoints.get? target).map EndpointConfig.contextPerSlot).getD 0) = true) :
    Failover.Degradable cfg healthy req source target := by
  obtain ⟨_, prepared⟩ := s.prepare_eq req
  rw [prepared] at may
  exact ⟨may.pair, may.healthy, may.optedIn, may.willing, fits⟩

namespace Gateway

variable {now : ℚ} {r : QueuedRequest}

/-- What `plan` leaves where it is. -/
theorem settled_of_plan (canonical : cfg.Canonical) (stays : (g.plan cfg now r).target? = none) :
    Settled cfg g now r := by
  intro degraded target may
  obtain ⟨ep, hep, -⟩ := Option.bind_eq_some_iff.mp may.pair
  have name : cfg.normalizeEndpoint r.endpoint = r.endpoint :=
    canonical _ (Dict.mem_keys_iff.mpr ⟨ep, hep⟩)
  have plan : g.plan cfg now r = .reroute target := by
    refine Failover.plan_eq_reroute_iff.mpr ?_
    rw [name]
    exact ⟨degraded, may⟩
  rw [plan] at stays
  exact absurd stays (by simp [Failover.FailoverPlan.target?])

/-- What live health does not hide. -/
theorem settled_of_hides (canonical : cfg.Canonical) (well : g.healthy cfg now r.endpoint = true)
    (shown : g.hides cfg now r = false) : Settled cfg g now r := by
  refine settled_of_plan canonical ?_
  rw [hides, well, Bool.true_and] at shown
  simpa using shown

theorem settled_of_same {g' : Gateway} (settled : Settled cfg g now r)
    (failover : g'.failover = g.failover) (health : g'.health = g.health) :
    Settled cfg g' now r := by
  intro degraded target may
  rw [failover] at degraded
  rw [healthy_of_same health] at may
  exact settled degraded target may

/-- `plan` sees no difference between the two requests. -/
theorem settled_like {r' : QueuedRequest} (settled : Settled cfg g now r)
    (endpoint : r'.endpoint = r.endpoint) (agent : r'.agentId = r.agentId)
    (degrade : r'.allowDegrade = r.allowDegrade)
    (fits : ∀ limit, r'.fitsContext limit = r.fitsContext limit) : Settled cfg g now r' := by
  intro degraded target may
  rw [endpoint] at degraded may
  have optedIn := may.optedIn
  have willing := may.willing
  have room := may.fits
  rw [agent] at optedIn
  rw [degrade] at willing
  rw [fits] at room
  exact settled degraded target ⟨may.pair, may.healthy, optedIn, willing, room⟩

/-- The request a submission enqueues. -/
theorem settled_admitted (canonical : cfg.Canonical) {g₁ : Gateway} {s : Submission}
    {req req₁ : QueuedRequest} {source : Option String}
    (past : PastCircuit cfg g req now g₁ req₁ source)
    (shown : (g.asked cfg now req).hides cfg now (s.prepare req₁) = false)
    (large : (g.healthy cfg now req.endpoint || staysTooLarge cfg s req) = true) :
    Settled cfg g₁ now (s.prepare req₁) := by
  cases past with
  | closed well =>
      rw [asked, if_pos well] at shown
      exact settled_of_hides canonical (by rw [Submission.endpoint_prepare]; exact well) shown
  | deferred sick stays _ =>
      intro degraded target may
      rw [Submission.endpoint_prepare] at degraded may
      obtain ⟨ep, hep, -⟩ := Option.bind_eq_some_iff.mp may.pair
      have name : cfg.normalizeEndpoint req.endpoint = req.endpoint :=
        canonical _ (Dict.mem_keys_iff.mpr ⟨ep, hep⟩)
      have fits : req.fitsContext
          (((cfg.endpoints.get? target).map EndpointConfig.contextPerSlot).getD 0) = true := by
        rw [sick, Bool.false_or, staysTooLarge, name, may.pair] at large
        have fit := may.fits
        simpa [fit] using large
      refine stays target (Failover.plan_eq_reroute_iff.mpr ?_)
      rw [name]
      exact ⟨degraded, may.of_prepare fits⟩
  | rerouted sick plan =>
      rw [asked, if_neg (by simp [sick])] at shown
      have may := (Failover.plan_eq_reroute_iff.mp plan).2
      have settled : Settled cfg (g.refreshed cfg now) now (s.prepare (Failover.apply cfg req _)) :=
        settled_of_hides canonical (by rw [Submission.endpoint_prepare]; exact may.healthy) shown
      exact settled_of_same settled rfl rfl

/-- A request that a tick spills. -/
theorem settled_spilled (canonical : cfg.Canonical) (wf : g.proxy.world.sched.WellFormed cfg)
    {o : Oracles} (shown : g.unhidden cfg (.turn (.tick o now)) = true) {m : Moment}
    (hm : m ∈ (Scheduler.tick cfg (g.oracles cfg o now) g.proxy.world.sched now).trace)
    {req : QueuedRequest} {target : String} (spill : m.event = .spill req target) :
    Settled cfg g now { req with endpoint := target } := by
  have spilling := wf.tick_spilling m hm req target spill
  obtain ⟨epCfg, configured, rfl⟩ := spilling.configured
  obtain ⟨_, well⟩ := spilling.healthy
  have each : ∀ r ∈ g.proxy.world.sched.queued, ∀ epCfg ∈ (cfg.endpoints.get? r.endpoint).toList,
      g.hides cfg now { r with endpoint := epCfg.spillTo } = false := of_decide_eq_true shown
  exact settled_of_hides canonical well
    (each req spilling.queued epCfg (by rw [configured]; exact List.mem_singleton_self _))

/-- What one round of `fast_fail_interactive` newly queues. -/
theorem adds_fastFailOne {g' : Gateway} (canonical : cfg.Canonical)
    (wf : g'.proxy.world.sched.WellFormed cfg) {before : Multiset QueuedRequest}
    (adds : g'.proxy.world.Adds before (Settled cfg g now)) (failover : g'.failover = g.failover)
    (health : g'.health = g.health)
    (shown : (g.plan cfg now r).target?.all (fun target =>
      !g.hides cfg now (Failover.apply cfg r target)) = true) (ep reason : String) :
    (g'.fastFailOne cfg ep reason now r).proxy.world.Adds before (Settled cfg g now) := by
  rcases fastFailOne_cases cfg ep reason now g' r with ⟨target, plan, heq⟩ | ⟨failure, heq⟩
  · rw [heq]
    rw [plan_of_same failover health] at plan
    have may := (Failover.plan_eq_reroute_iff.mp plan).2
    have moved : g.hides cfg now (Failover.apply cfg r target) = false := by
      have target? : (g.plan cfg now r).target? = some target :=
        Failover.FailoverPlan.target?_eq_some_iff.mpr plan
      rw [target?] at shown
      simpa using shown
    have settled : Settled cfg g now (Failover.apply cfg r target) :=
      settled_of_hides canonical may.healthy moved
    exact adds.reroute wf (settled_like settled rfl rfl rfl fun _ => rfl)
  · have left : (g'.proxy.world.step cfg (.cancel r.requestId)).Adds before (Settled cfg g now) :=
      adds.cancel r.requestId
    rw [heq]
    exact left

/-- What one turn newly queues is settled in the state after it. -/
def NewlySettled (cfg : ProxyConfig) (policy : Policy) (g : Gateway) (e : GatewayEvent) : Prop :=
  ∀ r ∈ (g.step cfg policy e).proxy.world.sched.queued - g.proxy.world.sched.queued,
    ∃ now, time e = some now ∧ Settled cfg (g.step cfg policy e) now r

/-- A turn that leaves the proxy alone queues nothing. -/
theorem newlySettled_of_same {e : GatewayEvent} (same : (g.step cfg policy e).proxy = g.proxy) :
    NewlySettled cfg policy g e := by
  have nothing : (g.step cfg policy e).proxy.world.Adds g.proxy.world.sched.queued
      (fun r => ∃ now, time e = some now ∧ Settled cfg (g.step cfg policy e) now r) := by
    rw [same]
    exact .refl _
  exact nothing

/-- The turns that admit a request. -/
theorem newlySettled_admitting (canonical : cfg.Canonical)
    (wf : g.proxy.world.sched.WellFormed cfg) {e : GatewayEvent} (admitting : Admitting e)
    (shown : (g.handled cfg e).all (fun x =>
      !(g.asked cfg x.2.2 x.2.1).hides cfg x.2.2 (x.1.prepare (g.passed cfg x.2.1 x.2.2)) &&
        (g.healthy cfg x.2.2 x.2.1.endpoint || staysTooLarge cfg x.1 x.2.1)) = true) :
    NewlySettled cfg policy g e := by
  rcases admission_cases cfg policy g admitting with
    quiet | ⟨g₀, load, counted, now, g₁, req₁, source, same, brings, past, heq⟩
  · exact newlySettled_of_same quiet.proxy
  · rw [brings.handled] at shown
    obtain ⟨hidden, large⟩ : (g.asked cfg now load.req).hides cfg now
        (load.submission.prepare (g.passed cfg load.req now)) = false ∧
        (g.healthy cfg now load.req.endpoint || staysTooLarge cfg load.submission load.req) = true := by
      simpa using shown
    have req : req₁ = g.passed cfg load.req now := past.req_eq.trans (same.passed _ _)
    have asked : (g₀.asked cfg now load.req).hides cfg now (load.submission.prepare req₁) = false := by
      rw [← hidden, req]
      unfold Gateway.asked
      rw [same.healthy]
      split
      · rw [hides, hides, same.healthy, plan_of_same same.failover same.health]
      · rw [hides, hides, plan_of_same (same.refreshed now) same.health]
        exact congrArg (· && _) (congrFun (same.healthy now) _)
    have settled : Settled cfg g₁ now (load.submission.prepare req₁) :=
      settled_admitted canonical past asked (by rw [same.healthy]; exact large)
    have proxy : g₁.proxy = g.proxy := past.proxy.trans same.proxy
    have start : g₁.proxy.world.Adds g.proxy.world.sched.queued
        (fun r => ∃ now, time e = some now ∧ Settled cfg (g.step cfg policy e) now r) := by
      rw [proxy]
      exact .refl _
    have stepped : (g.step cfg policy e).proxy.world =
        g₁.proxy.world.step cfg (.enqueue (load.submission.prepare req₁)) := by
      rw [heq]
      exact Proxy.world_submit _ _
    unfold NewlySettled
    rw [stepped]
    refine start.enqueue (proxy ▸ wf) ⟨now, brings.time, ?_⟩
    rw [heq]
    exact settled_like settled rfl rfl rfl fun _ => rfl

/-- Of the turns of the proxy, a tick may spill, and the others queue nothing. -/
theorem newlySettled_turn (canonical : cfg.Canonical) (wf : g.proxy.world.sched.WellFormed cfg)
    {e : Event} (shown : g.unhidden cfg (.turn e) = true) : NewlySettled cfg policy g (.turn e) := by
  by_cases ticks : ∃ o now, e = .tick o now
  · obtain ⟨o, now, rfl⟩ := ticks
    have start : g.proxy.world.Adds g.proxy.world.sched.queued (Settled cfg g now) := .refl _
    have adds : (g.proxy.world.step cfg (.tick (g.oracles cfg o now) now)).Adds
        g.proxy.world.sched.queued (Settled cfg g now) := by
      refine start.tick wf fun m hm req target spill => ?_
      exact settled_like (settled_spilled canonical wf shown hm spill) rfl rfl rfl fun _ => rfl
    intro r hr
    refine ⟨now, rfl, settled_of_same (adds r ?_) rfl rfl⟩
    rwa [← Proxy.world_schedulerLoop]
  · refine fun r hr => absurd hr ?_
    have adds : (g.turn cfg policy e).proxy.world.Adds g.proxy.world.sched.queued
        (fun _ => False) := by
      rw [proxy_turn]
      cases h : g.proxied cfg e with
      | none => exact .refl _
      | some e' =>
          refine Proxy.world_turn (World.Adds g.proxy.world.sched.queued fun _ => False)
            (proxied_ne_submit h) (.refl _) ?_ (fun _ record adds => adds.complete record)
            (fun _ id adds => adds.cancel id)
          rintro o now rfl
          cases e with
          | tick o' now' => exact absurd ⟨o', now', rfl⟩ ticks
          | _ => simp [proxied] at h
    exact adds r

theorem newlySettled_fastFailInteractive (canonical : cfg.Canonical)
    (wf : g.proxy.world.sched.WellFormed cfg) {ep reason : String} {now : ℚ}
    (shown : g.unhidden cfg (.fastFailInteractive ep reason now) = true) :
    NewlySettled cfg policy g (.fastFailInteractive ep reason now) := by
  have each : ∀ r ∈ g.proxy.world.sched.queuedRequests ep [.interactive, .foreground],
      ((g.refreshed cfg now).plan cfg now r).target?.all (fun target =>
        !(g.refreshed cfg now).hides cfg now (Failover.apply cfg r target)) = true :=
    List.all_eq_true.mp shown
  obtain ⟨adds, failover, health, -, -⟩ := @fastFailInteractive_rule cfg g now ep reason
    (fun rest g' => g'.proxy.world.Adds g.proxy.world.sched.queued
        (Settled cfg (g.refreshed cfg now) now) ∧
      g'.failover = (g.refreshed cfg now).failover ∧ g'.health = g.health ∧
      g'.proxy.world.sched.WellFormed cfg ∧
      ∀ r ∈ rest, r ∈ g.proxy.world.sched.queuedRequests ep [.interactive, .foreground])
    ⟨.refl _, rfl, rfl, wf, fun r hr => hr⟩ (by
      rintro req rest g' ⟨adds, failover, health, wf', found⟩
      refine ⟨adds_fastFailOne canonical wf' adds failover health
        (each req (found req List.mem_cons_self)) ep reason, ?_⟩
      rcases fastFailOne_cases cfg ep reason now g' req with ⟨target, -, heq⟩ | ⟨failure, heq⟩
      · rw [heq]
        exact ⟨failover, health, World.wellFormed_reroute wf' req target,
          fun r hr => found r (List.mem_cons_of_mem _ hr)⟩
      · rw [heq]
        exact ⟨failover, health, World.wellFormed_step wf' (.cancel req.requestId),
          fun r hr => found r (List.mem_cons_of_mem _ hr)⟩)
  intro r hr
  exact ⟨now, rfl, settled_of_same (adds r hr) failover health⟩

/-- What one turn newly queues. -/
theorem newly_settled (canonical : cfg.Canonical) (wf : g.proxy.world.sched.WellFormed cfg)
    {e : GatewayEvent} (shown : g.unhidden cfg e = true) : NewlySettled cfg policy g e := by
  cases e with
  | submit s now | acquire id now | posted id outcome now =>
      exact newlySettled_admitting canonical wf trivial shown
  | turn e => exact newlySettled_turn canonical wf shown
  | finish ref result now => exact newlySettled_of_same (proxy_finish ref result now)
  | recovered row payload wall now =>
      have start : g.proxy.world.Adds g.proxy.world.sched.queued (Settled cfg g now) := .refl _
      have settled : Settled cfg g now (row.rebuild cfg payload wall now) :=
        settled_of_plan canonical (by simpa [unhidden] using shown)
      have adds : (g.proxy.world.step cfg (.enqueue (row.rebuild cfg payload wall now))).Adds
          g.proxy.world.sched.queued (Settled cfg g now) :=
        start.enqueue wf (settled_like settled rfl rfl rfl fun _ => rfl)
      intro r hr
      exact ⟨now, rfl, settled_of_same (adds r hr) rfl rfl⟩
  | fastFailInteractive ep reason now => exact newlySettled_fastFailInteractive canonical wf shown
  | abort id | health h | refresh now | leakGuard ep now | heartbeat ep kept now | release ep now =>
      exact newlySettled_of_same rfl

end Gateway

/-! ### The result -/

theorem Gateway.dwellBites (canonical : cfg.Canonical) (wf : g.proxy.world.sched.WellFormed cfg)
    {e : GatewayEvent} (shown : g.unhidden cfg e = true) : DwellBites cfg policy g e where
  queued := newly_settled canonical wf shown
  spilled := by
    rintro o now rfl m hm req endpoint spill degraded target may
    exact settled_spilled canonical wf shown hm spill degraded target
      ⟨may.pair, may.healthy, may.optedIn, may.willing, may.fits⟩
  leaves := by
    intro source degraded left
    rcases @refreshes_step cfg policy g e with same | ⟨now, timed, refreshed⟩
    · rw [same] at left
      exact absurd degraded left
    · rw [refreshed] at left
      exact ⟨now, timed, Failover.left_of_not_mem_refresh degraded left⟩

/-- In every run in which live health hides no endpoint from `plan`, every turn respects
the dwell. -/
theorem failover_dwell (cfg : ProxyConfig) (policy : Policy) (cost : CostModel)
    (budgets : BudgetManager) (shedDepth : ℕ) (canonical : cfg.Canonical)
    (before : List GatewayEvent) (e : GatewayEvent) (after : List GatewayEvent)
    (along : Runs.Along (Gateway.step cfg policy) (fun g e => g.unhidden cfg e = true)
      (Gateway.init cfg cost budgets shedDepth) (before ++ e :: after)) :
    DwellBites cfg policy
      (Gateway.run cfg policy (Gateway.init cfg cost budgets shedDepth) before) e := by
  have wf : (Gateway.run cfg policy (Gateway.init cfg cost budgets shedDepth)
      before).proxy.world.sched.WellFormed cfg :=
    Runs.run_forall (fun g : Gateway => g.proxy.world.sched.WellFormed cfg)
      (fun _ e wf => Gateway.wellFormed_step wf e) (wellFormed_init cfg cost budgets) before
  exact Gateway.dwellBites canonical wf along.split.2

/-- Three endpoints with one slot each; each of the first two fails over to the next. -/
def chainFleet : ProxyConfig where
  endpoints := ⟨[("main", { endpointClass := "main", maxSlots := 1, failoverTo := "spare" }),
    ("spare", { endpointClass := "spare", maxSlots := 1, failoverTo := "last" }),
    ("last", { endpointClass := "last", maxSlots := 1 })], by decide⟩
  agents := ⟨[("agent", { agentId := "agent", degradeOk := true })], by decide⟩
  stored_under_class := by decide
  class_ne_empty := by decide

/-- A submission for the main endpoint, by an agent that may be degraded. -/
def mainSubmission (id : String) : Submission where
  requestId := id
  agentId := "agent"
  endpoint := "main"

/-- The main endpoint is down. -/
def mainDown : Health where
  endpointHealth := ⟨[("main", false)], by decide⟩

/-- While the main endpoint is down its requests are queued on the spare one. -/
theorem failover_dwell_while_down :
    let g := Gateway.run chainFleet {} (Gateway.init chainFleet {} {} 64)
      [.health mainDown, .submit (mainSubmission "x") 0]
    let e : GatewayEvent := .submit (mainSubmission "y") 5
    ((g.step chainFleet {} e).proxy.world.sched.queued - g.proxy.world.sched.queued).map
        QueuedRequest.endpoint = {"spare"} ∧ DwellBites chainFleet {} g e :=
  ⟨by decide +kernel,
    failover_dwell chainFleet {} {} {} 64 (by decide) _ _ [] (by decide)⟩

/-- A turn that newly queues a request which `plan` would reroute. -/
theorem not_dwellBites {e : GatewayEvent} {now : ℚ} (timed : Gateway.time e = some now)
    (found : 0 < ((g.step cfg policy e).proxy.world.sched.queued -
      g.proxy.world.sched.queued).countP fun r => cfg.normalizeEndpoint r.endpoint = r.endpoint ∧
        ((g.step cfg policy e).plan cfg now r).target?.isSome = true) :
    ¬DwellBites cfg policy g e := by
  intro bites
  obtain ⟨r, hr, name, some⟩ := Multiset.countP_pos.mp found
  obtain ⟨target, plan⟩ := Option.isSome_iff_exists.mp some
  obtain ⟨now', timed', settled⟩ := bites.queued r hr
  obtain rfl : now' = now := Option.some.inj (timed'.symm.trans timed)
  obtain ⟨degraded, may⟩ := Failover.plan_eq_reroute_iff.mp
    (Failover.FailoverPlan.target?_eq_some_iff.mp plan)
  rw [name] at degraded may
  exact settled degraded target may

/-- The main endpoint is down and comes back: ten seconds later it is still degraded, its
dwell of two minutes has not passed, and a request is queued on it. -/
theorem queued_during_dwell :
    ¬DwellBites chainFleet {}
      (Gateway.run chainFleet {} (Gateway.init chainFleet {} {} 64)
        [.health mainDown, .refresh 0, .health {}])
      (.submit (mainSubmission "x") 10) :=
  not_dwellBites rfl (by decide)

end Roadstead
