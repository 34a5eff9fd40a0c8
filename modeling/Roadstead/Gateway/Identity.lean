import Roadstead.Gateway.Steps

/-!
# Runs of the gateway that reuse no live id

`cancel` and the maps of the proxy know a request by its id, so what holds of the
scheduler's runs that reuse no live id (`Consistent`) carries over to the gateway's, as
soon as the one move that is the gateway's own keeps it: `World.reroute` takes a queued
request out under its id and puts the same object on another queue.

`fast_fail_interactive` walks a snapshot of the queue.  Its rule,
`fastFailInteractive_queued`, says that every request of the snapshot is still queued when
its turn comes.
-/

namespace Roadstead

open Scheduler

variable {cfg : ProxyConfig} {policy : Policy} {g : Gateway}

/-! ### Moving one request -/

namespace Scheduler

variable {s : Scheduler} {req r r' : QueuedRequest}

theorem UniqueIds.eq_of_queued (unique : s.UniqueIds) (hr : r ∈ s.queued) (hr' : r' ∈ s.queued)
    (same : r.requestId = r'.requestId) : r = r' :=
  Multiset.inj_on_of_nodup_map unique r (Multiset.mem_add.mpr (.inl hr)) r'
    (Multiset.mem_add.mpr (.inl hr')) same

/-- `cancel` finds a queued request, and no other under its id. -/
theorem UniqueIds.cancel_eq (unique : s.UniqueIds) (hr : req ∈ s.queued) :
    ∃ ep b a rest, s.Holds ep b a req rest ∧
      s.cancel req.requestId = (s.takeOut ep b a rest, some req) := by
  rcases s.cancel_cases req.requestId with ⟨none, -⟩ | ⟨ep, b, a, req', rest, holds, same, hcancel⟩
  · exact absurd rfl (none req hr)
  · have queued : req' ∈ s.queued := by
      rw [queued_takeOut holds]
      exact Multiset.mem_cons_self _ _
    obtain rfl := unique.eq_of_queued queued hr same
    exact ⟨ep, b, a, rest, holds, hcancel⟩

/-- The request a reroute stores at its target. -/
def rerouted (cfg : ProxyConfig) (s : Scheduler) (req : QueuedRequest) (target : String) :
    QueuedRequest :=
  (s.cancel req.requestId).1.estimated (Failover.apply cfg req target)

end Scheduler

namespace World

variable {w : World} {req : QueuedRequest}

/-- What a reroute does: one request is replaced, and it stays queued. -/
theorem reroute_effect (wf : w.sched.WellFormed cfg) (unique : w.sched.UniqueIds)
    (hr : req ∈ w.sched.queued) (target : String) :
    (∃ others, w.sched.queued = req ::ₘ others ∧
      (w.reroute cfg req target).sched.queued = rerouted cfg w.sched req target ::ₘ others) ∧
    (w.reroute cfg req target).sched.running = w.sched.running ∧
    ∀ ep, (w.reroute cfg req target).sched.activeOf ep = w.sched.activeOf ep := by
  obtain ⟨ep, b, a, rest, holds, hcancel⟩ := unique.cancel_eq hr
  have taken := wf.takeOut holds
  have scheduled : (w.reroute cfg req target).sched =
      Scheduler.enqueue cfg (w.sched.takeOut ep b a rest) (Failover.apply cfg req target) := by
    rw [World.reroute, hcancel]
  have stored : rerouted cfg w.sched req target =
      (w.sched.takeOut ep b a rest).estimated (Failover.apply cfg req target) := by
    rw [rerouted, hcancel]
  refine ⟨⟨(w.sched.takeOut ep b a rest).queued, queued_takeOut holds, ?_⟩, ?_, ?_⟩
  · rw [scheduled, stored]
    exact taken.queued_enqueue _
  · rw [scheduled]
    exact taken.running_enqueue _
  · intro ep'
    rw [scheduled]
    exact taken.activeOf_enqueue _ ep'

theorem everywhere_reroute (wf : w.sched.WellFormed cfg) (unique : w.sched.UniqueIds)
    (hr : req ∈ w.sched.queued) (target : String) :
    ∃ others, w.everywhere = req ::ₘ others ∧
      (w.reroute cfg req target).everywhere = rerouted cfg w.sched req target ::ₘ others := by
  obtain ⟨⟨others, before, after⟩, running, -⟩ := reroute_effect wf unique hr target
  refine ⟨others + w.sched.running + (w.timedOut ++ w.cancelled ++ w.finished :
    List QueuedRequest), ?_, ?_⟩
  · rw [World.everywhere, Scheduler.live, before, Multiset.cons_add, Multiset.cons_add]
  · rw [World.everywhere, Scheduler.live, after, running, Multiset.cons_add, Multiset.cons_add]
    rfl

end World

theorem Scheduler.totals_cancel (s : Scheduler) (id : String) :
    (s.cancel id).1.totalDispatched = s.totalDispatched ∧
      (s.cancel id).1.totalCompleted = s.totalCompleted := by
  rcases s.cancel_cases id with ⟨-, hmiss⟩ | ⟨ep, b, a, req, rest, -, -, hcancel⟩
  · rw [hmiss]
    exact ⟨rfl, rfl⟩
  · rw [hcancel]
    exact ⟨rfl, rfl⟩

variable {req : QueuedRequest}

/-- A reroute keeps the invariant: the request has the identity it had. -/
theorem Consistent.reroute {w : World} (inv : Consistent cfg w)
    (hr : req ∈ w.sched.queued) (target : String) : Consistent cfg (w.reroute cfg req target) := by
  obtain ⟨⟨others, before, after⟩, running, active⟩ :=
    World.reroute_effect inv.wf inv.unique hr target
  obtain ⟨elsewhere, every, every'⟩ := World.everywhere_reroute inv.wf inv.unique hr target
  have totals := totals_enqueue cfg (w.sched.cancel req.requestId).1 (Failover.apply cfg req target)
  have kept := w.sched.totals_cancel req.requestId
  refine ⟨World.wellFormed_reroute inv.wf req target, ?_, ?_, ?_, inv.numbered, ?_, ?_, ?_,
    inv.moments, ?_, inv.spilled_once⟩
  · show ((w.reroute cfg req target).sched.live.map QueuedRequest.requestId).Nodup
    have same : (w.reroute cfg req target).sched.live.map QueuedRequest.requestId =
        w.sched.live.map QueuedRequest.requestId := by
      rw [Scheduler.live, Scheduler.live, after, before, running]
      simp only [Multiset.cons_add, Multiset.map_cons]
      rfl
    rw [same]
    exact inv.unique
  · intro ep epCfg hcfg
    show (((w.reroute cfg req target).sched.activeOf ep).size : ℤ) ≤ _
    rw [active]
    exact inv.slots ep epCfg hcfg
  · rw [every', Multiset.map_cons]
    show req.core ::ₘ elsewhere.map QueuedRequest.core = _
    rw [← Multiset.map_cons, ← every]
    exact inv.located
  · rw [running]
    exact inv.started
  · exact (totals.1.trans kept.1).trans inv.dispatch_count
  · exact (totals.2.trans kept.2).trans inv.complete_count
  · intro r hr
    obtain ⟨r', hmem, href, hmark⟩ := inv.marked r hr
    rw [every] at hmem
    rw [every']
    rcases Multiset.mem_cons.mp hmem with rfl | hmem
    · exact ⟨_, Multiset.mem_cons_self _ _, href, hmark⟩
    · exact ⟨r', Multiset.mem_cons_of_mem hmem, href, hmark⟩

/-- A request the scheduler has seen has one of the identities that were given out. -/
theorem Consistent.ref_lt {w : World} (inv : Consistent cfg w) {r : QueuedRequest}
    (hr : r ∈ w.everywhere) : r.ref < w.enqueued.length := by
  have core : r.core ∈ (w.enqueued : Multiset QueuedRequest).map QueuedRequest.core := by
    rw [← inv.located]
    exact Multiset.mem_map_of_mem _ hr
  obtain ⟨r', hr', same⟩ := Multiset.mem_map.mp core
  have listed : r'.ref ∈ w.enqueued.map QueuedRequest.ref := List.mem_map_of_mem hr'
  rw [inv.numbered, List.mem_range] at listed
  have refs : r'.ref = r.ref := congrArg Prod.fst same
  omega

/-! ### The snapshot of `fast_fail_interactive` -/

theorem coe_queuedRequests (s : Scheduler) (ep : String) :
    (s.queuedRequests ep [.interactive, .foreground] : Multiset QueuedRequest) =
      (s.queueOf ep).bandContents .interactive + (s.queueOf ep).bandContents .foreground := by
  have band (b : PriorityBand) :
      ((((s.queueOf ep).queues b).values.flatten : List QueuedRequest) : Multiset QueuedRequest) =
        (s.queueOf ep).bandContents b := by
    rw [EndpointQueue.bandContents, ← Dict.coe_flatMap_values _ fun q => q]
    simp [List.flatMap_id']
  simp only [Scheduler.queuedRequests, List.flatMap_cons, List.flatMap_nil, List.append_nil,
    ← Multiset.coe_add, band]

/-- The requests of the snapshot have different ids. -/
theorem nodup_queuedRequests {s : Scheduler} (wf : s.WellFormed cfg) (unique : s.UniqueIds)
    (ep : String) : (s.queuedRequests ep [.interactive, .foreground]).Nodup := by
  have within : (s.queuedRequests ep [.interactive, .foreground] : Multiset QueuedRequest) ≤
      s.live := by
    rw [coe_queuedRequests]
    calc (s.queueOf ep).bandContents .interactive + (s.queueOf ep).bandContents .foreground
        ≤ (s.queueOf ep).contents := by
          rw [EndpointQueue.contents_eq]
          exact Multiset.le_add_right _ _
      _ ≤ s.queued := by
          rw [contents_eq_filter wf]
          exact Multiset.filter_le _ _
      _ ≤ s.live := Multiset.le_add_right _ _
  exact Multiset.coe_nodup.mp (Multiset.nodup_of_le within (Multiset.Nodup.of_map _ unique))

namespace Gateway

theorem consistent_fastFailOne (inv : Consistent cfg g.proxy.world)
    (hr : req ∈ g.proxy.world.sched.queued) (ep reason : String) (now : ℚ) :
    Consistent cfg (g.fastFailOne cfg ep reason now req).proxy.world := by
  rcases fastFailOne_cases cfg ep reason now g req with ⟨target, -, heq⟩ | ⟨failure, heq⟩
  · rw [heq]
    exact inv.reroute hr target
  · rw [heq]
    exact inv.cancel req.requestId

/-- The other requests stay queued while one is moved or released. -/
theorem queued_fastFailOne (inv : Consistent cfg g.proxy.world) {req r : QueuedRequest}
    (hreq : req ∈ g.proxy.world.sched.queued) (hr : r ∈ g.proxy.world.sched.queued) (ne : r ≠ req)
    (ep reason : String) (now : ℚ) :
    r ∈ (g.fastFailOne cfg ep reason now req).proxy.world.sched.queued := by
  rcases fastFailOne_cases cfg ep reason now g req with ⟨target, -, heq⟩ | ⟨failure, heq⟩
  · obtain ⟨⟨others, before, after⟩, -, -⟩ := World.reroute_effect inv.wf inv.unique hreq target
    rw [heq]
    show r ∈ (g.proxy.world.reroute cfg req target).sched.queued
    rw [before] at hr
    rw [after]
    exact Multiset.mem_cons_of_mem ((Multiset.mem_cons.mp hr).resolve_left ne)
  · obtain ⟨ep', b, a, rest, holds, hcancel⟩ := inv.unique.cancel_eq hreq
    rw [heq]
    show r ∈ (g.proxy.world.sched.cancel req.requestId).1.queued
    rw [queued_takeOut holds] at hr
    rw [hcancel]
    exact (Multiset.mem_cons.mp hr).resolve_left ne

/-- The rule for `fast_fail_interactive`: each request of the snapshot is queued when its
turn comes. -/
theorem fastFailInteractive_queued {now : ℚ} {ep reason : String} (Inv : Gateway → Prop)
    (consistent : Consistent cfg g.proxy.world) (start : Inv (g.refreshed cfg now))
    (each : ∀ req g', req ∈ g.proxy.world.sched.queuedRequests ep [.interactive, .foreground] →
      Consistent cfg g'.proxy.world → req ∈ g'.proxy.world.sched.queued → Inv g' →
        Inv (g'.fastFailOne cfg ep reason now req)) :
    Consistent cfg (g.fastFailInteractive cfg ep reason now).proxy.world ∧
      Inv (g.fastFailInteractive cfg ep reason now) := by
  have loop := @fastFailInteractive_rule cfg g now ep reason
    (fun rest g' => rest.Nodup ∧
      (∀ r ∈ rest, r ∈ g.proxy.world.sched.queuedRequests ep [.interactive, .foreground] ∧
        r ∈ g'.proxy.world.sched.queued) ∧
      Consistent cfg g'.proxy.world ∧ Inv g')
    ⟨nodup_queuedRequests consistent.wf consistent.unique ep,
      fun r hr => ⟨hr, mem_queuedRequests hr⟩, consistent, start⟩ (by
      rintro req rest g' ⟨nodup, found, inv, holds⟩
      obtain ⟨snapshot, queued⟩ := found req List.mem_cons_self
      obtain ⟨fresh, nodup⟩ := List.nodup_cons.mp nodup
      refine ⟨nodup, fun r hr => ?_, consistent_fastFailOne inv queued ep reason now,
        each req g' snapshot inv queued holds⟩
      obtain ⟨inSnapshot, stays⟩ := found r (List.mem_cons_of_mem _ hr)
      exact ⟨inSnapshot,
        queued_fastFailOne inv queued stays (fun same => fresh (same ▸ hr)) ep reason now⟩)
  exact loop.2.2

/-! ### Runs -/

/-- The request a turn may enqueue, as it comes. -/
def incoming (cfg : ProxyConfig) (g : Gateway) : GatewayEvent → Option QueuedRequest
  | .recovered row payload wall now => some (row.rebuild cfg payload wall now)
  | e => (g.handled cfg e).map fun x => x.2.1

theorem Brings.incoming {e : GatewayEvent} {load : Load} {now : ℚ} (brings : Brings cfg g e load now) :
    g.incoming cfg e = some load.req := by
  have handled := brings.handled
  cases brings with
  | submit => rfl
  | acquire _ | posted _ => exact congrArg (Option.map fun x => x.2.1) handled

/-- The turn enqueues no id that is live. -/
def fresh (cfg : ProxyConfig) (g : Gateway) (e : GatewayEvent) : Bool :=
  (g.incoming cfg e).all fun r => decide (r.requestId ∉ g.proxy.world.sched.liveIds)

theorem PastCircuit.requestId {req req₁ : QueuedRequest} {now : ℚ} {g₁ : Gateway}
    {source : Option String} (past : PastCircuit cfg g req now g₁ req₁ source) :
    req₁.requestId = req.requestId := by
  cases past <;> rfl

/-- The enqueue of an admission that reuses no live id. -/
theorem fresh_admitted {e : GatewayEvent} (fresh : g.fresh cfg e = true) {load : Load} {now : ℚ}
    {g₀ g₁ : Gateway} {req₁ : QueuedRequest} {source : Option String}
    (brings : Brings cfg g e load now) (past : PastCircuit cfg g₀ load.req now g₁ req₁ source) :
    Fresh g.proxy.world (.enqueue (load.submission.prepare req₁)) := by
  have named : load.req.requestId ∉ g.proxy.world.sched.liveIds := by
    rw [Gateway.fresh, brings.incoming] at fresh
    exact of_decide_eq_true fresh
  show (load.submission.prepare req₁).requestId ∉ g.proxy.world.sched.liveIds
  rw [Submission.requestId_prepare, past.requestId]
  exact named

theorem consistent_step (inv : Consistent cfg g.proxy.world) {e : GatewayEvent}
    (fresh : g.fresh cfg e = true) : Consistent cfg (g.step cfg policy e).proxy.world := by
  refine proxy_rule (fun p => Consistent cfg p.world) inv ?_ ?_ ?_ ?_
  · intro load now g₀ g₁ req₁ source same brings past _
    rw [Proxy.world_submit]
    exact inv.enqueue (fresh_admitted fresh brings past)
  · rintro e₀ e' - h
    exact Proxy.world_turn (Consistent cfg) (proxied_ne_submit h) inv (fun o now _ => inv.tick o now)
      (fun _ record inv => inv.complete record) (fun _ id inv => inv.cancel id)
  · rintro row payload wall now rfl
    exact inv.enqueue (of_decide_eq_true fresh)
  · rintro ep reason now -
    exact (fastFailInteractive_queued (fun _ => True) inv trivial fun _ _ _ _ _ _ => trivial).1

/-- The tasks stay those of what was dispatched. -/
theorem tasked_step (tasked : Tasked cfg g.proxy.world g.proxy.tasks) {e : GatewayEvent}
    (fresh : g.fresh cfg e = true) :
    Tasked cfg (g.step cfg policy e).proxy.world (g.step cfg policy e).proxy.tasks := by
  have consistent : Consistent cfg (g.step cfg policy e).proxy.world :=
    consistent_step tasked.consistent fresh
  by_cases ticks : ∃ o now, e = .turn (.tick o now)
  · -- Only a tick creates tasks.
    obtain ⟨o, now, rfl⟩ := ticks
    show Tasked cfg (g.proxy.schedulerLoop cfg (g.oracles cfg o now) now).world
      (g.proxy.schedulerLoop cfg (g.oracles cfg o now) now).tasks
    rw [Proxy.world_schedulerLoop, Proxy.tasks_schedulerLoop]
    exact tasked.tick _ now
  · suffices same : (g.step cfg policy e).proxy.world.dispatched = g.proxy.world.dispatched ∧
        SameDecisions g.proxy.tasks (g.step cfg policy e).proxy.tasks from
      tasked.of_same consistent same.1 same.2
    refine proxy_rule (fun p => p.world.dispatched = g.proxy.world.dispatched ∧
      SameDecisions g.proxy.tasks p.tasks) ⟨rfl, .refl _⟩ ?_ ?_ ?_ ?_
    · intro load now g₀ g₁ req₁ source _ _ _ _
      rw [Proxy.world_submit, Proxy.tasks_submit]
      exact ⟨rfl, .refl _⟩
    · rintro e₀ e' rfl h
      have other (o : Oracles) (now : ℚ) : e' ≠ .tick o now := by
        rintro rfl
        cases e₀ with
        | tick o' now' => exact ticks ⟨o', now', rfl⟩
        | _ => simp [proxied] at h
      exact ⟨Proxy.world_turn (fun w => w.dispatched = g.proxy.world.dispatched)
        (proxied_ne_submit h) rfl (fun o now he => absurd he (other o now))
        (fun _ _ h => h) (fun _ _ h => h), Proxy.sameDecisions_step other⟩
    · rintro row payload wall now -
      exact ⟨rfl, .refl _⟩
    · rintro ep reason now -
      refine fastFailInteractive_rule
        (fun _ g' => g'.proxy.world.dispatched = g.proxy.world.dispatched ∧
          SameDecisions g.proxy.tasks g'.proxy.tasks) ⟨rfl, .refl _⟩ ?_
      intro req rest g' same
      rcases fastFailOne_cases cfg ep reason now g' req with ⟨target, -, heq⟩ | ⟨failure, heq⟩
      · rw [heq]
        exact same
      · rw [heq]
        exact same

end Gateway

/-! ### Answers reach their own callers -/

namespace Routed

variable {p : Proxy}

/-- A queued request is moved under the id and the identity it has. -/
theorem reroute (inv : Routed cfg p) (hr : req ∈ p.world.sched.queued)
    (target : String) : Routed cfg { p with world := p.world.reroute cfg req target } := by
  have consistent := inv.tasked.consistent
  obtain ⟨⟨others, before, after⟩, running, -⟩ :=
    World.reroute_effect consistent.wf consistent.unique hr target
  refine ⟨inv.tasked.of_same (consistent.reroute hr target) rfl (.refl _), ?_,
    inv.parties.of_same rfl rfl rfl rfl, inv.tasks⟩
  refine inv.one.of_subset fun id c owns => ?_
  rcases owns with h | h | h | ⟨r, hlive, rfl, rfl⟩
  · exact .inl h
  · exact .inr (.inl h)
  · exact .inr (.inr (.inl h))
  · change r ∈ (p.world.reroute cfg req target).sched.live at hlive
    rw [Scheduler.live, after, running, Multiset.cons_add] at hlive
    rcases Multiset.mem_cons.mp hlive with rfl | hlive
    · have own : Owns p req.requestId req.ref := owns_of_queued hr
      exact own
    · refine owns_of_live ?_
      rw [Scheduler.live, before, Multiset.cons_add]
      exact Multiset.mem_cons_of_mem hlive

/-- A queued request is released with an error. -/
theorem release (inv : Routed cfg p) (hr : req ∈ p.world.sched.queued)
    (failure : Failure) : Routed cfg (Gateway.releaseQueued cfg p req failure) := by
  have reaches := Parties.reaches_of_owns inv.one (owns_of_queued hr)
  have cancelled := inv.cancel req.requestId
  refine cancelled.of_same rfl (fun _ _ h => h) (fun _ _ h => h) rfl rfl ?_
  exact cancelled.parties.resolveError ⟨reaches.futures, reaches.streams⟩ _

/-- A request that nobody waits for is enqueued. -/
theorem recovered (inv : Routed cfg p) (unclaimed : p.Unclaimed (.submit req)) :
    Routed cfg { p with world := p.world.step cfg (.enqueue req) } := by
  have consistent := inv.tasked.consistent.enqueue unclaimed.1
  have fresh := not_owns_of_unclaimed unclaimed
  refine ⟨inv.tasked.of_same consistent rfl (.refl _), ?_, inv.parties.of_same rfl rfl rfl rfl,
    inv.tasks⟩
  have owned {id : String} {c : ℕ}
      (owns : Owns { p with world := p.world.step cfg (.enqueue req) } id c) :
      Owns p id c ∨ id = req.requestId ∧ c = p.world.enqueued.length := by
    rcases owns with h | h | h | ⟨r, hr, rfl, rfl⟩
    · exact .inl (.inl h)
    · exact .inl (.inr (.inl h))
    · exact .inl (.inr (.inr (.inl h)))
    · simp only [World.step, inv.tasked.consistent.wf.live_enqueue] at hr
      rcases Multiset.mem_cons.mp hr with rfl | hr
      · exact .inr ⟨rfl, rfl⟩
      · exact .inl (owns_of_live hr)
  intro id c c' h h'
  rcases owned h with h | ⟨rfl, rfl⟩
  · rcases owned h' with h' | ⟨rfl, rfl⟩
    · exact inv.one id c c' h h'
    · exact absurd h (fresh c)
  · rcases owned h' with h' | ⟨-, rfl⟩
    · exact absurd h' (fresh c')
    · rfl

end Routed

namespace Gateway

/-- Nothing is kept under an id that the turn enqueues. -/
def unclaimed (cfg : ProxyConfig) (g : Gateway) (e : GatewayEvent) : Bool :=
  (g.incoming cfg e).all fun r => decide (g.proxy.Unclaimed (.submit r))

/-- The submission of an admission whose id is unclaimed. -/
theorem unclaimed_admitted {e : GatewayEvent} (unclaimed : g.unclaimed cfg e = true) {load : Load}
    {now : ℚ} {g₀ g₁ : Gateway} {req₁ : QueuedRequest} {source : Option String}
    (brings : Brings cfg g e load now) (past : PastCircuit cfg g₀ load.req now g₁ req₁ source) :
    g.proxy.Unclaimed (.submit (load.submission.prepare req₁)) := by
  have named : g.proxy.Unclaimed (.submit load.req) := by
    rw [Gateway.unclaimed, brings.incoming] at unclaimed
    exact of_decide_eq_true unclaimed
  have same : (load.submission.prepare req₁).requestId = load.req.requestId := by
    rw [Submission.requestId_prepare, past.requestId]
  simp only [Proxy.Unclaimed, same]
  exact named

theorem routed_fastFailOne (inv : Routed cfg g.proxy)
    (hr : req ∈ g.proxy.world.sched.queued) (ep reason : String) (now : ℚ) :
    Routed cfg (g.fastFailOne cfg ep reason now req).proxy := by
  rcases fastFailOne_cases cfg ep reason now g req with ⟨target, -, heq⟩ | ⟨failure, heq⟩
  · rw [heq]
    exact inv.reroute hr target
  · rw [heq]
    exact inv.release hr failure

theorem routed_step (inv : Routed cfg g.proxy) {e : GatewayEvent}
    (unclaimed : g.unclaimed cfg e = true) : Routed cfg (g.step cfg policy e).proxy := by
  refine proxy_rule (Routed cfg) inv ?_ ?_ ?_ ?_
  · intro load now g₀ g₁ req₁ source same brings past _
    exact inv.submit (unclaimed_admitted unclaimed brings past)
  · rintro e₀ e' - h
    refine inv.step ?_
    cases e' with
    | submit req => exact absurd rfl (proxied_ne_submit h req)
    | _ => trivial
  · rintro row payload wall now rfl
    exact inv.recovered (of_decide_eq_true unclaimed)
  · rintro ep reason now -
    exact (fastFailInteractive_queued (fun g' => Routed cfg g'.proxy) inv.tasked.consistent inv
      fun req g' _ _ queued inv => routed_fastFailOne inv queued ep reason now).2

end Gateway

end Roadstead
