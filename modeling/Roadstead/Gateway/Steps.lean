import Roadstead.Gateway
import Roadstead.Lifecycle.Routing
import Roadstead.Scheduler.SpillCap

/-!
# What the turns of the gateway do

Facts about the turns of `Gateway` that several invariants use.

* `World.Every P` says that a predicate holds of every request the scheduler has seen.
  The rules for it (`Every.tick`, `Every.reroute`, ...) ask only what the one move that
  rewrites a request, the spill, does to the predicate.
* `Proxy.Every P` adds the requests the dispatch tasks carry.
* `Gateway.circuitBreaker_cases` is the inversion of `handle_submit` from the circuit breaker on.
-/

namespace Roadstead

open Scheduler

variable {cfg : ProxyConfig} {policy : Policy} {P : QueuedRequest → Prop}

/-! ### Every request of a scheduler -/

section Tick

variable {s : Scheduler} {o : Oracles} {now : ℚ}

/-- A dispatch puts its request in flight, and nothing else. -/
theorem mem_running_afterDispatch {ep agentId : String} {band : PriorityBand}
    {req r : QueuedRequest} {rest : List QueuedRequest}
    (hr : r ∈ (s.afterDispatch ep band agentId req rest now).running) :
    r = req ∨ r ∈ s.running := by
  obtain ⟨ep', hr⟩ := mem_running_iff.mp hr
  obtain ⟨id, ar, har, rfl⟩ := mem_requestsOf_iff.mp hr
  rw [activeOf_afterDispatch] at har
  split at har
  · rw [Dict.get?_set] at har
    split at har
    · obtain rfl := Option.some.inj har
      exact .inl rfl
    · exact .inr (mem_running_iff.mpr ⟨ep, mem_requestsOf_iff.mpr ⟨id, ar, har, rfl⟩⟩)
  · exact .inr (mem_running_iff.mpr ⟨ep', mem_requestsOf_iff.mpr ⟨id, ar, har, rfl⟩⟩)

/-- What a spill of a tick does to the predicate. -/
def SpillsKeep (cfg : ProxyConfig) (P : QueuedRequest → Prop) (trace : List Moment) : Prop :=
  ∀ m ∈ trace, ∀ req target, m.event = .spill req target → P req → P (moved cfg m.before req target)

theorem SpillsKeep.of_append {trace trace' : List Moment} (keep : SpillsKeep cfg P (trace ++ trace')) :
    SpillsKeep cfg P trace := fun m hm => keep m (List.mem_append_left _ hm)

theorem Scheduler.WellFormed.dispatchAll_forall (wf : s.WellFormed cfg)
    (every : ∀ r ∈ s.live, P r) (keep : SpillsKeep cfg P (Scheduler.dispatchAll cfg o now s).trace) :
    (∀ r ∈ (Scheduler.dispatchAll cfg o now s).sched.live, P r) ∧
      ∀ d ∈ (Scheduler.dispatchAll cfg o now s).decisions, P d.request := by
  refine (dispatchAll_invariant (fun p => SpillsKeep cfg P p.trace →
    (∀ r ∈ p.sched.live, P r) ∧ ∀ d ∈ p.decisions, P d.request) wf ?_ ?_).1 keep
  · exact fun _ => ⟨every, by simp⟩
  · intro p m p' hwf hp move keep
    cases move with
    | @dispatch ep epCfg band agentId req rest occ attempt configured head =>
        obtain ⟨live, decisions⟩ := hp keep.of_append
        have queued := queued_afterDispatch head now
        have first : P req := by
          refine live req (Multiset.mem_add.mpr (.inl ?_))
          rw [queued]
          exact Multiset.mem_cons_self _ _
        refine ⟨fun r hr => ?_, fun d hd => ?_⟩
        · rcases Multiset.mem_add.mp hr with hr | hr
          · refine live r (Multiset.mem_add.mpr (.inl ?_))
            rw [queued]
            exact Multiset.mem_cons_of_mem hr
          · rcases mem_running_afterDispatch hr with rfl | hr
            · exact first
            · exact live r (Multiset.mem_add.mpr (.inr hr))
        · rcases List.mem_append.mp hd with hd | hd
          · exact decisions d hd
          · obtain rfl := List.mem_singleton.mp hd
            exact first
    | @spill ep epCfg band agentId req rest target attempt configured head _ _ _ _ =>
        obtain ⟨live, decisions⟩ := hp keep.of_append
        obtain ⟨others, before, after⟩ := hwf.queued_afterSpill head target
        refine ⟨fun r hr => ?_, decisions⟩
        rcases Multiset.mem_add.mp hr with hr | hr
        · rw [after] at hr
          rcases Multiset.mem_cons.mp hr with rfl | hr
          · refine keep _ (List.mem_append_right _ (List.mem_singleton_self _)) req target rfl ?_
            refine live req (Multiset.mem_add.mpr (.inl ?_))
            rw [before]
            exact Multiset.mem_cons_self _ _
          · refine live r (Multiset.mem_add.mpr (.inl ?_))
            rw [before]
            exact Multiset.mem_cons_of_mem hr
        · rw [hwf.running_afterSpill head] at hr
          exact live r (Multiset.mem_add.mpr (.inr hr))

/-- Why a tick spills a request: it was queued when the tick began, and the target is the
one its endpoint is configured with. -/
structure Spilling (cfg : ProxyConfig) (o : Oracles) (s : Scheduler) (req : QueuedRequest)
    (target : String) : Prop where
  queued : req ∈ s.queued
  configured : ∃ epCfg, cfg.endpoints.get? req.endpoint = some epCfg ∧ target = epCfg.spillTo
  could : canSpillTo cfg target req = true
  healthy : ∃ site, o.healthy site target = true

theorem Scheduler.WellFormed.dispatchAll_spilling (wf : s.WellFormed cfg) :
    ∀ m ∈ (Scheduler.dispatchAll cfg o now s).trace, ∀ req target,
      m.event = .spill req target → Spilling cfg o s req target := by
  -- What a pass has spilled already carries a spill record, so it is not spilled again.
  refine (dispatchAll_invariant (fun p => (∀ m ∈ p.trace, ∀ req target,
    m.event = .spill req target → Spilling cfg o s req target) ∧
      ∀ r ∈ p.sched.queued, r.hasSpilled = false → r ∈ s.queued) wf ?_ ?_).1.1
  · exact ⟨by simp, fun r hr _ => hr⟩
  · rintro p m p' hwf ⟨spills, old⟩ move
    cases move with
    | @dispatch ep epCfg band agentId req rest occ attempt configured head =>
        refine ⟨fun m hm => ?_, fun r hr => old r ?_⟩
        · rcases List.mem_append.mp hm with hm | hm
          · exact spills m hm
          · obtain rfl := List.mem_singleton.mp hm
            exact fun _ _ h => nomatch h
        · rw [queued_afterDispatch head now]
          exact Multiset.mem_cons_of_mem hr
    | @spill ep epCfg band agentId req rest target attempt configured head slots elsewhere healthy may =>
        obtain ⟨others, before, after⟩ := hwf.queued_afterSpill head target
        refine ⟨fun m hm => ?_, fun r hr fresh => ?_⟩
        · rcases List.mem_append.mp hm with hm | hm
          · exact spills m hm
          · obtain rfl := List.mem_singleton.mp hm
            intro _ _ h
            obtain ⟨rfl, rfl⟩ := PassEvent.spill.inj h
            have here : req.endpoint = ep := hwf.endpoint_of_head head
            have waits : req ∈ p.sched.queued := by
              rw [before]
              exact Multiset.mem_cons_self _ _
            exact ⟨old req waits may.not_spilled, ⟨epCfg, by rw [here]; exact configured, elsewhere.1⟩,
              canSpillTo_of_maySpill hwf configured head slots elsewhere may, ⟨_, healthy⟩⟩
        · rw [after] at hr
          rcases Multiset.mem_cons.mp hr with rfl | hr
          · rw [hwf.hasSpilled_moved configured head target] at fresh
            exact absurd fresh (by simp)
          · refine old r ?_ fresh
            rw [before]
            exact Multiset.mem_cons_of_mem hr

theorem Scheduler.WellFormed.mem_queued_of_afterExpiry (wf : s.WellFormed cfg) (o : Oracles)
    {r : QueuedRequest} (hr : r ∈ (s.afterExpiry now).queued) : r ∈ s.queued := by
  rw [← wf.queued_afterExpiry o now]
  exact Multiset.mem_add.mpr (.inl hr)

theorem Scheduler.WellFormed.tick_spilling (wf : s.WellFormed cfg) :
    ∀ m ∈ (Scheduler.tick cfg o s now).trace, ∀ req target,
      m.event = .spill req target → Spilling cfg o s req target := by
  intro m hm req target h
  have spilling := (wf.afterExpiry now).dispatchAll_spilling m hm req target h
  exact { spilling with queued := wf.mem_queued_of_afterExpiry o spilling.queued }

end Tick

/-- The predicate holds of every request the scheduler has seen. -/
def World.Every (P : QueuedRequest → Prop) (w : World) : Prop := ∀ r ∈ w.everywhere, P r

namespace World.Every

variable {w : World}

theorem live (every : w.Every P) {r : QueuedRequest} (hr : r ∈ w.sched.live) : P r :=
  every r (Multiset.mem_add.mpr (.inl hr))

theorem queued (every : w.Every P) {r : QueuedRequest} (hr : r ∈ w.sched.queued) : P r :=
  every.live (Multiset.mem_add.mpr (.inl hr))

/-- The same history, with another scheduler. -/
theorem of_live (every : w.Every P) {s : Scheduler} (live : ∀ r ∈ s.live, P r) :
    ({ w with sched := s } : World).Every P := by
  intro r hr
  rcases Multiset.mem_add.mp hr with hr | hr
  · exact live r hr
  · exact every r (Multiset.mem_add.mpr (.inr hr))

theorem init (cfg : ProxyConfig) (cost : CostModel) (budgets : BudgetManager) :
    (World.init cfg cost budgets).Every P := by
  intro r hr
  rcases Multiset.mem_add.mp hr with hr | hr
  · change r ∈ (Scheduler.init cfg cost budgets).live at hr
    rw [live_init] at hr
    exact absurd hr (Multiset.notMem_zero r)
  · exact absurd hr (Multiset.notMem_zero r)

theorem enqueue (every : w.Every P) (wf : w.sched.WellFormed cfg) {req : QueuedRequest}
    (new : P (w.sched.estimated (w.identified req))) : (w.step cfg (.enqueue req)).Every P := by
  refine of_live (w := { w with enqueued := w.enqueued ++ [w.identified req] }) every ?_
  intro r hr
  rw [wf.live_enqueue] at hr
  rcases Multiset.mem_cons.mp hr with rfl | hr
  · exact new
  · exact every.live hr

theorem tick (every : w.Every P) (wf : w.sched.WellFormed cfg) {o : Oracles} {now : ℚ}
    (keep : SpillsKeep cfg P (Scheduler.tick cfg o w.sched now).trace) :
    (w.step cfg (.tick o now)).Every P ∧
      ∀ d ∈ (Scheduler.tick cfg o w.sched now).decisions, P d.request := by
  have expired := wf.queued_afterExpiry o now
  have kept : ∀ r ∈ (w.sched.afterExpiry now).live, P r := by
    intro r hr
    rcases Multiset.mem_add.mp hr with hr | hr
    · refine every.queued ?_
      rw [← expired]
      exact Multiset.mem_add.mpr (.inl hr)
    · exact every.live (Multiset.mem_add.mpr (.inr hr))
  have after := (wf.afterExpiry now).dispatchAll_forall kept keep
  refine ⟨fun r hr => ?_, after.2⟩
  rcases Multiset.mem_add.mp hr with hr | hr
  · exact after.1 r hr
  · -- The history has grown by what expired.
    simp only [World.step, World.finished, Multiset.mem_coe, List.mem_append] at hr
    rcases hr with ((hr | hr) | hr) | hr
    · exact every r (Multiset.mem_add.mpr (.inr (by simp [hr])))
    · refine every.queued ?_
      rw [← expired]
      exact Multiset.mem_add.mpr (.inr (Multiset.mem_coe.mpr hr))
    · exact every r (Multiset.mem_add.mpr (.inr (by simp [hr])))
    · exact every r (Multiset.mem_add.mpr (.inr (by simp [World.finished, hr])))

theorem complete (every : w.Every P) (record : CompletionRecord) :
    (w.step cfg (.complete record)).Every P := by
  rcases w.step_complete cfg record with ⟨-, same⟩ | ⟨ep, ar, hit, stepped⟩
  · rwa [same]
  · have running := running_finish hit
    intro r hr
    rw [stepped] at hr
    simp only [World.everywhere, World.finished, List.map_append, List.map_cons,
      List.map_nil] at hr
    rcases Multiset.mem_add.mp hr with hr | hr
    · refine every.live ?_
      rcases Multiset.mem_add.mp hr with hr | hr
      · exact Multiset.mem_add.mpr (.inl hr)
      · exact Multiset.mem_add.mpr (.inr (running ▸ Multiset.mem_cons_of_mem hr))
    · simp only [Multiset.mem_coe, List.mem_append, List.mem_singleton] at hr
      rcases hr with (hr | hr) | hr | rfl
      · exact every r (Multiset.mem_add.mpr (.inr (by simp [hr])))
      · exact every r (Multiset.mem_add.mpr (.inr (by simp [hr])))
      · exact every r (Multiset.mem_add.mpr (.inr (by simp [World.finished, hr])))
      · refine every.live (Multiset.mem_add.mpr (.inr ?_))
        rw [running]
        exact Multiset.mem_cons_self _ _

theorem cancel (every : w.Every P) (id : String) : (w.step cfg (.cancel id)).Every P := by
  intro r hr
  rcases Multiset.mem_add.mp hr with hr | hr
  · exact every.live (live_cancel cfg _ hr)
  · rcases w.step_cancel cfg id with ⟨-, same⟩ | ⟨ep, b, a, req, rest, holds, -, stepped⟩
    · rw [same] at hr
      exact every r (Multiset.mem_add.mpr (.inr hr))
    · rw [stepped] at hr
      simp only [World.finished, Multiset.mem_coe, List.mem_append, List.mem_singleton] at hr
      rcases hr with (hr | hr | rfl) | hr
      · exact every r (Multiset.mem_add.mpr (.inr (by simp [hr])))
      · exact every r (Multiset.mem_add.mpr (.inr (by simp [hr])))
      · refine every.queued ?_
        rw [queued_takeOut holds]
        exact Multiset.mem_cons_self _ _
      · exact every r (Multiset.mem_add.mpr (.inr (by simp [World.finished, hr])))

theorem reroute (every : w.Every P) (wf : w.sched.WellFormed cfg) {req : QueuedRequest}
    {target : String}
    (new : P ((w.sched.cancel req.requestId).1.estimated (Failover.apply cfg req target))) :
    (w.reroute cfg req target).Every P := by
  have taken : (w.sched.cancel req.requestId).1.WellFormed cfg :=
    World.wellFormed_step wf (.cancel req.requestId)
  refine every.of_live fun r hr => ?_
  rw [taken.live_enqueue] at hr
  rcases Multiset.mem_cons.mp hr with rfl | hr
  · exact new
  · exact every.live (live_cancel cfg _ hr)

end World.Every

theorem World.wellFormed_reroute {w : World} (wf : w.sched.WellFormed cfg) (req : QueuedRequest)
    (target : String) : (w.reroute cfg req target).sched.WellFormed cfg :=
  Scheduler.WellFormed.enqueue (World.wellFormed_step wf (.cancel req.requestId)) _

/-! ### Every request of a proxy -/

namespace Proxy

variable {p : Proxy}

/-- The turns that are no submission reach the scheduler through ticks, completions and
cancellations. -/
theorem world_turn (Inv : World → Prop) {e : Event} (other : ∀ req, e ≠ .submit req)
    (start : Inv p.world) (tick : ∀ o now, e = .tick o now → Inv (p.world.step cfg (.tick o now)))
    (complete : ∀ w record, Inv w → Inv (w.step cfg (.complete record)))
    (cancel : ∀ w id, Inv w → Inv (w.step cfg (.cancel id))) : Inv (p.step cfg policy e).world := by
  cases e with
  | submit req => exact absurd rfl (other req)
  | tick o now =>
      show Inv (p.schedulerLoop cfg o now).world
      rw [world_schedulerLoop]
      exact tick o now rfl
  | task ref w =>
      simp only [Proxy.step, Proxy.runTask]
      split
      · exact start
      · split
        · exact start
        · dsimp only
          rw [world_foldl_perform]
          exact List.foldlRecOn _ _ start fun w hw record _ => complete w record hw
  | clientTimeout ref =>
      simp only [Proxy.step, Proxy.clientTimeout]
      split
      · exact start
      · split
        · exact cancel _ _ start
        · exact start
  | openStream ref | readFrame ref => exact start
  | taskDone ref | deliver ref | abandon ref | consumerTimeout ref | leave ref =>
      simp only [Proxy.step, Proxy.taskDone, Proxy.deliver, Proxy.abandon, Proxy.consumerTimeout,
        Proxy.leave]
      split
      · exact start
      · split <;> exact start
  | fastFail req reason =>
      simp only [Proxy.step, Proxy.fastFail]
      split
      · exact cancel _ _ start
      · exact start

theorem world_submit (p : Proxy) (req : QueuedRequest) :
    (p.submit cfg req).world = p.world.step cfg (.enqueue req) := by
  unfold Proxy.submit
  split <;> rfl

theorem tasks_submit (p : Proxy) (req : QueuedRequest) : (p.submit cfg req).tasks = p.tasks := by
  unfold Proxy.submit
  split <;> rfl

/-- Only the scheduler loop makes decisions. -/
theorem sameDecisions_step {e : Event} (other : ∀ o now, e ≠ .tick o now) :
    SameDecisions p.tasks (p.step cfg policy e).tasks := by
  have close (ref : ℕ) (id : String) (p : Proxy) : SameDecisions p.tasks (p.closeStream ref id).tasks := by
    unfold Proxy.closeStream
    dsimp only
    split
    · exact .refl _
    · exact .modify _ _ Task.decision_cancel
  cases e with
  | submit req =>
      simp only [Proxy.step, tasks_submit]
      exact .refl _
  | tick o now => exact absurd rfl (other o now)
  | task ref w =>
      simp only [Proxy.step, Proxy.runTask]
      split
      · exact .refl _
      · rename_i t ht
        split
        · exact .refl _
        · dsimp only
          rw [(SameMaps.foldl (sameMaps_perform cfg t.decision) _ p).tasks]
          exact .set ht rfl
  | taskDone ref =>
      simp only [Proxy.step, Proxy.taskDone]
      split
      · exact .refl _
      · rename_i t ht
        split
        · exact .set ht rfl
        · exact .refl _
  | deliver ref | clientTimeout ref | abandon ref =>
      simp only [Proxy.step, Proxy.deliver, Proxy.clientTimeout, Proxy.abandon]
      split
      · exact .refl _
      · split <;> exact .refl _
  | openStream ref | readFrame ref => exact .refl _
  | consumerTimeout ref =>
      simp only [Proxy.step, Proxy.consumerTimeout]
      split
      · exact .refl _
      · rename_i k hk
        split
        · exact close ref k.requestId
            { p with
              consumers := p.consumers.modify ref fun k =>
                { k with
                  received := k.received ++ [(ref, Frame.error { message := "timeout" })] } }
        · exact .refl _
  | leave ref =>
      simp only [Proxy.step, Proxy.leave]
      split
      · exact .refl _
      · rename_i k hk
        split
        · exact .refl _
        · exact close ref k.requestId p
        · exact close ref k.requestId p
        · exact .refl _
  | fastFail req reason =>
      simp only [Proxy.step, Proxy.fastFail]
      split <;> exact .refl _

/-- The predicate holds of every request of the scheduler and of the dispatch tasks. -/
structure Every (P : QueuedRequest → Prop) (p : Proxy) : Prop where
  world : p.world.Every P
  tasks : ∀ r t, p.tasks.get? r = some t → P t.decision.request

namespace Every

theorem init (cfg : ProxyConfig) (cost : CostModel) (budgets : BudgetManager) :
    (Proxy.init cfg cost budgets).Every P where
  world := World.Every.init cfg cost budgets
  tasks := by simp [Proxy.init]

theorem submit (every : p.Every P) (wf : p.world.sched.WellFormed cfg) {req : QueuedRequest}
    (new : P (p.world.sched.estimated (p.world.identified req))) : (p.submit cfg req).Every P where
  world := by
    rw [world_submit]
    exact every.world.enqueue wf new
  tasks := by
    rw [tasks_submit]
    exact every.tasks

/-- A turn that is no submission. -/
theorem turn (every : p.Every P) (wf : p.world.sched.WellFormed cfg) {e : Event}
    (other : ∀ req, e ≠ .submit req)
    (keep : ∀ o now, e = .tick o now →
      SpillsKeep cfg P (Scheduler.tick cfg o p.world.sched now).trace) :
    (p.step cfg policy e).Every P := by
  refine ⟨?_, ?_⟩
  · exact world_turn (World.Every P) other every.world
      (fun o now he => (every.world.tick wf (keep o now he)).1) (fun _ record h => h.complete record)
      (fun _ id h => h.cancel id)
  · by_cases ticks : ∃ o now, e = .tick o now
    · obtain ⟨o, now, rfl⟩ := ticks
      intro r t ht
      simp only [Proxy.step, tasks_schedulerLoop] at ht
      rcases Dict.get?_setAll_cases ht with new | old
      · obtain ⟨d, hd, heq⟩ := List.mem_map.mp new
        obtain ⟨-, rfl⟩ := Prod.mk.inj heq
        exact (every.world.tick wf (keep o now rfl)).2 d hd
      · exact every.tasks r t old
    · have same : SameDecisions p.tasks (p.step cfg policy e).tasks :=
        sameDecisions_step fun o now he => ticks ⟨o, now, he⟩
      intro r t ht
      obtain ⟨t', ht', hd⟩ := same.decision r t ht
      rw [hd]
      exact every.tasks r t' ht'

end Every

end Proxy

/-! ### Admission -/

/-- The corrections write the payload and the timeout. -/
theorem Submission.prepare_eq (s : Submission) (req : QueuedRequest) :
    ∃ timeoutS, s.prepare req =
      { req with payload := s.corrected req, timeoutS := timeoutS } := by
  unfold prepare extendDeadlineForGrantedBudget
  split
  · exact ⟨_, rfl⟩
  · exact ⟨req.timeoutS, rfl⟩

@[simp] theorem Submission.endpoint_prepare (s : Submission) (req : QueuedRequest) :
    (s.prepare req).endpoint = req.endpoint := by
  obtain ⟨_, h⟩ := s.prepare_eq req
  rw [h]

@[simp] theorem Submission.requestId_prepare (s : Submission) (req : QueuedRequest) :
    (s.prepare req).requestId = req.requestId := by
  obtain ⟨_, h⟩ := s.prepare_eq req
  rw [h]

@[simp] theorem Submission.degradedFrom_prepare (s : Submission) (req : QueuedRequest) :
    (s.prepare req).degradedFrom = req.degradedFrom := by
  obtain ⟨_, h⟩ := s.prepare_eq req
  rw [h]

/-- The result of the corrections may be cached. -/
def CorrectedResult.Cacheable (result : CorrectedResult) : Prop :=
  result.ok ∧ !result.degenerateUnrecovered ∧ !result.schemaUnrecoverable ∧
    result.response.finishReason ≠ some "length"

namespace Gateway

variable {g : Gateway} {s : Submission} {req : QueuedRequest} {handler : Handler} {now : ℚ}

/-- The state in which a request is past the circuit breaker, the request as it is then,
and the endpoint it was moved off. -/
inductive PastCircuit (cfg : ProxyConfig) (g : Gateway) (req : QueuedRequest) (now : ℚ) :
    Gateway → QueuedRequest → Option String → Prop
  | closed (well : g.healthy cfg now req.endpoint = true) : PastCircuit cfg g req now g req none
  | deferred (sick : g.healthy cfg now req.endpoint = false)
      (stays : ∀ target, (g.refreshed cfg now).plan cfg now req ≠ .reroute target)
      (background : req.band = .background) :
      PastCircuit cfg g req now (g.refreshed cfg now) req none
  | rerouted {target : String} (sick : g.healthy cfg now req.endpoint = false)
      (plan : (g.refreshed cfg now).plan cfg now req = .reroute target) :
      PastCircuit cfg g req now ((g.refreshed cfg now).requestDone req.endpoint now)
        (Failover.apply cfg req target) (some (cfg.normalizeEndpoint req.endpoint))

/-- A request is refused by the circuit breaker, or it is past it. -/
theorem circuitBreaker_cases (cfg : ProxyConfig) (g : Gateway) (s : Submission) (req : QueuedRequest)
    (handler : Handler) (now : ℚ) :
    (g.healthy cfg now req.endpoint = false ∧ ∃ rejection,
      g.circuitBreaker cfg s req handler now = (g.refreshed cfg now).reject req rejection now) ∨
    ∃ g₁ req₁ source, PastCircuit cfg g req now g₁ req₁ source ∧
      g.circuitBreaker cfg s req handler now = g₁.shed cfg s req₁ handler source now := by
  unfold circuitBreaker
  split
  · rename_i well
    exact .inr ⟨g, req, none, .closed well, rfl⟩
  · rename_i h
    have sick : g.healthy cfg now req.endpoint = false := by simpa using h
    dsimp only
    split
    · rename_i target plan
      exact .inr ⟨_, _, _, .rerouted sick plan, rfl⟩
    · rename_i plan stays
      split
      · exact .inl ⟨sick, _, rfl⟩
      · rename_i background
        exact .inr ⟨_, _, _, .deferred sick stays (not_not.mp background), rfl⟩

/-- A request past the circuit breaker is shed or enqueued. -/
theorem shed_cases (cfg : ProxyConfig) (g : Gateway) (s : Submission) (req : QueuedRequest)
    (handler : Handler) (source : Option String) (now : ℚ) :
    g.shed cfg s req handler source now = g.reject req (shedRejection req) now ∨
      g.shed cfg s req handler source now = g.enqueue cfg s req handler source := by
  unfold shed
  split
  · exact .inl rfl
  · exact .inr rfl

theorem PastCircuit.proxy {g₁ : Gateway} {req₁ : QueuedRequest} {source : Option String}
    (past : PastCircuit cfg g req now g₁ req₁ source) : g₁.proxy = g.proxy := by
  cases past <;> rfl

/-! ### The turns that admit a request -/

/-- The parts of the state that the way to the circuit breaker leaves alone. -/
structure SameCore (g g' : Gateway) : Prop where
  proxy : g'.proxy = g.proxy
  health : g'.health = g.health
  failover : g'.failover = g.failover
  handlers : g'.handlers = g.handlers
  reroutes : g'.reroutes = g.reroutes
  shedDepth : g'.shedDepth = g.shedDepth

theorem SameCore.refl (g : Gateway) : SameCore g g := ⟨rfl, rfl, rfl, rfl, rfl, rfl⟩

/-- The turn can bring `load` to the circuit breaker. -/
inductive Brings (cfg : ProxyConfig) (g : Gateway) : GatewayEvent → Load → ℚ → Prop
  | submit {s : Submission} {now : ℚ} :
      Brings cfg g (.submit s now)
        { submission := s, req := s.create cfg now
          cacheKey := DeterministicCache.keyOf (s.create cfg now) } now
  | acquire {id : ℕ} {now : ℚ} {load : Load} (waits : g.loads.get? id = some load) :
      Brings cfg g (.acquire id now) load now
  | posted {id : ℕ} {outcome : Posted} {now : ℚ} {load : Load}
      (waits : g.loads.get? id = some load) : Brings cfg g (.posted id outcome now) load now

/-- What the clock reads in the turn. -/
def time : GatewayEvent → Option ℚ
  | .submit _ now => some now
  | .acquire _ now => some now
  | .posted _ _ now => some now
  | .abort _ => none
  | .turn (.tick _ now) => some now
  | .turn (.task _ w) => some w.now
  | .turn _ => none
  | .finish _ _ now => some now
  | .recovered _ _ _ now => some now
  | .fastFailInteractive _ _ now => some now
  | .health _ => none
  | .refresh now => some now
  | .leakGuard _ now => some now
  | .heartbeat _ _ now => some now
  | .release _ now => some now

variable {e : GatewayEvent}

theorem Brings.time {load : Load} {now : ℚ} (brings : Brings cfg g e load now) :
    time e = some now := by
  cases brings <;> rfl

/-- The turns that can admit a request. -/
def Admitting : GatewayEvent → Prop
  | .submit _ _ => True
  | .acquire _ _ => True
  | .posted _ _ _ => True
  | _ => False

theorem ensure_cases (cfg : ProxyConfig) (g : Gateway) (id : ℕ) (load : Load) (now : ℚ) :
    SameCore g (g.ensure cfg id load now) ∨
      ∃ g₀, SameCore g g₀ ∧ g.ensure cfg id load now =
        g₀.circuitBreaker cfg load.submission load.req (load.handler true) now := by
  unfold ensure
  dsimp only
  split
  · refine .inr ⟨_, ?_, rfl⟩
    exact ⟨rfl, rfl, rfl, rfl, rfl, rfl⟩
  · exact .inl ⟨rfl, rfl, rfl, rfl, rfl, rfl⟩

/-- Such a turn ends before the circuit breaker, or it brings a request there. -/
theorem admitting_cases (cfg : ProxyConfig) (policy : Policy) (g : Gateway)
    (admitting : Admitting e) :
    SameCore g (g.step cfg policy e) ∨
      ∃ g₀ load counted now, SameCore g g₀ ∧ Brings cfg g e load now ∧
        g.step cfg policy e =
          g₀.circuitBreaker cfg load.submission load.req (load.handler counted) now := by
  have ensured {e : GatewayEvent} {g' : Gateway} {id : ℕ} {load : Load} {now : ℚ}
      (same : SameCore g g') (brings : Brings cfg g e load now) :
      SameCore g (g'.ensure cfg id load now) ∨
        ∃ g₀ load' counted now', SameCore g g₀ ∧ Brings cfg g e load' now' ∧
          g'.ensure cfg id load now =
            g₀.circuitBreaker cfg load'.submission load'.req (load'.handler counted) now' := by
    rcases ensure_cases cfg g' id load now with h | ⟨g₀, h, heq⟩
    · exact .inl ⟨h.proxy.trans same.proxy, h.health.trans same.health,
        h.failover.trans same.failover, h.handlers.trans same.handlers,
        h.reroutes.trans same.reroutes, h.shedDepth.trans same.shedDepth⟩
    · exact .inr ⟨g₀, load, true, now, ⟨h.proxy.trans same.proxy, h.health.trans same.health,
        h.failover.trans same.failover, h.handlers.trans same.handlers,
        h.reroutes.trans same.reroutes, h.shedDepth.trans same.shedDepth⟩, brings, heq⟩
  cases e with
  | submit s now =>
      simp only [step, submit]
      split
      · exact .inl ⟨rfl, rfl, rfl, rfl, rfl, rfl⟩
      · split
        · split
          · exact .inl ⟨rfl, rfl, rfl, rfl, rfl, rfl⟩
          · exact ensured ⟨rfl, rfl, rfl, rfl, rfl, rfl⟩ .submit
        · refine .inr ⟨_, _, false, now, ?_, .submit, rfl⟩
          exact ⟨rfl, rfl, rfl, rfl, rfl, rfl⟩
  | acquire id now =>
      simp only [step, acquire]
      split
      · exact .inl (.refl g)
      · rename_i load waits
        split
        · exact .inl (.refl g)
        · exact ensured (.refl g) (.acquire waits)
  | posted id outcome now =>
      simp only [step, posted]
      split
      · exact .inl (.refl g)
      · rename_i load waits
        split
        · cases outcome with
          | failed exc => exact .inl ⟨rfl, rfl, rfl, rfl, rfl, rfl⟩
          | loaded leaseId =>
              refine .inr ⟨_, load, true, now, ?_, .posted waits, rfl⟩
              exact ⟨rfl, rfl, rfl, rfl, rfl, rfl⟩
          | broken => exact .inl ⟨rfl, rfl, rfl, rfl, rfl, rfl⟩
        · exact .inl (.refl g)
  | _ => exact absurd admitting id

/-- What a turn does to failover: nothing, or one refresh. -/
def Refreshes (cfg : ProxyConfig) (g : Gateway) (e : GatewayEvent) (g' : Gateway) : Prop :=
  g'.failover = g.failover ∨
    ∃ now, time e = some now ∧ g'.failover = (g.refreshed cfg now).failover

/-- What the turns that enqueue nothing leave of the state. -/
structure Quiet (cfg : ProxyConfig) (g : Gateway) (e : GatewayEvent) (g' : Gateway) : Prop where
  proxy : g'.proxy = g.proxy
  health : g'.health = g.health
  handlers : g'.handlers = g.handlers
  reroutes : g'.reroutes = g.reroutes
  failover : Refreshes cfg g e g'

theorem SameCore.quiet {g' : Gateway} (same : SameCore g g') :
    Quiet cfg g e g' :=
  ⟨same.proxy, same.health, same.handlers, same.reroutes, .inl same.failover⟩

theorem healthy_of_same {g' : Gateway} (health : g'.health = g.health) (now : ℚ) :
    g'.healthy cfg now = g.healthy cfg now := by
  funext ep
  rw [Gateway.healthy, Gateway.healthy, health]

theorem plan_of_same {g' : Gateway} (failover : g'.failover = g.failover)
    (health : g'.health = g.health) (now : ℚ) : g'.plan cfg now = g.plan cfg now := by
  funext req
  rw [Gateway.plan, Gateway.plan, failover, healthy_of_same health]

theorem SameCore.healthy {g₀ : Gateway} (same : SameCore g g₀) (now : ℚ) :
    g₀.healthy cfg now = g.healthy cfg now :=
  healthy_of_same same.health now

theorem SameCore.refreshed {g₀ : Gateway} (same : SameCore g g₀) (now : ℚ) :
    (g₀.refreshed cfg now).failover = (g.refreshed cfg now).failover := by
  simp only [Gateway.refreshed, same.healthy, same.proxy, same.failover]

theorem SameCore.plan_refreshed {g₀ : Gateway} (same : SameCore g g₀) (now : ℚ)
    (req : QueuedRequest) :
    (g₀.refreshed cfg now).plan cfg now req = (g.refreshed cfg now).plan cfg now req := by
  rw [plan_of_same (same.refreshed now) same.health]

/-- A turn that can admit a request enqueues nothing, or it enqueues the request as the
circuit breaker lets it pass. -/
theorem admission_cases (cfg : ProxyConfig) (policy : Policy) (g : Gateway)
    (admitting : Admitting e) :
    Quiet cfg g e (g.step cfg policy e) ∨
      ∃ g₀ load counted now g₁ req₁ source, SameCore g g₀ ∧ Brings cfg g e load now ∧
        PastCircuit cfg g₀ load.req now g₁ req₁ source ∧
        g.step cfg policy e =
          g₁.enqueue cfg load.submission req₁ (load.handler counted) source := by
  rcases admitting_cases cfg policy g admitting with
    same | ⟨g₀, load, counted, now, same, brings, heq⟩
  · exact .inl same.quiet
  · rcases circuitBreaker_cases cfg g₀ load.submission load.req (load.handler counted) now with
      ⟨-, rejection, h⟩ | ⟨g₁, req₁, source, past, h⟩
    · rw [heq, h]
      exact .inl ⟨same.proxy, same.health, same.handlers, same.reroutes,
        .inr ⟨now, brings.time, same.refreshed now⟩⟩
    · rcases shed_cases cfg g₁ load.submission req₁ (load.handler counted) source now with
        shed | enqueued
      · rw [heq, h, shed]
        refine .inl ?_
        cases past with
        | closed _ =>
            exact ⟨same.proxy, same.health, same.handlers, same.reroutes, .inl same.failover⟩
        | deferred _ _ _ | rerouted _ _ =>
            exact ⟨same.proxy, same.health, same.handlers, same.reroutes,
              .inr ⟨now, brings.time, same.refreshed now⟩⟩
      · exact .inr ⟨g₀, load, counted, now, g₁, req₁, source, same, brings, past,
          heq.trans (h.trans enqueued)⟩

/-- The gateway that has enqueued the request, but for failover and the on-demand manager. -/
theorem admitted_frame {g₀ g₁ : Gateway} {req req₁ : QueuedRequest} {now : ℚ}
    {source : Option String} (same : SameCore g g₀) (past : PastCircuit cfg g₀ req now g₁ req₁ source)
    (s : Submission) (handler : Handler) :
    (g₁.enqueue cfg s req₁ handler source).proxy = g.proxy.submit cfg (s.prepare req₁) ∧
      (g₁.enqueue cfg s req₁ handler source).handlers =
        g.handlers.set g.proxy.world.enqueued.length handler ∧
      (g₁.enqueue cfg s req₁ handler source).reroutes = g.reroutes ++
        (source.map fun source => (g.proxy.world.enqueued.length, source)).toList := by
  have handlers : g₁.handlers = g.handlers := by
    cases past <;> exact same.handlers
  have reroutes : g₁.reroutes = g.reroutes := by
    cases past <;> exact same.reroutes
  rw [enqueue, past.proxy, same.proxy, handlers, reroutes]
  exact ⟨rfl, rfl, rfl⟩

/-- The request as the circuit breaker lets it pass. -/
def passed (cfg : ProxyConfig) (g : Gateway) (req : QueuedRequest) (now : ℚ) : QueuedRequest :=
  if g.healthy cfg now req.endpoint then req
  else
    match (g.refreshed cfg now).plan cfg now req with
    | .reroute target => Failover.apply cfg req target
    | _ => req

theorem PastCircuit.req_eq {req req₁ : QueuedRequest} {now : ℚ} {g₁ : Gateway}
    {source : Option String} (past : PastCircuit cfg g req now g₁ req₁ source) :
    req₁ = g.passed cfg req now := by
  unfold passed
  cases past with
  | closed well => rw [if_pos well]
  | deferred sick stays _ =>
      rw [if_neg (by simp [sick])]
      split
      · rename_i target plan
        exact absurd plan (stays target)
      · rfl
  | rerouted sick plan =>
      rw [if_neg (by simp [sick]), plan]

theorem SameCore.passed {g₀ : Gateway} (same : SameCore g g₀) (req : QueuedRequest) (now : ℚ) :
    g₀.passed cfg req now = g.passed cfg req now := by
  simp only [Gateway.passed, same.healthy, same.plan_refreshed]

/-- The submission a turn may admit, the request it created, and the time. -/
def handled (cfg : ProxyConfig) (g : Gateway) : GatewayEvent → Option (Submission × QueuedRequest × ℚ)
  | .submit s now => some (s, s.create cfg now, now)
  | .acquire id now => (g.loads.get? id).map fun load => (load.submission, load.req, now)
  | .posted id _ now => (g.loads.get? id).map fun load => (load.submission, load.req, now)
  | _ => none

theorem Brings.handled {load : Load} {now : ℚ} (brings : Brings cfg g e load now) :
    g.handled cfg e = some (load.submission, load.req, now) := by
  cases brings with
  | submit => rfl
  | acquire waits | posted waits => simp [Gateway.handled, waits]

/-! ### The end of a sync handler -/

/-- A sync handler that goes on returns, and may leave its response in the cache. -/
theorem finish_cases (g : Gateway) (ref : ℕ) (result : CorrectedResult) (now : ℚ) :
    g.finish ref result now = g ∨
      ∃ handler origin, g.handlers.get? ref = some handler ∧ g.answerOf ref = some origin ∧
        (g.finish ref result now =
            { g with handlers := g.handlers.set ref { handler with returned := true } } ∨
          ∃ key, handler.cacheKey = some key ∧ result.Cacheable ∧
            g.finish ref result now =
              { g with
                handlers := g.handlers.set ref { handler with returned := true }
                cache := g.cache.put key result.response origin now }) := by
  unfold finish
  split
  · rename_i handler origin hhandler horigin
    split
    · exact .inl rfl
    · refine .inr ⟨handler, origin, hhandler, horigin, ?_⟩
      dsimp only
      split
      · exact .inl rfl
      · rename_i key hkey
        split
        · rename_i cacheable
          exact .inr ⟨key, hkey, cacheable, rfl⟩
        · exact .inl rfl
  · exact .inl rfl

/-- What such a turn leaves of the state. -/
theorem finish_frame (ref : ℕ) (result : CorrectedResult) (now : ℚ) :
    (g.finish ref result now).proxy = g.proxy ∧
      (g.finish ref result now).failover = g.failover ∧
      (g.finish ref result now).reroutes = g.reroutes ∧
      (g.finish ref result now).loads = g.loads := by
  rcases finish_cases g ref result now with h | ⟨_, _, -, -, h | ⟨_, -, -, h⟩⟩
  · rw [h]
    exact ⟨rfl, rfl, rfl, rfl⟩
  · rw [h]
    exact ⟨rfl, rfl, rfl, rfl⟩
  · rw [h]
    exact ⟨rfl, rfl, rfl, rfl⟩

theorem proxy_finish (ref : ℕ) (result : CorrectedResult) (now : ℚ) :
    (g.finish ref result now).proxy = g.proxy := (finish_frame ref result now).1

/-! ### The handlers inside `ensure_loaded` -/

/-- The circuit breaker looks at neither the loads nor the cache. -/
theorem same_circuitBreaker (cfg : ProxyConfig) (g : Gateway) (s : Submission)
    (req : QueuedRequest) (handler : Handler) (now : ℚ) :
    (g.circuitBreaker cfg s req handler now).loads = g.loads ∧
      (g.circuitBreaker cfg s req handler now).cache = g.cache := by
  rcases circuitBreaker_cases cfg g s req handler now with ⟨-, _, h⟩ | ⟨g₁, req₁, source, past, h⟩
  · rw [h]
    exact ⟨rfl, rfl⟩
  · rw [h]
    have same : g₁.loads = g.loads ∧ g₁.cache = g.cache := by cases past <;> exact ⟨rfl, rfl⟩
    rcases shed_cases cfg g₁ s req₁ handler source now with h | h <;> exact h ▸ same

/-- The request of a load is the one its submission creates, and its key is that of the
request. -/
def Created (cfg : ProxyConfig) (load : Load) : Prop :=
  ∃ now, load.req = load.submission.create cfg now ∧
    load.cacheKey = DeterministicCache.keyOf load.req

/-- Every handler inside `ensure_loaded` holds a request as it was created. -/
def LoadsCreated (cfg : ProxyConfig) (g : Gateway) : Prop :=
  ∀ id load, g.loads.get? id = some load → Created cfg load

theorem LoadsCreated.init (cfg : ProxyConfig) (cost : CostModel) (budgets : BudgetManager)
    (shedDepth : ℕ) : LoadsCreated cfg (Gateway.init cfg cost budgets shedDepth) :=
  fun _ _ h => nomatch h

theorem Brings.created {load : Load} {now : ℚ} (brings : Brings cfg g e load now)
    (created : LoadsCreated cfg g) : Created cfg load := by
  cases brings with
  | submit => exact ⟨_, rfl, rfl⟩
  | acquire waits | posted waits => exact created _ _ waits

namespace LoadsCreated

theorem of_erase (created : LoadsCreated cfg g) {g' : Gateway} {id : ℕ}
    (loads : g'.loads = g.loads.erase id) : LoadsCreated cfg g' := by
  intro id' load h
  rw [loads] at h
  exact created id' load (Dict.get?_of_get?_erase h)

theorem of_set (created : LoadsCreated cfg g) {g' : Gateway} {id : ℕ} {load : Load}
    (new : Created cfg load) (loads : g'.loads = g.loads.set id load) : LoadsCreated cfg g' := by
  intro id' load' h
  rw [loads, Dict.get?_set] at h
  split at h
  · obtain rfl := Option.some.inj h
    exact new
  · exact created id' load' h

theorem ensure (created : LoadsCreated cfg g) {load : Load} (new : Created cfg load) (id : ℕ)
    (now : ℚ) : LoadsCreated cfg (g.ensure cfg id load now) := by
  unfold Gateway.ensure
  dsimp only
  split
  · exact created.of_erase (same_circuitBreaker _ _ _ _ _ _).1
  · obtain ⟨t, hreq, hkey⟩ := new
    have posting : Created cfg { load with posting := true } := ⟨t, hreq, hkey⟩
    exact created.of_set posting rfl

theorem fastFailOne (created : LoadsCreated cfg g) (ep reason : String) (now : ℚ)
    (req : QueuedRequest) : LoadsCreated cfg (g.fastFailOne cfg ep reason now req) := by
  unfold Gateway.fastFailOne
  split <;> exact created

theorem requestDone (created : LoadsCreated cfg g) (eps : List String) (now : ℚ) :
    LoadsCreated cfg (eps.foldl (fun g ep => g.requestDone ep now) g) :=
  List.foldlRecOn eps _ created fun _ h _ _ => h

theorem step (created : LoadsCreated cfg g) (e : GatewayEvent) :
    LoadsCreated cfg (g.step cfg policy e) := by
  cases e with
  | submit s now =>
      have new : Created cfg
          { submission := s, req := s.create cfg now
            cacheKey := DeterministicCache.keyOf (s.create cfg now) } := ⟨now, rfl, rfl⟩
      simp only [Gateway.step, submit]
      split
      · exact created
      · split
        · split
          · exact created.of_set new rfl
          · exact LoadsCreated.ensure
              (g := { g with cache := (g.cache.lookup _ now).2, nextLoad := g.nextLoad + 1 })
              created new _ now
        · intro id load h
          rw [(same_circuitBreaker _ _ _ _ _ _).1] at h
          exact created id load h
  | acquire id now =>
      simp only [Gateway.step, acquire]
      split
      · exact created
      · rename_i load waits
        split
        · exact created
        · exact created.ensure (created id load waits) id now
  | posted id outcome now =>
      simp only [Gateway.step, posted]
      split
      · exact created
      · split
        · cases outcome with
          | failed exc => exact created.of_erase rfl
          | loaded leaseId => exact created.of_erase (same_circuitBreaker _ _ _ _ _ _).1
          | broken => exact created.of_erase rfl
        · exact created
  | abort id => exact created.of_erase rfl
  | turn e =>
      cases e with
      | task ref w =>
          exact LoadsCreated.requestDone
            (g := { g with proxy := g.proxy.runTask cfg policy ref w }) created _ w.now
      | _ => exact created
  | finish ref result now =>
      intro id load h
      have loads : (g.finish ref result now).loads = g.loads := (finish_frame ref result now).2.2.2
      exact created id load (loads ▸ h)
  | recovered row payload wall now => exact created
  | fastFailInteractive ep reason now =>
      exact List.foldlRecOn _ _ created fun g h req _ => h.fastFailOne ep reason now req
  | health h | refresh now | leakGuard ep now | heartbeat ep kept now | release ep now =>
      exact created

end LoadsCreated

/-! ### `fast_fail_interactive` -/

/-- A request that `fast_fail_interactive` finds is moved to the failover target of its
endpoint, or released with an error. -/
theorem fastFailOne_cases (cfg : ProxyConfig) (ep reason : String) (now : ℚ) (g : Gateway)
    (req : QueuedRequest) :
    (∃ target, g.plan cfg now req = .reroute target ∧
      g.fastFailOne cfg ep reason now req =
        { g with
          proxy := { g.proxy with world := g.proxy.world.reroute cfg req target }
          reroutes := g.reroutes ++ [(req.ref, cfg.normalizeEndpoint req.endpoint)] }) ∨
    ∃ failure, g.fastFailOne cfg ep reason now req =
      { g with proxy := releaseQueued cfg g.proxy req failure } := by
  unfold fastFailOne
  split
  · rename_i target plan
    exact .inl ⟨target, plan, rfl⟩
  · exact .inr ⟨_, rfl⟩
  · exact .inr ⟨_, rfl⟩

/-- An invariant of `fast_fail_interactive` speaks about the requests it has still to
visit. -/
theorem fastFailInteractive_rule {ep reason : String} (Inv : List QueuedRequest → Gateway → Prop)
    (start : Inv (g.proxy.world.sched.queuedRequests ep [.interactive, .foreground])
      (g.refreshed cfg now))
    (each : ∀ req rest g, Inv (req :: rest) g → Inv rest (g.fastFailOne cfg ep reason now req)) :
    Inv [] (g.fastFailInteractive cfg ep reason now) :=
  Loop.foldl_rest Inv each _ start

/-- It refreshes failover, and moves requests. -/
theorem fastFailInteractive_eq (cfg : ProxyConfig) (policy : Policy) (g : Gateway)
    (ep reason : String) (now : ℚ) :
    ∃ proxy reroutes, g.step cfg policy (.fastFailInteractive ep reason now) =
      { g.refreshed cfg now with proxy := proxy, reroutes := reroutes } := by
  refine fastFailInteractive_rule (fun _ g' => ∃ proxy reroutes,
    g' = { g.refreshed cfg now with proxy := proxy, reroutes := reroutes }) ⟨_, _, rfl⟩ ?_
  rintro req rest _ ⟨proxy, reroutes, rfl⟩
  rcases fastFailOne_cases cfg ep reason now _ req with ⟨target, -, heq⟩ | ⟨failure, heq⟩
  · exact ⟨_, _, heq⟩
  · exact ⟨_, _, heq⟩

theorem mem_queuedRequests {s : Scheduler} {ep : String} {bands : List PriorityBand}
    {req : QueuedRequest} (h : req ∈ s.queuedRequests ep bands) : req ∈ s.queued := by
  obtain ⟨band, -, h⟩ := List.mem_flatMap.mp h
  obtain ⟨deque, hdeque, h⟩ := List.mem_flatten.mp h
  obtain ⟨⟨agentId, _⟩, hmem, rfl⟩ := List.mem_map.mp hdeque
  have held : req ∈ (s.queueOf ep).deque band agentId := by
    rw [EndpointQueue.deque, Dict.mem_entries_iff.mp hmem]
    exact h
  exact mem_queued_iff.mpr ⟨ep, band, EndpointQueue.mem_bandContents_iff.mpr ⟨agentId, held⟩⟩

/-! ### The turns of the proxy -/

/-- The turn the proxy takes; the gateway takes its submissions and its fast-fails. -/
def proxied (cfg : ProxyConfig) (g : Gateway) : Event → Option Event
  | .submit _ => none
  | .fastFail _ _ => none
  | .tick o now => some (.tick (g.oracles cfg o now) now)
  | e => some e

theorem foldl_requestDone (eps : List String) (g : Gateway) (now : ℚ) :
    eps.foldl (fun g ep => g.requestDone ep now) g =
      { g with
        onDemand := eps.foldl (fun d ep => d.modify ep fun st => st.requestDone now) g.onDemand } := by
  induction eps generalizing g with
  | nil => rfl
  | cons ep eps ih => rw [List.foldl_cons, ih]; rfl

theorem proxy_turn (e : Event) :
    (g.turn cfg policy e).proxy =
      ((g.proxied cfg e).map (g.proxy.step cfg policy)).getD g.proxy := by
  cases e with
  | task ref w =>
      simp only [turn, foldl_requestDone]
      rfl
  | _ => rfl

theorem proxied_ne_submit {e e' : Event} (h : g.proxied cfg e = some e') (req : QueuedRequest) :
    e' ≠ .submit req := by
  rintro rfl
  cases e <;> simp [proxied] at h

/-- A turn of the proxy touches the proxy and the on-demand manager. -/
theorem turn_eq (e : Event) :
    ∃ onDemand, g.turn cfg policy e =
      { g with proxy := (g.turn cfg policy e).proxy, onDemand := onDemand } := by
  cases e with
  | task ref w =>
      simp only [turn, foldl_requestDone]
      exact ⟨_, rfl⟩
  | _ => exact ⟨g.onDemand, rfl⟩

/-! ### Every turn -/

/-- The rule for the proxy: a turn leaves it alone, gives it the turn or the request that the
circuit breaker lets pass, or takes requests back, after a restart or from an endpoint that fails
fast. -/
theorem proxy_rule (Inv : Proxy → Prop) (start : Inv g.proxy)
    (admitted : ∀ load now g₀ g₁ req₁ source, SameCore g g₀ → Brings cfg g e load now →
      PastCircuit cfg g₀ load.req now g₁ req₁ source →
        (g.step cfg policy e).proxy = g.proxy.submit cfg (load.submission.prepare req₁) →
          Inv (g.proxy.submit cfg (load.submission.prepare req₁)))
    (turned : ∀ e₀ e', e = .turn e₀ → g.proxied cfg e₀ = some e' → Inv (g.proxy.step cfg policy e'))
    (recovered : ∀ row payload wall now, e = .recovered row payload wall now →
      Inv (g.step cfg policy (.recovered row payload wall now)).proxy)
    (fastFailed : ∀ ep reason now, e = .fastFailInteractive ep reason now →
      Inv (g.fastFailInteractive cfg ep reason now).proxy) : Inv (g.step cfg policy e).proxy := by
  have admits (admitting : Admitting e) : Inv (g.step cfg policy e).proxy := by
    rcases admission_cases cfg policy g admitting with
      quiet | ⟨g₀, load, counted, now, g₁, req₁, source, same, brings, past, heq⟩
    · rw [quiet.proxy]
      exact start
    · have submitted : (g.step cfg policy e).proxy =
          g.proxy.submit cfg (load.submission.prepare req₁) :=
        heq ▸ (admitted_frame same past load.submission (load.handler counted)).1
      rw [submitted]
      exact admitted load now g₀ g₁ req₁ source same brings past submitted
  cases e with
  | submit s now | acquire id now | posted id outcome now => exact admits trivial
  | turn e =>
      show Inv (g.turn cfg policy e).proxy
      rw [proxy_turn]
      cases h : g.proxied cfg e with
      | none => exact start
      | some e' => exact turned e e' rfl h
  | finish ref result now =>
      show Inv (g.finish ref result now).proxy
      rw [proxy_finish]
      exact start
  | recovered row payload wall now => exact recovered row payload wall now rfl
  | fastFailInteractive ep reason now => exact fastFailed ep reason now rfl
  | abort id | health h | refresh now | leakGuard ep now | heartbeat ep kept now | release ep now =>
      exact start

/-- The turns of the gateway reach the scheduler through its operations and through
reroutes. -/
theorem world_step (Inv : World → Prop) (start : Inv g.proxy.world)
    (step : ∀ w op, Inv w → Inv (w.step cfg op))
    (reroute : ∀ w req target, Inv w → Inv (w.reroute cfg req target)) :
    Inv (g.step cfg policy e).proxy.world := by
  refine proxy_rule (fun p => Inv p.world) start ?_ ?_ ?_ ?_
  · intro load _ _ _ req₁ _ _ _ _ _
    rw [Proxy.world_submit]
    exact step _ _ start
  · rintro e₀ e' - h
    exact Proxy.world_turn Inv (proxied_ne_submit h) start (fun _ _ _ => step _ _ start)
      (fun _ _ => step _ _) (fun _ _ => step _ _)
  · rintro row payload wall now -
    exact step _ (.enqueue (row.rebuild cfg payload wall now)) start
  · rintro ep reason now -
    refine fastFailInteractive_rule (fun _ g => Inv g.proxy.world) start ?_
    intro req rest g inv
    rcases fastFailOne_cases cfg ep reason now g req with ⟨target, -, heq⟩ | ⟨failure, heq⟩
    · rw [heq]
      exact reroute _ _ _ inv
    · rw [heq]
      exact step _ (.cancel req.requestId) inv

/-- The identities only grow. -/
theorem enqueued_le (n : ℕ) (g : Gateway) (e : GatewayEvent) (le : n ≤ g.proxy.world.enqueued.length) :
    n ≤ (g.step cfg policy e).proxy.world.enqueued.length := by
  refine world_step (fun w => n ≤ w.enqueued.length) le (fun w op h => ?_) fun _ _ _ h => h
  cases op with
  | enqueue req =>
      show n ≤ (w.enqueued ++ [w.identified req]).length
      rw [List.length_append]
      exact h.trans (Nat.le_add_right _ _)
  | _ => exact h

/-- A handler belongs to a request that was enqueued. -/
theorem handled_step (handled : ∀ ref ∈ g.handlers.keys, ref < g.proxy.world.enqueued.length)
    (e : GatewayEvent) :
    ∀ ref ∈ (g.step cfg policy e).handlers.keys,
      ref < (g.step cfg policy e).proxy.world.enqueued.length := by
  have same {e : GatewayEvent} (handlers : (g.step cfg policy e).handlers = g.handlers) :
      ∀ ref ∈ (g.step cfg policy e).handlers.keys,
        ref < (g.step cfg policy e).proxy.world.enqueued.length := by
    intro ref href
    rw [handlers] at href
    exact (handled ref href).trans_le (enqueued_le _ g e le_rfl)
  have admitted {e : GatewayEvent} (admitting : Admitting e) :
      ∀ ref ∈ (g.step cfg policy e).handlers.keys,
        ref < (g.step cfg policy e).proxy.world.enqueued.length := by
    rcases admission_cases cfg policy g admitting with
      quiet | ⟨g₀, load, counted, now, g₁, req₁, source, core, -, past, heq⟩
    · exact same quiet.handlers
    · obtain ⟨proxy, handlers, -⟩ := admitted_frame core past load.submission (load.handler counted)
      rw [heq, proxy, handlers, Proxy.world_submit]
      intro ref href
      show ref < (g.proxy.world.enqueued ++ [_]).length
      rw [List.length_append, List.length_singleton]
      -- The new handler has the identity of the request that is enqueued with it.
      rcases Dict.mem_keys_set.mp href with rfl | old
      · exact Nat.lt_succ_self _
      · exact (handled ref old).trans (Nat.lt_succ_self _)
  cases e with
  | submit s now | acquire id now | posted id outcome now => exact admitted trivial
  | turn e =>
      obtain ⟨onDemand, heq⟩ := @turn_eq cfg policy g e
      refine same ?_
      show (g.turn cfg policy e).handlers = g.handlers
      rw [heq]
  | finish ref result now =>
      intro ref' href
      show ref' < (g.finish ref result now).proxy.world.enqueued.length
      rw [proxy_finish]
      change ref' ∈ (g.finish ref result now).handlers.keys at href
      rcases finish_cases g ref result now with heq | ⟨handler, _, hhandler, -, heq | ⟨_, -, -, heq⟩⟩
      · rw [heq] at href
        exact handled ref' href
      all_goals
        rw [heq] at href
        rcases Dict.mem_keys_set.mp href with rfl | old
        · exact handled ref' (Dict.mem_keys_iff.mpr ⟨handler, hhandler⟩)
        · exact handled ref' old
  | fastFailInteractive ep reason now =>
      obtain ⟨proxy, reroutes, heq⟩ := fastFailInteractive_eq cfg policy g ep reason now
      refine same ?_
      rw [heq]
      rfl
  | _ => exact same rfl

theorem wellFormed_step (wf : g.proxy.world.sched.WellFormed cfg) (e : GatewayEvent) :
    (g.step cfg policy e).proxy.world.sched.WellFormed cfg :=
  world_step (fun w => w.sched.WellFormed cfg) wf (fun _ op wf => World.wellFormed_step wf op)
    (fun _ req target wf => World.wellFormed_reroute wf req target)

/-- The turn can enqueue `req`, as it is then. -/
inductive Arrives (cfg : ProxyConfig) (g : Gateway) : GatewayEvent → QueuedRequest → Prop
  | admitted {e : GatewayEvent} {load : Load} {now : ℚ} {g₀ g₁ : Gateway} {req₁ : QueuedRequest}
      {source : Option String} (same : SameCore g g₀) (brings : Brings cfg g e load now)
      (past : PastCircuit cfg g₀ load.req now g₁ req₁ source) :
      Arrives cfg g e (load.submission.prepare req₁)
  | recovered {row : QueueRow} {payload : Payload} {wall now : ℚ} :
      Arrives cfg g (.recovered row payload wall now) (row.rebuild cfg payload wall now)

/-- The rule for predicates of single requests: a turn keeps what holds of every request when
it holds of the one it enqueues, and spills and reroutes keep it. -/
theorem every_step (every : g.proxy.Every P) (wf : g.proxy.world.sched.WellFormed cfg)
    (estimated : ∀ s req, P req → P (Scheduler.estimated s req))
    (arrives : ∀ req, Arrives cfg g e req → (g.step cfg policy e).proxy.world.enqueued =
      g.proxy.world.enqueued ++ [g.proxy.world.identified req] → P (g.proxy.world.identified req))
    (spills : ∀ o now, e = .turn (.tick o now) →
      SpillsKeep cfg P (Scheduler.tick cfg (g.oracles cfg o now) g.proxy.world.sched now).trace)
    (reroutes : ∀ (g' : Gateway) now req target, g'.plan cfg now req = .reroute target → P req →
      P (Failover.apply cfg req target)) : (g.step cfg policy e).proxy.Every P := by
  refine proxy_rule (fun p => p.Every P) every ?_ ?_ ?_ ?_
  · intro load now g₀ g₁ req₁ source same brings past stepped
    have new := arrives _ (.admitted same brings past) (by
      rw [stepped, Proxy.world_submit]
      rfl)
    exact every.submit wf (estimated g.proxy.world.sched _ new)
  · rintro e₀ e' rfl h
    refine every.turn wf (proxied_ne_submit h) fun o now he => ?_
    subst he
    cases e₀ with
    | tick o' now' =>
        obtain ⟨rfl, rfl⟩ := Event.tick.inj (Option.some.inj h)
        exact spills o' now' rfl
    | _ => simp [proxied] at h
  · rintro row payload wall now rfl
    exact ⟨every.world.enqueue wf (estimated _ _ (arrives _ .recovered rfl)), every.tasks⟩
  · rintro ep reason now rfl
    refine (fastFailInteractive_rule (fun rest g => (g.proxy.Every P ∧
      g.proxy.world.sched.WellFormed cfg) ∧ ∀ r ∈ rest, P r) ⟨⟨every, wf⟩, ?_⟩ ?_).1.1
    · exact fun r hr => every.world.queued (mem_queuedRequests hr)
    · rintro req rest g' ⟨⟨every, wf⟩, each⟩
      have others : ∀ r ∈ rest, P r := fun r hr => each r (List.mem_cons_of_mem _ hr)
      have here : P req := each req List.mem_cons_self
      rcases fastFailOne_cases cfg ep reason now g' req with ⟨target, plan, heq⟩ | ⟨failure, heq⟩
      · rw [heq]
        have moved := estimated (g'.proxy.world.sched.cancel req.requestId).1 _
          (reroutes g' now req target plan here)
        exact ⟨⟨⟨every.world.reroute wf moved, every.tasks⟩,
          World.wellFormed_reroute wf req target⟩, others⟩
      · have cancelled : (g'.proxy.world.step cfg (.cancel req.requestId)).Every P :=
          every.world.cancel req.requestId
        rw [heq]
        exact ⟨⟨⟨cancelled, every.tasks⟩, World.wellFormed_step wf (.cancel req.requestId)⟩, others⟩

/-- A turn refreshes failover at most once, and from the state it began in. -/
theorem refreshes_step (e : GatewayEvent) : Refreshes cfg g e (g.step cfg policy e) := by
  have admitted {e : GatewayEvent} (admitting : Admitting e) :
      Refreshes cfg g e (g.step cfg policy e) := by
    rcases admission_cases cfg policy g admitting with
      quiet | ⟨g₀, load, counted, now, g₁, req₁, source, same, brings, past, heq⟩
    · exact quiet.failover
    · rw [heq]
      cases past with
      | closed _ => exact .inl same.failover
      | deferred _ _ _ | rerouted _ _ => exact .inr ⟨now, brings.time, same.refreshed now⟩
  cases e with
  | submit s now | acquire id now | posted id outcome now => exact admitted trivial
  | turn e =>
      obtain ⟨onDemand, heq⟩ := @turn_eq cfg policy g e
      left
      show (g.turn cfg policy e).failover = g.failover
      rw [heq]
  | finish ref result now =>
      exact .inl (finish_frame ref result now).2.1
  | recovered row payload wall now => exact .inl rfl
  | fastFailInteractive ep reason now =>
      obtain ⟨proxy, reroutes, heq⟩ := fastFailInteractive_eq cfg policy g ep reason now
      exact .inr ⟨now, rfl, by rw [heq]⟩
  | abort id | health h => exact .inl rfl
  | refresh now => exact .inr ⟨now, rfl, rfl⟩
  | leakGuard ep now | heartbeat ep kept now | release ep now => exact .inl rfl

end Gateway

end Roadstead
