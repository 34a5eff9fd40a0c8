import Roadstead.Scheduler.Live
import Roadstead.Scheduler.Operations

/-!
# Runs of the scheduler

An `Op` is one call from outside: `enqueue`, `tick`, `complete`, `cancel`, or the
retention sweep's `prune_idle`.  A `World` is a scheduler together with the history
of its calls: what was enqueued, what was handed to `on_timeout`, `on_dispatch` and
`on_spill`, what was cancelled and what was completed.  The history is never read
by a step.

A caller's request becomes an object when it is enqueued, so `enqueue` is the step
that gives it its identity `ref`.

`Consistent` is the invariant of the runs that never enqueue an id which is still
live (`Fresh`).  It says where every request is: `everywhere` holds one copy of
each request that was ever enqueued.
-/

namespace Roadstead

open Scheduler

/-- One call into the scheduler. -/
inductive Op where
  | enqueue (req : QueuedRequest)
  | tick (oracles : Oracles) (now : ℚ)
  | complete (record : CompletionRecord)
  | cancel (requestId : String)
  | pruneIdle (now idleTtlS : ℚ)

/-- A scheduler and its history. -/
structure World where
  sched : Scheduler
  enqueued : List QueuedRequest := []
  timedOut : List QueuedRequest := []
  cancelled : List QueuedRequest := []
  completed : List (ActiveRequest × CompletionRecord) := []
  trace : List Moment := []

namespace World

/-- A scheduler nobody has called yet. -/
def init (cfg : ProxyConfig) (cost : CostModel) (budgets : BudgetManager) : World where
  sched := Scheduler.init cfg cost budgets

/-- The next request with the identity it gets. -/
def identified (w : World) (req : QueuedRequest) : QueuedRequest :=
  { req with ref := w.enqueued.length }

def step (cfg : ProxyConfig) (w : World) : Op → World
  | .enqueue req =>
      { w with
        sched := enqueue cfg w.sched (w.identified req)
        enqueued := w.enqueued ++ [w.identified req] }
  | .tick o now =>
      let out := tick cfg o w.sched now
      { w with
        sched := out.sched
        timedOut := w.timedOut ++ out.timeouts
        trace := w.trace ++ out.trace }
  | .complete record =>
      let hit := w.sched.complete record
      { w with
        sched := hit.1
        completed := w.completed ++ (hit.2.map fun ar => (ar, record)).toList }
  | .cancel requestId =>
      let hit := w.sched.cancel requestId
      { w with
        sched := hit.1
        cancelled := w.cancelled ++ hit.2.toList }
  | .pruneIdle now idleTtlS =>
      { w with
        sched := { w.sched with budgets := w.sched.budgets.pruneIdle now idleTtlS } }

/-- The world after a list of calls. -/
def run (cfg : ProxyConfig) (w : World) (ops : List Op) : World := Runs.run (step cfg) w ops

/-- What was handed to `on_dispatch`. -/
def dispatched (w : World) : List QueuedRequest :=
  w.trace.filterMap fun m =>
    match m.event with
    | .dispatch decision => some decision.request
    | .spill _ _ => none

/-- What was handed to `on_spill`, as it was at the head of its deque. -/
def spilled (w : World) : List QueuedRequest :=
  w.trace.filterMap fun m =>
    match m.event with
    | .dispatch _ => none
    | .spill req _ => some req

/-- The requests whose completion hit. -/
def finished (w : World) : List QueuedRequest := w.completed.map fun c => c.1.request

/-- Every place a request can be in: queued, in flight, or terminated. -/
def everywhere (w : World) : Multiset QueuedRequest :=
  w.sched.live + (w.timedOut ++ w.cancelled ++ w.finished : List QueuedRequest)

end World

/-- The id of the request a call enqueues. -/
def Op.enqueuedId : Op → Option String
  | .enqueue req => some req.requestId
  | _ => none

/-- A run in which no id is enqueued twice. -/
def DistinctIds (ops : List Op) : Prop := (ops.filterMap Op.enqueuedId).Nodup

instance (ops : List Op) : Decidable (DistinctIds ops) :=
  inferInstanceAs (Decidable (List.Nodup _))

/-- The call does not enqueue an id that is still live. -/
def Fresh (w : World) : Op → Prop
  | .enqueue req => req.requestId ∉ w.sched.liveIds
  | _ => True

instance (w : World) : ∀ op, Decidable (Fresh w op)
  | .enqueue req => inferInstanceAs (Decidable (req.requestId ∉ w.sched.liveIds))
  | .tick _ _ => isTrue trivial
  | .complete _ => isTrue trivial
  | .cancel _ => isTrue trivial
  | .pruneIdle _ _ => isTrue trivial

/-! ### What a completion and a cancellation do -/

/-- A completion for an id that is not in flight changes nothing; one that hits finishes
that request. -/
theorem World.step_complete (cfg : ProxyConfig) (w : World) (record : CompletionRecord) :
    ((∀ ep, record.requestId ∉ (w.sched.activeOf ep).keys) ∧
        w.step cfg (.complete record) = w) ∨
      ∃ ep ar, (w.sched.activeOf ep).get? record.requestId = some ar ∧
        w.step cfg (.complete record) =
          { w with
            sched := w.sched.finish ep ar record
            completed := w.completed ++ [(ar, record)] } := by
  rcases w.sched.complete_cases record with ⟨inactive, hmiss⟩ | ⟨ep, ar, hit, hfinish⟩
  · exact .inl ⟨inactive, by simp [World.step, hmiss]⟩
  · exact .inr ⟨ep, ar, hit, by simp [World.step, hfinish]⟩

/-- A cancel that finds nothing changes nothing; one that finds a request takes it out of
its deque. -/
theorem World.step_cancel (cfg : ProxyConfig) (w : World) (id : String) :
    ((∀ r ∈ w.sched.queued, r.requestId ≠ id) ∧ w.step cfg (.cancel id) = w) ∨
      ∃ ep b a req rest, w.sched.Holds ep b a req rest ∧ req.requestId = id ∧
        w.step cfg (.cancel id) =
          { w with
            sched := w.sched.takeOut ep b a rest
            cancelled := w.cancelled ++ [req] } := by
  rcases w.sched.cancel_cases id with ⟨none, hmiss⟩ | ⟨ep, b, a, req, rest, holds, same, hcancel⟩
  · exact .inl ⟨none, by simp [World.step, hmiss]⟩
  · exact .inr ⟨ep, b, a, req, rest, holds, same, by simp [World.step, hcancel]⟩

@[simp] theorem World.queued_complete (cfg : ProxyConfig) (w : World) (record : CompletionRecord) :
    (w.step cfg (.complete record)).sched.queued = w.sched.queued := by
  rcases w.step_complete cfg record with ⟨-, same⟩ | ⟨ep, ar, -, stepped⟩
  · rw [same]
  · rw [stepped]
    rfl

/-! ### Every run -/

/-- No call breaks the data structures, whatever ids it carries. -/
theorem World.wellFormed_step {cfg : ProxyConfig} {w : World} (wf : w.sched.WellFormed cfg)
    (op : Op) : (w.step cfg op).sched.WellFormed cfg := by
  cases op with
  | enqueue req => exact wf.enqueue _
  | tick o now => exact wf.tick o now
  | complete record =>
      rcases w.step_complete cfg record with ⟨-, same⟩ | ⟨ep, ar, hit, stepped⟩
      · rwa [same]
      · rw [stepped]
        exact wf.finish hit
  | cancel id =>
      rcases w.step_cancel cfg id with ⟨-, same⟩ | ⟨ep, b, a, req, rest, holds, -, stepped⟩
      · rwa [same]
      · rw [stepped]
        exact wf.takeOut holds
  | pruneIdle now ttl => exact wf.withBudgets _

theorem wellFormed_run (cfg : ProxyConfig) (cost : CostModel) (budgets : BudgetManager)
    (ops : List Op) :
    (World.run cfg (World.init cfg cost budgets) ops).sched.WellFormed cfg :=
  Runs.run_forall (fun w : World => w.sched.WellFormed cfg)
    (fun _ op wf => World.wellFormed_step wf op) (wellFormed_init cfg cost budgets) ops

/-! ### The invariant -/

/-- What holds, recomputed from the live state, at the moment `req` is spilled. -/
structure SpillSound (cfg : ProxyConfig) (m : Moment) (epCfg : EndpointConfig)
    (req : QueuedRequest) (target : String) : Prop where
  no_room : m.before.headroom epCfg req.band = 0
  slots : 0 < epCfg.maxSlots
  elsewhere : target ≠ m.endpoint
  healthy : m.oracles.healthy ⟨m.endpoint, some req.band, 0⟩ target = true
  may_spill : MaySpill cfg m.oracles m.site m.before req target

/-- A dispatch happens with headroom, a spill without and under its conditions. -/
def SoundMoment (cfg : ProxyConfig) (m : Moment) : Prop :=
  ∃ epCfg, cfg.endpoints.get? m.endpoint = some epCfg ∧
    match m.event with
    | .dispatch decision => 0 < m.before.headroom epCfg decision.request.band
    | .spill req target => SpillSound cfg m epCfg req target

/-- The invariant of the runs that reuse no live id. -/
structure Consistent (cfg : ProxyConfig) (w : World) : Prop where
  wf : w.sched.WellFormed cfg
  unique : w.sched.UniqueIds
  slots : ∀ ep epCfg, cfg.endpoints.get? ep = some epCfg →
    (w.sched.inFlight ep : ℤ) ≤ max 0 epCfg.effectiveMaxSlots
  located : w.everywhere.map QueuedRequest.core =
    (w.enqueued : Multiset QueuedRequest).map QueuedRequest.core
  numbered : w.enqueued.map QueuedRequest.ref = List.range w.enqueued.length
  started : (w.dispatched : Multiset QueuedRequest) =
    w.sched.running + (w.finished : Multiset QueuedRequest)
  dispatch_count : w.sched.totalDispatched = w.dispatched.length
  complete_count : w.sched.totalCompleted = w.completed.length
  moments : ∀ m ∈ w.trace, SoundMoment cfg m
  marked : ∀ r ∈ w.spilled, ∃ r' ∈ w.everywhere, r'.ref = r.ref ∧ r'.hasSpilled = true
  spilled_once : (w.spilled.map QueuedRequest.ref).Nodup

/-- What expires makes no two ids equal. -/
theorem Scheduler.UniqueIds.afterExpiry {cfg : ProxyConfig} {s : Scheduler} (unique : s.UniqueIds)
    (wf : s.WellFormed cfg) (now : ℚ) : (s.afterExpiry now).UniqueIds := by
  have fewer : (s.afterExpiry now).liveIds ≤ s.liveIds := by
    rw [liveIds, liveIds, Scheduler.live, Scheduler.live, ← wf.queued_afterExpiry {} now]
    exact Multiset.map_le_map (add_le_add (Multiset.le_add_right _ _) le_rfl)
  exact Multiset.nodup_of_le fewer unique

namespace Consistent

variable {cfg : ProxyConfig} {w : World}

/-- One request per identity. -/
theorem nodup_refs (inv : Consistent cfg w) : (w.everywhere.map QueuedRequest.ref).Nodup := by
  have hcore := congrArg (Multiset.map Prod.fst) inv.located
  rw [Multiset.map_map, Multiset.map_map] at hcore
  have hrefs : w.everywhere.map QueuedRequest.ref = (List.range w.enqueued.length : Multiset ℕ) := by
    rw [← inv.numbered]
    exact hcore
  rw [hrefs]
  exact Multiset.coe_nodup.mpr List.nodup_range

theorem eq_of_ref (inv : Consistent cfg w) {r r' : QueuedRequest} (hr : r ∈ w.everywhere)
    (hr' : r' ∈ w.everywhere) (h : r.ref = r'.ref) : r = r' :=
  Multiset.inj_on_of_nodup_map inv.nodup_refs r hr r' hr' h

theorem init (cfg : ProxyConfig) (cost : CostModel) (budgets : BudgetManager) :
    Consistent cfg (World.init cfg cost budgets) where
  wf := wellFormed_init cfg cost budgets
  unique := by
    show (Multiset.map _ (Scheduler.init cfg cost budgets).live).Nodup
    rw [live_init]
    exact Multiset.nodup_zero
  slots := by
    intro ep epCfg _
    show (((Scheduler.init cfg cost budgets).activeOf ep).size : ℤ) ≤ _
    rw [activeOf_init]
    exact le_max_left _ _
  located := by
    show Multiset.map _ ((Scheduler.init cfg cost budgets).live + 0) = _
    rw [live_init]
    rfl
  numbered := rfl
  started := by
    show _ = (Scheduler.init cfg cost budgets).running + _
    rw [running_init]
    rfl
  dispatch_count := rfl
  complete_count := rfl
  moments := by simp [World.init]
  marked := by simp [World.init, World.spilled]
  spilled_once := by simp [World.init, World.spilled]

/-! ### Enqueue -/

theorem enqueue (inv : Consistent cfg w) {req : QueuedRequest} (fresh : Fresh w (.enqueue req)) :
    Consistent cfg (w.step cfg (.enqueue req)) := by
  have running := inv.wf.running_enqueue (w.identified req)
  have live := inv.wf.live_enqueue (w.identified req)
  have every : (w.step cfg (.enqueue req)).everywhere =
      w.sched.estimated (w.identified req) ::ₘ w.everywhere := by
    rw [World.everywhere, World.everywhere, ← Multiset.cons_add, ← live]
    rfl
  refine ⟨inv.wf.enqueue _, ?_, ?_, ?_, ?_, ?_, ?_, ?_, inv.moments, ?_, inv.spilled_once⟩
  · show (Multiset.map _ (Scheduler.enqueue cfg w.sched (w.identified req)).live).Nodup
    rw [live, Multiset.map_cons, Multiset.nodup_cons]
    exact ⟨fresh, inv.unique⟩
  · intro ep epCfg hcfg
    show (((Scheduler.enqueue cfg w.sched (w.identified req)).activeOf ep).size : ℤ) ≤ _
    rw [inv.wf.activeOf_enqueue]
    exact inv.slots ep epCfg hcfg
  · rw [every, Multiset.map_cons, inv.located]
    show _ = (↑(w.enqueued ++ [w.identified req]) : Multiset QueuedRequest).map _
    rw [← Multiset.coe_add, Multiset.map_add, add_comm]
    rfl
  · show (w.enqueued ++ [w.identified req]).map _ = _
    rw [List.map_append, inv.numbered]
    simp [World.step, World.identified, List.range_succ]
  · show _ = (Scheduler.enqueue cfg w.sched (w.identified req)).running + _
    rw [running]
    exact inv.started
  · exact (totals_enqueue cfg _ _).1.trans inv.dispatch_count
  · exact (totals_enqueue cfg _ _).2.trans inv.complete_count
  · intro r hr
    obtain ⟨r', hmem, h⟩ := inv.marked r hr
    exact ⟨r', by rw [every]; exact Multiset.mem_cons_of_mem hmem, h⟩

/-! ### Tick -/

/-- The world of a tick between expiry and dispatch. -/
def expired (cfg : ProxyConfig) (o : Oracles) (w : World) (now : ℚ) : World :=
  { w with
    sched := w.sched.afterExpiry now
    timedOut := w.timedOut ++ (tick cfg o w.sched now).timeouts }

/-- The world during the dispatch step of a tick. -/
def during (w : World) (p : Pass) : World :=
  { w with sched := p.sched, trace := w.trace ++ p.trace }

theorem step_tick (cfg : ProxyConfig) (o : Oracles) (w : World) (now : ℚ) :
    w.step cfg (.tick o now) =
      during (expired cfg o w now) (dispatchAll cfg o now (w.sched.afterExpiry now)) := rfl

theorem everywhere_expired (wf : w.sched.WellFormed cfg) (o : Oracles) (now : ℚ) :
    (expired cfg o w now).everywhere = w.everywhere := by
  have hsplit := wf.queued_afterExpiry o now
  have running : (w.sched.afterExpiry now).running = w.sched.running := rfl
  simp only [World.everywhere, expired, Scheduler.live, ← Multiset.coe_add, ← hsplit, running]
  show _ + (_ + (w.finished : Multiset QueuedRequest)) = _
  abel

theorem expire (inv : Consistent cfg w) (o : Oracles) (now : ℚ) :
    Consistent cfg (expired cfg o w now) := by
  have every := everywhere_expired inv.wf o now
  refine ⟨inv.wf.afterExpiry now, ?_, inv.slots, ?_, inv.numbered, inv.started,
    inv.dispatch_count, inv.complete_count, inv.moments, ?_, inv.spilled_once⟩
  · exact inv.unique.afterExpiry inv.wf now
  · rw [every]
    exact inv.located
  · intro r hr
    rw [every]
    exact inv.marked r hr

/-- The world after one move. -/
def record (w : World) (s : Scheduler) (m : Moment) : World :=
  { w with sched := s, trace := w.trace ++ [m] }

theorem during_of_move {o : Oracles} {now : ℚ} {p p' : Pass} {m : Moment}
    (move : Move cfg o now p m p') (w : World) :
    during w p' = record (during w p) p'.sched m := by
  cases move with
  | dispatch _ _ | spill _ _ _ _ _ _ => simp [during, record]

section Moves

variable {ep : String} {epCfg : EndpointConfig} {band : PriorityBand} {agentId : String}
  {req : QueuedRequest} {rest : List QueuedRequest} {m : Moment}

theorem dispatch (inv : Consistent cfg w) (hcfg : cfg.endpoints.get? ep = some epCfg)
    (head : (w.sched.queueOf ep).deque band agentId = req :: rest) (now : ℚ)
    {d : DispatchDecision} (hm : m.event = .dispatch d) (hd : d.request = req)
    (sound : SoundMoment cfg m) (room : 0 < w.sched.headroom epCfg band) :
    Consistent cfg (record w (w.sched.afterDispatch ep band agentId req rest now) m) := by
  have fresh := inv.unique.not_active inv.wf (mem_queued_of_head head) ep
  have queued := queued_afterDispatch head now
  have running : (w.sched.afterDispatch ep band agentId req rest now).running =
      req ::ₘ w.sched.running := running_afterDispatch now fresh
  have dispatched : (record w (w.sched.afterDispatch ep band agentId req rest now) m).dispatched =
      w.dispatched ++ [req] := by
    simp [World.dispatched, record, hm, hd]
  have spilled : (record w (w.sched.afterDispatch ep band agentId req rest now) m).spilled =
      w.spilled := by
    simp [World.spilled, record, hm]
  have every : (record w (w.sched.afterDispatch ep band agentId req rest now) m).everywhere =
      w.everywhere := by
    rw [World.everywhere, World.everywhere, Scheduler.live, Scheduler.live, queued]
    show _ + (w.sched.afterDispatch ep band agentId req rest now).running + _ = _
    rw [running, Multiset.add_cons, ← Multiset.cons_add]
    rfl
  refine ⟨inv.wf.afterDispatch head now, ?_, ?_, ?_, inv.numbered, ?_, ?_, inv.complete_count,
    ?_, ?_, ?_⟩
  · show (w.sched.afterDispatch ep band agentId req rest now).liveIds.Nodup
    rw [liveIds_afterDispatch inv.wf inv.unique head]
    exact inv.unique
  · intro ep' epCfg' hcfg'
    show ((w.sched.afterDispatch ep band agentId req rest now).inFlight ep' : ℤ) ≤ _
    rw [inFlight_afterDispatch inv.wf inv.unique head]
    split
    · rename_i hep
      obtain rfl := Option.some.inj (hcfg.symm.trans (hep ▸ hcfg'))
      have := lt_of_headroom_pos room
      rw [cfg.endpointClass_eq hcfg, ← hep] at this
      push_cast
      omega
    · exact inv.slots ep' epCfg' hcfg'
  · rw [every]
    exact inv.located
  · show _ = (w.sched.afterDispatch ep band agentId req rest now).running + _
    rw [dispatched, running, ← Multiset.coe_add, inv.started, Multiset.cons_add, add_comm]
    rfl
  · rw [dispatched, List.length_append, ← inv.dispatch_count]
    rfl
  · intro m' hm'
    rcases List.mem_append.mp hm' with hm' | hm'
    · exact inv.moments m' hm'
    · rw [List.mem_singleton.mp hm']
      exact sound
  · rw [spilled, every]
    exact inv.marked
  · rw [spilled]
    exact inv.spilled_once

theorem spill (inv : Consistent cfg w) (hcfg : cfg.endpoints.get? ep = some epCfg)
    (head : (w.sched.queueOf ep).deque band agentId = req :: rest) {target : String}
    (hm : m.event = .spill req target) (sound : SoundMoment cfg m)
    (notYet : req.hasSpilled = false) :
    Consistent cfg (record w (afterSpill cfg w.sched ep band agentId req rest target) m) := by
  obtain ⟨others, hbefore, hafter⟩ := inv.wf.queued_afterSpill head target
  have running := inv.wf.running_afterSpill head target
  have marks := inv.wf.hasSpilled_moved hcfg head target
  have dispatched : (record w (afterSpill cfg w.sched ep band agentId req rest target)
      m).dispatched = w.dispatched := by
    simp [World.dispatched, record, hm]
  have spilled : (record w (afterSpill cfg w.sched ep band agentId req rest target)
      m).spilled = w.spilled ++ [req] := by
    simp [World.spilled, record, hm]
  obtain ⟨elsewhere, hevery, hevery'⟩ : ∃ elsewhere, w.everywhere = req ::ₘ elsewhere ∧
      (record w (afterSpill cfg w.sched ep band agentId req rest target) m).everywhere =
        moved cfg w.sched req target ::ₘ elsewhere := by
    refine ⟨others + w.sched.running + (w.timedOut ++ w.cancelled ++ w.finished :
      List QueuedRequest), ?_, ?_⟩
    · rw [World.everywhere, Scheduler.live, hbefore, Multiset.cons_add, Multiset.cons_add]
    · rw [World.everywhere, Scheduler.live]
      show (afterSpill cfg w.sched ep band agentId req rest target).queued +
        (afterSpill cfg w.sched ep band agentId req rest target).running + _ = _
      rw [hafter, running, Multiset.cons_add, Multiset.cons_add]
      rfl
  have here : req ∈ w.everywhere := by
    rw [hevery]
    exact Multiset.mem_cons_self _ _
  refine ⟨inv.wf.afterSpill head target, ?_, ?_, ?_, inv.numbered, ?_, ?_, ?_, ?_, ?_, ?_⟩
  · show (afterSpill cfg w.sched ep band agentId req rest target).liveIds.Nodup
    rw [liveIds_afterSpill inv.wf head]
    exact inv.unique
  · intro ep' epCfg' hcfg'
    show (((afterSpill cfg w.sched ep band agentId req rest target).activeOf ep').size : ℤ) ≤ _
    rw [inv.wf.activeOf_afterSpill head]
    exact inv.slots ep' epCfg' hcfg'
  · rw [hevery', Multiset.map_cons, core_moved, ← Multiset.map_cons, ← hevery]
    exact inv.located
  · show _ = (afterSpill cfg w.sched ep band agentId req rest target).running + _
    rw [dispatched, running]
    exact inv.started
  · rw [dispatched]
    exact (totals_afterSpill target).1.trans inv.dispatch_count
  · exact (totals_afterSpill target).2.trans inv.complete_count
  · intro m' hm'
    rcases List.mem_append.mp hm' with hm' | hm'
    · exact inv.moments m' hm'
    · rw [List.mem_singleton.mp hm']
      exact sound
  · intro r hr
    rw [spilled] at hr
    rw [hevery']
    rcases List.mem_append.mp hr with hr | hr
    · obtain ⟨r', hmem, href, hmark⟩ := inv.marked r hr
      rw [hevery] at hmem
      rcases Multiset.mem_cons.mp hmem with rfl | hmem
      · exact absurd (hmark.symm.trans notYet) (by simp)
      · exact ⟨r', Multiset.mem_cons_of_mem hmem, href, hmark⟩
    · rw [List.mem_singleton.mp hr]
      exact ⟨_, Multiset.mem_cons_self _ _, rfl, marks⟩
  · rw [spilled, List.map_append, List.nodup_append]
    refine ⟨inv.spilled_once, by simp, ?_⟩
    intro x hx y hy hxy
    obtain ⟨r, hr, rfl⟩ := List.mem_map.mp hx
    obtain rfl : y = req.ref := by simpa using hy
    -- A request spilled before carries its mark, and `req` carries none.
    obtain ⟨r', hmem, href, hmark⟩ := inv.marked r hr
    obtain rfl := inv.eq_of_ref hmem here (href.trans hxy)
    exact absurd (hmark.symm.trans notYet) (by simp)

end Moves

theorem move {o : Oracles} {now : ℚ} {p p' : Pass} {m : Moment}
    (inv : Consistent cfg (during w p)) (mv : Move cfg o now p m p')
    (live : LiveMoment cfg m) : Consistent cfg (during w p') := by
  rw [during_of_move mv]
  have wf : p.sched.WellFormed cfg := inv.wf
  cases mv with
  | dispatch hcfg head =>
      have label := wf.band_of_head head
      have room : 0 < p.sched.headroom _ _ := live _ hcfg
      exact inv.dispatch hcfg head now rfl rfl ⟨_, hcfg, room⟩ (label ▸ room)
  | spill hcfg head slots elsewhere healthy may =>
      have label := wf.band_of_head head
      have noRoom : p.sched.headroom _ _ = 0 := live _ hcfg
      refine inv.spill hcfg head rfl ⟨_, hcfg, ?_⟩ may.not_spilled
      exact ⟨noRoom, slots, elsewhere.2, label ▸ healthy, may⟩

theorem tick (inv : Consistent cfg w) (o : Oracles) (now : ℚ) :
    Consistent cfg (w.step cfg (.tick o now)) := by
  have expired := inv.expire o now
  rw [step_tick]
  refine (dispatchAll_live
    (fun p => Consistent cfg (during (Consistent.expired cfg o w now) p)) expired.wf
    expired.unique ?_ ?_).2.2
  · simpa [during] using expired
  · intro p m p' hwf hunique hp mv live
    exact hp.move mv live

/-! ### Complete, cancel, prune -/

theorem complete (inv : Consistent cfg w) (record : CompletionRecord) :
    Consistent cfg (w.step cfg (.complete record)) := by
  rcases w.step_complete cfg record with ⟨-, same⟩ | ⟨ep, ar, hit, stepped⟩
  · rwa [same]
  have running := running_finish hit
  rw [stepped]
  have finished : ({ w with
      sched := w.sched.finish ep ar record
      completed := w.completed ++ [(ar, record)] } : World).finished =
      w.finished ++ [ar.request] := by
    simp [World.finished]
  have every : ({ w with
      sched := w.sched.finish ep ar record
      completed := w.completed ++ [(ar, record)] } : World).everywhere = w.everywhere := by
    simp only [World.everywhere, finished, ← Multiset.coe_add, Scheduler.live, running]
    show w.sched.queued + (w.sched.finish ep ar record).running + _ = _
    rw [← Multiset.singleton_add, Multiset.coe_singleton]
    abel
  refine ⟨inv.wf.finish hit, ?_, ?_, ?_, inv.numbered, ?_, inv.dispatch_count, ?_, inv.moments,
    ?_, inv.spilled_once⟩
  · have fewer : (w.sched.finish ep ar record).liveIds ≤ w.sched.liveIds := by
      rw [liveIds, liveIds, Scheduler.live, Scheduler.live, running]
      exact Multiset.map_le_map (add_le_add le_rfl (Multiset.le_cons_self _ _))
    exact Multiset.nodup_of_le fewer inv.unique
  · intro ep' epCfg hcfg
    have before := inv.slots ep' epCfg hcfg
    show (((w.sched.finish ep ar record).activeOf ep').size : ℤ) ≤ _
    rw [activeOf_finish]
    split
    · rename_i hep
      have size := Dict.size_erase hit
      rw [hep, inFlight] at before
      omega
    · exact before
  · rw [every]
    exact inv.located
  · have started := inv.started
    rw [running] at started
    show (w.dispatched : Multiset QueuedRequest) = (w.sched.finish ep ar record).running + _
    rw [finished, started, ← Multiset.coe_add, Multiset.cons_add, ← Multiset.add_cons, add_comm
      (w.finished : Multiset QueuedRequest)]
    rfl
  · show w.sched.totalCompleted + 1 = _
    rw [inv.complete_count]
    simp
  · intro r hr
    rw [every]
    exact inv.marked r hr

theorem cancel (inv : Consistent cfg w) (id : String) :
    Consistent cfg (w.step cfg (.cancel id)) := by
  rcases w.step_cancel cfg id with ⟨-, same⟩ | ⟨ep, b, a, req, rest, holds, -, stepped⟩
  · rwa [same]
  have queued := queued_takeOut holds
  have every : (w.step cfg (.cancel id)).everywhere = w.everywhere := by
    simp only [World.everywhere, stepped, ← Multiset.coe_add, Scheduler.live, queued]
    show (w.sched.takeOut ep b a rest).queued + w.sched.running + _ = _
    rw [← Multiset.singleton_add, Multiset.coe_singleton]
    show _ + (_ + (w.finished : Multiset QueuedRequest)) = _
    abel
  rw [stepped] at every ⊢
  refine ⟨inv.wf.takeOut holds, ?_, inv.slots, ?_, inv.numbered, inv.started, inv.dispatch_count,
    inv.complete_count, inv.moments, ?_, inv.spilled_once⟩
  · have fewer : (w.sched.takeOut ep b a rest).liveIds ≤ w.sched.liveIds := by
      rw [liveIds, liveIds, Scheduler.live, Scheduler.live, queued]
      exact Multiset.map_le_map (add_le_add (Multiset.le_cons_self _ _) le_rfl)
    exact Multiset.nodup_of_le fewer inv.unique
  · rw [every]
    exact inv.located
  · intro r hr
    rw [every]
    exact inv.marked r hr

theorem pruneIdle (inv : Consistent cfg w) (now ttl : ℚ) :
    Consistent cfg (w.step cfg (.pruneIdle now ttl)) :=
  ⟨inv.wf.withBudgets _, inv.unique, inv.slots, inv.located, inv.numbered, inv.started,
    inv.dispatch_count, inv.complete_count, inv.moments, inv.marked, inv.spilled_once⟩

/-- Every call that reuses no live id keeps the invariant. -/
theorem step (inv : Consistent cfg w) {op : Op} (fresh : Fresh w op) :
    Consistent cfg (w.step cfg op) := by
  cases op with
  | enqueue req => exact inv.enqueue fresh
  | tick o now => exact inv.tick o now
  | complete record => exact inv.complete record
  | cancel id => exact inv.cancel id
  | pruneIdle now ttl => exact inv.pruneIdle now ttl

end Consistent

end Roadstead
