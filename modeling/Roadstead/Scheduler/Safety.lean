import Roadstead.Scheduler.World

/-!
# Slots, conservation and spill discipline

What `Consistent` says about whole runs of the scheduler.

* `slot_safety`: no endpoint ever runs more requests than its effective slots, and
  a background request is only dispatched below the background cap.
* `conserved_run`: every request is in exactly one place, as long as no estimate raises.
* `spill_discipline`: a request is spilled at most once, and only when the endpoint
  it leaves could not have taken it.

The first two are about runs that enqueue every id once.  The third is about the
runs that never enqueue an id which is still live; `spill_with_room` is a run that
does, in which a request is spilled past a free slot.
-/

namespace Roadstead

open Scheduler

variable {cfg : ProxyConfig}

/-! ### Runs that reuse no live id -/

theorem Consistent.run {w : World} {ops : List Op} (inv : Consistent cfg w)
    (fresh : Runs.Along (World.step cfg) Fresh w ops) : Consistent cfg (w.run cfg ops) :=
  Runs.run_invariant _ (fun _ _ inv fresh => inv.step fresh) inv fresh

theorem enqueued_step (w : World) (op : Op) :
    (w.step cfg op).enqueued.map QueuedRequest.requestId =
      w.enqueued.map QueuedRequest.requestId ++ op.enqueuedId.toList := by
  cases op with
  | enqueue req => simp [World.step, Op.enqueuedId, World.identified]
  | tick o now | complete record | cancel id | pruneIdle now ttl => simp [World.step, Op.enqueuedId]

theorem enqueued_run (cfg : ProxyConfig) (ops : List Op) (w : World) :
    (w.run cfg ops).enqueued.map QueuedRequest.requestId =
      w.enqueued.map QueuedRequest.requestId ++ ops.filterMap Op.enqueuedId := by
  induction ops generalizing w with
  | nil => simp [World.run]
  | cons op ops ih =>
      show ((w.step cfg op).run cfg ops).enqueued.map _ = _
      rw [ih, enqueued_step, List.append_assoc]
      cases hid : op.enqueuedId <;> simp [hid]

/-- The ids of all requests are those that were enqueued. -/
theorem Consistent.ids_everywhere {w : World} (inv : Consistent cfg w) :
    w.everywhere.map QueuedRequest.requestId =
      (w.enqueued.map QueuedRequest.requestId : List String) := by
  have hcore := congrArg (Multiset.map fun c => c.2.1) inv.located
  rw [Multiset.map_map, Multiset.map_map] at hcore
  exact hcore

/-- A live id was enqueued. -/
theorem Consistent.mem_enqueued {w : World} (inv : Consistent cfg w) {id : String}
    (h : id ∈ w.sched.liveIds) : id ∈ w.enqueued.map QueuedRequest.requestId := by
  rw [← Multiset.mem_coe, ← inv.ids_everywhere, World.everywhere, Multiset.map_add]
  exact Multiset.mem_add.mpr (.inl h)

/-- A run that enqueues every id once never enqueues a live one. -/
theorem fresh_of_distinct {ops : List Op} (distinct : DistinctIds ops) :
    ∀ {w : World}, Consistent cfg w →
      (∀ id ∈ ops.filterMap Op.enqueuedId, id ∉ w.enqueued.map QueuedRequest.requestId) →
      Runs.Along (World.step cfg) Fresh w ops := by
  induction ops with
  | nil => exact fun _ _ => trivial
  | cons op ops ih =>
      intro w inv unseen
      have fresh : Fresh w op := by
        cases op with
        | enqueue req =>
            intro hlive
            exact unseen req.requestId (by simp [Op.enqueuedId]) (inv.mem_enqueued hlive)
        | tick o now | complete record | cancel id | pruneIdle now ttl => trivial
      rw [DistinctIds, List.filterMap_cons] at distinct
      refine ⟨fresh, ih ?_ (inv.step fresh) ?_⟩
      · cases hid : op.enqueuedId with
        | none => simpa [hid, DistinctIds] using distinct
        | some id => exact (List.nodup_cons.mp (by simpa [hid] using distinct)).2
      · intro id hid
        rw [enqueued_step, List.mem_append]
        rintro (seen | here)
        · exact unseen id (by
            obtain ⟨op', hmem, hop⟩ := List.mem_filterMap.mp hid
            exact List.mem_filterMap.mpr ⟨op', List.mem_cons_of_mem _ hmem, hop⟩) seen
        · rw [Option.mem_toList] at here
          have hnodup : (id :: ops.filterMap Op.enqueuedId).Nodup := by
            simpa [Option.mem_def.mp here] using distinct
          exact (List.nodup_cons.mp hnodup).1 hid

theorem fresh_run {ops : List Op} (distinct : DistinctIds ops) (cost : CostModel)
    (budgets : BudgetManager) :
    Runs.Along (World.step cfg) Fresh (World.init cfg cost budgets) ops :=
  fresh_of_distinct distinct (Consistent.init cfg cost budgets) fun _ _ => by simp [World.init]

theorem consistent_run (cfg : ProxyConfig) (cost : CostModel) (budgets : BudgetManager)
    {ops : List Op}
    (fresh : Runs.Along (World.step cfg) Fresh (World.init cfg cost budgets) ops) :
    Consistent cfg (World.run cfg (World.init cfg cost budgets) ops) :=
  (Consistent.init cfg cost budgets).run fresh

/-! ### A small fleet -/

/-- Two local slots. -/
def localEndpoint : EndpointConfig where
  endpointClass := "local"
  maxSlots := 2
  spillTo := "remote"

/-- Two local slots that spill to one remote slot. -/
def smallFleet : ProxyConfig where
  endpoints := ⟨[("local", localEndpoint),
    ("remote", { endpointClass := "remote", maxSlots := 1 })], by decide +kernel⟩
  agents := ⟨[("agent", { agentId := "agent", spillOk := true })], by decide⟩
  stored_under_class := by decide
  class_ne_empty := by decide

/-- A request of the agent that may spill. -/
def localRequest (id : String) (band : PriorityBand) : QueuedRequest where
  requestId := id
  agentId := "agent"
  endpoint := "local"
  band := band
  timeoutDeadline := 100

/-! ### Slot safety -/

/-- No endpoint runs more requests than its effective slots, and every background
dispatch finds fewer background requests in flight than the background cap. -/
theorem slot_safety (cfg : ProxyConfig) (cost : CostModel) (budgets : BudgetManager)
    (ops : List Op) (distinct : DistinctIds ops) :
    let w := World.run cfg (World.init cfg cost budgets) ops
    (∀ ep epCfg, cfg.endpoints.get? ep = some epCfg →
      (w.sched.inFlight ep : ℤ) ≤ max 0 epCfg.effectiveMaxSlots) ∧
    ∀ m ∈ w.trace, ∀ d, m.event = .dispatch d → d.request.band = .background →
      ∀ epCfg, cfg.endpoints.get? m.endpoint = some epCfg →
        (m.before.bgInFlight m.endpoint : ℤ) < epCfg.backgroundCapSlots := by
  intro w
  have inv : Consistent cfg w := consistent_run cfg cost budgets (fresh_run distinct cost budgets)
  refine ⟨inv.slots, ?_⟩
  intro m hm d hevent hband epCfg hcfg
  obtain ⟨epCfg', hcfg', sound⟩ := inv.moments m hm
  obtain rfl := Option.some.inj (hcfg.symm.trans hcfg')
  simp only [hevent, hband] at sound
  have below := bg_lt_of_headroom_pos sound
  rwa [cfg.endpointClass_eq hcfg] at below

/-- The safety of a run in which the last of three requests finds the slots full. -/
theorem slot_safety_small_fleet :
    let w := World.run smallFleet (World.init smallFleet {} {})
      [.enqueue (localRequest "x" .interactive), .enqueue (localRequest "y" .background),
        .enqueue (localRequest "z" .foreground), .tick {} 1]
    DistinctIds [.enqueue (localRequest "x" .interactive),
        .enqueue (localRequest "y" .background), .enqueue (localRequest "z" .foreground),
        .tick {} 1] ∧
      (w.sched.inFlight "local" : ℤ) ≤ max 0 2 :=
  ⟨by decide,
    (slot_safety smallFleet {} {} _ (by decide)).1 "local" _ rfl⟩

/-! ### Conservation -/

/-- Every request ever enqueued is in exactly one place: one position of one deque, one active map,
or one of the three ways to terminate. -/
structure Conserved (w : World) : Prop where
  located : w.everywhere.map QueuedRequest.core =
    (w.enqueued : Multiset QueuedRequest).map QueuedRequest.core
  once : ∀ r ∈ w.enqueued, (w.everywhere.map QueuedRequest.requestId).count r.requestId = 1
  counted : w.sched.totalDispatched =
    w.sched.totalCompleted + w.sched.active.sum (fun _ m => m.size)
  apart : ∀ r ∈ w.dispatched, ∀ t ∈ w.timedOut, r.requestId ≠ t.requestId

theorem conserved_run (cfg : ProxyConfig) (cost : CostModel) (budgets : BudgetManager)
    {ops : List Op} (distinct : DistinctIds ops) :
    Conserved (World.run cfg (World.init cfg cost budgets) ops) := by
  set w := World.run cfg (World.init cfg cost budgets) ops
  have inv : Consistent cfg w := consistent_run cfg cost budgets (fresh_run distinct cost budgets)
  have nodup : (w.everywhere.map QueuedRequest.requestId).Nodup := by
    rw [inv.ids_everywhere, Multiset.coe_nodup, enqueued_run]
    exact distinct
  refine ⟨inv.located, ?_, ?_, ?_⟩
  · intro r hr
    refine Multiset.count_eq_one_of_mem nodup ?_
    rw [inv.ids_everywhere]
    exact List.mem_map_of_mem hr
  · have hcard := congrArg Multiset.card inv.started
    rw [Multiset.card_add, Multiset.coe_card, Multiset.coe_card, card_running,
      ← inv.dispatch_count] at hcard
    rw [hcard, inv.complete_count, World.finished, List.length_map, add_comm]
  · -- A dispatched request is running or finished; one that timed out is elsewhere.
    intro r hr t ht hid
    have hr' : r ∈ w.sched.running + (w.finished : Multiset QueuedRequest) := by
      rw [← inv.started]
      exact hr
    have hsplit : w.everywhere = (w.sched.running + (w.finished : Multiset QueuedRequest)) +
        ((w.timedOut : Multiset QueuedRequest) + (w.sched.queued + w.cancelled)) := by
      rw [World.everywhere, Scheduler.live, ← Multiset.coe_add, ← Multiset.coe_add]
      abel
    rw [hsplit, Multiset.map_add, Multiset.nodup_add] at nodup
    refine Multiset.disjoint_left.mp nodup.2.2 (Multiset.mem_map_of_mem _ hr') ?_
    rw [hid]
    exact Multiset.mem_map_of_mem _ (Multiset.mem_add.mpr (.inl ht))

/-! ### Spill discipline -/

/-- Each request is spilled at most once, and each spill happens under its
conditions. -/
def SpillDiscipline (cfg : ProxyConfig) (w : World) : Prop :=
  (w.spilled.map QueuedRequest.ref).Nodup ∧
    ∀ m ∈ w.trace, ∀ req target, m.event = .spill req target →
      ∃ epCfg, cfg.endpoints.get? m.endpoint = some epCfg ∧ SpillSound cfg m epCfg req target

theorem spill_discipline (cfg : ProxyConfig) (cost : CostModel) (budgets : BudgetManager)
    (ops : List Op)
    (fresh : Runs.Along (World.step cfg) Fresh (World.init cfg cost budgets) ops) :
    SpillDiscipline cfg (World.run cfg (World.init cfg cost budgets) ops) := by
  have inv := consistent_run cfg cost budgets fresh
  refine ⟨inv.spilled_once, ?_⟩
  intro m hm req target hevent
  obtain ⟨epCfg, hcfg, sound⟩ := inv.moments m hm
  simp only [hevent] at sound
  exact ⟨epCfg, hcfg, sound⟩

/-- The discipline of a run that reuses an id once its request has finished. -/
theorem spill_discipline_small_fleet :
    let ops := [.enqueue (localRequest "x" .interactive), .enqueue (localRequest "y" .interactive),
      .enqueue (localRequest "z" .foreground), .tick {} 1,
      .complete { requestId := "x", durationS := 1 }, .enqueue (localRequest "x" .foreground),
      .tick {} 2]
    Runs.Along (World.step smallFleet) Fresh (World.init smallFleet {} {}) ops ∧
      SpillDiscipline smallFleet (World.run smallFleet (World.init smallFleet {} {}) ops) :=
  ⟨by decide +kernel, spill_discipline smallFleet {} {} _ (by decide +kernel)⟩

/-- The request that was spilled, and its target. -/
def PassEvent.spill? : PassEvent → Option (QueuedRequest × String)
  | .dispatch _ => none
  | .spill req target => some (req, target)

theorem PassEvent.eq_of_spill? {e : PassEvent} {req : QueuedRequest} {target : String}
    (h : e.spill? = some (req, target)) : e = .spill req target := by
  cases e with
  | dispatch d => exact absurd h (by simp [PassEvent.spill?])
  | spill req' target' =>
      obtain ⟨rfl, rfl⟩ := Prod.mk.inj (Option.some.inj h)
      rfl

/-- Two live requests under one id: the second dispatch overwrites the first in the
active map, and a third request is spilled past the slot that looks free. -/
theorem spill_with_room :
    ¬SpillDiscipline smallFleet (World.run smallFleet (World.init smallFleet {} {})
      [.enqueue (localRequest "x" .interactive), .enqueue (localRequest "x" .interactive),
        .enqueue (localRequest "z" .foreground), .tick {} 1]) := by
  intro discipline
  have found : ∃ m ∈ (World.run smallFleet (World.init smallFleet {} {})
      [.enqueue (localRequest "x" .interactive), .enqueue (localRequest "x" .interactive),
        .enqueue (localRequest "z" .foreground), .tick {} 1]).trace,
      m.event.spill?.any (fun x => decide (m.endpoint = "local" ∧
        m.before.headroom localEndpoint x.1.band = 1)) = true := by
    decide +kernel
  obtain ⟨m, hm, hevent⟩ := found
  obtain ⟨⟨req, target⟩, hspill, hfree⟩ := (Option.any_eq_true _ _).mp hevent
  obtain ⟨hlocal, hroom⟩ := of_decide_eq_true hfree
  change m.before.headroom localEndpoint req.band = 1 at hroom
  obtain ⟨epCfg, hcfg, sound⟩ := discipline.2 m hm req target (PassEvent.eq_of_spill? hspill)
  rw [hlocal] at hcfg
  obtain rfl : localEndpoint = epCfg := Option.some.inj hcfg
  have := sound.no_room
  omega

end Roadstead
