import Mathlib.Algebra.BigOperators.Group.Multiset.Basic
import Roadstead.Scheduler.Safety

/-!
# Deficit-round-robin accounting

An estimate is computed when a request is enqueued, computed again when it is
spilled, charged when it is dispatched, and replaced by the measured duration when
it completes.  `Accounted` is the ledger these steps keep: what an agent has consumed
is what its finished requests used plus what is charged for those in flight.

The ledger needs two things.  Whoever has work in the scheduler has a budget
(`Funded`), because a charge without a budget is lost; this holds as long as no budget
is removed.  And no live id is reused, because a second dispatch under one id
overwrites the first, and with it the estimate that was charged
(`charge_lost_by_reused_id`).
-/

namespace Roadstead

open Scheduler

variable {cfg : ProxyConfig}

/-- The estimates of the requests of one agent. -/
def outstanding (rs : Multiset QueuedRequest) (a : String) : ℚ :=
  ((rs.filter fun r => r.agentId = a).map QueuedRequest.estimatedCostSs).sum

/-- The measured durations of the completions of one agent that hit. -/
def settled (hits : List (ActiveRequest × CompletionRecord)) (a : String) : ℚ :=
  ((hits.filter fun c => c.1.request.agentId = a).map fun c => c.2.durationS).sum

/-- The number of dispatches of one agent. -/
def dispatchesOf (rs : List QueuedRequest) (a : String) : ℕ :=
  (rs.filter fun r => r.agentId = a).length

/-- What the budget of an agent should say. -/
def World.ledger (w : World) (a : String) : ℚ × ℕ :=
  (settled w.completed a + outstanding w.sched.running a, dispatchesOf w.dispatched a)

/-- Every agent with work in the scheduler has a budget object. -/
def Funded (s : Scheduler) : Prop := ∀ r ∈ s.live, r.agentId ∈ s.budgets.agents.keys

/-- The budgets agree with the history. -/
structure Accounted (w : World) : Prop where
  funded : Funded w.sched
  ledger : ∀ a, w.sched.budgets.spent a = w.ledger a

/-- A call that removes no budget. -/
def KeepsBudgets : Op → Prop
  | .pruneIdle _ _ => False
  | _ => True

instance : DecidablePred KeepsBudgets
  | .enqueue _ => isTrue trivial
  | .tick _ _ => isTrue trivial
  | .complete _ => isTrue trivial
  | .cancel _ => isTrue trivial
  | .pruneIdle _ _ => isFalse id

theorem outstanding_cons (r : QueuedRequest) (rs : Multiset QueuedRequest) (a : String) :
    outstanding (r ::ₘ rs) a = (if a = r.agentId then r.estimatedCostSs else 0) + outstanding rs a := by
  by_cases h : r.agentId = a
  · simp [outstanding, h]
  · simp [outstanding, h, Ne.symm h]

theorem settled_append (hits : List (ActiveRequest × CompletionRecord))
    (c : ActiveRequest × CompletionRecord) (a : String) :
    settled (hits ++ [c]) a =
      settled hits a + if a = c.1.request.agentId then c.2.durationS else 0 := by
  by_cases h : c.1.request.agentId = a
  · simp [settled, h]
  · simp [settled, h, Ne.symm h]

theorem dispatchesOf_append (rs : List QueuedRequest) (r : QueuedRequest) (a : String) :
    dispatchesOf (rs ++ [r]) a = dispatchesOf rs a + if a = r.agentId then 1 else 0 := by
  by_cases h : r.agentId = a
  · simp [dispatchesOf, h]
  · simp [dispatchesOf, h, Ne.symm h]

namespace Accounted

variable {w : World}

/-- Steps that keep what is running, what is spent and what happened, and give every
agent that is left a budget. -/
theorem of_same (inv : Accounted w) {w' : World} (funded : Funded w'.sched)
    (running : w'.sched.running = w.sched.running) (completed : w'.completed = w.completed)
    (dispatched : w'.dispatched = w.dispatched)
    (spent : ∀ a, w'.sched.budgets.spent a = w.sched.budgets.spent a) : Accounted w' := by
  refine ⟨funded, fun a => ?_⟩
  rw [spent, inv.ledger, World.ledger, World.ledger, running, completed, dispatched]

/-- A request that starts is charged its estimate. -/
theorem of_started (inv : Accounted w) {w' : World} {req : QueuedRequest}
    (funded : Funded w'.sched) (running : w'.sched.running = req ::ₘ w.sched.running)
    (completed : w'.completed = w.completed) (dispatched : w'.dispatched = w.dispatched ++ [req])
    (spent : ∀ a, w'.sched.budgets.spent a = w.sched.budgets.spent a +
      if a = req.agentId then (req.estimatedCostSs, 1) else 0) : Accounted w' := by
  refine ⟨funded, fun a => ?_⟩
  rw [spent, inv.ledger, World.ledger, World.ledger, running, completed, dispatched,
    outstanding_cons, dispatchesOf_append]
  split
  · exact Prod.ext (by simp only [Prod.fst_add]; ring) rfl
  · simp

/-- A request that finishes trades its estimate for its duration. -/
theorem of_finished (inv : Accounted w) {w' : World} {ar : ActiveRequest}
    {record : CompletionRecord} (funded : Funded w'.sched)
    (running : w.sched.running = ar.request ::ₘ w'.sched.running)
    (completed : w'.completed = w.completed ++ [(ar, record)])
    (dispatched : w'.dispatched = w.dispatched)
    (spent : ∀ a, w'.sched.budgets.spent a = w.sched.budgets.spent a +
      if a = ar.request.agentId then (record.durationS - ar.request.estimatedCostSs, 0) else 0) :
    Accounted w' := by
  refine ⟨funded, fun a => ?_⟩
  rw [spent, inv.ledger, World.ledger, World.ledger, running, completed, dispatched,
    outstanding_cons, settled_append]
  split
  · exact Prod.ext (by simp only [Prod.fst_add]; ring) rfl
  · simp

theorem enqueue (inv : Accounted w) (wf : w.sched.WellFormed cfg) (req : QueuedRequest) :
    Accounted (w.step cfg (.enqueue req)) := by
  refine inv.of_same ?_ (wf.running_enqueue _) rfl rfl ?_
  · intro r hr
    show r.agentId ∈ (Scheduler.enqueue cfg w.sched (w.identified req)).budgets.agents.keys
    rw [budgets_enqueue, BudgetManager.mem_keys_getOrCreate]
    change r ∈ (Scheduler.enqueue cfg w.sched (w.identified req)).live at hr
    rw [wf.live_enqueue] at hr
    rcases Multiset.mem_cons.mp hr with rfl | hr
    · exact .inl rfl
    · exact .inr (inv.funded r hr)
  · intro a
    show (Scheduler.enqueue cfg w.sched (w.identified req)).budgets.spent a = _
    rw [budgets_enqueue, BudgetManager.spent_getOrCreate]

theorem expire (inv : Accounted w) (wf : w.sched.WellFormed cfg) (o : Oracles) (now : ℚ) :
    Accounted (Consistent.expired cfg o w now) := by
  refine inv.of_same ?_ rfl rfl rfl fun a => BudgetManager.spent_replenish _ _ _
  intro r hr
  show r.agentId ∈ (w.sched.budgets.replenish now).agents.keys
  rw [BudgetManager.keys_replenish]
  refine inv.funded r ?_
  rw [Scheduler.live, ← wf.queued_afterExpiry o now]
  rcases Multiset.mem_add.mp hr with hr | hr
  · exact Multiset.mem_add.mpr (.inl (Multiset.mem_add.mpr (.inl hr)))
  · exact Multiset.mem_add.mpr (.inr hr)

theorem move {o : Oracles} {now : ℚ} {p p' : Pass} {m : Moment}
    (inv : Accounted (Consistent.during w p)) (wf : p.sched.WellFormed cfg)
    (unique : p.sched.UniqueIds) (mv : Move cfg o now p m p') :
    Accounted (Consistent.during w p') := by
  rw [Consistent.during_of_move mv]
  cases mv with
  | @dispatch ep epCfg band agentId req rest occ attempt hcfg head =>
      obtain ⟨-, -, hagent, -⟩ := wf.mem_contents (head ▸ List.mem_cons_self)
      have queued := mem_queued_of_head head
      have running : (p.sched.afterDispatch ep band agentId req rest now).running =
          req ::ₘ p.sched.running :=
        running_afterDispatch now (unique.not_active wf queued ep)
      have known : agentId ∈ p.sched.budgets.agents.keys :=
        hagent ▸ inv.funded req (Multiset.mem_add.mpr (.inl queued))
      refine inv.of_started ?_ running rfl ?_ ?_
      · intro r hr
        show r.agentId ∈ (p.sched.budgets.charge agentId req.estimatedCostSs now).agents.keys
        rw [BudgetManager.charge, BudgetManager.keys_modify]
        refine inv.funded r ?_
        change r ∈ (p.sched.afterDispatch ep band agentId req rest now).live at hr
        rw [Scheduler.live, running, Multiset.add_cons, ← Multiset.cons_add,
          ← queued_afterDispatch head now] at hr
        exact hr
      · simp [World.dispatched, Consistent.record]
      · intro a
        rw [hagent]
        exact BudgetManager.spent_charge known req.estimatedCostSs now a
  | @spill ep epCfg band agentId req rest target attempt hcfg head slots elsewhere healthy may =>
      obtain ⟨others, hbefore, hafter⟩ := wf.queued_afterSpill head target
      have running := wf.running_afterSpill head target
      refine inv.of_same ?_ running rfl ?_ ?_
      · intro r hr
        change r ∈ (afterSpill cfg p.sched ep band agentId req rest target).live at hr
        show r.agentId ∈
          (afterSpill cfg p.sched ep band agentId req rest target).budgets.agents.keys
        rw [budgets_afterSpill, BudgetManager.mem_keys_getOrCreate]
        rw [Scheduler.live, running, hafter, Multiset.cons_add] at hr
        rcases Multiset.mem_cons.mp hr with rfl | hr
        · exact .inl rfl
        · refine .inr (inv.funded r ?_)
          show r ∈ p.sched.live
          rw [Scheduler.live, hbefore, Multiset.cons_add]
          exact Multiset.mem_cons_of_mem hr
      · simp [World.dispatched, Consistent.record]
      · intro a
        show (afterSpill cfg p.sched ep band agentId req rest target).budgets.spent a = _
        rw [budgets_afterSpill, BudgetManager.spent_getOrCreate]
        rfl

theorem tick (inv : Accounted w) (consistent : Consistent cfg w) (o : Oracles) (now : ℚ) :
    Accounted (w.step cfg (.tick o now)) := by
  have expired := inv.expire consistent.wf o now
  have ready := consistent.expire o now
  rw [Consistent.step_tick]
  refine (dispatchAll_live
    (fun p => Accounted (Consistent.during (Consistent.expired cfg o w now) p)) ready.wf
    ready.unique ?_ ?_).2.2
  · simpa [Consistent.during] using expired
  · intro p m p' hwf hunique hp mv _
    exact hp.move hwf hunique mv

theorem complete (inv : Accounted w) (record : CompletionRecord) :
    Accounted (w.step cfg (.complete record)) := by
  rcases w.step_complete cfg record with ⟨-, same⟩ | ⟨ep, ar, hit, stepped⟩
  · rwa [same]
  have running := running_finish hit
  have known : ar.request.agentId ∈ w.sched.budgets.agents.keys := by
    refine inv.funded ar.request (Multiset.mem_add.mpr (.inr ?_))
    rw [running]
    exact Multiset.mem_cons_self _ _
  rw [stepped]
  refine inv.of_finished ?_ running rfl rfl ?_
  · intro r hr
    show r.agentId ∈ (w.sched.budgets.retroactiveAdjust _ _ _).agents.keys
    rw [BudgetManager.retroactiveAdjust, BudgetManager.keys_modify]
    refine inv.funded r ?_
    rw [Scheduler.live, running, Multiset.add_cons]
    exact Multiset.mem_cons_of_mem hr
  · exact BudgetManager.spent_retroactiveAdjust known _ _

theorem cancel (inv : Accounted w) (id : String) : Accounted (w.step cfg (.cancel id)) := by
  rcases w.step_cancel cfg id with ⟨-, same⟩ | ⟨ep, b, a, req, rest, holds, -, stepped⟩
  · rwa [same]
  rw [stepped]
  refine inv.of_same ?_ rfl rfl rfl fun _ => rfl
  intro r hr
  refine inv.funded r ?_
  rw [Scheduler.live, queued_takeOut holds, Multiset.cons_add]
  exact Multiset.mem_cons_of_mem hr

theorem step (inv : Accounted w) (consistent : Consistent cfg w) {op : Op}
    (keeps : KeepsBudgets op) : Accounted (w.step cfg op) := by
  cases op with
  | enqueue req => exact inv.enqueue consistent.wf req
  | tick o now => exact inv.tick consistent o now
  | complete record => exact inv.complete record
  | cancel id => exact inv.cancel id
  | pruneIdle now ttl => exact absurd keeps id

theorem init (cfg : ProxyConfig) (cost : CostModel) {budgets : BudgetManager}
    (untouched : ∀ a, budgets.spent a = 0) : Accounted (World.init cfg cost budgets) where
  funded := by
    intro r hr
    change r ∈ (Scheduler.init cfg cost budgets).live at hr
    rw [live_init] at hr
    simp at hr
  ledger := by
    intro a
    show budgets.spent a = (_ + outstanding (Scheduler.init cfg cost budgets).running a, _)
    rw [untouched, running_init]
    ext
    · simp [World.init, settled, outstanding]
    · simp [World.init, World.dispatched, dispatchesOf]

end Accounted

/-- Exact accounting of an agent's budget: its consumption is what its
finished requests used plus the estimates of those in flight, its requests are its
dispatches, and a completion for an id that is not active changes nothing. -/
def ExactAccounting (w : World) : Prop :=
  (∀ a, w.sched.budgets.spent a =
    (settled w.completed a + outstanding w.sched.running a, dispatchesOf w.dispatched a)) ∧
  ∀ record, (∀ ep, record.requestId ∉ (w.sched.activeOf ep).keys) →
    w.sched.complete record = (w.sched, none)

theorem drr_accounting (cfg : ProxyConfig) (cost : CostModel) (budgets : BudgetManager)
    (untouched : ∀ a, budgets.spent a = 0) (ops : List Op)
    (fresh : Runs.Along (World.step cfg) Fresh (World.init cfg cost budgets) ops)
    (keeps : ∀ op ∈ ops, KeepsBudgets op) :
    ExactAccounting (World.run cfg (World.init cfg cost budgets) ops) := by
  have along := fresh.and_forall keeps
  obtain ⟨-, accounted⟩ :=
    Runs.run_invariant (fun w => Consistent cfg w ∧ Accounted w)
      (fun _ _ inv guard => ⟨inv.1.step guard.1, inv.2.step inv.1 guard.2⟩)
      ⟨Consistent.init cfg cost budgets, Accounted.init cfg cost untouched⟩ along
  refine ⟨accounted.ledger, ?_⟩
  intro record inactive
  rcases complete_cases _ record with ⟨-, miss⟩ | ⟨ep, ar, hit, -⟩
  · exact miss
  · exact absurd (Dict.mem_keys_iff.mpr ⟨ar, hit⟩) (inactive ep)

/-- The accounts of a run with a spill, a completion that hits and a late one. -/
theorem drr_accounting_small_fleet :
    let ops := [.enqueue (localRequest "x" .interactive), .enqueue (localRequest "y" .interactive),
      .enqueue (localRequest "z" .foreground), .tick {} 1,
      .complete { requestId := "x", durationS := 7 }, .complete { requestId := "x", durationS := 9 },
      .cancel "z", .tick {} 2]
    (∀ op ∈ ops, KeepsBudgets op) ∧
      ExactAccounting (World.run smallFleet (World.init smallFleet {} {}) ops) :=
  ⟨by decide,
    drr_accounting smallFleet {} {} (fun _ => rfl) _ (by decide) (by decide)⟩

/-- Two live requests under one id are charged twice, but only one of them is in the
active map: the other estimate stands in no sum. -/
theorem charge_lost_by_reused_id :
    ¬ExactAccounting (World.run smallFleet (World.init smallFleet {} {})
      [.enqueue (localRequest "x" .interactive), .enqueue (localRequest "x" .interactive),
        .tick {} 1]) := by
  rintro ⟨ledger, -⟩
  exact absurd (ledger "agent") (by decide +kernel)

end Roadstead
