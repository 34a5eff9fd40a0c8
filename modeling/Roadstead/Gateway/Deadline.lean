import Roadstead.Gateway.Steps

/-!
# One deadline, stored twice

A request carries its deadline twice: `timeout_deadline`, a point in time that expiry and
the backend attempts read, and `timeout_s`, a duration that its caller's wait and the
disclosed deadline read.  They say the same as long as `timeout_deadline` is
`enqueued_at + timeout_s`.

`QueuedRequest.create` makes them so, and no spill, reroute, dispatch or recovery from
the store breaks it.  `extend_deadline_for_granted_budget` does, because it raises
`timeout_s` alone.  `deadline_coherence` is the result for the runs in which it raises
nothing; `expired_before_applied_timeout` shows a request that is expired a minute before
the deadline it was granted.
-/

namespace Roadstead

open Scheduler

variable {cfg : ProxyConfig} {policy : Policy} {g : Gateway}

/-! ### The property and its condition -/

/-- The two deadlines of a request say the same. -/
def QueuedRequest.Coherent (r : QueuedRequest) : Prop := r.timeoutDeadline = r.enqueuedAt + r.timeoutS

/-- Deadlines are coherent, and nothing is expired or given up before `timeout_s` has
passed. -/
structure DeadlineCoherence (cfg : ProxyConfig) (policy : Policy) (g : Gateway) : Prop where
  requests : ∀ r ∈ g.proxy.world.everywhere, r.Coherent
  tasks : ∀ ref t, g.proxy.tasks.get? ref = some t → t.decision.request.Coherent
  /-- What a tick expires. -/
  expiry : ∀ o now, ∀ r ∈ (Scheduler.tick cfg o g.proxy.world.sched now).timeouts,
    r.enqueuedAt + r.timeoutS ≤ now
  /-- A dispatched request whose next attempt is not made. -/
  attempts : ∀ ref t, g.proxy.tasks.get? ref = some t → ∀ v now,
    ((Proxy.ctxOf cfg policy t).attempt v now).next = none →
      t.decision.request.enqueuedAt + t.decision.request.timeoutS ≤ now

namespace Gateway

/-- The request a turn enqueues was granted no `max_tokens` that `timeout_s` is raised for. -/
def Ungranted (cfg : ProxyConfig) (policy : Policy) (g : Gateway) (e : GatewayEvent) : Prop :=
  ∀ x ∈ (g.handled cfg e).toList,
    (g.step cfg policy e).proxy.world.enqueued.length ≠ g.proxy.world.enqueued.length →
      let req := g.passed cfg x.2.1 x.2.2
      x.1.grantedTimeoutS req.payload.maxTokens (x.1.correct req) = none

instance (e : GatewayEvent) : Decidable (Ungranted cfg policy g e) :=
  inferInstanceAs (Decidable (∀ x ∈ (g.handled cfg e).toList, _ → _))

/-! ### The invariant -/

/-- The invariant of the runs that raise no `timeout_s`. -/
structure Coherently (cfg : ProxyConfig) (g : Gateway) : Prop where
  wf : g.proxy.world.sched.WellFormed cfg
  created : LoadsCreated cfg g
  every : g.proxy.Every QueuedRequest.Coherent

end Gateway

open Gateway

theorem SpillsKeep.coherent (trace : List Moment) : SpillsKeep cfg QueuedRequest.Coherent trace :=
  fun _ _ _ _ _ h => h

theorem QueuedRequest.Coherent.prepare {s : Submission} {req : QueuedRequest} (h : req.Coherent)
    (nothing : s.grantedTimeoutS req.payload.maxTokens (s.correct req) = none) :
    (s.prepare req).Coherent := by
  unfold Submission.prepare Submission.extendDeadlineForGrantedBudget
  rw [nothing]
  exact h

theorem QueueRow.coherent_rebuild (row : QueueRow) (cfg : ProxyConfig) (payload : Payload)
    (wall now : ℚ) : (row.rebuild cfg payload wall now).Coherent := by
  show now + (row.budget - row.elapsed wall) = now - row.elapsed wall + row.budget
  ring

namespace Gateway.Coherently

theorem init (cfg : ProxyConfig) (cost : CostModel) (budgets : BudgetManager) (shedDepth : ℕ) :
    Coherently cfg (Gateway.init cfg cost budgets shedDepth) where
  wf := wellFormed_init cfg cost budgets
  created := .init cfg cost budgets shedDepth
  every := .init cfg cost budgets

/-- Every turn that raises no `timeout_s` keeps the deadlines coherent. -/
theorem step (inv : Coherently cfg g) {e : GatewayEvent} (ungranted : g.Ungranted cfg policy e) :
    Coherently cfg (g.step cfg policy e) where
  wf := wellFormed_step inv.wf e
  created := inv.created.step e
  every := by
    refine every_step inv.every inv.wf (fun _ _ h => h) (fun req arrives enqueued => ?_)
      (fun _ _ _ => .coherent _) fun _ _ _ _ _ h => h
    cases arrives with
    | @admitted _ load now g₀ g₁ req₁ source same brings past =>
        obtain ⟨t, hreq, -⟩ := brings.created inv.created
        have passed : req₁ = g.passed cfg load.req now := past.req_eq.trans (same.passed _ _)
        have coherent : req₁.Coherent := by
          rw [hreq] at past
          cases past <;> rfl
        have nothing : load.submission.grantedTimeoutS req₁.payload.maxTokens
            (load.submission.correct req₁) = none := by
          rw [passed]
          refine ungranted (load.submission, load.req, now) ?_ ?_
          · rw [brings.handled]
            exact List.mem_singleton_self _
          · rw [enqueued]
            simp
        exact coherent.prepare nothing
    | @recovered row payload wall now => exact row.coherent_rebuild cfg payload wall now

end Gateway.Coherently

/-! ### The result -/

theorem Gateway.Coherently.deadlineCoherence (inv : Coherently cfg g) :
    DeadlineCoherence cfg policy g where
  requests := inv.every.world
  tasks := inv.every.tasks
  expiry := by
    intro o now r hr
    have queued : r ∈ g.proxy.world.sched.queued := by
      rw [← inv.wf.queued_afterExpiry o now]
      exact Multiset.mem_add.mpr (.inr (Multiset.mem_coe.mpr hr))
    have expired : EndpointQueue.isExpired now r = true :=
      (inv.wf.withBudgets (g.proxy.world.sched.budgets.replenish now)).expired_of_mem hr
    have late := of_decide_eq_true expired
    rwa [inv.every.world.queued queued] at late
  attempts := by
    intro ref t ht v now ended
    have coherent := inv.every.tasks ref t ht
    simp only [DispatchCtx.attempt] at ended
    split at ended
    · rename_i late
      have late : t.decision.request.timeoutDeadline - now ≤ 0 := late
      rw [coherent] at late
      linarith
    · exact absurd ended (by simp [Segment.suspend])

/-- In every run in which no enqueued request has its `timeout_s` raised, the two deadlines
of every request agree, and none is expired or given up early. -/
theorem deadline_coherence (cfg : ProxyConfig) (policy : Policy) (cost : CostModel)
    (budgets : BudgetManager) (shedDepth : ℕ) (events : List GatewayEvent)
    (along : Runs.Along (Gateway.step cfg policy) (Gateway.Ungranted cfg policy)
      (Gateway.init cfg cost budgets shedDepth) events) :
    DeadlineCoherence cfg policy
      (Gateway.run cfg policy (Gateway.init cfg cost budgets shedDepth) events) :=
  (Runs.run_invariant (Gateway.Coherently cfg) (fun _ _ inv ungranted => inv.step ungranted)
    (.init cfg cost budgets shedDepth) along).deadlineCoherence

/-- A submission for the local endpoint, with a minute to go. -/
def minuteSubmission (id : String) : Submission where
  requestId := id
  agentId := "agent"
  endpoint := " Local "
  payload := { maxTokens := some (.int 100) }
  timeoutS := 60

/-- Two requests that are both dispatched, and the task of the first has begun. -/
theorem deadline_coherence_two_requests :
    let events : List GatewayEvent :=
      [.submit (minuteSubmission "x") 0, .submit (minuteSubmission "y") 5, .turn (.tick {} 10),
        .turn (.task 0 {})]
    let g := Gateway.run smallFleet {} (Gateway.init smallFleet {} {} 64) events
    g.proxy.world.enqueued.length = 2 ∧ g.proxy.tasks.keys = [0, 1] ∧ DeadlineCoherence smallFleet {} g :=
  ⟨by decide +kernel, by decide +kernel,
    deadline_coherence smallFleet {} {} {} 64 _ (by decide)⟩

/-- A request that a tick expires before its `timeout_s` has passed. -/
theorem not_deadlineCoherence {o : Oracles} {now limit : ℚ} {limits : List ℚ}
    (expired : (Scheduler.tick cfg o g.proxy.world.sched now).timeouts.map
      (fun r => r.enqueuedAt + r.timeoutS) = limit :: limits) (early : now < limit) :
    ¬DeadlineCoherence cfg policy g := by
  intro coherence
  obtain ⟨r, hr, rfl⟩ : ∃ r ∈ (Scheduler.tick cfg o g.proxy.world.sched now).timeouts,
      r.enqueuedAt + r.timeoutS = limit :=
    List.mem_map.mp (expired ▸ List.mem_cons_self)
  exact absurd (coherence.expiry o now r hr) (not_le.mpr early)

/-- The thinking correction grants 900 tokens more, and the timeout model advises two
minutes for them. -/
def thinkingSubmission (id : String) : Submission :=
  { minuteSubmission id with
    corrected := fun req => { req.payload with maxTokens := some (.int 1000) }
    recommendedTimeoutS := fun _ => some 120 }

/-- The request is granted two minutes, and it is expired after one. -/
theorem expired_before_applied_timeout :
    ¬DeadlineCoherence smallFleet {}
      (Gateway.run smallFleet {} (Gateway.init smallFleet {} {} 64)
        [.submit (thinkingSubmission "x") 0]) :=
  not_deadlineCoherence
    (show (Scheduler.tick smallFleet {} _ 60).timeouts.map _ = [120] by decide +kernel)
    (by norm_num)

end Roadstead
