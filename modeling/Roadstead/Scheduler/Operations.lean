import Roadstead.Scheduler.Pass

/-!
# The other operations

What expiry, completion, cancellation and the retention sweep do to the views of a
well-formed scheduler, and the conservation law of one tick: of the requests that
were queued before it, each is handed to `on_timeout`, dispatched, or still queued.
No result here needs ids to be distinct.
-/

namespace Roadstead

namespace Scheduler

variable {cfg : ProxyConfig} {o : Oracles} {now : ℚ}

/-! ### Expiry -/

theorem queueOf_expireQueues (s : Scheduler) (now : ℚ) {ep : String}
    (h : ep ∈ s.queues.keys) :
    (s.expireQueues now).1.queueOf ep = ((s.queueOf ep).expireBefore now).1 := by
  obtain ⟨eq, heq⟩ := Dict.mem_keys_iff.mp h
  simp [expireQueues, queueOf, Dict.get?_map, heq]

theorem queueOf_expireQueues_of_not_mem (s : Scheduler) (now : ℚ) {ep : String}
    (h : ep ∉ s.queues.keys) : (s.expireQueues now).1.queueOf ep = .empty := by
  simp [expireQueues, queueOf, Dict.get?_map, Dict.get?_eq_none_iff.mpr h]

/-- Expiry pops the expired requests at the head of every deque. -/
theorem deque_expireQueues (s : Scheduler) (now : ℚ) (ep : String) (b : PriorityBand)
    (a : String) :
    ((s.expireQueues now).1.queueOf ep).deque b a =
      ((s.queueOf ep).deque b a).dropWhile (EndpointQueue.isExpired now) := by
  by_cases h : ep ∈ s.queues.keys
  · rw [queueOf_expireQueues s now h, EndpointQueue.deque_expireBefore]
  · rw [queueOf_expireQueues_of_not_mem s now h, queueOf_of_not_mem h]
    rfl

variable {s : Scheduler}

theorem WellFormed.expireQueues (wf : s.WellFormed cfg) (now : ℚ) :
    (s.expireQueues now).1.WellFormed cfg where
  same_keys := by
    intro ep
    simpa [Scheduler.expireQueues] using wf.same_keys ep
  configured := by
    intro ep h
    simpa [Scheduler.expireQueues] using wf.configured ep h
  queue_valid := by
    intro ep
    by_cases h : ep ∈ s.queues.keys
    · rw [queueOf_expireQueues s now h]
      exact (EndpointQueue.expireBefore_inv (wf.queue_valid ep) now).valid
    · rw [queueOf_expireQueues_of_not_mem s now h]
      exact EndpointQueue.valid_empty
  queued_here := by
    intro ep b r hr
    obtain ⟨a, ha⟩ := EndpointQueue.mem_bandContents_iff.mp hr
    rw [deque_expireQueues] at ha
    exact (wf.mem_contents ((List.dropWhile_suffix _).subset ha)).2.2.2
  active_here := wf.active_here

/-- Expiry splits the queued requests into those it reports and those it keeps. -/
theorem WellFormed.queued_expireQueues (wf : s.WellFormed cfg) (now : ℚ) :
    (s.expireQueues now).1.queued + ((s.expireQueues now).2 : Multiset QueuedRequest) =
      s.queued := by
  rw [queued, queued, Scheduler.expireQueues, Dict.sum_map, Dict.coe_flatMap_values,
    ← Dict.sum_add]
  refine Dict.sum_congr _ fun ep eq hmem => ?_
  have heq : s.queueOf ep = eq := by simp [queueOf, Dict.mem_entries_iff.mp hmem]
  exact (EndpointQueue.expireBefore_inv (heq ▸ wf.queue_valid ep) now).contents

theorem WellFormed.expired_of_mem (wf : s.WellFormed cfg) {now : ℚ}
    {r : QueuedRequest} (hr : r ∈ (s.expireQueues now).2) :
    EndpointQueue.isExpired now r = true := by
  obtain ⟨eq, heq, hr⟩ := List.mem_flatMap.mp hr
  obtain ⟨⟨ep, eq⟩, hmem, rfl⟩ := List.mem_map.mp heq
  have hof : s.queueOf ep = eq := by simp [queueOf, Dict.mem_entries_iff.mp hmem]
  exact (EndpointQueue.expireBefore_inv (hof ▸ wf.queue_valid ep) now).expired r hr

/-! ### Replenishing and the retention sweep -/

/-- Operations that only write budgets keep the data structures. -/
theorem WellFormed.withBudgets (wf : s.WellFormed cfg) (m : BudgetManager) :
    ({ s with budgets := m } : Scheduler).WellFormed cfg :=
  ⟨wf.same_keys, wf.configured, wf.queue_valid, wf.queued_here, wf.active_here⟩

/-! ### The conservation law of a tick -/

/-- The state of a tick between expiry and dispatch. -/
def afterExpiry (s : Scheduler) (now : ℚ) : Scheduler :=
  (expireQueues { s with budgets := s.budgets.replenish now } now).1

theorem tick_toPass (s : Scheduler) :
    (tick cfg o s now).toPass = dispatchAll cfg o now (s.afterExpiry now) := rfl

theorem WellFormed.afterExpiry (wf : s.WellFormed cfg) (now : ℚ) :
    (s.afterExpiry now).WellFormed cfg :=
  (wf.withBudgets _).expireQueues now

theorem WellFormed.queued_afterExpiry (wf : s.WellFormed cfg) (o : Oracles) (now : ℚ) :
    (s.afterExpiry now).queued + ((tick cfg o s now).timeouts : Multiset QueuedRequest) =
      s.queued :=
  (wf.withBudgets _).queued_expireQueues now

theorem Budgeted.afterExpiry (wf : s.WellFormed cfg) (budgeted : s.Budgeted)
    (now : ℚ) : (s.afterExpiry now).Budgeted := by
  intro r hr
  have before : r ∈ s.queued := by
    rw [← wf.queued_afterExpiry {} now]
    exact Multiset.mem_add.mpr (.inl hr)
  show r.agentId ∈ (s.budgets.replenish now).agents.keys
  rw [BudgetManager.keys_replenish]
  exact budgeted r before

/-- The requests a list of decisions dispatched. -/
def decided (ds : List DispatchDecision) : Multiset QueuedRequest :=
  (ds.map DispatchDecision.request : Multiset QueuedRequest)

@[simp] theorem decided_append (ds : List DispatchDecision) (d : DispatchDecision) :
    decided (ds ++ [d]) = d.request ::ₘ decided ds := by
  rw [decided, List.map_append, ← Multiset.coe_add, add_comm]
  rfl

theorem WellFormed.dispatchAll (wf : s.WellFormed cfg) (o : Oracles)
    (now : ℚ) : (dispatchAll cfg o now s).sched.WellFormed cfg :=
  (dispatchAll_invariant (fun _ => True) wf trivial fun _ _ _ _ _ _ => trivial).2

theorem WellFormed.tick (wf : s.WellFormed cfg) (o : Oracles) (now : ℚ) :
    (tick cfg o s now).sched.WellFormed cfg :=
  (wf.afterExpiry now).dispatchAll o now

/-- Dispatch moves requests and forgets none: up to what a move rewrites, those
queued before are those queued after and those dispatched. -/
theorem WellFormed.dispatchAll_core (wf : s.WellFormed cfg) (o : Oracles) (now : ℚ) :
    let p := Scheduler.dispatchAll cfg o now s
    p.sched.queued.map QueuedRequest.core + (decided p.decisions).map QueuedRequest.core =
      s.queued.map QueuedRequest.core := by
  refine (dispatchAll_invariant (fun p : Pass =>
    p.sched.queued.map QueuedRequest.core + (decided p.decisions).map QueuedRequest.core =
      s.queued.map QueuedRequest.core) wf (by simp [decided]) ?_).1
  intro p m p' hwf hp move
  rw [← hp]
  cases move with
  | dispatch _ head =>
      rw [decided_append, queued_afterDispatch head now, Multiset.map_cons, Multiset.map_cons,
        Multiset.add_cons, Multiset.cons_add]
  | spill _ head =>
      obtain ⟨others, hbefore, hafter⟩ := hwf.queued_afterSpill head _
      rw [hbefore, hafter, Multiset.map_cons, Multiset.map_cons, core_moved]

theorem WellFormed.tick_core (wf : s.WellFormed cfg) (o : Oracles) (now : ℚ) :
    let out := Scheduler.tick cfg o s now
    out.sched.queued.map QueuedRequest.core + (decided out.decisions).map QueuedRequest.core +
        (out.timeouts : Multiset QueuedRequest).map QueuedRequest.core =
      s.queued.map QueuedRequest.core := by
  intro out
  have dispatched := (wf.afterExpiry now).dispatchAll_core o now
  have expired := congrArg (Multiset.map QueuedRequest.core) (wf.queued_afterExpiry o now)
  rw [Multiset.map_add, ← dispatched] at expired
  exact expired

/-! ### Complete -/

/-- The state after the completion of the active request `ar` of `ep`. -/
def finish (s : Scheduler) (ep : String) (ar : ActiveRequest) (record : CompletionRecord) :
    Scheduler :=
  { s with
    totalCompleted := s.totalCompleted + 1
    active := s.active.set ep ((s.activeOf ep).erase record.requestId)
    budgets := s.budgets.retroactiveAdjust ar.request.agentId
      ar.request.estimatedCostSs record.durationS
    cost :=
      if record.success then
        s.cost.recordCompletion ep ar.request.callSite record.inputTokens
          record.outputTokens record.durationS record.occupancyDuring
      else s.cost }

/-- A completion for an id that is not active changes nothing; one that hits takes
that request off its active map. -/
theorem complete_cases (s : Scheduler) (record : CompletionRecord) :
    ((∀ ep, record.requestId ∉ (s.activeOf ep).keys) ∧ s.complete record = (s, none)) ∨
      ∃ ep ar, (s.activeOf ep).get? record.requestId = some ar ∧
        s.complete record = (s.finish ep ar record, some ar) := by
  unfold complete activeEndpoint
  cases hfind : s.active.entries.find? fun e => e.2.contains record.requestId with
  | none =>
      left
      refine ⟨?_, rfl⟩
      intro ep hk
      rw [List.find?_eq_none] at hfind
      cases hm : s.active.get? ep with
      | none =>
          rw [activeOf_of_not_mem (Dict.get?_eq_none_iff.mp hm)] at hk
          simp at hk
      | some m =>
          refine hfind (ep, m) (Dict.mem_entries_iff.mpr hm) (Dict.contains_iff.mpr ?_)
          simpa [activeOf, hm] using hk
  | some e =>
      right
      have hfound := List.find?_some hfind
      have hcontains : record.requestId ∈ e.2.keys := Dict.contains_iff.mp hfound
      have hm := Dict.mem_entries_iff.mp (List.mem_of_find?_eq_some hfind)
      have hof : s.activeOf e.1 = e.2 := by simp [activeOf, hm]
      obtain ⟨ar, har⟩ := Dict.mem_keys_iff.mp hcontains
      refine ⟨e.1, ar, by rw [hof, har], ?_⟩
      simp only [Option.map_some, hof, har]
      rw [finish, hof]

theorem activeOf_finish (s : Scheduler) (ep : String) (ar : ActiveRequest)
    (record : CompletionRecord) (ep' : String) :
    (s.finish ep ar record).activeOf ep' =
      if ep' = ep then (s.activeOf ep).erase record.requestId else s.activeOf ep' :=
  activeOf_of_set (s := s) rfl ep'

theorem running_finish {ep : String} {ar : ActiveRequest}
    {record : CompletionRecord} (hit : (s.activeOf ep).get? record.requestId = some ar) :
    s.running = ar.request ::ₘ (s.finish ep ar record).running := by
  have traded := running_of_set s (s.finish ep ar record) rfl
  have removed : requestsOf ((s.activeOf ep).erase record.requestId) + {ar.request} =
      requestsOf (s.activeOf ep) := Dict.sum_erase _ hit
  rw [← removed, add_comm _ ({ar.request} : Multiset QueuedRequest), ← add_assoc] at traded
  rw [← add_right_cancel traded, add_comm, Multiset.singleton_add]

theorem WellFormed.finish (wf : s.WellFormed cfg) {ep : String}
    {ar : ActiveRequest} {record : CompletionRecord}
    (hit : (s.activeOf ep).get? record.requestId = some ar) :
    (s.finish ep ar record).WellFormed cfg where
  same_keys := by
    intro ep'
    have known : ep ∈ s.active.keys := by
      by_contra h
      rw [activeOf_of_not_mem h] at hit
      simp at hit
    show ep' ∈ s.queues.keys ↔ ep' ∈ (s.active.set ep _).keys
    rw [Dict.keys_set_of_mem known]
    exact wf.same_keys ep'
  configured := wf.configured
  queue_valid := wf.queue_valid
  queued_here := wf.queued_here
  active_here := by
    intro ep' id ar' h
    rw [activeOf_finish] at h
    split at h
    · rename_i hep
      rw [Dict.get?_erase] at h
      split at h
      · simp at h
      · exact hep ▸ wf.active_here ep id ar' h
    · exact wf.active_here ep' id ar' h

/-! ### Cancel -/

theorem mem_places_iff {ep : String} {b : PriorityBand} {a : String} :
    (ep, b, a) ∈ s.places ↔ ep ∈ s.queues.keys ∧ a ∈ ((s.queueOf ep).queues b).keys := by
  simp only [places, List.mem_flatMap, List.mem_map, Prod.mk.injEq]
  constructor
  · rintro ⟨⟨ep', eq⟩, hmem, b', -, a', ha, rfl, rfl, rfl⟩
    have hget := Dict.mem_entries_iff.mp hmem
    refine ⟨Dict.mem_keys_iff.mpr ⟨eq, hget⟩, ?_⟩
    simpa [queueOf, hget] using ha
  · rintro ⟨hep, ha⟩
    exact ⟨(ep, s.queueOf ep), Dict.mem_entries_iff.mpr (get?_queues_of_mem hep), b,
      PriorityBand.mem_all b, a, ha, rfl, rfl, rfl⟩

/-- A cancel that finds nothing changes nothing; one that finds a request takes it
out of its deque. -/
theorem cancel_cases (s : Scheduler) (id : String) :
    ((∀ r ∈ s.queued, r.requestId ≠ id) ∧ s.cancel id = (s, none)) ∨
      ∃ ep b a req rest, s.Holds ep b a req rest ∧ req.requestId = id ∧
        s.cancel id = (s.takeOut ep b a rest, some req) := by
  unfold cancel
  simp only
  cases hfind : s.places.find? fun place =>
      ((s.queueOf place.1).deque place.2.1 place.2.2).any fun r => r.requestId = id with
  | none =>
      left
      refine ⟨?_, rfl⟩
      intro r hr hid
      obtain ⟨ep, b, hr⟩ := mem_queued_iff.mp hr
      obtain ⟨a, ha⟩ := EndpointQueue.mem_bandContents_iff.mp hr
      have hget := EndpointQueue.get?_of_mem_deque (List.ne_nil_of_mem ha)
      have hep : ep ∈ s.queues.keys := by
        by_contra h
        rw [queueOf_of_not_mem h] at ha
        simp at ha
      rw [List.find?_eq_none] at hfind
      refine hfind (ep, b, a) (mem_places_iff.mpr ⟨hep, Dict.mem_keys_iff.mpr ⟨_, hget⟩⟩) ?_
      exact List.any_eq_true.mpr ⟨r, ha, decide_eq_true hid⟩
  | some place =>
      right
      obtain ⟨ep, b, a⟩ := place
      let hits : QueuedRequest → Bool := fun r => decide (r.requestId = id)
      have hfound := List.find?_some hfind
      obtain ⟨r, hr, hid⟩ : ∃ r ∈ (s.queueOf ep).deque b a, hits r = true :=
        List.any_eq_true.mp hfound
      -- `eraseP` removes the request that `find?` shows: the first hit.
      obtain ⟨req, before, after, hbefore, hreq, hsplit, hrest⟩ := List.exists_of_eraseP hr hid
      refine ⟨ep, b, a, req, ((s.queueOf ep).deque b a).eraseP hits, ?_,
        of_decide_eq_true hreq, ?_⟩
      · rw [Holds, hrest, hsplit, Multiset.cons_coe, Multiset.coe_eq_coe]
        exact List.perm_middle
      · have first : ((s.queueOf ep).deque b a).find? hits = some req := by
          rw [hsplit, List.find?_append, List.find?_eq_none.mpr hbefore, Option.none_or,
            List.find?_cons_of_pos hreq]
        show (s.takeOut ep b a (((s.queueOf ep).deque b a).eraseP hits),
          ((s.queueOf ep).deque b a).find? hits) = _
        rw [first]

end Scheduler

end Roadstead
