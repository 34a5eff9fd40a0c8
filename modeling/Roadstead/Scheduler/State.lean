import Roadstead.Scheduler

/-!
# Well-formed scheduler states

The scheduler keeps two dictionaries keyed by endpoint, one of queues and one of
active maps, and reads them through `queueOf` and `activeOf`.  This file says what
the two primitive writes (`setQueue`, a write to `active`) and the first compound
one (`enqueue`) do to those reads and to the two multiset views `queued` and
`running`, and isolates the invariant every operation keeps.

`WellFormed` asks nothing about request ids.  What holds only while ids are not
reused is kept apart, as `UniqueIds`, so that each later result shows which of the
two it needs.
-/

namespace Roadstead

namespace Scheduler

variable {cfg : ProxyConfig}

/-- The requests of one active map. -/
def requestsOf (m : Dict String ActiveRequest) : Multiset QueuedRequest :=
  m.sum fun _ ar => {ar.request}

/-- Everything the scheduler holds. -/
def live (s : Scheduler) : Multiset QueuedRequest := s.queued + s.running

/-- The ids of everything the scheduler holds, with multiplicity. -/
def liveIds (s : Scheduler) : Multiset String := s.live.map QueuedRequest.requestId

/-- No two requests the scheduler holds share an id. -/
def UniqueIds (s : Scheduler) : Prop := s.liveIds.Nodup

/-- The invariant of the scheduler's data structures. -/
structure WellFormed (cfg : ProxyConfig) (s : Scheduler) : Prop where
  same_keys : ∀ ep, ep ∈ s.queues.keys ↔ ep ∈ s.active.keys
  configured : ∀ ep ∈ cfg.endpoints.keys, ep ∈ s.queues.keys
  queue_valid : ∀ ep, (s.queueOf ep).Valid
  queued_here : ∀ ep b, ∀ r ∈ s.waiting ep b, r.endpoint = ep
  active_here : ∀ ep id ar, (s.activeOf ep).get? id = some ar →
    ar.request.requestId = id ∧ ar.request.endpoint = ep

/-- Every agent with queued work has a budget object. -/
def Budgeted (s : Scheduler) : Prop :=
  ∀ r ∈ s.queued, r.agentId ∈ s.budgets.agents.keys

instance (s : Scheduler) : Decidable s.Budgeted :=
  inferInstanceAs (Decidable (∀ r ∈ s.queued, r.agentId ∈ s.budgets.agents.keys))

/-! ### Reads -/

variable {s : Scheduler} {ep : String}

theorem get?_queues_of_mem (h : ep ∈ s.queues.keys) :
    s.queues.get? ep = some (s.queueOf ep) := by
  obtain ⟨eq, heq⟩ := Dict.mem_keys_iff.mp h
  simp [queueOf, heq]

theorem queueOf_of_not_mem (h : ep ∉ s.queues.keys) :
    s.queueOf ep = .empty := by
  simp [queueOf, Dict.get?_eq_none_iff.mpr h]

theorem activeOf_of_not_mem (h : ep ∉ s.active.keys) :
    s.activeOf ep = ∅ := by
  simp [activeOf, Dict.get?_eq_none_iff.mpr h]

variable {r : QueuedRequest}

theorem mem_queued_iff :
    r ∈ s.queued ↔ ∃ ep b, r ∈ s.waiting ep b := by
  rw [queued, Dict.mem_sum_iff]
  refine exists_congr fun ep => ?_
  unfold waiting queueOf
  cases s.queues.get? ep with
  | none => simp
  | some eq => simp [EndpointQueue.mem_contents_iff]

theorem mem_requestsOf_iff {m : Dict String ActiveRequest} :
    r ∈ requestsOf m ↔ ∃ id ar, m.get? id = some ar ∧ ar.request = r := by
  rw [requestsOf, Dict.mem_sum_iff]
  simp [eq_comm]

theorem card_requestsOf (m : Dict String ActiveRequest) : (requestsOf m).card = m.size := by
  rw [requestsOf, ← Multiset.cardHom_apply, Dict.map_sum, Dict.size_eq_sum]
  simp

theorem running_eq (s : Scheduler) : s.running = s.active.sum fun _ m => requestsOf m := rfl

theorem mem_running_iff :
    r ∈ s.running ↔ ∃ ep, r ∈ requestsOf (s.activeOf ep) := by
  rw [running_eq, Dict.mem_sum_iff]
  refine exists_congr fun ep => ?_
  unfold activeOf
  cases s.active.get? ep with
  | none => simp [requestsOf]
  | some m => simp

theorem card_running (s : Scheduler) :
    s.running.card = s.active.sum fun _ m => m.size := by
  rw [running_eq, ← Multiset.cardHom_apply, Dict.map_sum]
  exact Dict.sum_congr _ fun _ _ _ => card_requestsOf _

theorem WellFormed.mem_contents (wf : s.WellFormed cfg)
    {b : PriorityBand} {a : String} (h : r ∈ (s.queueOf ep).deque b a) :
    r ∈ s.waiting ep b ∧ r.band = b ∧ r.agentId = a ∧ r.endpoint = ep := by
  have mem : r ∈ s.waiting ep b := EndpointQueue.mem_bandContents_iff.mpr ⟨a, h⟩
  have label := (wf.queue_valid ep).band_agent h
  exact ⟨mem, label.1, label.2, wf.queued_here ep b r mem⟩

theorem WellFormed.band_of_head (wf : s.WellFormed cfg)
    {b : PriorityBand} {a : String} {rest : List QueuedRequest}
    (head : (s.queueOf ep).deque b a = r :: rest) : r.band = b :=
  (wf.mem_contents (head ▸ List.mem_cons_self)).2.1

theorem WellFormed.endpoint_of_head (wf : s.WellFormed cfg)
    {b : PriorityBand} {a : String} {rest : List QueuedRequest}
    (head : (s.queueOf ep).deque b a = r :: rest) : r.endpoint = ep :=
  (wf.mem_contents (head ▸ List.mem_cons_self)).2.2.2

/-! ### Writing a queue -/

theorem queueOf_setQueue (s : Scheduler) (ep ep' : String) (eq : EndpointQueue) :
    (s.setQueue ep eq).queueOf ep' = if ep' = ep then eq else s.queueOf ep' := by
  simp only [queueOf, setQueue, Dict.get?_set]
  split <;> rfl

/-- Writing a queue trades its old contents for the new ones. -/
theorem queued_setQueue (s : Scheduler) (ep : String) (eq : EndpointQueue) :
    (s.setQueue ep eq).queued + (s.queueOf ep).contents = s.queued + eq.contents := by
  by_cases h : ep ∈ s.queues.keys
  · exact Dict.sum_set_of_get? (fun _ eq => eq.contents) (get?_queues_of_mem h) eq
  · have none : (s.queueOf ep).contents = 0 := by
      rw [queueOf_of_not_mem h, EndpointQueue.contents_eq]
      simp
    rw [none, add_zero]
    exact Dict.sum_set_of_not_mem (fun _ eq => eq.contents) h eq

theorem WellFormed.setQueue (wf : s.WellFormed cfg)
    {eq : EndpointQueue} (known : ep ∈ s.queues.keys) (valid : eq.Valid)
    (here : ∀ b, ∀ r ∈ eq.bandContents b, r.endpoint = ep) :
    (s.setQueue ep eq).WellFormed cfg where
  same_keys := by
    intro ep'
    rw [Scheduler.setQueue, Dict.keys_set_of_mem known]
    exact wf.same_keys ep'
  configured := by
    intro ep' h
    rw [Scheduler.setQueue, Dict.keys_set_of_mem known]
    exact wf.configured ep' h
  queue_valid := by
    intro ep'
    rw [queueOf_setQueue]
    split
    · exact valid
    · exact wf.queue_valid ep'
  queued_here := by
    intro ep' b r hr
    rw [waiting, queueOf_setQueue] at hr
    split at hr
    · rename_i h
      exact h ▸ here b r hr
    · exact wf.queued_here ep' b r hr
  active_here := wf.active_here

/-! ### Writing an active map -/

theorem activeOf_of_set {s s' : Scheduler} {m : Dict String ActiveRequest}
    (h : s'.active = s.active.set ep m) (ep' : String) :
    s'.activeOf ep' = if ep' = ep then m else s.activeOf ep' := by
  simp only [activeOf, h, Dict.get?_set]
  split <;> rfl

/-- Writing an active map trades its old requests for the new ones. -/
theorem running_of_set (s s' : Scheduler) {m : Dict String ActiveRequest}
    (h : s'.active = s.active.set ep m) :
    s'.running + requestsOf (s.activeOf ep) = s.running + requestsOf m := by
  rw [running_eq, running_eq, h]
  cases hm : s.active.get? ep with
  | none =>
      have hk := Dict.get?_eq_none_iff.mp hm
      rw [activeOf_of_not_mem hk, Dict.sum_set_of_not_mem _ hk]
      simp [requestsOf]
  | some m₀ =>
      have hof : s.activeOf ep = m₀ := by simp [activeOf, hm]
      rw [hof]
      exact Dict.sum_set_of_get? (fun _ m => requestsOf m) hm m

/-! ### Enqueue -/

@[simp] theorem queueOf_ensureEndpoint (s : Scheduler) (ep ep' : String) :
    (s.ensureEndpoint ep).queueOf ep' = s.queueOf ep' := by
  unfold ensureEndpoint
  split
  · rfl
  · rename_i h
    by_cases hep : ep' = ep
    · rw [hep, queueOf_of_not_mem h]
      simp [queueOf]
    · simp [queueOf, Dict.get?_set_of_ne _ hep]

theorem WellFormed.activeOf_ensureEndpoint (wf : s.WellFormed cfg)
    (ep ep' : String) : (s.ensureEndpoint ep).activeOf ep' = s.activeOf ep' := by
  unfold ensureEndpoint
  split
  · rfl
  · rename_i h
    by_cases hep : ep' = ep
    · rw [hep, activeOf_of_not_mem fun hk => h ((wf.same_keys ep).mpr hk)]
      simp [activeOf]
    · simp [activeOf, Dict.get?_set_of_ne _ hep]

theorem mem_keys_ensureEndpoint (s : Scheduler) (ep : String) :
    ep ∈ (s.ensureEndpoint ep).queues.keys := by
  unfold ensureEndpoint
  split
  · assumption
  · simp

theorem WellFormed.ensureEndpoint (wf : s.WellFormed cfg) (ep : String) :
    (s.ensureEndpoint ep).WellFormed cfg where
  same_keys := by
    intro ep'
    unfold Scheduler.ensureEndpoint
    split
    · exact wf.same_keys ep'
    · simp only [Dict.mem_keys_set, wf.same_keys ep']
  configured := by
    intro ep' h
    unfold Scheduler.ensureEndpoint
    split
    · exact wf.configured ep' h
    · exact Dict.mem_keys_set.mpr (.inr (wf.configured ep' h))
  queue_valid := by
    intro ep'
    rw [queueOf_ensureEndpoint]
    exact wf.queue_valid ep'
  queued_here := by
    intro ep' b r hr
    rw [waiting, queueOf_ensureEndpoint] at hr
    exact wf.queued_here ep' b r hr
  active_here := by
    intro ep' id ar h
    rw [wf.activeOf_ensureEndpoint] at h
    exact wf.active_here ep' id ar h

theorem queued_ensureEndpoint (s : Scheduler) (ep : String) :
    (s.ensureEndpoint ep).queued = s.queued := by
  unfold ensureEndpoint
  split
  · rfl
  · rename_i h
    have hsum := Dict.sum_set_of_not_mem (fun _ (eq : EndpointQueue) => eq.contents) h .empty
    rw [EndpointQueue.contents_eq .empty] at hsum
    simpa [queued] using hsum

theorem WellFormed.running_ensureEndpoint (wf : s.WellFormed cfg)
    (ep : String) : (s.ensureEndpoint ep).running = s.running := by
  unfold Scheduler.ensureEndpoint
  split
  · rfl
  · rename_i h
    have hk : ep ∉ s.active.keys := fun hk => h ((wf.same_keys ep).mpr hk)
    have hset := running_of_set s
      { s with queues := s.queues.set ep .empty, active := s.active.set ep ∅ } rfl
    rw [activeOf_of_not_mem hk] at hset
    exact add_right_cancel hset

/-- The budgets after an enqueue. -/
theorem budgets_enqueue (cfg : ProxyConfig) (s : Scheduler) (req : QueuedRequest) :
    (enqueue cfg s req).budgets =
      s.budgets.getOrCreate req.agentId (cfg.agentConfig req.agentId).weight
        (cfg.agentConfig req.agentId).maxBalanceSs req.enqueuedAt := by
  have same : (s.ensureEndpoint req.endpoint).budgets = s.budgets := by
    unfold ensureEndpoint
    split <;> rfl
  rw [← same]
  rfl

/-- An enqueue counts nothing. -/
theorem totals_enqueue (cfg : ProxyConfig) (s : Scheduler) (req : QueuedRequest) :
    (enqueue cfg s req).totalDispatched = s.totalDispatched ∧
      (enqueue cfg s req).totalCompleted = s.totalCompleted := by
  have same : (s.ensureEndpoint req.endpoint).totalDispatched = s.totalDispatched ∧
      (s.ensureEndpoint req.endpoint).totalCompleted = s.totalCompleted := by
    unfold ensureEndpoint
    split <;> exact ⟨rfl, rfl⟩
  exact same

theorem WellFormed.activeOf_enqueue (wf : s.WellFormed cfg)
    (req : QueuedRequest) (ep : String) : (enqueue cfg s req).activeOf ep = s.activeOf ep :=
  wf.activeOf_ensureEndpoint req.endpoint ep

theorem WellFormed.running_enqueue (wf : s.WellFormed cfg)
    (req : QueuedRequest) : (enqueue cfg s req).running = s.running :=
  wf.running_ensureEndpoint req.endpoint

/-- The request an enqueue stores is estimated in the state it arrives in. -/
theorem WellFormed.enqueue_eq (wf : s.WellFormed cfg) (req : QueuedRequest) :
    enqueue cfg s req =
      { (s.ensureEndpoint req.endpoint).setQueue req.endpoint
          ((s.queueOf req.endpoint).enqueue (s.estimated req)) with
        budgets := (enqueue cfg s req).budgets } := by
  have cost : (s.ensureEndpoint req.endpoint).cost = s.cost := by
    unfold Scheduler.ensureEndpoint
    split <;> rfl
  have same : (s.ensureEndpoint req.endpoint).estimated req = s.estimated req := by
    simp only [estimated, cost, wf.activeOf_ensureEndpoint]
  rw [← same, ← queueOf_ensureEndpoint s req.endpoint req.endpoint]
  rfl

theorem WellFormed.queueOf_enqueue (wf : s.WellFormed cfg) (req : QueuedRequest) (ep : String) :
    (enqueue cfg s req).queueOf ep =
      if ep = req.endpoint then (s.queueOf ep).enqueue (s.estimated req)
      else s.queueOf ep := by
  rw [wf.enqueue_eq]
  show ((s.ensureEndpoint req.endpoint).setQueue req.endpoint _).queueOf ep = _
  rw [queueOf_setQueue]
  split
  · rename_i h
    rw [h]
  · rw [queueOf_ensureEndpoint]

theorem contents_enqueue (eq : EndpointQueue) (req : QueuedRequest) :
    (eq.enqueue req).contents = req ::ₘ eq.contents := by
  have moved := EndpointQueue.contents_of_band eq (eq.enqueue req) req.band 0 {req}
    (fun b' hb => by rw [EndpointQueue.bandContents_enqueue, if_neg hb])
    (by rw [EndpointQueue.bandContents_enqueue, if_pos rfl, add_zero, add_comm,
      Multiset.singleton_add])
  rw [add_zero] at moved
  rw [moved, add_comm, Multiset.singleton_add]

theorem WellFormed.queued_enqueue (wf : s.WellFormed cfg) (req : QueuedRequest) :
    (enqueue cfg s req).queued = s.estimated req ::ₘ s.queued := by
  rw [wf.enqueue_eq]
  show ((s.ensureEndpoint req.endpoint).setQueue req.endpoint _).queued = _
  have traded := queued_setQueue (s.ensureEndpoint req.endpoint) req.endpoint
    ((s.queueOf req.endpoint).enqueue (s.estimated req))
  rw [queueOf_ensureEndpoint, queued_ensureEndpoint, contents_enqueue, Multiset.add_cons,
    ← Multiset.cons_add] at traded
  exact add_right_cancel traded

theorem WellFormed.live_enqueue (wf : s.WellFormed cfg) (req : QueuedRequest) :
    (enqueue cfg s req).live = s.estimated req ::ₘ s.live := by
  rw [live, wf.queued_enqueue, wf.running_enqueue, Multiset.cons_add, live]

theorem WellFormed.waiting_enqueue (wf : s.WellFormed cfg)
    (req : QueuedRequest) (ep : String) (b : PriorityBand) :
    (enqueue cfg s req).waiting ep b =
      if ep = req.endpoint ∧ b = req.band then s.estimated req ::ₘ s.waiting ep b
      else s.waiting ep b := by
  rw [waiting, wf.queueOf_enqueue]
  by_cases hep : ep = req.endpoint
  · rw [if_pos hep, EndpointQueue.bandContents_enqueue]
    simp [hep, waiting, estimated]
  · rw [if_neg hep, if_neg fun h => hep h.1]
    rfl

theorem WellFormed.enqueue (wf : s.WellFormed cfg) (req : QueuedRequest) :
    (enqueue cfg s req).WellFormed cfg := by
  have ensured := wf.ensureEndpoint req.endpoint
  have stored : ((s.ensureEndpoint req.endpoint).setQueue req.endpoint
      ((s.queueOf req.endpoint).enqueue (s.estimated req))).WellFormed cfg := by
    refine ensured.setQueue (mem_keys_ensureEndpoint s req.endpoint)
      ((wf.queue_valid req.endpoint).enqueue _) ?_
    intro b r hr
    rw [EndpointQueue.bandContents_enqueue] at hr
    split at hr
    · rcases Multiset.mem_cons.mp hr with rfl | hr
      · rfl
      · exact wf.queued_here _ _ r hr
    · exact wf.queued_here _ _ r hr
  rw [wf.enqueue_eq]
  exact ⟨stored.same_keys, stored.configured, stored.queue_valid, stored.queued_here,
    stored.active_here⟩

/-! ### The initial state -/

theorem queueOf_init (cfg : ProxyConfig) (cost : CostModel) (budgets : BudgetManager)
    (ep : String) : (init cfg cost budgets).queueOf ep = .empty := by
  simp only [queueOf, init, Dict.get?_map]
  cases cfg.endpoints.get? ep <;> rfl

theorem activeOf_init (cfg : ProxyConfig) (cost : CostModel) (budgets : BudgetManager)
    (ep : String) : (init cfg cost budgets).activeOf ep = ∅ := by
  simp only [activeOf, init, Dict.get?_map]
  cases cfg.endpoints.get? ep <;> rfl

theorem queued_init (cfg : ProxyConfig) (cost : CostModel) (budgets : BudgetManager) :
    (init cfg cost budgets).queued = 0 := by
  refine Multiset.eq_zero_of_forall_notMem fun r hr => ?_
  obtain ⟨ep, b, hr⟩ := mem_queued_iff.mp hr
  rw [waiting, queueOf_init] at hr
  simp at hr

theorem running_init (cfg : ProxyConfig) (cost : CostModel) (budgets : BudgetManager) :
    (init cfg cost budgets).running = 0 := by
  refine Multiset.eq_zero_of_forall_notMem fun r hr => ?_
  obtain ⟨ep, hr⟩ := mem_running_iff.mp hr
  rw [activeOf_init] at hr
  simp [requestsOf] at hr

theorem live_init (cfg : ProxyConfig) (cost : CostModel) (budgets : BudgetManager) :
    (init cfg cost budgets).live = 0 := by
  rw [live, queued_init, running_init, add_zero]

theorem wellFormed_init (cfg : ProxyConfig) (cost : CostModel) (budgets : BudgetManager) :
    (init cfg cost budgets).WellFormed cfg where
  same_keys := by
    intro ep
    simp [init]
  configured := by
    intro ep h
    simpa [init] using h
  queue_valid := by
    intro ep
    rw [queueOf_init]
    exact EndpointQueue.valid_empty
  queued_here := by
    intro ep b r hr
    rw [waiting, queueOf_init] at hr
    simp at hr
  active_here := by
    intro ep id ar h
    rw [activeOf_init] at h
    simp at h

end Scheduler

end Roadstead
