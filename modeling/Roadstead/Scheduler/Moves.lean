import Roadstead.Scheduler.State

/-!
# The two moves of the dispatch loop

One round of the `while` loop of `_dispatch_endpoint` looks at one candidate and
then does one of three things: it leaves the loop, it *dispatches* the request at
the head of that candidate's deque, or it *spills* it.  The rounds that only
rotate the round-robin list (a candidate without a request, a `dequeue` that finds
nothing) cannot happen on a valid queue.

* `afterDispatch` and `afterSpill` name the two successor states, and the lemmas
  about them are the only place where the bodies of these branches are unfolded.
* `Round` is the inversion of one round that goes on (`bandStep_some`), and
  `Stopped` of one that leaves the loop (`bandStep_none`).
* `round_invariant` and its relatives carry a property of the pass through all
  rounds, all bands and all endpoints of a tick.
-/

namespace Roadstead

namespace Scheduler

variable {cfg : ProxyConfig}

/-! ### Taking a request out of a deque -/

/-- The state once a request was taken out of a deque, which leaves `rest`. -/
def takeOut (s : Scheduler) (ep : String) (band : PriorityBand) (agentId : String)
    (rest : List QueuedRequest) : Scheduler :=
  s.setQueue ep ((s.queueOf ep).writeBack band agentId rest)

/-- Rotate the round-robin list of a band. -/
def rotate (s : Scheduler) (ep : String) (band : PriorityBand) : Scheduler :=
  s.setQueue ep ((s.queueOf ep).rotateRobin band)

/-- The state after a dispatch. -/
def afterDispatch (s : Scheduler) (ep : String) (band : PriorityBand) (agentId : String)
    (req : QueuedRequest) (rest : List QueuedRequest) (now : ℚ) : Scheduler :=
  ((s.takeOut ep band agentId rest).startRequest ep agentId req now).rotate ep band

/-- The state after a spill. -/
def afterSpill (cfg : ProxyConfig) (s : Scheduler) (ep : String) (band : PriorityBand)
    (agentId : String) (req : QueuedRequest) (rest : List QueuedRequest) (target : String) :
    Scheduler :=
  (spill cfg (s.takeOut ep band agentId rest) req target).rotate ep band

/-- The request a spill stores at its target. -/
def moved (cfg : ProxyConfig) (s : Scheduler) (req : QueuedRequest) (target : String) :
    QueuedRequest :=
  s.estimated (spilledTo cfg req target)

@[simp] theorem core_moved (s : Scheduler) (req : QueuedRequest) (target : String) :
    (moved cfg s req target).core = req.core := rfl

section Moves

variable {s : Scheduler} {ep : String} {band : PriorityBand} {agentId : String}
  {req : QueuedRequest} {rest : List QueuedRequest}

/-- `req` is in the deque of `agentId`, and `rest` is what else is there. -/
def Holds (s : Scheduler) (ep : String) (band : PriorityBand) (agentId : String)
    (req : QueuedRequest) (rest : List QueuedRequest) : Prop :=
  ((s.queueOf ep).deque band agentId : Multiset QueuedRequest) = req ::ₘ (rest : Multiset _)

theorem holds_of_head (head : (s.queueOf ep).deque band agentId = req :: rest) :
    s.Holds ep band agentId req rest := by
  rw [Holds, head]
  rfl

theorem Holds.mem (holds : s.Holds ep band agentId req rest) :
    req ∈ (s.queueOf ep).deque band agentId := by
  have : req ∈ ((s.queueOf ep).deque band agentId : Multiset QueuedRequest) := by
    rw [holds]
    exact Multiset.mem_cons_self _ _
  exact this

theorem Holds.subset (holds : s.Holds ep band agentId req rest) :
    rest ⊆ (s.queueOf ep).deque band agentId := by
  intro r hr
  have : r ∈ ((s.queueOf ep).deque band agentId : Multiset QueuedRequest) := by
    rw [holds]
    exact Multiset.mem_cons_of_mem hr
  exact this

theorem Holds.mem_keys (holds : s.Holds ep band agentId req rest) : ep ∈ s.queues.keys := by
  by_contra h
  have mem := holds.mem
  rw [queueOf_of_not_mem h] at mem
  simp at mem

theorem Holds.bandContents (holds : s.Holds ep band agentId req rest) :
    (s.queueOf ep).bandContents band =
      req ::ₘ ((s.queueOf ep).writeBack band agentId rest).bandContents band := by
  have traded := (s.queueOf ep).bandContents_writeBack holds.subset
  rw [show ((s.queueOf ep).deque band agentId : Multiset QueuedRequest) = _ from holds,
    Multiset.add_cons, ← Multiset.cons_add] at traded
  exact (add_right_cancel traded).symm

theorem queued_rotate (s : Scheduler) (ep : String) (band : PriorityBand) :
    (s.rotate ep band).queued = s.queued := by
  have traded := queued_setQueue s ep ((s.queueOf ep).rotateRobin band)
  have same : ((s.queueOf ep).rotateRobin band).contents = (s.queueOf ep).contents := rfl
  rw [same] at traded
  exact add_right_cancel traded

@[simp] theorem waiting_rotate (s : Scheduler) (ep ep' : String) (band b : PriorityBand) :
    (s.rotate ep band).waiting ep' b = s.waiting ep' b := by
  rw [waiting, rotate, queueOf_setQueue]
  split
  · rename_i h
    rw [h]
    rfl
  · rfl

theorem WellFormed.rotate (wf : s.WellFormed cfg) (known : ep ∈ s.queues.keys)
    (band : PriorityBand) : (s.rotate ep band).WellFormed cfg :=
  wf.setQueue known ((wf.queue_valid ep).rotateRobin band) fun b => wf.queued_here ep b

/-- The request leaves its band on its endpoint, and nothing else moves. -/
theorem waiting_takeOut (holds : s.Holds ep band agentId req rest)
    (ep' : String) (b : PriorityBand) :
    s.waiting ep' b =
      (if ep' = ep ∧ b = band then {req} else 0) +
        (s.takeOut ep band agentId rest).waiting ep' b := by
  rw [waiting, waiting, takeOut, queueOf_setQueue]
  by_cases hep : ep' = ep
  · subst hep
    by_cases hb : b = band
    · subst hb
      rw [if_pos ⟨rfl, rfl⟩, if_pos rfl, Multiset.singleton_add]
      exact holds.bandContents
    · rw [if_neg fun h => hb h.2, if_pos rfl, zero_add]
      exact (EndpointQueue.bandContents_writeBack_of_ne _ hb _ _).symm
  · rw [if_neg fun h => hep h.1, if_neg hep, zero_add]

theorem queued_takeOut (holds : s.Holds ep band agentId req rest) :
    s.queued = req ::ₘ (s.takeOut ep band agentId rest).queued := by
  have traded := queued_setQueue s ep ((s.queueOf ep).writeBack band agentId rest)
  have within := EndpointQueue.contents_of_band (s.queueOf ep)
    ((s.queueOf ep).writeBack band agentId rest) band {req} 0
    (fun b' hb => EndpointQueue.bandContents_writeBack_of_ne _ hb _ _)
    (by rw [holds.bandContents, add_zero, add_comm, Multiset.singleton_add])
  rw [add_zero] at within
  rw [← within, add_comm _ ({req} : Multiset QueuedRequest), ← add_assoc] at traded
  have cancelled := add_right_cancel traded
  rw [← cancelled, takeOut, add_comm, Multiset.singleton_add]

theorem WellFormed.takeOut (wf : s.WellFormed cfg)
    (holds : s.Holds ep band agentId req rest) :
    (s.takeOut ep band agentId rest).WellFormed cfg := by
  refine wf.setQueue holds.mem_keys ((wf.queue_valid ep).writeBack holds.subset) ?_
  intro b r hr
  have before := waiting_takeOut holds ep b
  rw [waiting, waiting, Scheduler.takeOut, queueOf_setQueue, if_pos rfl] at before
  refine wf.queued_here ep b r ?_
  rw [waiting, before]
  exact Multiset.mem_add.mpr (.inr hr)

/-! ### Dispatch -/

theorem activeOf_afterDispatch (now : ℚ) (ep' : String) :
    (s.afterDispatch ep band agentId req rest now).activeOf ep' =
      if ep' = ep then
        (s.activeOf ep).set req.requestId
          { request := req, dispatchedAt := now, estimatedRemainingS := req.estimatedCostSs }
      else s.activeOf ep' :=
  activeOf_of_set (s := s) rfl ep'

theorem waiting_afterDispatch (head : (s.queueOf ep).deque band agentId = req :: rest)
    (now : ℚ) (ep' : String) (b : PriorityBand) :
    s.waiting ep' b =
      (if ep' = ep ∧ b = band then {req} else 0) +
        (s.afterDispatch ep band agentId req rest now).waiting ep' b := by
  rw [afterDispatch, waiting_rotate]
  exact waiting_takeOut (holds_of_head head) ep' b

theorem queued_afterDispatch (head : (s.queueOf ep).deque band agentId = req :: rest)
    (now : ℚ) : s.queued = req ::ₘ (s.afterDispatch ep band agentId req rest now).queued := by
  rw [afterDispatch, queued_rotate]
  exact queued_takeOut (holds_of_head head)

theorem running_afterDispatch (now : ℚ) (fresh : req.requestId ∉ (s.activeOf ep).keys) :
    (s.afterDispatch ep band agentId req rest now).running = req ::ₘ s.running := by
  have traded := running_of_set s (s.afterDispatch ep band agentId req rest now) rfl
  have added : requestsOf ((s.activeOf ep).set req.requestId
      { request := req, dispatchedAt := now, estimatedRemainingS := req.estimatedCostSs }) =
      requestsOf (s.activeOf ep) + {req} :=
    Dict.sum_set_of_not_mem _ fresh _
  rw [show (s.takeOut ep band agentId rest).activeOf ep = s.activeOf ep from rfl, added,
    add_comm _ ({req} : Multiset QueuedRequest), ← add_assoc] at traded
  rw [add_right_cancel traded, add_comm, Multiset.singleton_add]

theorem WellFormed.afterDispatch (wf : s.WellFormed cfg)
    (head : (s.queueOf ep).deque band agentId = req :: rest) (now : ℚ) :
    (s.afterDispatch ep band agentId req rest now).WellFormed cfg := by
  have taken := wf.takeOut (holds_of_head head)
  have known : ep ∈ (s.takeOut ep band agentId rest).queues.keys :=
    Dict.mem_keys_set.mpr (.inl rfl)
  have here : req.endpoint = ep := wf.endpoint_of_head head
  have started : ((s.takeOut ep band agentId rest).startRequest ep agentId req
      now).WellFormed cfg := by
    refine ⟨?_, taken.configured, taken.queue_valid, taken.queued_here, ?_⟩
    · intro ep'
      simp only [startRequest, Dict.mem_keys_set, ← taken.same_keys]
      constructor
      · exact Or.inr
      · rintro (rfl | h)
        · exact known
        · exact h
    · intro ep' id ar h
      rw [activeOf_of_set (s := s.takeOut ep band agentId rest) rfl] at h
      split at h
      · rename_i hep
        rw [Dict.get?_set] at h
        split at h
        · rename_i hid
          rw [← Option.some.inj h, hid, hep]
          exact ⟨rfl, here⟩
        · exact hep ▸ taken.active_here ep id ar h
      · exact taken.active_here ep' id ar h
  exact started.rotate known band

/-! ### Spill -/

private theorem WellFormed.counted (wf : s.WellFormed cfg) :
    ({ s with totalSpilled := s.totalSpilled + 1 } : Scheduler).WellFormed cfg :=
  ⟨wf.same_keys, wf.configured, wf.queue_valid, wf.queued_here, wf.active_here⟩

theorem totals_afterSpill (target : String) :
    (afterSpill cfg s ep band agentId req rest target).totalDispatched = s.totalDispatched ∧
      (afterSpill cfg s ep band agentId req rest target).totalCompleted = s.totalCompleted :=
  totals_enqueue cfg { s.takeOut ep band agentId rest with
    totalSpilled := s.totalSpilled + 1 } (spilledTo cfg req target)

theorem budgets_afterSpill (target : String) :
    (afterSpill cfg s ep band agentId req rest target).budgets =
      s.budgets.getOrCreate req.agentId (cfg.agentConfig req.agentId).weight
        (cfg.agentConfig req.agentId).maxBalanceSs req.enqueuedAt :=
  budgets_enqueue cfg { s.takeOut ep band agentId rest with
    totalSpilled := s.totalSpilled + 1 } (spilledTo cfg req target)

theorem WellFormed.activeOf_afterSpill (wf : s.WellFormed cfg)
    (head : (s.queueOf ep).deque band agentId = req :: rest) (target ep' : String) :
    (afterSpill cfg s ep band agentId req rest target).activeOf ep' = s.activeOf ep' :=
  (wf.takeOut (holds_of_head head)).counted.activeOf_enqueue _ ep'

theorem WellFormed.running_afterSpill (wf : s.WellFormed cfg)
    (head : (s.queueOf ep).deque band agentId = req :: rest) (target : String) :
    (afterSpill cfg s ep band agentId req rest target).running = s.running :=
  (wf.takeOut (holds_of_head head)).counted.running_enqueue _

/-- The request leaves its band here and joins the same band there. -/
theorem WellFormed.waiting_afterSpill (wf : s.WellFormed cfg)
    (head : (s.queueOf ep).deque band agentId = req :: rest) (target ep' : String)
    (b : PriorityBand) :
    (if ep' = target ∧ b = band then {moved cfg s req target} else 0) + s.waiting ep' b =
      (if ep' = ep ∧ b = band then {req} else 0) +
        (afterSpill cfg s ep band agentId req rest target).waiting ep' b := by
  have label : req.band = band := wf.band_of_head head
  have stored := (wf.takeOut (holds_of_head head)).counted.waiting_enqueue (spilledTo cfg req target) ep' b
  rw [afterSpill, waiting_rotate, Scheduler.spill, stored, waiting_takeOut (holds_of_head head) ep' b]
  show _ = _ + if ep' = target ∧ b = req.band then
      moved cfg s req target ::ₘ (s.takeOut ep band agentId rest).waiting ep' b
    else (s.takeOut ep band agentId rest).waiting ep' b
  rw [label]
  split
  · rw [← Multiset.singleton_add, add_left_comm]
  · rw [zero_add]

theorem WellFormed.queued_afterSpill (wf : s.WellFormed cfg)
    (head : (s.queueOf ep).deque band agentId = req :: rest) (target : String) :
    ∃ others, s.queued = req ::ₘ others ∧
      (afterSpill cfg s ep band agentId req rest target).queued =
        moved cfg s req target ::ₘ others := by
  refine ⟨_, queued_takeOut (holds_of_head head), ?_⟩
  rw [afterSpill, queued_rotate]
  exact (wf.takeOut (holds_of_head head)).counted.queued_enqueue _

/-- The spill record of a configured endpoint is never the empty string. -/
theorem WellFormed.hasSpilled_moved (wf : s.WellFormed cfg) {epCfg : EndpointConfig}
    (hcfg : cfg.endpoints.get? ep = some epCfg)
    (head : (s.queueOf ep).deque band agentId = req :: rest) (target : String) :
    (moved cfg s req target).hasSpilled = true := by
  have hend : req.endpoint = ep := wf.endpoint_of_head head
  have named := cfg.ne_empty_of_get? hcfg
  simp [moved, estimated, spilledTo, QueuedRequest.hasSpilled, hend, named]

theorem WellFormed.afterSpill (wf : s.WellFormed cfg)
    (head : (s.queueOf ep).deque band agentId = req :: rest) (target : String) :
    (afterSpill cfg s ep band agentId req rest target).WellFormed cfg := by
  have taken := wf.takeOut (holds_of_head head)
  refine (taken.counted.enqueue _).rotate ?_ band
  have known : ep ∈ (s.takeOut ep band agentId rest).queues.keys :=
    Dict.mem_keys_set.mpr (.inl rfl)
  by_cases h : target ∈ (s.takeOut ep band agentId rest).queues.keys
  · simp [Scheduler.enqueue, Scheduler.prepared, Scheduler.setQueue, spilledTo, Scheduler.ensureEndpoint, h, known]
  · simp [Scheduler.enqueue, Scheduler.prepared, Scheduler.setQueue, spilledTo, Scheduler.ensureEndpoint, h, known]

end Moves

end Scheduler

end Roadstead
