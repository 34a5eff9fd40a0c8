import Roadstead.Scheduler.Operations

/-!
# The queues under any sequence of operations

`EndpointQueue` keeps a dictionary of deques and a round-robin list in step, and requests leave
a deque by three of its own methods and by `Scheduler.cancel`, which reaches into it.  Here
these operations come in any order, on any endpoint, with any arguments.

Every removal writes back a *sublist* of the deque (`deque_queueStep`): the tail, what follows
the expired head, or the deque without one request.  So the order in which an agent's
requests came in is never disturbed, and what was served so far, followed by what is stored
now, is a sublist of what came in (`served_append_deque`).
-/

namespace Roadstead

namespace EndpointQueue

def totalDepth (eq : EndpointQueue) : ℕ := (PriorityBand.all.map eq.bandDepth).sum

/-- The requests stored in a band, agent by agent in round-robin order. -/
def stored (eq : EndpointQueue) (band : PriorityBand) : List QueuedRequest :=
  (eq.agentsInBand band).flatMap (eq.deque band)

theorem Valid.robin_perm {eq : EndpointQueue} (valid : eq.Valid) (b : PriorityBand) :
    (eq.robin b).Perm (eq.queues b).keys :=
  (List.perm_ext_iff_of_nodup (valid.robin_nodup b) (eq.queues b).nodup_keys).mpr
    (valid.mem_robin b)

/-- Going round the agents lists exactly what the band holds. -/
theorem Valid.coe_stored {eq : EndpointQueue} (valid : eq.Valid) (b : PriorityBand) :
    (eq.stored b : Multiset QueuedRequest) = eq.bandContents b := by
  have byKey : (eq.queues b).keys.flatMap (eq.deque b) = (eq.queues b).values.flatMap id := by
    unfold Dict.keys Dict.values
    rw [List.flatMap_map, List.flatMap_map]
    refine List.flatMap_congr fun e he => ?_
    have there := Dict.mem_entries_iff.mp he
    simp [deque, there]
  calc (eq.stored b : Multiset QueuedRequest)
      = ((eq.queues b).keys.flatMap (eq.deque b) : List QueuedRequest) :=
        Multiset.coe_eq_coe.mpr ((valid.robin_perm b).flatMap_right _)
    _ = eq.bandContents b := by
        rw [byKey]
        exact Dict.coe_flatMap_values (eq.queues b) id

theorem Valid.bandDepth_eq {eq : EndpointQueue} (valid : eq.Valid) (b : PriorityBand) :
    eq.bandDepth b = (eq.stored b).length := by
  rw [← card_bandContents, ← valid.coe_stored, Multiset.coe_card]

end EndpointQueue

namespace Scheduler

/-- The operations on the queues. -/
inductive QueueOp where
  | enqueue (endpoint : String) (req : QueuedRequest)
  | dequeue (endpoint : String) (band : PriorityBand) (agentId : String)
  | rotateRobin (endpoint : String) (band : PriorityBand)
  | expireBefore (endpoint : String) (deadline : ℚ)
  | cancel (requestId : String)

def queueStep (s : Scheduler) : QueueOp → Scheduler
  | .enqueue ep req => s.setQueue ep ((s.queueOf ep).enqueue req)
  | .dequeue ep band agentId => s.setQueue ep ((s.queueOf ep).dequeue band agentId).2
  | .rotateRobin ep band => s.setQueue ep ((s.queueOf ep).rotateRobin band)
  | .expireBefore ep deadline => s.setQueue ep ((s.queueOf ep).expireBefore deadline).1
  | .cancel requestId => (s.cancel requestId).1

/-- The deque of one agent in one band of one endpoint. -/
structure Place where
  endpoint : String
  band : PriorityBand
  agentId : String
  deriving DecidableEq

/-- What is stored at a place. -/
def dequeAt (s : Scheduler) (p : Place) : List QueuedRequest :=
  (s.queueOf p.endpoint).deque p.band p.agentId

/-- The request an operation brings to a place. -/
def QueueOp.brings (p : Place) : QueueOp → List QueuedRequest
  | .enqueue ep req => if p = ⟨ep, req.band, req.agentId⟩ then [req] else []
  | _ => []

/-- The request an operation returns from a place by a `dequeue`. -/
def serves (s : Scheduler) (p : Place) : QueueOp → List QueuedRequest
  | .dequeue ep band agentId =>
      if p = ⟨ep, band, agentId⟩ then ((s.queueOf ep).dequeue band agentId).1.toList else []
  | _ => []

/-- The requests enqueued at a place, in the order of the calls. -/
def entered (p : Place) (ops : List QueueOp) : List QueuedRequest := ops.flatMap (QueueOp.brings p)

/-- The requests dequeued from a place, in the order of the calls. -/
def served (p : Place) : Scheduler → List QueueOp → List QueuedRequest
  | _, [] => []
  | s, op :: ops => s.serves p op ++ served p (s.queueStep op) ops

/-! ### One operation -/

theorem dequeAt_setQueue (s : Scheduler) (ep : String) (eq : EndpointQueue) (p : Place) :
    (s.setQueue ep eq).dequeAt p = if p.endpoint = ep then eq.deque p.band p.agentId
      else s.dequeAt p := by
  unfold dequeAt
  rw [queueOf_setQueue]
  split <;> rfl

/-- A cancel takes at most one request out of a deque, and leaves the others in order. -/
theorem cancel_takes (s : Scheduler) (id : String) :
    (s.cancel id).1 = s ∨ ∃ ep b a rest, rest.Sublist ((s.queueOf ep).deque b a) ∧
      (s.cancel id).1 = s.takeOut ep b a rest := by
  unfold cancel
  simp only
  split
  · exact .inl rfl
  · rename_i ep b a _
    exact .inr ⟨ep, b, a, _, List.eraseP_sublist, rfl⟩

/-- What is stored at a place after an operation, and what the operation returned from there
before it, were there or have just come in, in that order. -/
theorem deque_queueStep (s : Scheduler) (op : QueueOp) (p : Place) :
    (s.serves p op ++ (s.queueStep op).dequeAt p).Sublist (s.dequeAt p ++ op.brings p) := by
  cases op with
  | enqueue ep req =>
      simp only [serves, queueStep, QueueOp.brings, List.nil_append, dequeAt_setQueue,
        EndpointQueue.deque_enqueue]
      by_cases here : p.endpoint = ep
      · rw [if_pos here]
        obtain rfl := here
        by_cases there : p.band = req.band ∧ p.agentId = req.agentId
        · have place : p = ⟨p.endpoint, req.band, req.agentId⟩ := by
            rw [← there.1, ← there.2]
          rw [if_pos there, if_pos place]
          exact List.Sublist.refl _
        · rw [if_neg there]
          exact List.sublist_append_left _ _
      · rw [if_neg here]
        exact List.sublist_append_left _ _
  | dequeue ep band agentId =>
      simp only [serves, queueStep, QueueOp.brings, List.append_nil, dequeAt_setQueue]
      by_cases place : p = ⟨ep, band, agentId⟩
      · subst place
        simp only [if_true, dequeAt, EndpointQueue.dequeue]
        rcases held : (s.queueOf ep).deque band agentId with - | ⟨req, rest⟩
        · simp [held]
        · simp [EndpointQueue.deque_writeBack]
      · rw [if_neg place, List.nil_append]
        by_cases here : p.endpoint = ep
        · rw [if_pos here]
          obtain rfl := here
          have other : ¬(p.band = band ∧ p.agentId = agentId) := by
            rintro ⟨rfl, rfl⟩
            exact place rfl
          unfold EndpointQueue.dequeue
          split
          · exact List.Sublist.refl _
          · rw [EndpointQueue.deque_writeBack, if_neg other]
            exact List.Sublist.refl _
        · rw [if_neg here]
  | rotateRobin ep band =>
      simp only [serves, queueStep, QueueOp.brings, List.nil_append, List.append_nil,
        dequeAt_setQueue]
      split
      · rename_i here
        obtain rfl := here
        exact List.Sublist.refl _
      · exact List.Sublist.refl _
  | expireBefore ep deadline =>
      simp only [serves, queueStep, QueueOp.brings, List.nil_append, List.append_nil,
        dequeAt_setQueue, EndpointQueue.deque_expireBefore]
      split
      · rename_i here
        obtain rfl := here
        exact (List.dropWhile_suffix _).sublist
      · exact List.Sublist.refl _
  | cancel id =>
      simp only [serves, queueStep, QueueOp.brings, List.nil_append, List.append_nil]
      rcases s.cancel_takes id with nothing | ⟨ep, b, a, rest, ordered, taken⟩
      · rw [nothing]
      · rw [taken, takeOut, dequeAt_setQueue, EndpointQueue.deque_writeBack]
        split
        · rename_i here
          obtain rfl := here
          split
          · rename_i there
            rw [dequeAt, there.1, there.2]
            exact ordered
          · exact List.Sublist.refl _
        · exact List.Sublist.refl _

/-- The representation invariant, of the queue of every endpoint. -/
def QueuesValid (s : Scheduler) : Prop := ∀ ep, (s.queueOf ep).Valid

theorem QueuesValid.setQueue {s : Scheduler} (valid : s.QueuesValid) {ep : String}
    {eq : EndpointQueue} (new : eq.Valid) : (s.setQueue ep eq).QueuesValid := by
  intro ep'
  rw [queueOf_setQueue]
  split
  · exact new
  · exact valid ep'

theorem QueuesValid.queueStep {s : Scheduler} (valid : s.QueuesValid) (op : QueueOp) :
    (s.queueStep op).QueuesValid := by
  cases op with
  | enqueue ep req => exact valid.setQueue ((valid ep).enqueue req)
  | dequeue ep band agentId =>
      refine valid.setQueue ?_
      unfold EndpointQueue.dequeue
      split
      · exact valid ep
      · rename_i req rest held
        refine (valid ep).writeBack ?_
        rw [held]
        exact List.subset_cons_self req rest
  | rotateRobin ep band => exact valid.setQueue ((valid ep).rotateRobin band)
  | expireBefore ep deadline =>
      exact valid.setQueue (EndpointQueue.expireBefore_inv (valid ep) deadline).valid
  | cancel id =>
      show (s.cancel id).1.QueuesValid
      rcases s.cancel_takes id with nothing | ⟨ep, b, a, rest, ordered, taken⟩
      · rw [nothing]
        exact valid
      · rw [taken]
        exact valid.setQueue ((valid ep).writeBack ordered.subset)

/-! ### Any number of operations -/

/-- What was served at a place, and then what is left there, came in in that order. -/
theorem served_append_deque (p : Place) (ops : List QueueOp) (s : Scheduler) :
    (served p s ops ++ (Runs.run queueStep s ops).dequeAt p).Sublist
      (s.dequeAt p ++ entered p ops) := by
  induction ops generalizing s with
  | nil => simp [served, entered]
  | cons op ops ih =>
      have rest := ih (s.queueStep op)
      have first := s.deque_queueStep op p
      calc served p s (op :: ops) ++ (Runs.run queueStep s (op :: ops)).dequeAt p
          = s.serves p op ++ (served p (s.queueStep op) ops ++
              (Runs.run queueStep (s.queueStep op) ops).dequeAt p) := by
            rw [served, List.append_assoc, Runs.run_cons]
        _ |>.Sublist (s.serves p op ++ ((s.queueStep op).dequeAt p ++ entered p ops)) :=
            (List.append_sublist_append_left _).mpr rest
        _ = (s.serves p op ++ (s.queueStep op).dequeAt p) ++ entered p ops := by
            rw [List.append_assoc]
        _ |>.Sublist ((s.dequeAt p ++ op.brings p) ++ entered p ops) :=
            (List.append_sublist_append_right _).mpr first
        _ = s.dequeAt p ++ entered p (op :: ops) := by
            rw [List.append_assoc, entered, entered, List.flatMap_cons]

theorem queuesValid_run (cfg : ProxyConfig) (cost : CostModel) (budgets : BudgetManager)
    (ops : List QueueOp) : (Runs.run queueStep (init cfg cost budgets) ops).QueuesValid := by
  refine Runs.run_forall QueuesValid (fun s op h => h.queueStep op) ?_ ops
  intro ep
  rw [queueOf_init]
  exact EndpointQueue.valid_empty

/-- After any sequence of operations the round-robin list of each band lists each agent with a
deque once, no deque is empty, the depths count what is stored, and what an agent was
served, with what it still has stored behind it, came in in this order. -/
theorem queues_in_step (cfg : ProxyConfig) (cost : CostModel) (budgets : BudgetManager)
    (ops : List QueueOp) (ep : String) :
    let s := Runs.run queueStep (init cfg cost budgets) ops
    (∀ band, ((s.queueOf ep).robin band).Nodup ∧
      ((s.queueOf ep).robin band).Perm ((s.queueOf ep).queues band).keys ∧
      (∀ agentId q, ((s.queueOf ep).queues band).get? agentId = some q → q ≠ []) ∧
      (s.queueOf ep).bandDepth band = ((s.queueOf ep).stored band).length) ∧
    (s.queueOf ep).totalDepth = (PriorityBand.all.flatMap (s.queueOf ep).stored).length ∧
    ∀ band agentId,
      (served ⟨ep, band, agentId⟩ (init cfg cost budgets) ops ++
        (s.queueOf ep).deque band agentId).Sublist (entered ⟨ep, band, agentId⟩ ops) := by
  intro s
  have valid : (s.queueOf ep).Valid := queuesValid_run cfg cost budgets ops ep
  refine ⟨fun band => ⟨valid.robin_nodup band, valid.robin_perm band, valid.ne_nil band,
    valid.bandDepth_eq band⟩, ?_, fun band agentId => ?_⟩
  · rw [EndpointQueue.totalDepth, List.length_flatMap]
    congr 1
    exact List.map_congr_left fun band _ => valid.bandDepth_eq band
  · have ordered := served_append_deque ⟨ep, band, agentId⟩ ops (init cfg cost budgets)
    have nothing : (init cfg cost budgets).dequeAt ⟨ep, band, agentId⟩ = [] := by
      rw [dequeAt, queueOf_init]
      rfl
    rw [nothing, List.nil_append] at ordered
    exact ordered

end Scheduler

end Roadstead
