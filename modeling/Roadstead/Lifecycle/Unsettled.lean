import Roadstead.Lifecycle.Steps

/-!
# Requests that have not settled

A request is unsettled from the turn that enqueues it to the turn that ends it: it waits in
a queue, or the dispatch task that carries it has not ended.  `Proxy.unsettled P` counts the
unsettled requests that satisfy `P`.

The lemmas say by how much each turn of the proxy changes the count: an enqueue may add one,
what a tick times out and what is cancelled in a queue leave, and the end of a task settles
its request (`unsettled_runTask`).  A tick that dispatches moves a request from one of the
two places to the other (`unsettled_tick`).
-/

namespace Roadstead

open Scheduler

variable {cfg : ProxyConfig} {policy : Policy} {o : Oracles} {now : ℚ} {P : QueuedRequest → Bool}

/-! ### What a tick does with the queues -/

/-- What was queued is kept, dispatched or timed out, when the spills of the tick do not
change what is counted. -/
theorem Scheduler.WellFormed.countP_tick {s : Scheduler} (wf : s.WellFormed cfg)
    (spills : ∀ m ∈ (Scheduler.tick cfg o s now).trace, ∀ req target, m.event = .spill req target →
      P (moved cfg m.before req target) = P req) :
    (Scheduler.tick cfg o s now).sched.queued.countP (fun r => P r) +
        (decided (Scheduler.tick cfg o s now).decisions).countP (fun r => P r) +
        ((Scheduler.tick cfg o s now).timeouts : Multiset QueuedRequest).countP (fun r => P r) =
      s.queued.countP fun r => P r := by
  -- Expiry comes first; then every move of the tick trades a place for another.
  have dispatched : (Scheduler.dispatchAll cfg o now (s.afterExpiry now)).sched.queued.countP (fun r => P r) +
      (decided (Scheduler.dispatchAll cfg o now (s.afterExpiry now)).decisions).countP (fun r => P r) =
        (s.afterExpiry now).queued.countP fun r => P r := by
    refine (dispatchAll_invariant (fun p => (∀ m ∈ p.trace, ∀ req target,
      m.event = .spill req target → P (moved cfg m.before req target) = P req) →
        p.sched.queued.countP (fun r => P r) + (decided p.decisions).countP (fun r => P r) =
          (s.afterExpiry now).queued.countP fun r => P r) (wf.afterExpiry now) ?_ ?_).1 spills
    · intro _
      rfl
    · intro p m p' hwf hp move spills
      have before := hp fun m hm => spills m (by cases move <;> exact List.mem_append_left _ hm)
      cases move with
      | @dispatch ep epCfg band agentId req rest occ attempt configured head =>
          rw [queued_afterDispatch head now, Multiset.countP_cons] at before
          rw [decided_append, Multiset.countP_cons, ← before]
          dsimp only
          omega
      | @spill ep epCfg band agentId req rest target attempt configured head _ _ _ _ =>
          obtain ⟨others, left, arrived⟩ := hwf.queued_afterSpill head target
          have same := spills _ (List.mem_append_right _ (List.mem_singleton_self _)) req target rfl
          rw [left, Multiset.countP_cons] at before
          rw [arrived, Multiset.countP_cons, same]
          exact before
  rw [← wf.queued_afterExpiry o now, Multiset.countP_add]
  exact congrArg (· + _) dispatched

/-! ### The count -/

/-- Whether the task has a request to settle that is counted. -/
def Task.carries (P : QueuedRequest → Bool) (t : Task) : ℕ :=
  if !t.ended && P t.decision.request then 1 else 0

/-- The turns of the parties that reach neither a queue nor a step of a task. -/
def Event.Quiet : Event → Prop
  | .taskDone _ => True
  | .deliver _ => True
  | .abandon _ => True
  | .openStream _ => True
  | .readFrame _ => True
  | .consumerTimeout _ => True
  | .leave _ => True
  | _ => False

namespace Proxy

variable {p p' : Proxy}

/-- The requests that satisfy `P` and are queued, or carried by a task that has not ended. -/
def unsettled (P : QueuedRequest → Bool) (p : Proxy) : ℕ :=
  (p.world.sched.queued.countP fun r => P r) + p.tasks.sum fun _ t => t.carries P

theorem unsettled_congr {Q : QueuedRequest → Bool}
    (queued : ∀ r ∈ p.world.sched.queued, P r = Q r)
    (tasks : ∀ ref t, p.tasks.get? ref = some t → P t.decision.request = Q t.decision.request) :
    p.unsettled P = p.unsettled Q := by
  have waiting : (p.world.sched.queued.countP fun r => P r) =
      p.world.sched.queued.countP fun r => Q r :=
    Multiset.countP_congr rfl fun r hr => by rw [queued r hr]
  have carried : (p.tasks.sum fun _ t => t.carries P) = p.tasks.sum fun _ t => t.carries Q := by
    refine p.tasks.sum_congr fun ref t ht => ?_
    rw [Task.carries, Task.carries, tasks ref t (Dict.mem_entries_iff.mp ht)]
  rw [unsettled, unsettled, waiting, carried]

theorem unsettled_of_same (queued : p'.world.sched.queued = p.world.sched.queued)
    (tasks : p'.tasks = p.tasks) : p'.unsettled P = p.unsettled P := by
  rw [unsettled, unsettled, queued, tasks]

theorem unsettled_enqueue (wf : p.world.sched.WellFormed cfg) {req : QueuedRequest}
    (world : p'.world = p.world.step cfg (.enqueue req)) (tasks : p'.tasks = p.tasks) :
    p'.unsettled P =
      p.unsettled P + if P (p.world.sched.estimated (p.world.identified req)) then 1 else 0 := by
  have queued : p'.world.sched.queued =
      p.world.sched.estimated (p.world.identified req) ::ₘ p.world.sched.queued := by
    rw [world]
    exact wf.queued_enqueue (p.world.identified req)
  rw [unsettled, unsettled, queued, tasks, Multiset.countP_cons, Nat.add_right_comm]

theorem unsettled_cancel (id : String) (world : p'.world = p.world.step cfg (.cancel id))
    (tasks : p'.tasks = p.tasks) :
    p'.unsettled P + ((p.world.sched.cancel id).2.toList.countP P) = p.unsettled P := by
  have queued : p'.world.sched.queued = (p.world.sched.cancel id).1.queued := by
    rw [world]
    rfl
  rw [unsettled, unsettled, queued, tasks]
  rcases p.world.sched.cancel_cases id with ⟨-, hmiss⟩ | ⟨ep, b, a, req, rest, holds, -, hcancel⟩
  · rw [hmiss]
    rfl
  · rw [hcancel, queued_takeOut holds, Multiset.countP_cons]
    simp only [Option.toList_some, List.countP_singleton]
    omega

/-- A tick: a request that is dispatched is carried by its new task. -/
theorem unsettled_tick (tasked : Tasked cfg p.world p.tasks)
    (spills : ∀ m ∈ (tick cfg o p.world.sched now).trace, ∀ req target,
      m.event = .spill req target → P (moved cfg m.before req target) = P req) :
    (p.schedulerLoop cfg o now).unsettled P +
        (tick cfg o p.world.sched now).timeouts.countP P = p.unsettled P := by
  have queues := tasked.consistent.wf.countP_tick spills
  have created : (p.tasks.keys ++ ((tick cfg o p.world.sched now).decisions.map
      fun d => (d.request.ref, ({ decision := d } : Task))).map Prod.fst).Nodup := by
    rw [List.map_map]
    exact tasked.nodup_tick o now
  have carried (ds : List DispatchDecision) :
      ((ds.map fun d => (d.request.ref, ({ decision := d } : Task))).map
        fun e => e.2.carries P).sum = (decided ds).countP fun r => P r := by
    induction ds with
    | nil => rfl
    | cons d ds ih =>
        have both : decided (d :: ds) = d.request ::ₘ decided ds := rfl
        rw [List.map_cons, List.map_cons, List.sum_cons, ih, both, Multiset.countP_cons, Nat.add_comm]
        rfl
  rw [unsettled, unsettled, tasks_schedulerLoop, Dict.sum_setAll _ created, carried,
    world_schedulerLoop, ← queues]
  show (tick cfg o p.world.sched now).sched.queued.countP _ + _ + _ = _
  have listed : ((tick cfg o p.world.sched now).timeouts : Multiset QueuedRequest).countP
      (fun r => P r) = (tick cfg o p.world.sched now).timeouts.countP P := by
    simp
  rw [listed]
  omega

/-- One task is rewritten. -/
theorem unsettled_set {ref : ℕ} {t t' : Task} (ht : p.tasks.get? ref = some t)
    (queued : p'.world.sched.queued = p.world.sched.queued)
    (tasks : p'.tasks = p.tasks.set ref t') :
    p'.unsettled P + t.carries P = p.unsettled P + t'.carries P := by
  have traded := Dict.sum_set_of_get? (fun _ t => Task.carries P t) ht t'
  rw [unsettled, unsettled, queued, tasks, Nat.add_assoc, traded, Nat.add_assoc]

/-- A step of a task settles its request if the task ends. -/
theorem unsettled_runTask {ref : ℕ} {t : Task} {a : Await} (ht : p.tasks.get? ref = some t)
    (ha : t.await = some a) (w : Wake) :
    (p.runTask cfg policy ref w).unsettled P +
        (if (p.segmentOf cfg policy t a w).next.isNone && P t.decision.request then 1 else 0) =
      p.unsettled P := by
  have running : t.ended = false := by rw [Task.ended, ha]; rfl
  have run : p.runTask cfg policy ref w =
      { (p.segmentOf cfg policy t a w).effects.foldl (perform cfg t.decision) p with
        tasks := ((p.segmentOf cfg policy t a w).effects.foldl (perform cfg t.decision) p).tasks.set
          ref (advance t a (p.segmentOf cfg policy t a w) w.now) } := by
    unfold runTask
    rw [ht]
    dsimp only
    rw [ha]
  have queued : (p.runTask cfg policy ref w).world.sched.queued = p.world.sched.queued := by
    rw [run]
    show ((p.segmentOf cfg policy t a w).effects.foldl _ p).world.sched.queued = _
    rw [world_foldl_perform]
    exact List.foldlRecOn (motive := fun w : World => w.sched.queued = p.world.sched.queued) _ _ rfl
      fun w h record _ => (w.queued_complete cfg record).trans h
  have tasks : (p.runTask cfg policy ref w).tasks =
      p.tasks.set ref (advance t a (p.segmentOf cfg policy t a w) w.now) := by
    rw [run]
    exact congrArg (Dict.set · ref _) (SameMaps.foldl (sameMaps_perform cfg t.decision) _ p).tasks
  -- The request of the task is counted before, and after unless the task has ended.
  have traded := unsettled_set (P := P) ht queued tasks
  have before : t.carries P = if P t.decision.request then 1 else 0 := by
    simp [Task.carries, running]
  have after : (advance t a (p.segmentOf cfg policy t a w) w.now).carries P =
      if !(p.segmentOf cfg policy t a w).next.isNone && P t.decision.request then 1 else 0 := rfl
  rw [before, after] at traded
  cases hnext : (p.segmentOf cfg policy t a w).next with
  | none | some b =>
      rw [hnext] at traded
      simpa using traded

/-- A task whose cancellation is requested has not ended. -/
theorem unsettled_closeStream (p : Proxy) (ref : ℕ) (id : String) :
    (p.closeStream ref id).unsettled P = p.unsettled P := by
  have carried (producer : ℕ) : ((p.tasks.modify producer Task.cancel).sum fun _ t => t.carries P) =
      p.tasks.sum fun _ t => t.carries P := by
    rw [Dict.modify, Dict.sum_map]
    refine p.tasks.sum_congr fun ref t _ => ?_
    split
    · rw [Task.carries, Task.carries, Task.ended_cancel, Task.decision_cancel]
    · rfl
  unfold closeStream
  split
  · exact unsettled_of_same rfl rfl
  · rename_i producer _
    exact congrArg (_ + ·) (carried producer)

theorem unsettled_taskDone (p : Proxy) (ref : ℕ) : (p.taskDone ref).unsettled P = p.unsettled P := by
  unfold taskDone
  split
  · rfl
  · rename_i t ht
    split
    · have traded := @unsettled_set P p
        { p with
          tasks := p.tasks.set ref { t with reaped := true }
          inflightTasks := p.inflightTasks.erase t.requestId } ref t _ ht rfl rfl
      exact Nat.add_right_cancel traded
    · rfl

/-- What the client-wait timeout of `ref` takes out of a queue. -/
def timesOut (p : Proxy) (ref : ℕ) : Option QueuedRequest :=
  match p.waiters.get? ref with
  | none => none
  | some w => if w.waiting then (p.world.sched.cancel w.requestId).2 else none

theorem unsettled_clientTimeout (p : Proxy) (ref : ℕ) :
    (p.clientTimeout cfg ref).unsettled P + (p.timesOut ref).toList.countP P = p.unsettled P := by
  unfold clientTimeout timesOut
  cases p.waiters.get? ref with
  | none => rfl
  | some w =>
      dsimp only
      split
      · exact @unsettled_cancel cfg P p _ w.requestId rfl rfl
      · rfl

/-- The other turns of the parties settle nothing. -/
theorem unsettled_quiet {e : Event} (quiet : e.Quiet) :
    (p.step cfg policy e).unsettled P = p.unsettled P := by
  cases e with
  | taskDone ref => exact unsettled_taskDone p ref
  | deliver ref =>
      simp only [Proxy.step, deliver]
      split
      · rfl
      · split <;> rfl
  | abandon ref =>
      simp only [Proxy.step, abandon]
      split
      · rfl
      · split <;> rfl
  | openStream ref | readFrame ref => rfl
  | consumerTimeout ref =>
      simp only [Proxy.step, consumerTimeout]
      split
      · rfl
      · split
        · exact unsettled_closeStream _ ref _
        · rfl
  | leave ref =>
      simp only [Proxy.step, leave]
      split
      · rfl
      · split
        · rfl
        · exact unsettled_closeStream p ref _
        · exact unsettled_closeStream p ref _
        · rfl
  | _ => exact absurd quiet id

end Proxy

end Roadstead
