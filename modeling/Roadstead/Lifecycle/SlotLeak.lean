import Roadstead.Lifecycle.Steps
import Roadstead.Scheduler.Safety

/-!
# Every slot is given back

A dispatch takes a slot in the tick and gives it back in `record_completion`, which one
of the exits of its task calls.  `NoSlotLeak` says that none is missing: every entry of
an active map belongs to a task that has not ended, and a task that has ended recorded
its completion once.

## The ways around the exits

The exits inside the `try` of `execute_dispatch` are all there
(`DispatchCtx.resume_regular`).  What is left are the ways around the `try`, and
`Orderly` is the condition that none of them is taken.

* A consumer that leaves cancels its task; a task that has not begun then ends without
  running any of its body.
* The slot-affinity block encodes the session id before the `try`.
* A second live request under one id takes over the active entry of the first.

## The argument

`Slots` is the invariant: one task for each dispatched request, each task with the
completion that it owes, and for each request in flight a task that has not ended.  Every
turn keeps it (`Slots.step`), so every orderly run does (`noSlotLeak_run`).  A tick that
raises is the subject of `Lifecycle.Raising`, where the result for the code stands.
-/

namespace Roadstead

open Scheduler

variable {cfg : ProxyConfig} {policy : Policy} {p : Proxy}

/-! ### The property and its condition -/

/-- No slot leaks. -/
structure NoSlotLeak (p : Proxy) : Prop where
  /-- One task for each dispatched request. -/
  one_task : p.tasks.keys = p.world.dispatched.map QueuedRequest.ref ∧ p.tasks.keys.Nodup
  /-- An active entry belongs to a task that has not ended. -/
  held : ∀ ep id ar, (p.world.sched.activeOf ep).get? id = some ar →
    ∃ t, p.tasks.get? ar.request.ref = some t ∧ t.decision.request = ar.request ∧
      t.ended = false
  /-- `record_completion` was called once when the task has ended, and not before. -/
  recorded : ∀ r ∈ p.world.dispatched,
    ∃ t, p.tasks.get? r.ref = some t ∧ t.decision.request = r ∧
      t.recorded.length = if t.ended then 1 else 0

namespace Proxy

/-- The consumer of `ref` does not cancel a task that has not begun. -/
def producerBegun (p : Proxy) (ref : ℕ) : Bool :=
  match p.consumers.get? ref with
  | none => true
  | some k =>
      match p.inflightTasks.get? k.requestId with
      | none => true
      | some producer => decide (k.phase = .opening) || decide (k.phase = .gone) ||
          ((p.tasks.get? producer).map fun t => decide (t.await ≠ some .start)).getD true

/-- The task of `ref` does not encode a session id that has no encoding. -/
def sessionEncodes (cfg : ProxyConfig) (p : Proxy) (ref : ℕ) : Bool :=
  match p.tasks.get? ref with
  | none => true
  | some t =>
      match cfg.endpoints.get? t.decision.request.endpoint with
      | none => true
      | some epCfg => decide (t.await ≠ some .start) || !affinityFault epCfg t.decision.request

/-- A turn that takes none of the ways around the `try` of `execute_dispatch`. -/
def Orderly (cfg : ProxyConfig) (p : Proxy) : Event → Prop
  | .submit req => req.requestId ∉ p.world.sched.liveIds
  | .task ref _ => p.sessionEncodes cfg ref = true
  | .leave ref => p.producerBegun ref = true
  | .consumerTimeout ref => p.producerBegun ref = true
  | _ => True

instance (p : Proxy) : ∀ e, Decidable (p.Orderly cfg e)
  | .submit req => inferInstanceAs (Decidable (req.requestId ∉ p.world.sched.liveIds))
  | .tick _ _ => isTrue trivial
  | .task ref _ => inferInstanceAs (Decidable (p.sessionEncodes cfg ref = true))
  | .taskDone _ => isTrue trivial
  | .deliver _ => isTrue trivial
  | .clientTimeout _ => isTrue trivial
  | .abandon _ => isTrue trivial
  | .openStream _ => isTrue trivial
  | .readFrame _ => isTrue trivial
  | .consumerTimeout ref => inferInstanceAs (Decidable (p.producerBegun ref = true))
  | .leave ref => inferInstanceAs (Decidable (p.producerBegun ref = true))
  | .fastFail _ _ => isTrue trivial

end Proxy

/-! ### The invariant -/

/-- What is kept of each task: it recorded its completion if it has ended, and it is
not cancelled before it begins. -/
structure Task.Kept (t : Task) : Prop where
  recorded : t.recorded.length = if t.ended then 1 else 0
  uncancelled : t.await = some .start → t.cancelRequested = false

structure Slots (cfg : ProxyConfig) (p : Proxy) : Prop where
  tasked : Tasked cfg p.world p.tasks
  kept : ∀ r t, p.tasks.get? r = some t → t.Kept
  held : ∀ r ∈ p.world.sched.running, ∀ t, p.tasks.get? r.ref = some t → t.ended = false

namespace Slots

theorem init (cfg : ProxyConfig) (cost : CostModel) (budgets : BudgetManager) :
    Slots cfg (Proxy.init cfg cost budgets) where
  tasked := Tasked.init cfg cost budgets
  kept := by simp [Proxy.init]
  held := by simp [Proxy.init]

theorem noSlotLeak (inv : Slots cfg p) : NoSlotLeak p where
  one_task := ⟨inv.tasked.keys, p.tasks.nodup_keys⟩
  held := by
    intro ep id ar har
    have running : ar.request ∈ p.world.sched.running :=
      mem_running_iff.mpr ⟨ep, mem_requestsOf_iff.mpr ⟨id, ar, har, rfl⟩⟩
    have dispatched : ar.request ∈ p.world.dispatched := by
      rw [← Multiset.mem_coe, inv.tasked.consistent.started]
      exact Multiset.mem_add.mpr (.inl running)
    obtain ⟨t, ht, hreq⟩ := inv.tasked.task_of dispatched
    exact ⟨t, ht, hreq, inv.held _ running t ht⟩
  recorded := by
    intro r hr
    obtain ⟨t, ht, hreq⟩ := inv.tasked.task_of hr
    exact ⟨t, ht, hreq, (inv.kept _ t ht).recorded⟩

/-- Steps that leave the tasks alone and put nothing in flight. -/
theorem of_same (inv : Slots cfg p) {p' : Proxy} (consistent : Consistent cfg p'.world)
    (dispatched : p'.world.dispatched = p.world.dispatched)
    (running : p'.world.sched.running = p.world.sched.running) (tasks : p'.tasks = p.tasks) :
    Slots cfg p' where
  tasked := by
    rw [tasks]
    exact inv.tasked.of_same consistent dispatched (.refl _)
  kept := by
    rw [tasks]
    exact inv.kept
  held := by
    rw [running, tasks]
    exact inv.held

theorem submit (inv : Slots cfg p) {req : QueuedRequest}
    (fresh : p.Orderly cfg (.submit req)) : Slots cfg (p.submit cfg req) := by
  have consistent := inv.tasked.consistent.enqueue fresh
  have running := inv.tasked.consistent.wf.running_enqueue (p.world.identified req)
  unfold Proxy.submit
  dsimp only
  split
  · exact inv.of_same consistent rfl running rfl
  · exact inv.of_same consistent rfl running rfl

theorem cancel (inv : Slots cfg p) (id : String) :
    Slots cfg { p with world := p.world.step cfg (.cancel id) } :=
  inv.of_same (inv.tasked.consistent.cancel id) rfl (Consistent.running_cancel cfg _ id) rfl

theorem tick (inv : Slots cfg p) (o : Oracles) (now : ℚ) :
    Slots cfg (p.schedulerLoop cfg o now) := by
  refine ⟨?_, ?_, ?_⟩
  · rw [Proxy.tasks_schedulerLoop, Proxy.world_schedulerLoop]
    exact inv.tasked.tick o now
  · rw [Proxy.tasks_schedulerLoop]
    intro r t ht
    rcases Dict.get?_setAll_cases ht with new | old
    · obtain ⟨d, -, heq⟩ := List.mem_map.mp new
      obtain ⟨-, rfl⟩ := Prod.mk.inj heq
      exact ⟨rfl, fun _ => rfl⟩
    · exact inv.kept r t old
  · rw [Proxy.tasks_schedulerLoop, Proxy.world_schedulerLoop]
    intro r hr t ht
    rcases Dict.get?_setAll_cases ht with new | old
    · obtain ⟨d, -, heq⟩ := List.mem_map.mp new
      obtain ⟨-, rfl⟩ := Prod.mk.inj heq
      rfl
    · -- What is decided now has a task of its own, so `r` was in flight before.
      rw [inv.tasked.consistent.running_tick] at hr
      rcases Multiset.mem_add.mp hr with hr | hr
      · exact inv.held r hr t old
      · obtain ⟨d, hd, rfl⟩ := List.mem_map.mp (Multiset.mem_coe.mp hr)
        exact absurd (Dict.mem_keys_iff.mpr ⟨t, old⟩) (inv.tasked.new_of_decision hd)

/-- Rewriting one task that keeps its decision and does not end. -/
theorem set (inv : Slots cfg p) {ref : ℕ} {t : Task} (ht : p.tasks.get? ref = some t)
    (t' : Task) (decision : t'.decision = t.decision) (kept : t'.Kept)
    (ended : t'.ended = t.ended) :
    Slots cfg { p with tasks := p.tasks.set ref t' } where
  tasked := inv.tasked.of_same inv.tasked.consistent rfl (.set ht decision)
  kept := by
    intro r s hs
    rw [Dict.get?_set] at hs
    split at hs
    · obtain rfl := Option.some.inj hs
      exact kept
    · exact inv.kept r s hs
  held := by
    intro r hr s hs
    rw [Dict.get?_set] at hs
    split at hs
    · rename_i href
      obtain rfl := Option.some.inj hs
      rw [ended]
      exact inv.held r hr t (href ▸ ht)
    · exact inv.held r hr s hs

theorem taskDone (inv : Slots cfg p) (ref : ℕ) : Slots cfg (p.taskDone ref) := by
  unfold Proxy.taskDone
  split
  · exact inv
  · rename_i t ht
    split
    · have kept := inv.kept ref t ht
      have stepped := inv.set ht { t with reaped := true } rfl
        ⟨kept.recorded, kept.uncancelled⟩ rfl
      exact stepped.of_same stepped.tasked.consistent rfl rfl rfl
    · exact inv

/-- The `finally` of a consumer whose task has begun. -/
theorem closeStream (inv : Slots cfg p) (ref : ℕ) {id : String}
    (begun : ∀ producer t, p.inflightTasks.get? id = some producer →
      p.tasks.get? producer = some t → t.await ≠ some .start) :
    Slots cfg (p.closeStream ref id) := by
  cases hproducer : p.inflightTasks.get? id with
  | none =>
      have tasks : (p.closeStream ref id).tasks = p.tasks := by
        simp [Proxy.closeStream, hproducer]
      exact inv.of_same inv.tasked.consistent rfl rfl tasks
  | some producer =>
      have tasks : (p.closeStream ref id).tasks = p.tasks.modify producer Task.cancel := by
        simp [Proxy.closeStream, hproducer]
      refine ⟨?_, ?_, ?_⟩
      · rw [tasks]
        exact inv.tasked.of_same inv.tasked.consistent rfl
          (.modify _ producer Task.decision_cancel)
      · rw [tasks]
        intro r s hs
        rw [Dict.get?_modify, Option.map_eq_some_iff] at hs
        obtain ⟨t, ht, rfl⟩ := hs
        have kept := inv.kept r t ht
        split
        · rename_i hr
          refine ⟨?_, fun hstart => ?_⟩
          · rw [Task.recorded_cancel, Task.ended_cancel]
            exact kept.recorded
          · rw [Task.await_cancel] at hstart
            exact absurd hstart (begun producer t hproducer (hr ▸ ht))
        · exact kept
      · rw [tasks]
        intro r hr s hs
        rw [Dict.get?_modify, Option.map_eq_some_iff] at hs
        obtain ⟨t, ht, rfl⟩ := hs
        split
        · rw [Task.ended_cancel]
          exact inv.held r hr t ht
        · exact inv.held r hr t ht

/-- What the condition on a consumer that leaves says about its task. -/
theorem begun_of_orderly {ref : ℕ} {k : Consumer} (hk : p.consumers.get? ref = some k)
    (opened : k.phase ≠ .opening) (here : k.phase ≠ .gone) (begun : p.producerBegun ref = true)
    (producer : ℕ) (t : Task) (hproducer : p.inflightTasks.get? k.requestId = some producer)
    (ht : p.tasks.get? producer = some t) : t.await ≠ some .start := by
  simpa [Proxy.producerBegun, hk, hproducer, ht, opened, here] using begun

/-! ### A step of a task -/

/-- The segments of a task that is resumed as it should be. -/
theorem segment_settles (policy : Policy) (inv : Slots cfg p) {ref : ℕ} {t : Task} {a : Await}
    (ht : p.tasks.get? ref = some t) (ha : t.await = some a)
    (encodes : p.sessionEncodes cfg ref = true) (w : Wake) :
    let s := p.segmentOf cfg policy t a w
    ((s.effects.filterMap Effect.status?).length = if s.next.isNone then 1 else 0) ∧
      (s.next = some .start → t.cancelRequested = false) := by
  obtain ⟨epCfg, hcfg⟩ := (inv.tasked.own ref t ht).2.2
  refine p.segmentOf_settles policy hcfg (fun hstart => ?_) w
  subst hstart
  refine ⟨(inv.kept ref t ht).uncancelled ha, ?_⟩
  simpa [Proxy.sessionEncodes, ht, hcfg, ha] using encodes

/-- The completion of a task takes its request out of flight. -/
theorem record (inv : Slots cfg p) {ref : ℕ} {t : Task} (ht : p.tasks.get? ref = some t)
    {record : CompletionRecord} (hid : record.requestId = t.requestId) (t' : Task)
    (decision : t'.decision = t.decision) (kept : t'.Kept) {p' : Proxy}
    (world : p'.world = p.world.step cfg (.complete record))
    (tasks : p'.tasks = p.tasks.set ref t') : Slots cfg p' := by
  have consistent := inv.tasked.consistent
  refine ⟨?_, ?_, ?_⟩
  · rw [world, tasks]
    exact inv.tasked.of_same (consistent.complete record) rfl (.set ht decision)
  · rw [tasks]
    intro r s hs
    rw [Dict.get?_set] at hs
    split at hs
    · obtain rfl := Option.some.inj hs
      exact kept
    · exact inv.kept r s hs
  · rw [world, tasks]
    intro r hr s hs
    obtain ⟨hrun, hne⟩ := consistent.running_complete hr
    rw [Dict.get?_set] at hs
    split at hs
    · -- The request of the task has the id that was completed, so it is not in flight.
      rename_i href
      have dispatched : r ∈ p.world.dispatched := by
        rw [← Multiset.mem_coe, consistent.started]
        exact Multiset.mem_add.mpr (.inl hrun)
      obtain ⟨s', hs', hreq⟩ := inv.tasked.task_of dispatched
      obtain rfl : t = s' := Option.some.inj ((href ▸ ht).symm.trans hs')
      rw [hid, Task.requestId, hreq] at hne
      exact absurd rfl hne
    · exact inv.held r hrun s hs

theorem runTask (inv : Slots cfg p) {ref : ℕ} {w : Wake}
    (encodes : p.sessionEncodes cfg ref = true) : Slots cfg (p.runTask cfg policy ref w) := by
  unfold Proxy.runTask
  split
  · exact inv
  rename_i t ht
  split
  · exact inv
  rename_i a ha
  obtain ⟨settles, uncancelled⟩ := segment_settles policy inv ht ha encodes w
  dsimp only
  generalize p.segmentOf cfg policy t a w = s at settles uncancelled
  have kept := inv.kept ref t ht
  have unrecorded : t.recorded.length = 0 := by
    simpa [Task.ended, ha] using kept.recorded
  have advanced : (Proxy.advance t a s w.now).Kept := by
    refine ⟨?_, uncancelled⟩
    rw [Proxy.advance, List.length_append, unrecorded, zero_add, settles]
    rfl
  have same := Proxy.SameMaps.foldl (Proxy.sameMaps_perform cfg t.decision) s.effects p
  have world := Proxy.world_foldl_perform cfg t.decision s.effects p
  rw [← Proxy.length_completions t.decision] at settles
  cases hnext : s.next with
  | some b =>
      have none : Proxy.completions t.decision s.effects = [] :=
        List.eq_nil_of_length_eq_zero (by simpa [hnext] using settles)
      rw [none] at world
      have stepped := inv.set ht (Proxy.advance t a s w.now) rfl advanced
        (by simp [Proxy.advance, Task.ended, hnext, ha])
      refine stepped.of_same ?_ ?_ ?_ ?_
      · exact world ▸ stepped.tasked.consistent
      · exact congrArg World.dispatched world
      · exact congrArg (fun w : World => w.sched.running) world
      · exact congrArg (Dict.set · ref (Proxy.advance t a s w.now)) same.tasks
  | none =>
      obtain ⟨record, hone⟩ := List.length_eq_one_iff.mp (by simpa [hnext] using settles)
      rw [hone] at world
      have mem : record ∈ Proxy.completions t.decision s.effects := by simp [hone]
      refine inv.record ht (Proxy.requestId_of_completion mem) (Proxy.advance t a s w.now) rfl
        advanced world ?_
      · exact congrArg (Dict.set · ref (Proxy.advance t a s w.now)) same.tasks

theorem step (inv : Slots cfg p) {e : Event} (orderly : p.Orderly cfg e) :
    Slots cfg (p.step cfg policy e) := by
  have same {p' : Proxy} (world : p'.world = p.world) (tasks : p'.tasks = p.tasks) :
      Slots cfg p' :=
    inv.of_same (world ▸ inv.tasked.consistent) (congrArg World.dispatched world)
      (congrArg (fun w : World => w.sched.running) world) tasks
  cases e with
  | submit req => exact inv.submit orderly
  | tick o now => exact inv.tick o now
  | task ref w => exact inv.runTask orderly
  | taskDone ref => exact inv.taskDone ref
  | deliver ref =>
      simp only [Proxy.step, Proxy.deliver]
      split
      · exact inv
      · split
        · exact same rfl rfl
        · exact inv
  | clientTimeout ref =>
      simp only [Proxy.step, Proxy.clientTimeout]
      split
      · exact inv
      · split
        · have cancelled := inv.cancel ‹Waiter›.requestId
          exact cancelled.of_same cancelled.tasked.consistent rfl rfl rfl
        · exact inv
  | abandon ref =>
      simp only [Proxy.step, Proxy.abandon]
      split
      · exact inv
      · split
        · exact same rfl rfl
        · exact inv
  | openStream ref | readFrame ref => exact same rfl rfl
  | consumerTimeout ref =>
      simp only [Proxy.step, Proxy.consumerTimeout]
      split
      · exact inv
      · rename_i k hk
        split
        · rename_i hphase
          have begun := begun_of_orderly hk (by simp [hphase]) (by simp [hphase]) orderly
          apply closeStream
          · exact same rfl rfl
          · exact begun
        · exact inv
  | leave ref =>
      simp only [Proxy.step, Proxy.leave]
      split
      · exact inv
      · rename_i k hk
        split
        · exact same rfl rfl
        · rename_i hphase
          exact inv.closeStream ref
            (begun_of_orderly hk (by simp [hphase]) (by simp [hphase]) orderly)
        · rename_i hphase
          exact inv.closeStream ref
            (begun_of_orderly hk (by simp [hphase]) (by simp [hphase]) orderly)
        · exact inv
  | fastFail req reason =>
      simp only [Proxy.step, Proxy.fastFail]
      split
      · have cancelled := inv.cancel req.requestId
        exact cancelled.of_same cancelled.tasked.consistent rfl rfl rfl
      · exact inv

end Slots

/-! ### Runs -/

/-- In every state of a run whose turns are orderly, no slot has leaked. -/
theorem noSlotLeak_run (cfg : ProxyConfig) (policy : Policy) (cost : CostModel)
    (budgets : BudgetManager) {events : List Event}
    (orderly : Runs.Along (Proxy.step cfg policy) (Proxy.Orderly cfg)
      (Proxy.init cfg cost budgets) events) :
    NoSlotLeak (Proxy.run cfg policy (Proxy.init cfg cost budgets) events) :=
  (Runs.run_invariant (Slots cfg) (fun _ _ inv orderly => inv.step orderly)
    (Slots.init cfg cost budgets) orderly).noSlotLeak

end Roadstead
