import Roadstead.Lifecycle.Ownership
import Roadstead.Scheduler.Safety

/-!
# Every answer reaches its own caller

Futures, stream queues, in-flight tasks and active entries are all found by request id.
`RoutingIntegrity` says that this is as good as finding them by caller: what a caller
receives was produced for its own request, it receives one result at most, and a turn of
another caller removes nothing of it.

That holds as long as no id is submitted while something is still kept under it
(`routing_integrity`); ids are chosen by the caller at the legacy door, and nothing
checks them (`answer_misrouted_by_reused_id`).

The invariant `Routed` joins `OneOwner` and `Parties` with what is kept of each task: it
is in `inflight_tasks` until its done callback has run, and the queue it holds is that of
its own caller.  `Routed.step` goes through the turns once; `Routed.undisturbed` does so
for what a turn leaves to the other callers.
-/

namespace Roadstead

open Scheduler

variable {cfg : ProxyConfig} {policy : Policy} {p p' : Proxy}

/-! ### The property and its condition -/

/-- The caller whose turn it is. -/
def Event.actor : Event → Option ℕ
  | .submit _ => none
  | .tick _ _ => none
  | .task ref _ => some ref
  | .taskDone ref => some ref
  | .deliver ref => some ref
  | .clientTimeout ref => some ref
  | .abandon ref => some ref
  | .openStream ref => some ref
  | .readFrame ref => some ref
  | .consumerTimeout ref => some ref
  | .leave ref => some ref
  | .fastFail req _ => some req.ref

/-- What caller `c` has in `p` it still has in `p'`. -/
structure Undisturbed (p p' : Proxy) (c : ℕ) : Prop where
  future : ∀ id, p.pendingFutures.get? id = some c → p'.pendingFutures.get? id = some c
  stream : ∀ id, p.pendingStreams.get? id = some c → p'.pendingStreams.get? id = some c
  inflight : ∀ id, p.inflightTasks.get? id = some c → p'.inflightTasks.get? id = some c
  /-- Its task goes on as it was. -/
  task : ∀ t, p.tasks.get? c = some t → p'.tasks.get? c = some t
  /-- Its slot is not given away. -/
  active : ∀ ep id ar, (p.world.sched.activeOf ep).get? id = some ar → ar.request.ref = c →
    (p'.world.sched.activeOf ep).get? id = some ar

theorem Undisturbed.of_same (futures : p'.pendingFutures = p.pendingFutures)
    (streams : p'.pendingStreams = p.pendingStreams)
    (inflight : p'.inflightTasks = p.inflightTasks) (tasks : p'.tasks = p.tasks)
    (active : ∀ ep, p'.world.sched.activeOf ep = p.world.sched.activeOf ep) (c : ℕ) :
    Undisturbed p p' c where
  future _ h := futures ▸ h
  stream _ h := streams ▸ h
  inflight _ h := inflight ▸ h
  task _ h := tasks ▸ h
  active ep _ _ h _ := active ep ▸ h

theorem Undisturbed.refl (p : Proxy) (c : ℕ) : Undisturbed p p c :=
  .of_same rfl rfl rfl rfl (fun _ => rfl) c

/-- Answers reach their own callers, once, and callers do not disturb each other. -/
structure RoutingIntegrity (cfg : ProxyConfig) (policy : Policy) (p : Proxy) : Prop where
  results : ∀ c w, p.waiters.get? c = some w →
    (∀ x ∈ w.received, x.1 = c) ∧ w.received.length ≤ 1
  frames : ∀ c k, p.consumers.get? c = some k →
    (∀ x ∈ k.received, x.1 = c) ∧ k.terminals.length ≤ 1
  undisturbed : ∀ e c, (∀ req, e ≠ .submit req) → e.actor ≠ some c →
    Undisturbed p (p.step cfg policy e) c

/-- Nothing is kept under an id that is submitted. -/
def Proxy.Unclaimed (p : Proxy) : Event → Prop
  | .submit req => req.requestId ∉ p.world.sched.liveIds ∧
      req.requestId ∉ p.pendingFutures.keys ∧ req.requestId ∉ p.pendingStreams.keys ∧
      req.requestId ∉ p.inflightTasks.keys
  | _ => True

instance (p : Proxy) : ∀ e, Decidable (p.Unclaimed e)
  | .submit req => inferInstanceAs (Decidable (req.requestId ∉ p.world.sched.liveIds ∧
      req.requestId ∉ p.pendingFutures.keys ∧ req.requestId ∉ p.pendingStreams.keys ∧
      req.requestId ∉ p.inflightTasks.keys))
  | .tick _ _ => isTrue trivial
  | .task _ _ => isTrue trivial
  | .taskDone _ => isTrue trivial
  | .deliver _ => isTrue trivial
  | .clientTimeout _ => isTrue trivial
  | .abandon _ => isTrue trivial
  | .openStream _ => isTrue trivial
  | .readFrame _ => isTrue trivial
  | .consumerTimeout _ => isTrue trivial
  | .leave _ => isTrue trivial
  | .fastFail _ _ => isTrue trivial

theorem not_owns_of_unclaimed {req : QueuedRequest} (unclaimed : p.Unclaimed (.submit req))
    (c : ℕ) : ¬Owns p req.requestId c := by
  obtain ⟨live, futures, streams, inflight⟩ := unclaimed
  rintro (h | h | h | ⟨r, hr, hid, -⟩)
  · exact futures (Dict.mem_keys_iff.mpr ⟨c, h⟩)
  · exact streams (Dict.mem_keys_iff.mpr ⟨c, h⟩)
  · exact inflight (Dict.mem_keys_iff.mpr ⟨c, h⟩)
  · exact live (hid ▸ Multiset.mem_map_of_mem _ hr)

/-! ### The invariant -/

/-- What is kept of the task `t` of caller `r`. -/
structure Task.Routed (inflight : Dict String ℕ) (r : ℕ) (t : Task) : Prop where
  unreaped : t.ended = false → t.reaped = false
  inflight : t.reaped = false → inflight.get? t.requestId = some r
  queue : ∀ a q, t.await = some a → a.queue? = some q → q = r

structure Routed (cfg : ProxyConfig) (p : Proxy) : Prop where
  tasked : Tasked cfg p.world p.tasks
  one : OneOwner p
  parties : Parties p
  tasks : ∀ r t, p.tasks.get? r = some t → t.Routed p.inflightTasks r

namespace Routed

theorem init (cfg : ProxyConfig) (cost : CostModel) (budgets : BudgetManager) :
    Routed cfg (Proxy.init cfg cost budgets) where
  tasked := Tasked.init cfg cost budgets
  one := by
    rintro id c c' (h | h | h | ⟨r, hr, -⟩)
    · exact absurd h (by simp [Proxy.init])
    · exact absurd h (by simp [Proxy.init])
    · exact absurd h (by simp [Proxy.init])
    · change r ∈ (Scheduler.init cfg cost budgets).live at hr
      rw [live_init] at hr
      exact absurd hr (Multiset.notMem_zero r)
  parties := by
    constructor <;> simp [Proxy.init]
  tasks := by simp [Proxy.init]

/-- The task of a caller owns its id until it is reaped. -/
theorem owns_of_task (inv : Routed cfg p) {r : ℕ} {t : Task} (ht : p.tasks.get? r = some t)
    (unreaped : t.reaped = false) : Owns p t.requestId r :=
  .inr (.inr (.inl ((inv.tasks r t ht).inflight unreaped)))

/-- Turns that add no owner and no task. -/
theorem of_fewer (inv : Routed cfg p) (consistent : Consistent cfg p'.world)
    (dispatched : p'.world.dispatched = p.world.dispatched)
    (live : ∀ r ∈ p'.world.sched.live, r ∈ p.world.sched.live)
    (futures : ∀ id c, p'.pendingFutures.get? id = some c → p.pendingFutures.get? id = some c)
    (streams : ∀ id c, p'.pendingStreams.get? id = some c → p.pendingStreams.get? id = some c)
    (inflight : ∀ id c, p'.inflightTasks.get? id = some c → p.inflightTasks.get? id = some c)
    (decisions : SameDecisions p.tasks p'.tasks) (parties : Parties p')
    (tasks : ∀ r t, p'.tasks.get? r = some t → t.Routed p'.inflightTasks r) : Routed cfg p' where
  tasked := inv.tasked.of_same consistent dispatched decisions
  one := by
    refine inv.one.of_subset fun id c owns => ?_
    rcases owns with h | h | h | ⟨r, hr, hid⟩
    · exact .inl (futures id c h)
    · exact .inr (.inl (streams id c h))
    · exact .inr (.inr (.inl (inflight id c h)))
    · exact .inr (.inr (.inr ⟨r, live r hr, hid⟩))
  parties := parties
  tasks := tasks

/-- Turns that touch neither the tasks nor the scheduler. -/
theorem of_same (inv : Routed cfg p) (world : p'.world = p.world)
    (futures : ∀ id c, p'.pendingFutures.get? id = some c → p.pendingFutures.get? id = some c)
    (streams : ∀ id c, p'.pendingStreams.get? id = some c → p.pendingStreams.get? id = some c)
    (inflight : p'.inflightTasks = p.inflightTasks) (tasks : p'.tasks = p.tasks)
    (parties : Parties p') : Routed cfg p' := by
  refine inv.of_fewer (world ▸ inv.tasked.consistent) (world ▸ rfl) (world ▸ fun _ hr => hr)
    futures streams (inflight ▸ fun _ _ h => h) (tasks ▸ .refl _) parties ?_
  rw [tasks, inflight]
  exact inv.tasks

/-- A request that leaves its deque. -/
theorem cancel (inv : Routed cfg p) (id : String) :
    Routed cfg { p with world := p.world.step cfg (.cancel id) } :=
  inv.of_fewer (inv.tasked.consistent.cancel id) rfl (fun _ hr => live_cancel cfg id hr)
    (fun _ _ h => h) (fun _ _ h => h) (fun _ _ h => h) (.refl _)
    (inv.parties.of_same rfl rfl rfl rfl) inv.tasks

/-! ### Submit -/

/-- A submission adds one owner. -/
theorem owns_submit (inv : Routed cfg p) {req : QueuedRequest} {id : String} {c : ℕ}
    (owns : Owns (p.submit cfg req) id c) :
    Owns p id c ∨ id = req.requestId ∧ c = p.world.enqueued.length := by
  have entry {m : Dict String ℕ}
      (h : (m.set req.requestId p.world.enqueued.length).get? id = some c) :
      m.get? id = some c ∨ id = req.requestId ∧ c = p.world.enqueued.length := by
    rw [Dict.get?_set] at h
    split at h
    · exact .inr ⟨‹_›, (Option.some.inj h).symm⟩
    · exact .inl h
  have live {w : World} (hw : w = p.world.step cfg (.enqueue req))
      (h : ∃ r ∈ w.sched.live, r.requestId = id ∧ r.ref = c) :
      Owns p id c ∨ id = req.requestId ∧ c = p.world.enqueued.length := by
    obtain ⟨r, hr, rfl, rfl⟩ := h
    rw [hw, World.step, inv.tasked.consistent.wf.live_enqueue] at hr
    rcases Multiset.mem_cons.mp hr with rfl | hr
    · exact .inr ⟨rfl, rfl⟩
    · exact .inl (owns_of_live hr)
  unfold Proxy.submit at owns
  dsimp only at owns
  split at owns
  · rcases owns with h | h | h | h
    · exact .inl (.inl h)
    · exact (entry h).imp_left fun h => .inr (.inl h)
    · exact .inl (.inr (.inr (.inl h)))
    · exact live rfl h
  · rcases owns with h | h | h | h
    · exact (entry h).imp_left .inl
    · exact .inl (.inr (.inl h))
    · exact .inl (.inr (.inr (.inl h)))
    · exact live rfl h

theorem parties_submit (inv : Routed cfg p) {req : QueuedRequest}
    (unclaimed : p.Unclaimed (.submit req)) : Parties (p.submit cfg req) := by
  obtain ⟨-, futures, streams, -⟩ := unclaimed
  have kept {m : Dict String ℕ} (new : req.requestId ∉ m.keys) {id : String} {c : ℕ}
      (h : m.get? id = some c) : (m.set req.requestId p.world.enqueued.length).get? id = some c := by
    rw [Dict.get?_set_of_ne]
    · exact h
    · rintro rfl
      exact new (Dict.mem_keys_iff.mpr ⟨c, h⟩)
  unfold Proxy.submit
  dsimp only
  split
  · refine ⟨inv.parties.waiting, ?_, inv.parties.waiters, ?_⟩
    · intro c k hk hphase
      rw [Dict.get?_set] at hk
      split at hk
      · rename_i hc
        obtain rfl := Option.some.inj hk
        rw [hc]
        exact Dict.get?_set_self _ _ _
      · exact kept streams (inv.parties.streaming c k hk hphase)
    · intro c k hk
      rw [Dict.get?_set] at hk
      split at hk
      · obtain rfl := Option.some.inj hk
        exact ⟨by simp, by simp, by simp [Consumer.terminals], by simp [Consumer.terminals]⟩
      · exact inv.parties.consumers c k hk
  · refine ⟨?_, inv.parties.streaming, ?_, inv.parties.consumers⟩
    · intro c w hw hwaiting
      rw [Dict.get?_set] at hw
      split at hw
      · rename_i hc
        obtain rfl := Option.some.inj hw
        rw [hc]
        exact Dict.get?_set_self _ _ _
      · exact kept futures (inv.parties.waiting c w hw hwaiting)
    · intro c w hw
      rw [Dict.get?_set] at hw
      split at hw
      · obtain rfl := Option.some.inj hw
        exact ⟨by simp, by simp, by simp⟩
      · exact inv.parties.waiters c w hw

theorem submit (inv : Routed cfg p) {req : QueuedRequest}
    (unclaimed : p.Unclaimed (.submit req)) : Routed cfg (p.submit cfg req) := by
  have consistent := inv.tasked.consistent.enqueue unclaimed.1
  have world : (p.submit cfg req).world = p.world.step cfg (.enqueue req) := by
    unfold Proxy.submit
    split <;> rfl
  have tasks : (p.submit cfg req).tasks = p.tasks ∧
      (p.submit cfg req).inflightTasks = p.inflightTasks := by
    unfold Proxy.submit
    split <;> exact ⟨rfl, rfl⟩
  refine ⟨?_, ?_, inv.parties_submit unclaimed, ?_⟩
  · rw [world, tasks.1]
    exact inv.tasked.of_same consistent rfl (.refl _)
  · intro id c c' h h'
    have fresh := not_owns_of_unclaimed unclaimed
    rcases inv.owns_submit h with h | ⟨rfl, rfl⟩
    · rcases inv.owns_submit h' with h' | ⟨rfl, rfl⟩
      · exact inv.one id c c' h h'
      · exact absurd h (fresh c)
    · rcases inv.owns_submit h' with h' | ⟨-, rfl⟩
      · exact absurd h' (fresh c')
      · rfl
  · rw [tasks.1, tasks.2]
    exact inv.tasks

/-! ### The scheduler loop -/

/-- No turn of the scheduler loop adds an owner. -/
theorem owns_tick (inv : Routed cfg p) (o : Oracles) (now : ℚ) {id : String} {c : ℕ}
    (owns : Owns (p.schedulerLoop cfg o now) id c) : Owns p id c := by
  rcases owns with h | h | h | ⟨r, hr, rfl, rfl⟩
  · rw [Proxy.pendingFutures_schedulerLoop] at h
    exact .inl h
  · rw [Proxy.pendingStreams_schedulerLoop] at h
    exact .inr (.inl h)
  · rw [Proxy.inflightTasks_schedulerLoop] at h
    rcases Dict.get?_setAll_cases h with new | old
    · obtain ⟨d, hd, heq⟩ := List.mem_map.mp new
      obtain ⟨rfl, rfl⟩ := Prod.mk.inj heq
      exact owns_of_queued_core (core_mem_of_decision inv.tasked.consistent.wf hd)
    · exact .inr (.inr (.inl old))
  · rw [Proxy.world_schedulerLoop] at hr
    exact owns_of_core (inv.tasked.consistent.core_mem_of_tick o now hr)

theorem parties_tick (inv : Routed cfg p) (o : Oracles) (now : ℚ) :
    Parties (p.schedulerLoop cfg o now) := by
  have before : Parties { p with world := p.world.step cfg (.tick o now) } :=
    inv.parties.of_same rfl rfl rfl rfl
  unfold Proxy.schedulerLoop
  dsimp only
  rw [Proxy.foldl_createTask]
  refine (Parties.foldl_onAdmissionTimeout before ?_).of_same rfl rfl rfl rfl
  intro r hr
  have reaches := Parties.reaches_of_owns inv.one
    (owns_of_queued_core (core_mem_of_timeout inv.tasked.consistent.wf hr))
  exact ⟨reaches.futures, reaches.streams⟩

/-- The decisions of a tick agree with `inflight_tasks` on who owns their ids. -/
theorem decisions_agree (inv : Routed cfg p) {o : Oracles} {now : ℚ} {id : String} {c : ℕ}
    (owns : Owns p id c) (e : String × ℕ)
    (he : e ∈ (Scheduler.tick cfg o p.world.sched now).decisions.map
      fun d => (d.request.requestId, d.request.ref)) (hid : e.1 = id) : e.2 = c := by
  obtain ⟨d, hd, rfl⟩ := List.mem_map.mp he
  subst hid
  exact inv.one _ _ _ (owns_of_queued_core (core_mem_of_decision inv.tasked.consistent.wf hd)) owns

theorem tick (inv : Routed cfg p) (o : Oracles) (now : ℚ) :
    Routed cfg (p.schedulerLoop cfg o now) := by
  refine ⟨?_, ?_, inv.parties_tick o now, ?_⟩
  · rw [Proxy.tasks_schedulerLoop, Proxy.world_schedulerLoop]
    exact inv.tasked.tick o now
  · exact inv.one.of_subset fun _ _ => inv.owns_tick o now
  · rw [Proxy.tasks_schedulerLoop, Proxy.inflightTasks_schedulerLoop]
    intro r t ht
    rcases Dict.get?_setAll_cases ht with new | old
    · obtain ⟨d, hd, heq⟩ := List.mem_map.mp new
      obtain ⟨rfl, rfl⟩ := Prod.mk.inj heq
      refine ⟨fun _ => rfl, fun _ => ?_, ?_⟩
      · have owns := owns_of_queued_core (core_mem_of_decision inv.tasked.consistent.wf hd)
        exact Dict.get?_setAll_of_mem (List.mem_map.mpr ⟨d, hd, rfl⟩) (inv.decisions_agree owns)
      · intro a q ha hq
        obtain rfl := Option.some.inj ha
        exact absurd hq (by simp [Await.queue?])
    · have routed := inv.tasks r t old
      refine ⟨routed.unreaped, fun unreaped => ?_, routed.queue⟩
      exact Dict.get?_setAll_of_forall (routed.inflight unreaped)
        (inv.decisions_agree (inv.owns_of_task old unreaped))

/-! ### Tasks -/

/-- A task touches no queue but that of its caller. -/
theorem segment_owned (policy : Policy) (inv : Routed cfg p) {ref : ℕ} {t : Task} {a : Await}
    (ht : p.tasks.get? ref = some t) (ha : t.await = some a) (w : Wake) :
    Segment.Owned (some ref) (p.segmentOf cfg policy t a w) := by
  have routed := inv.tasks ref t ht
  have owns := inv.owns_of_task ht (routed.unreaped (by simp [Task.ended, ha]))
  have mine (q : ℕ) (hq : a.heldOr (p.pendingStreams.get? t.requestId) = some q) :
      some ref = some q := by
    unfold Await.heldOr at hq
    split at hq
    · exact congrArg some (inv.one _ _ _ owns (.inr (.inl hq)))
    · exact congrArg some (routed.queue a q ha hq).symm
  unfold Proxy.segmentOf
  split
  · exact (DispatchCtx.cancelled_owned _ _ a w.now).mono mine
  · exact (DispatchCtx.resume_owned _ cfg _ _ a w).mono mine

theorem runTask (inv : Routed cfg p) (ref : ℕ) (w : Wake) :
    Routed cfg (p.runTask cfg policy ref w) := by
  unfold Proxy.runTask
  split
  · exact inv
  rename_i t ht
  split
  · exact inv
  rename_i a ha
  have owned := inv.segment_owned policy ht ha w
  have routed := inv.tasks ref t ht
  have unreaped := routed.unreaped (by simp [Task.ended, ha])
  obtain ⟨href, -, -⟩ := inv.tasked.own ref t ht
  dsimp only
  generalize p.segmentOf cfg policy t a w = s at owned
  have reaches : Parties.Reaches p t.decision.request := by
    refine Parties.reaches_of_owns inv.one ?_
    rw [href]
    exact inv.owns_of_task ht unreaped
  have parties : Parties (s.effects.foldl (Proxy.perform cfg t.decision) p) := by
    refine Parties.foldl_perform ?_ inv.parties reaches
    intro e he q hq
    rw [href]
    exact (Option.some.inj (owned.own_puts e he q hq)).symm
  have same := Proxy.SameMaps.foldl (Proxy.sameMaps_perform cfg t.decision) s.effects p
  have world := Proxy.world_foldl_perform cfg t.decision s.effects p
  obtain ⟨consistent, dispatched, live⟩ := inv.tasked.consistent.foldl_complete
    (Proxy.completions t.decision s.effects)
  rw [← world] at consistent dispatched live
  refine inv.of_fewer consistent dispatched live ?_ ?_ ?_ ?_ (parties.of_same rfl rfl rfl rfl) ?_
  · exact fun _ _ h => same.pendingFutures ▸ h
  · exact fun _ _ h => same.pendingStreams ▸ h
  · exact fun _ _ h => same.inflightTasks ▸ h
  · dsimp only
    rw [same.tasks]
    exact .set ht rfl
  · dsimp only
    rw [same.tasks, same.inflightTasks]
    intro r t' ht'
    rw [Dict.get?_set] at ht'
    split at ht'
    · rename_i hr
      obtain rfl := Option.some.inj ht'
      rw [hr]
      refine ⟨fun _ => unreaped, routed.inflight, ?_⟩
      intro a' q ha' hq
      exact (Option.some.inj (owned.own_queue a' ha' q hq)).symm
    · exact inv.tasks r t' ht'

theorem taskDone (inv : Routed cfg p) (ref : ℕ) : Routed cfg (p.taskDone ref) := by
  unfold Proxy.taskDone
  split
  · exact inv
  rename_i t ht
  split
  · rename_i hdone
    obtain ⟨ended, unreaped⟩ : t.ended = true ∧ t.reaped = false := by simpa using hdone
    refine inv.of_fewer inv.tasked.consistent rfl (fun _ hr => hr) (fun _ _ h => h)
      (fun _ _ h => h) (fun _ _ h => Dict.get?_of_get?_erase h) (.set ht rfl)
      (inv.parties.of_same rfl rfl rfl rfl) ?_
    intro r t' ht'
    rw [Dict.get?_set] at ht'
    split at ht'
    · obtain rfl := Option.some.inj ht'
      refine ⟨fun running => ?_, fun reaped => ?_, ?_⟩
      · exact absurd (running.symm.trans ended) (by simp)
      · exact absurd reaped (by simp)
      · intro a q ha
        rw [Task.ended] at ended
        rw [show t.await = some a from ha] at ended
        exact absurd ended (by simp)
    · rename_i hr
      have routed := inv.tasks r t' ht'
      refine ⟨routed.unreaped, fun unreaped' => ?_, routed.queue⟩
      exact Dict.get?_erase_of_value_ne ((inv.tasks ref t ht).inflight unreaped)
        (routed.inflight unreaped') hr
  · exact inv

/-! ### Waiters -/

theorem stopWaiting (inv : Routed cfg p) {c : ℕ} {w : Waiter} (hw : p.waiters.get? c = some w)
    (waiting : w.waiting = true) {f : Waiter → Waiter} (stopped : (f w).waiting = false)
    (own : (f w).Own c) : Routed cfg (p.stopWaiting c w.requestId f) :=
  inv.of_same rfl (fun _ _ h => Dict.get?_of_get?_erase h) (fun _ _ h => h) rfl rfl
    (inv.parties.stopWaiting hw waiting stopped own)

theorem deliver (inv : Routed cfg p) (ref : ℕ) : Routed cfg (p.deliver ref) := by
  unfold Proxy.deliver
  split
  · exact inv
  rename_i w hw
  split
  · rename_i origin answer hwaiting hfuture
    exact inv.stopWaiting hw hwaiting rfl
      ((inv.parties.waiters ref w hw).deliver hwaiting hfuture)
  · exact inv

theorem clientTimeout (inv : Routed cfg p) (ref : ℕ) : Routed cfg (p.clientTimeout cfg ref) := by
  unfold Proxy.clientTimeout
  split
  · exact inv
  rename_i w hw
  split
  · rename_i hwaiting
    exact (inv.cancel w.requestId).stopWaiting hw hwaiting w.waiting_stop
      ((inv.parties.waiters ref w hw).stop hwaiting)
  · exact inv

theorem abandon (inv : Routed cfg p) (ref : ℕ) : Routed cfg (p.abandon ref) := by
  unfold Proxy.abandon
  split
  · exact inv
  rename_i w hw
  split
  · rename_i hwaiting
    exact inv.stopWaiting hw hwaiting w.waiting_stop
      ((inv.parties.waiters ref w hw).stop hwaiting)
  · exact inv

/-! ### Consumers -/

/-- The consumer of `c` runs its `finally`; `f` is what it becomes. -/
theorem closeStream (inv : Routed cfg p) {c : ℕ} {k : Consumer}
    (hk : p.consumers.get? c = some k) (here : k.phase ≠ .gone) {f : Consumer → Consumer}
    (gone : (f k).phase = .gone) (own : (f k).Own c) :
    Routed cfg { p.closeStream c k.requestId with consumers := p.consumers.modify c f } := by
  have parties : Parties
      { p.closeStream c k.requestId with consumers := p.consumers.modify c f } :=
    inv.parties.goes hk gone own rfl
      (fun _ _ h => Dict.get?_erase_of_value_ne (inv.parties.streaming c k hk here) h) rfl rfl
  refine inv.of_fewer inv.tasked.consistent rfl (fun _ hr => hr) (fun _ _ h => h)
    (fun _ _ h => Dict.get?_of_get?_erase h) (fun _ _ h => h) ?_ parties ?_
  · simp only [Proxy.closeStream]
    split
    · exact .refl _
    · exact .modify _ _ Task.decision_cancel
  · simp only [Proxy.closeStream]
    split
    · exact inv.tasks
    · intro r t' ht'
      rw [Dict.get?_modify, Option.map_eq_some_iff] at ht'
      obtain ⟨t, ht, rfl⟩ := ht'
      have routed := inv.tasks r t ht
      split
      · refine ⟨?_, ?_, ?_⟩
        · simpa using routed.unreaped
        · simpa [Task.requestId] using routed.inflight
        · simpa using routed.queue
      · exact routed

theorem consumerTimeout (inv : Routed cfg p) (ref : ℕ) : Routed cfg (p.consumerTimeout ref) := by
  unfold Proxy.consumerTimeout
  split
  · exact inv
  rename_i k hk
  split
  · rename_i hphase
    simp only [Proxy.closeStream, Dict.modify_modify]
    exact inv.closeStream hk (by simp [hphase]) rfl
      ((inv.parties.consumers ref k hk).timeout hphase _)
  · exact inv

theorem leave (inv : Routed cfg p) (ref : ℕ) : Routed cfg (p.leave ref) := by
  unfold Proxy.leave
  split
  · exact inv
  rename_i k hk
  have own := (inv.parties.consumers ref k hk).gone
  split
  · refine inv.of_same rfl (fun _ _ h => h) (fun _ _ h => h) rfl rfl ?_
    exact inv.parties.goes hk (f := fun k => { k with phase := .gone }) rfl own rfl
      (fun _ _ h _ => h) rfl rfl
  · rename_i hphase
    exact inv.closeStream hk (by simp [hphase]) rfl own
  · rename_i hphase
    exact inv.closeStream hk (by simp [hphase]) rfl own
  · exact inv

/-- A consumer that goes on. -/
theorem modify_consumer (inv : Routed cfg p) (c : ℕ) {f : Consumer → Consumer}
    (same : ∀ k, (f k).requestId = k.requestId)
    (gone : ∀ k, k.phase = .gone → (f k).phase = .gone) (own : ∀ k, k.Own c → (f k).Own c) :
    Routed cfg { p with consumers := p.consumers.modify c f } :=
  inv.of_same rfl (fun _ _ h => h) (fun _ _ h => h) rfl rfl
    (inv.parties.modify_consumer c same gone own)

theorem openStream (inv : Routed cfg p) (ref : ℕ) : Routed cfg (p.openStream ref) := by
  refine inv.modify_consumer ref ?_ ?_ ?_
  · intro k
    split <;> rfl
  · intro k hk
    simp [hk]
  · intro k own
    split
    · rename_i hphase
      exact ⟨own.queue, own.received, own.once, fun _ => own.unfinished (.inl hphase)⟩
    · exact own

theorem readFrame (inv : Routed cfg p) (ref : ℕ) : Routed cfg (p.readFrame ref) := by
  refine inv.modify_consumer ref ?_ ?_ ?_
  · intro k
    split
    · unfold Consumer.read
      split <;> rfl
    · rfl
  · intro k hk
    simp [hk]
  · intro k own
    split
    · exact own.read ‹_›
    · exact own

theorem fastFail (inv : Routed cfg p) (req : QueuedRequest) (reason : String) :
    Routed cfg (p.fastFail cfg req reason) := by
  unfold Proxy.fastFail
  dsimp only
  split
  · rename_i found
    have reaches := Parties.reaches_of_owns inv.one (owns_of_queued found.1)
    have cancelled := inv.cancel req.requestId
    refine cancelled.of_same rfl (fun _ _ h => h) (fun _ _ h => h) rfl rfl ?_
    exact cancelled.parties.resolveError ⟨reaches.futures, reaches.streams⟩ _
  · exact inv

theorem step (inv : Routed cfg p) {e : Event} (unclaimed : p.Unclaimed e) :
    Routed cfg (p.step cfg policy e) := by
  cases e with
  | submit req => exact inv.submit unclaimed
  | tick o now => exact inv.tick o now
  | task ref w => exact inv.runTask ref w
  | taskDone ref => exact inv.taskDone ref
  | deliver ref => exact inv.deliver ref
  | clientTimeout ref => exact inv.clientTimeout ref
  | abandon ref => exact inv.abandon ref
  | openStream ref => exact inv.openStream ref
  | readFrame ref => exact inv.readFrame ref
  | consumerTimeout ref => exact inv.consumerTimeout ref
  | leave ref => exact inv.leave ref
  | fastFail req reason => exact inv.fastFail req reason

/-! ### What a turn leaves to the other callers -/

variable {c : ℕ}

/-- An active entry is an entry of the caller whose request it holds. -/
theorem owns_of_active (inv : Routed cfg p) {ep id : String} {ar : ActiveRequest}
    (har : (p.world.sched.activeOf ep).get? id = some ar) : Owns p id ar.request.ref := by
  have running : ar.request ∈ p.world.sched.running :=
    mem_running_iff.mpr ⟨ep, mem_requestsOf_iff.mpr ⟨id, ar, har, rfl⟩⟩
  have here := (inv.tasked.consistent.wf.active_here ep id ar har).1
  have owns : Owns p ar.request.requestId ar.request.ref :=
    owns_of_live (Multiset.mem_add.mpr (.inr running))
  rwa [here] at owns

theorem undisturbed_tick (inv : Routed cfg p) (o : Oracles) (now : ℚ) :
    Undisturbed p (p.schedulerLoop cfg o now) c := by
  refine ⟨?_, ?_, ?_, ?_, ?_⟩
  · rw [Proxy.pendingFutures_schedulerLoop]
    exact fun _ h => h
  · rw [Proxy.pendingStreams_schedulerLoop]
    exact fun _ h => h
  · rw [Proxy.inflightTasks_schedulerLoop]
    intro id h
    exact Dict.get?_setAll_of_forall h (inv.decisions_agree (.inr (.inr (.inl h))))
  · rw [Proxy.tasks_schedulerLoop]
    intro t ht
    refine Dict.get?_setAll_of_forall ht fun e he hc => ?_
    obtain ⟨d, hd, rfl⟩ := List.mem_map.mp he
    subst hc
    exact absurd (Dict.mem_keys_iff.mpr ⟨t, ht⟩) (inv.tasked.new_of_decision hd)
  · rw [Proxy.world_schedulerLoop]
    exact fun ep id ar har _ => inv.tasked.consistent.active_tick o now har

theorem undisturbed_runTask (inv : Routed cfg p) {ref : ℕ} (hc : c ≠ ref) (w : Wake) :
    Undisturbed p (p.runTask cfg policy ref w) c := by
  unfold Proxy.runTask
  split
  · exact .refl p c
  rename_i t ht
  split
  · exact .refl p c
  rename_i a ha
  dsimp only
  generalize p.segmentOf cfg policy t a w = s
  have unreaped := (inv.tasks ref t ht).unreaped (by simp [Task.ended, ha])
  have same := Proxy.SameMaps.foldl (Proxy.sameMaps_perform cfg t.decision) s.effects p
  have world := Proxy.world_foldl_perform cfg t.decision s.effects p
  refine ⟨fun id h => same.pendingFutures ▸ h, fun id h => same.pendingStreams ▸ h,
    fun id h => same.inflightTasks ▸ h, ?_, ?_⟩
  · intro t' ht'
    dsimp only
    rw [same.tasks, Dict.get?_set_of_ne _ hc]
    exact ht'
  · rintro ep id ar har rfl
    dsimp only
    rw [world]
    refine active_foldl_complete cfg ?_ har
    rintro record hrecord rfl
    -- The completions of the task are under its own id, which has one owner.
    have owns := inv.owns_of_active har
    rw [Proxy.requestId_of_completion hrecord] at owns
    exact hc (inv.one _ _ _ owns (inv.owns_of_task ht unreaped))

theorem undisturbed_taskDone (inv : Routed cfg p) {ref : ℕ} (hc : c ≠ ref) :
    Undisturbed p (p.taskDone ref) c := by
  unfold Proxy.taskDone
  split
  · exact .refl p c
  rename_i t ht
  split
  · rename_i hdone
    have unreaped : t.reaped = false := (by simpa using hdone : t.ended = true ∧ _).2
    refine ⟨fun _ h => h, fun _ h => h, fun id h => ?_, fun t' ht' => ?_, fun _ _ _ h _ => h⟩
    · exact Dict.get?_erase_of_value_ne ((inv.tasks ref t ht).inflight unreaped) h hc
    · dsimp only
      rw [Dict.get?_set_of_ne _ hc]
      exact ht'
  · exact .refl p c

theorem undisturbed_stopWaiting (inv : Routed cfg p) {ref : ℕ} (hc : c ≠ ref) {w : Waiter}
    (hw : p.waiters.get? ref = some w) (waiting : w.waiting = true) (f : Waiter → Waiter) :
    Undisturbed p (p.stopWaiting ref w.requestId f) c :=
  ⟨fun _ h => Dict.get?_erase_of_value_ne (inv.parties.waiting ref w hw waiting) h hc,
    fun _ h => h, fun _ h => h, fun _ h => h, fun _ _ _ h _ => h⟩

theorem undisturbed_closeStream (inv : Routed cfg p) {ref : ℕ} (hc : c ≠ ref) {k : Consumer}
    (hk : p.consumers.get? ref = some k) (here : k.phase ≠ .gone) :
    Undisturbed p (p.closeStream ref k.requestId) c := by
  have entry := inv.parties.streaming ref k hk here
  refine ⟨fun _ h => h, fun _ h => Dict.get?_erase_of_value_ne entry h hc, fun _ h => h, ?_,
    fun _ _ _ h _ => h⟩
  intro t ht
  simp only [Proxy.closeStream]
  split
  · exact ht
  · rename_i producer hproducer
    obtain rfl := inv.one _ _ _ (.inr (.inr (.inl hproducer))) (.inr (.inl entry))
    rw [Dict.get?_modify, ht, Option.map_some, if_neg hc]

theorem undisturbed (inv : Routed cfg p) {e : Event} (other : ∀ req, e ≠ .submit req)
    (hactor : e.actor ≠ some c) : Undisturbed p (p.step cfg policy e) c := by
  have hne {ref : ℕ} (h : some ref ≠ some c) : c ≠ ref := fun heq => h (congrArg some heq.symm)
  cases e with
  | submit req => exact absurd rfl (other req)
  | tick o now => exact inv.undisturbed_tick o now
  | task ref w => exact inv.undisturbed_runTask (hne hactor) w
  | taskDone ref => exact inv.undisturbed_taskDone (hne hactor)
  | deliver ref =>
      simp only [Proxy.step, Proxy.deliver]
      split
      · exact .refl p c
      · split
        · exact inv.undisturbed_stopWaiting (hne hactor) ‹_› ‹_› _
        · exact .refl p c
  | clientTimeout ref =>
      simp only [Proxy.step, Proxy.clientTimeout]
      split
      · exact .refl p c
      · split
        · rename_i w hw hwaiting
          have stopped := inv.undisturbed_stopWaiting (hne hactor) hw hwaiting Waiter.stop
          refine ⟨stopped.future, stopped.stream, stopped.inflight, stopped.task, ?_⟩
          intro ep id ar har _
          exact activeOf_cancel cfg p.world w.requestId ep ▸ har
        · exact .refl p c
  | abandon ref =>
      simp only [Proxy.step, Proxy.abandon]
      split
      · exact .refl p c
      · split
        · exact inv.undisturbed_stopWaiting (hne hactor) ‹_› ‹_› _
        · exact .refl p c
  | openStream ref | readFrame ref => refine .of_same ?_ ?_ ?_ ?_ (fun _ => ?_) c <;> rfl
  | consumerTimeout ref =>
      simp only [Proxy.step, Proxy.consumerTimeout]
      split
      · exact .refl p c
      · split
        · rename_i hk _ hphase
          have closed := inv.undisturbed_closeStream (hne hactor) hk (by simp [hphase])
          exact ⟨closed.future, closed.stream, closed.inflight, closed.task, closed.active⟩
        · exact .refl p c
  | leave ref =>
      simp only [Proxy.step, Proxy.leave]
      split
      · exact .refl p c
      · split
        · refine .of_same ?_ ?_ ?_ ?_ (fun _ => ?_) c <;> rfl
        · rename_i hk _ hphase
          exact inv.undisturbed_closeStream (hne hactor) hk (by simp [hphase])
        · rename_i hk _ hphase
          exact inv.undisturbed_closeStream (hne hactor) hk (by simp [hphase])
        · exact .refl p c
  | fastFail req reason =>
      simp only [Proxy.step, Proxy.fastFail]
      split
      · have active := activeOf_cancel cfg p.world req.requestId
        apply Undisturbed.of_same
        · rfl
        · rfl
        · rfl
        · rfl
        · exact active
      · exact .refl p c

theorem routingIntegrity (inv : Routed cfg p) : RoutingIntegrity cfg policy p where
  results := by
    intro c w hw
    have own := inv.parties.waiters c w hw
    refine ⟨own.received, own.once.trans ?_⟩
    split <;> simp
  frames := by
    intro c k hk
    have own := inv.parties.consumers c k hk
    exact ⟨own.received, own.once⟩
  undisturbed _ _ other hactor := inv.undisturbed other hactor

end Routed

/-! ### The result -/

/-- In every state of a run that submits no id under which something is still kept,
answers are routed to their own callers. -/
theorem routing_integrity (cfg : ProxyConfig) (policy : Policy) (cost : CostModel)
    (budgets : BudgetManager) (events : List Event)
    (unclaimed : Runs.Along (Proxy.step cfg policy) Proxy.Unclaimed
      (Proxy.init cfg cost budgets) events) :
    RoutingIntegrity cfg policy (Proxy.run cfg policy (Proxy.init cfg cost budgets) events) :=
  (Runs.run_invariant (Routed cfg) (fun _ _ inv unclaimed => inv.step unclaimed)
    (Routed.init cfg cost budgets) unclaimed).routingIntegrity

/-- Two callers under two ids, and a third that reuses the id of the first after it was
answered. -/
theorem routing_integrity_small_fleet :
    let events := [.submit (localRequest "x" .interactive), .submit (localRequest "y" .interactive),
      .tick {} 1, .task 0 {}, .task 1 {}, .task 0 { outcome := .responded { body := "secret" } },
      .deliver 0, .taskDone 0, .submit (localRequest "x" .interactive), .tick {} 2]
    let p := Proxy.run smallFleet {} (Proxy.init smallFleet {} {}) events
    Runs.Along (Proxy.step smallFleet {}) Proxy.Unclaimed (Proxy.init smallFleet {} {}) events ∧
      RoutingIntegrity smallFleet {} p :=
  ⟨by decide +kernel, routing_integrity smallFleet {} {} {} _ (by decide +kernel)⟩

theorem not_routingIntegrity {c origin : ℕ}
    (misrouted : (p.waiters.get? c).map (fun w => w.received.map Prod.fst) = some [origin])
    (hne : origin ≠ c) : ¬RoutingIntegrity cfg policy p := by
  intro integrity
  obtain ⟨w, hw, hreceived⟩ := Option.map_eq_some_iff.mp misrouted
  obtain ⟨x, hx, hxo⟩ := List.mem_map.mp (hreceived ▸ List.mem_singleton_self origin)
  exact hne (hxo ▸ (integrity.results c w hw).1 x hx)

/-- The second caller submits the id of the first while it waits, and receives the answer
to the first. -/
theorem answer_misrouted_by_reused_id :
    ¬RoutingIntegrity smallFleet {} (Proxy.run smallFleet {} (Proxy.init smallFleet {} {})
      [.submit (localRequest "x" .interactive), .submit (localRequest "x" .interactive),
        .tick {} 1, .task 0 {}, .task 0 { outcome := .responded { body := "secret" } },
        .deliver 1]) :=
  not_routingIntegrity (show Option.map _ (Dict.get? _ 1) = some [0] by decide +kernel)
    (by decide)

end Roadstead
