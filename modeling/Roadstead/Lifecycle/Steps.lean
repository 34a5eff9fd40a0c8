import Roadstead.Dispatch.Exits
import Roadstead.Lifecycle

/-!
# Steps of the dispatch protocol

What the steps of `Lifecycle` do to the scheduler and to the tasks, in the terms the
invariants use.

* A tick dispatches exactly what it decides (`dispatched_tick`), to configured
  endpoints, and a completion frees the slot of its own request and of no other
  (`running_complete`).
* The effects of a task touch no map of the proxy (`SameMaps`), and they reach the
  scheduler through the completions they record (`world_foldl_perform`).

`Tasked` is the part of the invariants that both results share: the tasks are those of
the requests that were dispatched.
-/

namespace Roadstead

open Scheduler

variable {cfg : ProxyConfig} {w : World} {o : Oracles} {now : ℚ}

/-! ### What a tick decides -/

theorem dispatched_tick (wf : w.sched.WellFormed cfg) (o : Oracles) (now : ℚ) :
    (w.step cfg (.tick o now)).dispatched =
      w.dispatched ++ (tick cfg o w.sched now).decisions.map DispatchDecision.request := by
  rw [Consistent.step_tick]
  refine (dispatchAll_invariant
    (fun p => (Consistent.during (Consistent.expired cfg o w now) p).dispatched =
      w.dispatched ++ p.decisions.map DispatchDecision.request) (wf.afterExpiry now) ?_ ?_).1
  · simp [Consistent.during, Consistent.expired, World.dispatched]
  · intro p m p' _ hp move
    rw [Consistent.during_of_move move]
    cases move with
    | dispatch _ _ =>
        rw [List.map_append, ← List.append_assoc, ← hp]
        simp [World.dispatched, Consistent.record]
    | spill _ _ _ _ _ _ =>
        rw [← hp]
        simp [World.dispatched, Consistent.record]

/-- Only a configured endpoint dispatches, and only what is queued for it. -/
theorem configured_of_decision (wf : w.sched.WellFormed cfg) {d : DispatchDecision}
    (hd : d ∈ (tick cfg o w.sched now).decisions) :
    ∃ epCfg, cfg.endpoints.get? d.request.endpoint = some epCfg := by
  refine (dispatchAll_invariant
    (fun p => ∀ d ∈ p.decisions, ∃ epCfg, cfg.endpoints.get? d.request.endpoint = some epCfg)
    (wf.afterExpiry now) (by simp) ?_).1 d hd
  intro p m p' hwf hp move
  cases move with
  | @dispatch ep epCfg band agentId req rest occ attempt configured head =>
      intro d hd
      rcases List.mem_append.mp hd with hd | hd
      · exact hp d hd
      · obtain rfl := List.mem_singleton.mp hd
        have here := hwf.endpoint_of_head head
        exact ⟨epCfg, here ▸ configured⟩
  | spill _ _ _ _ _ _ => exact hp

/-- What a tick decides was queued, up to what a spill rewrites. -/
theorem core_mem_of_decision (wf : w.sched.WellFormed cfg) {d : DispatchDecision}
    (hd : d ∈ (tick cfg o w.sched now).decisions) :
    d.request.core ∈ w.sched.queued.map QueuedRequest.core := by
  rw [← wf.tick_core o now, Multiset.mem_add, Multiset.mem_add]
  exact .inl (.inr (Multiset.mem_map_of_mem _ (Multiset.mem_coe.mpr (List.mem_map_of_mem hd))))

/-- And so was what it times out. -/
theorem core_mem_of_timeout (wf : w.sched.WellFormed cfg) {r : QueuedRequest}
    (hr : r ∈ (tick cfg o w.sched now).timeouts) :
    r.core ∈ w.sched.queued.map QueuedRequest.core := by
  rw [← wf.tick_core o now, Multiset.mem_add]
  exact .inr (Multiset.mem_map_of_mem _ (Multiset.mem_coe.mpr hr))

namespace Consistent

theorem running_tick (inv : Consistent cfg w) (o : Oracles) (now : ℚ) :
    (w.step cfg (.tick o now)).sched.running =
      w.sched.running + decided (Scheduler.tick cfg o w.sched now).decisions := by
  have before := inv.started
  have after := (inv.tick o now).started
  rw [dispatched_tick inv.wf, ← Multiset.coe_add, before] at after
  have total : (w.step cfg (.tick o now)).sched.running + (w.finished : Multiset QueuedRequest) =
      (w.sched.running + decided (Scheduler.tick cfg o w.sched now).decisions) +
        (w.finished : Multiset QueuedRequest) := by
    rw [add_right_comm]
    exact after.symm
  exact add_right_cancel total

/-- A completion takes the request of its id out of the active maps. -/
theorem running_complete (inv : Consistent cfg w) {record : CompletionRecord} {r : QueuedRequest}
    (hr : r ∈ (w.step cfg (.complete record)).sched.running) :
    r ∈ w.sched.running ∧ r.requestId ≠ record.requestId := by
  rcases w.step_complete cfg record with ⟨hnone, same⟩ | ⟨ep, ar, hit, stepped⟩
  · rw [same] at hr
    refine ⟨hr, ?_⟩
    rintro hid
    obtain ⟨ep, hmem⟩ := mem_running_iff.mp hr
    obtain ⟨id, ar, har, rfl⟩ := mem_requestsOf_iff.mp hmem
    have here := (inv.wf.active_here ep id ar har).1
    exact hnone ep (Dict.mem_keys_iff.mpr ⟨ar, by rw [← hid, here]; exact har⟩)
  · have hr' : r ∈ (w.sched.finish ep ar record).running := by
      rwa [stepped] at hr
    have running := running_finish hit
    refine ⟨by rw [running]; exact Multiset.mem_cons_of_mem hr', ?_⟩
    have unique := inv.unique
    rw [UniqueIds, liveIds, Scheduler.live, running, Multiset.add_cons, Multiset.map_cons,
      Multiset.nodup_cons] at unique
    rw [← (inv.wf.active_here ep _ ar hit).1]
    intro hid
    refine unique.1 ?_
    rw [← hid]
    exact Multiset.mem_map_of_mem _ (Multiset.mem_add.mpr (.inr hr'))

theorem running_cancel (cfg : ProxyConfig) (w : World) (id : String) :
    (w.step cfg (.cancel id)).sched.running = w.sched.running := by
  rcases w.step_cancel cfg id with ⟨-, same⟩ | ⟨ep, b, a, req, rest, -, -, stepped⟩
  · rw [same]
  · rw [stepped]
    rfl

theorem mem_everywhere_of_dispatched (inv : Consistent cfg w) {r : QueuedRequest}
    (hr : r ∈ w.dispatched) : r ∈ w.everywhere := by
  have mem : r ∈ w.sched.running + (w.finished : Multiset QueuedRequest) := by
    rw [← inv.started]
    exact hr
  rcases Multiset.mem_add.mp mem with hrun | hfin
  · exact Multiset.mem_add.mpr (.inl (Multiset.mem_add.mpr (.inr hrun)))
  · exact Multiset.mem_add.mpr (.inr (List.mem_append.mpr (.inr hfin)))

/-- A request is dispatched once. -/
theorem nodup_dispatched (inv : Consistent cfg w) :
    (w.dispatched.map QueuedRequest.ref).Nodup := by
  have part : (w.dispatched : Multiset QueuedRequest) ≤ w.everywhere := by
    rw [inv.started, World.everywhere, Scheduler.live, ← Multiset.coe_add]
    exact add_le_add (Multiset.le_add_left _ _) (Multiset.le_add_left _ _)
  exact Multiset.coe_nodup.mp (Multiset.nodup_of_le (Multiset.map_le_map part) inv.nodup_refs)

end Consistent

/-! ### The effects of a task -/

namespace Proxy

/-- The maps and the tasks are the same in both states. -/
structure SameMaps (p p' : Proxy) : Prop where
  pendingFutures : p'.pendingFutures = p.pendingFutures
  pendingStreams : p'.pendingStreams = p.pendingStreams
  inflightTasks : p'.inflightTasks = p.inflightTasks
  tasks : p'.tasks = p.tasks

theorem sameMaps_perform (cfg : ProxyConfig) (d : DispatchDecision) (p : Proxy) (e : Effect) :
    SameMaps p (p.perform cfg d e) := by
  cases e <;> exact ⟨rfl, rfl, rfl, rfl⟩

theorem SameMaps.foldl {α : Type*} {f : Proxy → α → Proxy} (each : ∀ p a, SameMaps p (f p a))
    (as : List α) (p : Proxy) : SameMaps p (as.foldl f p) := by
  induction as generalizing p with
  | nil => exact ⟨rfl, rfl, rfl, rfl⟩
  | cons a as ih =>
      have first := each p a
      have rest := ih (f p a)
      exact ⟨rest.pendingFutures.trans first.pendingFutures,
        rest.pendingStreams.trans first.pendingStreams,
        rest.inflightTasks.trans first.inflightTasks, rest.tasks.trans first.tasks⟩

/-- The completions that effects record. -/
def completions (d : DispatchDecision) (effects : List Effect) : List CompletionRecord :=
  effects.filterMap fun
    | .recordCompletion status duration inputTokens outputTokens =>
        some (completionRecord d status duration inputTokens outputTokens)
    | _ => none

theorem requestId_of_completion {d : DispatchDecision} {effects : List Effect}
    {record : CompletionRecord} (h : record ∈ completions d effects) :
    record.requestId = d.request.requestId := by
  obtain ⟨e, -, he⟩ := List.mem_filterMap.mp h
  cases e <;> simp at he
  rw [← he]
  rfl

theorem length_completions (d : DispatchDecision) (effects : List Effect) :
    (completions d effects).length = (effects.filterMap Effect.status?).length := by
  induction effects with
  | nil => rfl
  | cons e effects ih =>
      cases e with
      | recordCompletion status duration inputTokens outputTokens => exact congrArg (· + 1) ih
      | resolveError failure | setResult response | put queue frame => exact ih

theorem world_foldl_perform (cfg : ProxyConfig) (d : DispatchDecision) (effects : List Effect)
    (p : Proxy) :
    (effects.foldl (perform cfg d) p).world =
      (completions d effects).foldl (fun w record => w.step cfg (.complete record)) p.world := by
  induction effects generalizing p with
  | nil => rfl
  | cons e effects ih =>
      rw [List.foldl_cons, ih]
      cases e <;> rfl

/-- A segment records one completion if it ends its task, and none before, unless the task
begins by being cancelled or with a session id that has no encoding. -/
theorem segmentOf_settles (policy : Policy) (p : Proxy) {t : Task} {epCfg : EndpointConfig}
    (hcfg : cfg.endpoints.get? t.decision.request.endpoint = some epCfg) {a : Await}
    (begins : a = .start →
      t.cancelRequested = false ∧ affinityFault epCfg t.decision.request = false) (w : Wake) :
    ((p.segmentOf cfg policy t a w).effects.filterMap Effect.status?).length =
        (if (p.segmentOf cfg policy t a w).next.isNone then 1 else 0) ∧
      ((p.segmentOf cfg policy t a w).next = some .start → t.cancelRequested = false) := by
  have regular {q : Option ℕ} {s : Segment} (h : Segment.Regular q s) :
      ((s.effects.filterMap Effect.status?).length = if s.next.isNone then 1 else 0) ∧
        (s.next = some .start → t.cancelRequested = false) :=
    ⟨h.settles, fun hstart => absurd hstart h.begun⟩
  by_cases hstart : a = .start
  · subst hstart
    obtain ⟨uncancelled, encodes⟩ := begins rfl
    simp only [segmentOf, uncancelled, DispatchCtx.resume]
    split
    · exact absurd ‹_› (by simp)
    · split
      · have first := (ctxOf cfg policy t).executeDispatch_regular hcfg encodes
          (p.pendingStreams.get? t.requestId) w.now
        exact ⟨first.settles, fun _ => trivial⟩
      · exact ⟨rfl, fun _ => trivial⟩
  · simp only [segmentOf]
    split
    · exact regular (DispatchCtx.cancelled_regular _ hstart _)
    · exact regular (DispatchCtx.resume_regular _ cfg _ _ hstart w)

/-! ### The scheduler loop -/

theorem foldl_createTask (ds : List DispatchDecision) (p : Proxy) :
    ds.foldl createTask p =
      { p with
        tasks := p.tasks.setAll (ds.map fun d => (d.request.ref, { decision := d }))
        inflightTasks :=
          p.inflightTasks.setAll (ds.map fun d => (d.request.requestId, d.request.ref)) } := by
  induction ds generalizing p with
  | nil => rfl
  | cons d ds ih => rw [List.foldl_cons, ih]; rfl

theorem foldl_onAdmissionTimeout (rs : List QueuedRequest) (p : Proxy) :
    SameMaps p (rs.foldl onAdmissionTimeout p) ∧
      (rs.foldl onAdmissionTimeout p).world = p.world := by
  have each (p : Proxy) (r : QueuedRequest) : SameMaps p (p.onAdmissionTimeout r) :=
    ⟨rfl, rfl, rfl, rfl⟩
  refine ⟨.foldl each rs p, ?_⟩
  induction rs generalizing p with
  | nil => rfl
  | cons r rs ih => rw [List.foldl_cons, ih]; rfl

section SchedulerLoop

variable (p : Proxy)

theorem world_schedulerLoop :
    (p.schedulerLoop cfg o now).world = p.world.step cfg (.tick o now) := by
  unfold schedulerLoop
  dsimp only
  rw [foldl_createTask]
  exact (foldl_onAdmissionTimeout _ _).2

theorem pendingFutures_schedulerLoop :
    (p.schedulerLoop cfg o now).pendingFutures = p.pendingFutures := by
  unfold schedulerLoop
  dsimp only
  rw [foldl_createTask]
  exact (foldl_onAdmissionTimeout _ _).1.pendingFutures

theorem pendingStreams_schedulerLoop :
    (p.schedulerLoop cfg o now).pendingStreams = p.pendingStreams := by
  unfold schedulerLoop
  dsimp only
  rw [foldl_createTask]
  exact (foldl_onAdmissionTimeout _ _).1.pendingStreams

theorem inflightTasks_schedulerLoop :
    (p.schedulerLoop cfg o now).inflightTasks =
      p.inflightTasks.setAll ((tick cfg o p.world.sched now).decisions.map
        fun d => (d.request.requestId, d.request.ref)) := by
  unfold schedulerLoop
  dsimp only
  rw [foldl_createTask]
  exact congrArg (Dict.setAll · _) (foldl_onAdmissionTimeout _ _).1.inflightTasks

theorem tasks_schedulerLoop :
    (p.schedulerLoop cfg o now).tasks =
      p.tasks.setAll ((tick cfg o p.world.sched now).decisions.map
        fun d => (d.request.ref, { decision := d })) := by
  unfold schedulerLoop
  dsimp only
  rw [foldl_createTask]
  exact congrArg (Dict.setAll · _) (foldl_onAdmissionTimeout _ _).1.tasks

end SchedulerLoop

end Proxy

/-! ### Cancelling a task -/

namespace Task

variable (t : Task)

@[simp] theorem decision_cancel : t.cancel.decision = t.decision := by
  unfold cancel
  split <;> rfl

@[simp] theorem await_cancel : t.cancel.await = t.await := by
  unfold cancel
  split <;> rfl

@[simp] theorem recorded_cancel : t.cancel.recorded = t.recorded := by
  unfold cancel
  split <;> rfl

@[simp] theorem reaped_cancel : t.cancel.reaped = t.reaped := by
  unfold cancel
  split <;> rfl

@[simp] theorem ended_cancel : t.cancel.ended = t.ended := by
  rw [ended, await_cancel, ended]

end Task

/-! ### The tasks are those of what was dispatched -/

/-- There is one task for each dispatched request, under its identity. -/
structure Tasked (cfg : ProxyConfig) (w : World) (ts : Dict ℕ Task) : Prop where
  consistent : Consistent cfg w
  keys : ts.keys = w.dispatched.map QueuedRequest.ref
  own : ∀ r t, ts.get? r = some t → t.decision.request.ref = r ∧
    t.decision.request ∈ w.dispatched ∧
    ∃ epCfg, cfg.endpoints.get? t.decision.request.endpoint = some epCfg

/-- Tasks that differ in anything but their decisions. -/
structure SameDecisions (ts ts' : Dict ℕ Task) : Prop where
  keys : ts'.keys = ts.keys
  decision : ∀ r t', ts'.get? r = some t' → ∃ t, ts.get? r = some t ∧ t'.decision = t.decision

namespace SameDecisions

variable {ts : Dict ℕ Task}

theorem refl (ts : Dict ℕ Task) : SameDecisions ts ts := ⟨rfl, fun _ t' h => ⟨t', h, rfl⟩⟩

theorem set {ref : ℕ} {t t' : Task} (h : ts.get? ref = some t) (same : t'.decision = t.decision) :
    SameDecisions ts (ts.set ref t') where
  keys := Dict.keys_set_of_mem (Dict.mem_keys_iff.mpr ⟨t, h⟩) t'
  decision := by
    intro r s hs
    rw [Dict.get?_set] at hs
    split at hs
    · rename_i hr
      obtain rfl := Option.some.inj hs
      exact ⟨t, hr ▸ h, same⟩
    · exact ⟨s, hs, rfl⟩

theorem modify (ts : Dict ℕ Task) (ref : ℕ) {f : Task → Task}
    (same : ∀ t, (f t).decision = t.decision) : SameDecisions ts (ts.modify ref f) where
  keys := Dict.keys_map _ ts
  decision := by
    intro r s hs
    rw [Dict.get?_modify, Option.map_eq_some_iff] at hs
    obtain ⟨t, ht, rfl⟩ := hs
    refine ⟨t, ht, ?_⟩
    split
    · exact same t
    · rfl

end SameDecisions

namespace Tasked

variable {ts ts' : Dict ℕ Task}

theorem init (cfg : ProxyConfig) (cost : CostModel) (budgets : BudgetManager) :
    Tasked cfg (World.init cfg cost budgets) ∅ where
  consistent := Consistent.init cfg cost budgets
  keys := rfl
  own := by simp

/-- The task of a dispatched request. -/
theorem task_of (inv : Tasked cfg w ts) {r : QueuedRequest} (hr : r ∈ w.dispatched) :
    ∃ t, ts.get? r.ref = some t ∧ t.decision.request = r := by
  have hk : r.ref ∈ ts.keys := by
    rw [inv.keys]
    exact List.mem_map_of_mem hr
  obtain ⟨t, ht⟩ := Dict.mem_keys_iff.mp hk
  obtain ⟨href, hmem, -⟩ := inv.own r.ref t ht
  exact ⟨t, ht, inv.consistent.eq_of_ref (inv.consistent.mem_everywhere_of_dispatched hmem)
    (inv.consistent.mem_everywhere_of_dispatched hr) href⟩

/-- What a tick decides has no task yet, and is decided once. -/
theorem nodup_tick (inv : Tasked cfg w ts) (o : Oracles) (now : ℚ) :
    (ts.keys ++ (Scheduler.tick cfg o w.sched now).decisions.map fun d => d.request.ref).Nodup := by
  have nodup := (inv.consistent.tick o now).nodup_dispatched
  rw [dispatched_tick inv.consistent.wf, List.map_append, ← inv.keys, List.map_map] at nodup
  exact nodup

theorem new_of_decision (inv : Tasked cfg w ts) {d : DispatchDecision}
    (hd : d ∈ (Scheduler.tick cfg o w.sched now).decisions) : d.request.ref ∉ ts.keys := by
  intro old
  exact (List.nodup_append.mp (inv.nodup_tick o now)).2.2 _ old _ (List.mem_map_of_mem hd) rfl

theorem of_same (inv : Tasked cfg w ts) {w' : World} (consistent : Consistent cfg w')
    (dispatched : w'.dispatched = w.dispatched) (same : SameDecisions ts ts') :
    Tasked cfg w' ts' where
  consistent := consistent
  keys := by rw [same.keys, inv.keys, dispatched]
  own := by
    intro r t' ht'
    obtain ⟨t, ht, hd⟩ := same.decision r t' ht'
    rw [hd, dispatched]
    exact inv.own r t ht

theorem tick (inv : Tasked cfg w ts) (o : Oracles) (now : ℚ) :
    Tasked cfg (w.step cfg (.tick o now))
      (ts.setAll ((Scheduler.tick cfg o w.sched now).decisions.map
        fun d => (d.request.ref, { decision := d }))) := by
  have consistent := inv.consistent.tick o now
  have dispatched := dispatched_tick inv.consistent.wf o now
  refine ⟨consistent, ?_, ?_⟩
  · rw [Dict.keys_setAll, dispatched, List.map_append, inv.keys, List.map_map, List.map_map]
    · rfl
    · rw [List.map_map]
      exact inv.nodup_tick o now
  · intro r t ht
    rcases Dict.get?_setAll_cases ht with new | old
    · obtain ⟨d, hd, heq⟩ := List.mem_map.mp new
      obtain ⟨rfl, rfl⟩ := Prod.mk.inj heq
      refine ⟨rfl, ?_, configured_of_decision inv.consistent.wf hd⟩
      rw [dispatched]
      exact List.mem_append.mpr (.inr (List.mem_map_of_mem hd))
    · obtain ⟨href, hmem, hcfg⟩ := inv.own r t old
      refine ⟨href, ?_, hcfg⟩
      rw [dispatched]
      exact List.mem_append.mpr (.inl hmem)

end Tasked

end Roadstead
