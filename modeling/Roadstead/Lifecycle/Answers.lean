import Roadstead.Lifecycle.Ownership

/-!
# A response comes from a task

Futures are resolved from three places: a dispatch task, the timeouts of a tick, and the
circuit breaker.  Only a task resolves one with a response.  So whoever holds a response,
be it in the future or in the hands of the caller, holds one that some dispatch task
produced (`Proxy.Backed`).  No turn removes a task, so this is kept by every turn.
-/

namespace Roadstead

open Scheduler

variable {cfg : ProxyConfig} {policy : Policy} {ts ts' : Dict ℕ Task}

/-- Every response of the waiter was produced by a task. -/
structure Waiter.Backed (ts : Dict ℕ Task) (w : Waiter) : Prop where
  future : ∀ origin response, w.future = .resolved origin (.ok response) → origin ∈ ts.keys
  received : ∀ origin response, (origin, Answer.ok response) ∈ w.received → origin ∈ ts.keys

namespace Waiter.Backed

variable {w : Waiter}

theorem mono (backed : w.Backed ts) (more : ∀ r ∈ ts.keys, r ∈ ts'.keys) : w.Backed ts' where
  future origin response h := more origin (backed.future origin response h)
  received origin response h := more origin (backed.received origin response h)

theorem resolve (backed : w.Backed ts) {origin : ℕ} {answer : Answer}
    (produced : ∀ response, answer = .ok response → origin ∈ ts.keys) :
    (w.resolve origin answer).Backed ts := by
  unfold Waiter.resolve
  split
  · refine ⟨fun origin' response h => ?_, backed.received⟩
    obtain ⟨rfl, answered⟩ := Future.resolved.inj h
    exact produced response answered
  · exact backed

theorem stop (backed : w.Backed ts) : w.stop.Backed ts := by
  unfold Waiter.stop
  split
  · exact ⟨fun _ _ h => (nomatch h), backed.received⟩
  · exact ⟨backed.future, backed.received⟩

theorem deliver (backed : w.Backed ts) {origin : ℕ} {answer : Answer}
    (resolved : w.future = .resolved origin answer) :
    ({ w with waiting := false, received := w.received ++ [(origin, answer)] } : Waiter).Backed ts where
  future := backed.future
  received origin' response h := by
    rcases List.mem_append.mp h with h | h
    · exact backed.received origin' response h
    · obtain ⟨rfl, rfl⟩ := Prod.mk.inj (List.mem_singleton.mp h)
      exact backed.future _ _ resolved

end Waiter.Backed

namespace Proxy

/-- Every response that a waiter holds was produced by a task. -/
def Backed (p : Proxy) : Prop := ∀ c w, p.waiters.get? c = some w → w.Backed p.tasks

namespace Backed

variable {p p' : Proxy}

theorem init (cfg : ProxyConfig) (cost : CostModel) (budgets : BudgetManager) :
    (Proxy.init cfg cost budgets).Backed := by
  intro c w h
  exact absurd h (by simp [Proxy.init])

theorem of_same (backed : p.Backed) (waiters : p'.waiters = p.waiters)
    (more : ∀ r ∈ p.tasks.keys, r ∈ p'.tasks.keys) : p'.Backed := by
  intro c w h
  rw [waiters] at h
  exact (backed c w h).mono more

theorem modify (backed : p.Backed) (c : ℕ) {f : Waiter → Waiter}
    (waiters : p'.waiters = p.waiters.modify c f) (tasks : p'.tasks = p.tasks)
    (each : ∀ w, p.waiters.get? c = some w → (f w).Backed p.tasks) : p'.Backed := by
  intro c' w' h
  rw [waiters, Dict.get?_modify, Option.map_eq_some_iff] at h
  obtain ⟨w, hw, rfl⟩ := h
  rw [tasks]
  split
  · rename_i same
    exact each w (same ▸ hw)
  · exact backed c' w hw

theorem setResult (backed : p.Backed) {req : QueuedRequest} {answer : Answer}
    (produced : ∀ response, answer = .ok response → req.ref ∈ p.tasks.keys) :
    (p.setResult req answer).Backed := by
  cases h : p.pendingFutures.get? req.requestId with
  | none => exact backed.of_same (by simp [Proxy.setResult, h]) fun _ hr => hr
  | some c =>
      refine backed.modify c (f := fun w => w.resolve req.ref answer) ?_ rfl ?_
      · simp [Proxy.setResult, h]
      · exact fun w hw => (backed c w hw).resolve produced

theorem resolveError (backed : p.Backed) (req : QueuedRequest) (failure : Failure) :
    (p.resolveError req failure).Backed := by
  have error : (p.setResult req (.error failure)).Backed := backed.setResult fun _ h => nomatch h
  exact error.of_same rfl fun _ hr => hr

theorem onAdmissionTimeout (backed : p.Backed) (req : QueuedRequest) :
    (p.onAdmissionTimeout req).Backed := by
  have timeout : (p.setResult req .timeout).Backed := backed.setResult fun _ h => nomatch h
  exact timeout.of_same rfl fun _ hr => hr

theorem perform (backed : p.Backed) {d : DispatchDecision} (task : d.request.ref ∈ p.tasks.keys)
    (effect : Effect) : (p.perform cfg d effect).Backed := by
  cases effect with
  | resolveError failure => exact backed.resolveError d.request failure
  | setResult response => exact backed.setResult fun _ _ => task
  | put queue frame => exact backed.of_same rfl fun _ hr => hr
  | recordCompletion status duration inputTokens outputTokens =>
      exact backed.of_same rfl fun _ hr => hr

theorem schedulerLoop (backed : p.Backed) (o : Oracles) (now : ℚ) :
    (p.schedulerLoop cfg o now).Backed := by
  have timeouts (rs : List QueuedRequest) : (rs.foldl Proxy.onAdmissionTimeout
      { p with world := p.world.step cfg (.tick o now) }).Backed :=
    List.foldlRecOn rs _ (backed.of_same rfl fun _ hr => hr) fun _ h r _ => h.onAdmissionTimeout r
  unfold Proxy.schedulerLoop
  dsimp only
  rw [foldl_createTask]
  exact (timeouts _).of_same rfl fun _ hr => Dict.mem_keys_setAll_of_mem hr

theorem runTask (backed : p.Backed) (own : ∀ r t, p.tasks.get? r = some t → t.decision.request.ref = r)
    (ref : ℕ) (w : Wake) : (p.runTask cfg policy ref w).Backed := by
  unfold Proxy.runTask
  split
  · exact backed
  rename_i t ht
  split
  · exact backed
  dsimp only
  have here : t.decision.request.ref ∈ p.tasks.keys := by
    rw [own ref t ht]
    exact Dict.mem_keys_iff.mpr ⟨t, ht⟩
  generalize p.segmentOf cfg policy t _ w = s
  have performed : (s.effects.foldl (Proxy.perform cfg t.decision) p).Backed ∧
      (s.effects.foldl (Proxy.perform cfg t.decision) p).tasks = p.tasks := by
    refine List.foldlRecOn (motive := fun p' : Proxy => p'.Backed ∧ p'.tasks = p.tasks) _ _
      ⟨backed, rfl⟩ ?_
    rintro p' ⟨backed, tasks⟩ effect -
    exact ⟨backed.perform (tasks ▸ here) effect, (sameMaps_perform cfg _ _ _).tasks.trans tasks⟩
  exact performed.1.of_same rfl fun r hr => Dict.mem_keys_set.mpr (.inr hr)

theorem submit (backed : p.Backed) (req : QueuedRequest) : (p.submit cfg req).Backed := by
  unfold Proxy.submit
  dsimp only
  split
  · exact backed.of_same rfl fun _ hr => hr
  · intro c w hw
    dsimp only at hw
    rw [Dict.get?_set] at hw
    split at hw
    · obtain rfl := Option.some.inj hw
      exact ⟨fun _ _ h => (nomatch h), by simp⟩
    · exact backed c w hw

theorem closeStream (backed : p.Backed) (ref : ℕ) (requestId : String) :
    (p.closeStream ref requestId).Backed := by
  refine backed.of_same rfl fun r hr => ?_
  unfold Proxy.closeStream
  dsimp only
  split
  · exact hr
  · simpa [Dict.modify] using hr

/-- Every turn of the proxy keeps it. -/
theorem step (backed : p.Backed)
    (own : ∀ r t, p.tasks.get? r = some t → t.decision.request.ref = r) (e : Event) :
    (p.step cfg policy e).Backed := by
  cases e with
  | submit req => exact backed.submit req
  | tick o now => exact backed.schedulerLoop o now
  | task ref w => exact backed.runTask own ref w
  | taskDone ref =>
      simp only [Proxy.step, Proxy.taskDone]
      split
      · exact backed
      · split
        · exact backed.of_same rfl fun r hr => Dict.mem_keys_set.mpr (.inr hr)
        · exact backed
  | deliver ref =>
      simp only [Proxy.step, Proxy.deliver]
      split
      · exact backed
      · rename_i w hw
        split
        · rename_i origin answer _ resolved
          refine backed.modify ref (f := fun w =>
            { w with waiting := false, received := w.received ++ [(origin, answer)] }) rfl rfl
            fun w' hw' => ?_
          obtain rfl := Option.some.inj (hw.symm.trans hw')
          exact (backed ref w hw).deliver resolved
        · exact backed
  | clientTimeout ref =>
      simp only [Proxy.step, Proxy.clientTimeout]
      split
      · exact backed
      · split
        · exact backed.modify ref rfl rfl fun w' hw' => (backed ref w' hw').stop
        · exact backed
  | abandon ref =>
      simp only [Proxy.step, Proxy.abandon]
      split
      · exact backed
      · split
        · exact backed.modify ref rfl rfl fun w' hw' => (backed ref w' hw').stop
        · exact backed
  | openStream ref | readFrame ref => exact backed.of_same rfl fun _ hr => hr
  | consumerTimeout ref =>
      simp only [Proxy.step, Proxy.consumerTimeout]
      split
      · exact backed
      · split
        · exact closeStream (backed.of_same rfl fun _ hr => hr) ref _
        · exact backed
  | leave ref =>
      simp only [Proxy.step, Proxy.leave]
      split
      · exact backed
      · split
        · exact backed.of_same rfl fun _ hr => hr
        · exact backed.closeStream ref _
        · exact backed.closeStream ref _
        · exact backed
  | fastFail req reason =>
      simp only [Proxy.step, Proxy.fastFail]
      split
      · exact resolveError (backed.of_same rfl fun _ hr => hr) req _
      · exact backed

end Backed

end Proxy

end Roadstead
