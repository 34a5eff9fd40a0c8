import Roadstead.Lifecycle.Steps

/-!
# Who owns a request id

The maps of the proxy are keyed by request id, and so are the active maps and the
deques of the scheduler.  `Owns p id c` says that one of them has an entry of caller `c`
under `id`; `OneOwner` that all the entries under one id are of one caller.  No turn but
a submission adds an owner, so `OneOwner` is kept by every turn that does not submit an
id which has one.

`Parties` is what the callers themselves keep: a waiter and a consumer that have not
stopped are in the map under their id, and whatever is on its way to a caller carries
that caller's identity.  Resolving a caller by id keeps it as long as the request owns
its id (`Parties.perform`).
-/

namespace Roadstead

open Scheduler

variable {cfg : ProxyConfig} {p p' : Proxy}

/-! ### Owners -/

/-- Caller `c` has an entry under `id`. -/
def Owns (p : Proxy) (id : String) (c : ℕ) : Prop :=
  p.pendingFutures.get? id = some c ∨ p.pendingStreams.get? id = some c ∨
    p.inflightTasks.get? id = some c ∨
    ∃ r ∈ p.world.sched.live, r.requestId = id ∧ r.ref = c

/-- All entries under one id are of one caller. -/
def OneOwner (p : Proxy) : Prop := ∀ id c c', Owns p id c → Owns p id c' → c = c'

theorem OneOwner.of_subset (one : OneOwner p) (fewer : ∀ id c, Owns p' id c → Owns p id c) :
    OneOwner p' :=
  fun id c c' h h' => one id c c' (fewer id c h) (fewer id c' h')

variable {r : QueuedRequest}

/-- What a request keeps identifies its owner. -/
theorem owns_of_core
    (h : r.core ∈ p.world.sched.live.map QueuedRequest.core) : Owns p r.requestId r.ref := by
  obtain ⟨r', hr', hcore⟩ := Multiset.mem_map.mp h
  exact .inr (.inr (.inr ⟨r', hr', congrArg (fun c => c.2.1) hcore, congrArg Prod.fst hcore⟩))

theorem owns_of_queued_core
    (h : r.core ∈ p.world.sched.queued.map QueuedRequest.core) : Owns p r.requestId r.ref := by
  refine owns_of_core ?_
  rw [Scheduler.live, Multiset.map_add, Multiset.mem_add]
  exact .inl h

theorem owns_of_live (hr : r ∈ p.world.sched.live) :
    Owns p r.requestId r.ref :=
  .inr (.inr (.inr ⟨r, hr, rfl, rfl⟩))

theorem owns_of_queued (hr : r ∈ p.world.sched.queued) :
    Owns p r.requestId r.ref :=
  owns_of_live (Multiset.mem_add.mpr (.inl hr))

/-- What is live after a tick was live before, up to what a move rewrites. -/
theorem Consistent.core_mem_of_tick {w : World} (inv : Consistent cfg w) (o : Oracles) (now : ℚ)
    (hr : r ∈ (w.step cfg (.tick o now)).sched.live) :
    r.core ∈ w.sched.live.map QueuedRequest.core := by
  rw [Scheduler.live, Multiset.map_add, Multiset.mem_add]
  rcases Multiset.mem_add.mp hr with hr | hr
  · left
    rw [← inv.wf.tick_core o now, Multiset.mem_add, Multiset.mem_add]
    exact .inl (.inl (Multiset.mem_map_of_mem _ hr))
  · rw [inv.running_tick] at hr
    rcases Multiset.mem_add.mp hr with hr | hr
    · exact .inr (Multiset.mem_map_of_mem _ hr)
    · obtain ⟨d, hd, rfl⟩ := List.mem_map.mp (Multiset.mem_coe.mp hr)
      exact .inl (core_mem_of_decision inv.wf hd)

/-- What is live after a completion or a cancellation was live before. -/
theorem Consistent.live_complete {w : World} (inv : Consistent cfg w) (record : CompletionRecord)
    (hr : r ∈ (w.step cfg (.complete record)).sched.live) :
    r ∈ w.sched.live := by
  rcases Multiset.mem_add.mp hr with hr | hr
  · rw [w.queued_complete cfg record] at hr
    exact Multiset.mem_add.mpr (.inl hr)
  · exact Multiset.mem_add.mpr (.inr (inv.running_complete hr).1)

theorem Consistent.foldl_complete (records : List CompletionRecord) :
    ∀ {w : World}, Consistent cfg w →
      let w' := records.foldl (fun w record => w.step cfg (.complete record)) w
      Consistent cfg w' ∧ w'.dispatched = w.dispatched ∧
        ∀ r ∈ w'.sched.live, r ∈ w.sched.live := by
  induction records with
  | nil => exact fun inv => ⟨inv, rfl, fun _ hr => hr⟩
  | cons record records ih =>
      intro w inv
      obtain ⟨consistent, dispatched, live⟩ := ih (inv.complete record)
      exact ⟨consistent, dispatched, fun r hr => inv.live_complete record (live r hr)⟩

theorem live_cancel (cfg : ProxyConfig) {w : World} (id : String)
    (hr : r ∈ (w.step cfg (.cancel id)).sched.live) : r ∈ w.sched.live := by
  rcases w.step_cancel cfg id with ⟨-, same⟩ | ⟨ep, b, a, req, rest, holds, -, stepped⟩
  · rwa [same] at hr
  · rw [stepped] at hr
    rw [Scheduler.live, queued_takeOut holds, Multiset.cons_add]
    exact Multiset.mem_cons_of_mem hr

/-! ### Slots that stay taken -/

/-- A tick dispatches no id that is in flight. -/
theorem Consistent.active_tick {w : World} (inv : Consistent cfg w) (o : Oracles) (now : ℚ)
    {ep id : String} {ar : ActiveRequest} (har : (w.sched.activeOf ep).get? id = some ar) :
    ((w.step cfg (.tick o now)).sched.activeOf ep).get? id = some ar := by
  have expired := inv.expire o now
  refine (dispatchAll_live (fun p => (p.sched.activeOf ep).get? id = some ar) expired.wf
    expired.unique har ?_).2.2
  intro p m p' hwf hunique hp move _
  cases move with
  | @dispatch ep' epCfg band agentId req rest occ attempt configured head =>
      rw [activeOf_afterDispatch]
      split
      · rename_i hep
        rw [← hep, Dict.get?_set_of_ne]
        · exact hp
        · rintro rfl
          exact hunique.not_active hwf (mem_queued_of_head head) ep
            (Dict.mem_keys_iff.mpr ⟨ar, hp⟩)
      · exact hp
  | @spill ep' epCfg band agentId req rest target attempt configured head =>
      rw [hwf.activeOf_afterSpill head]
      exact hp

/-- A completion frees the slot of its own id. -/
theorem active_complete (cfg : ProxyConfig) {w : World} {record : CompletionRecord}
    {ep id : String} {ar : ActiveRequest} (har : (w.sched.activeOf ep).get? id = some ar)
    (hid : id ≠ record.requestId) :
    ((w.step cfg (.complete record)).sched.activeOf ep).get? id = some ar := by
  rcases w.step_complete cfg record with ⟨-, same⟩ | ⟨ep', ar', -, stepped⟩
  · rwa [same]
  · rw [stepped, activeOf_finish]
    split
    · rename_i hep
      rw [Dict.get?_erase_of_ne _ hid, ← hep]
      exact har
    · exact har

theorem active_foldl_complete (cfg : ProxyConfig) {records : List CompletionRecord}
    {ep id : String} {ar : ActiveRequest} (other : ∀ record ∈ records, id ≠ record.requestId) :
    ∀ {w : World}, (w.sched.activeOf ep).get? id = some ar →
      ((records.foldl (fun w record => w.step cfg (.complete record)) w).sched.activeOf ep).get? id
        = some ar := by
  induction records with
  | nil => exact fun har => har
  | cons record records ih =>
      intro w har
      exact ih (fun r hr => other r (List.mem_cons_of_mem record hr))
        (active_complete cfg har (other record List.mem_cons_self))

theorem activeOf_cancel (cfg : ProxyConfig) (w : World) (id ep : String) :
    (w.step cfg (.cancel id)).sched.activeOf ep = w.sched.activeOf ep := by
  rcases w.step_cancel cfg id with ⟨-, same⟩ | ⟨ep', b, a, req, rest, -, -, stepped⟩
  · rw [same]
  · rw [stepped]
    rfl

/-! ### What the callers keep -/

/-- Nothing of the waiter of caller `c` comes from another request, and it receives
one result at most. -/
structure Waiter.Own (c : ℕ) (w : Waiter) : Prop where
  future : ∀ origin answer, w.future = .resolved origin answer → origin = c
  received : ∀ x ∈ w.received, x.1 = c
  once : w.received.length ≤ if w.waiting then 0 else 1

/-- The terminal frames among those received. -/
def Consumer.terminals (k : Consumer) : List (ℕ × Frame) :=
  k.received.filter fun x => x.2.isTerminal

/-- Nothing of the consumer of caller `c` comes from another request, and it receives
one terminal frame at most. -/
structure Consumer.Own (c : ℕ) (k : Consumer) : Prop where
  queue : ∀ x ∈ k.queue, x.1 = c
  received : ∀ x ∈ k.received, x.1 = c
  once : k.terminals.length ≤ 1
  unfinished : k.phase = .opening ∨ k.phase = .reading → k.terminals = []

/-- What holds of all waiters and consumers. -/
structure Parties (p : Proxy) : Prop where
  waiting : ∀ c w, p.waiters.get? c = some w → w.waiting = true →
    p.pendingFutures.get? w.requestId = some c
  streaming : ∀ c k, p.consumers.get? c = some k → k.phase ≠ .gone →
    p.pendingStreams.get? k.requestId = some c
  waiters : ∀ c w, p.waiters.get? c = some w → w.Own c
  consumers : ∀ c k, p.consumers.get? c = some k → k.Own c

theorem Waiter.Own.resolve {c : ℕ} {w : Waiter} (own : w.Own c) (answer : Answer) :
    (w.resolve c answer).Own c := by
  unfold Waiter.resolve
  split
  · refine ⟨?_, own.received, own.once⟩
    intro origin answer' h
    exact ((Future.resolved.inj h).1).symm
  · exact own

/-- A waiter that waits has received nothing. -/
theorem Waiter.Own.received_eq_nil {c : ℕ} {w : Waiter} (own : w.Own c)
    (waiting : w.waiting = true) : w.received = [] := by
  simpa [waiting] using own.once

theorem Waiter.Own.deliver {c : ℕ} {w : Waiter} (own : w.Own c) (waiting : w.waiting = true)
    {origin : ℕ} {answer : Answer} (resolved : w.future = .resolved origin answer) :
    ({ w with waiting := false, received := w.received ++ [(origin, answer)] } : Waiter).Own c := by
  have none := own.received_eq_nil waiting
  refine ⟨own.future, ?_, by simp [none]⟩
  intro x hx
  rw [none, List.nil_append, List.mem_singleton] at hx
  rw [hx]
  exact own.future origin answer resolved

theorem Waiter.waiting_stop (w : Waiter) : w.stop.waiting = false := by
  unfold Waiter.stop
  split <;> rfl

theorem Waiter.Own.stop {c : ℕ} {w : Waiter} (own : w.Own c) (waiting : w.waiting = true) :
    w.stop.Own c := by
  have none := own.received_eq_nil waiting
  unfold Waiter.stop
  split
  · exact ⟨by simp, own.received, by simp [none]⟩
  · exact ⟨own.future, own.received, by simp [none]⟩

theorem Consumer.Own.putNowait {c : ℕ} {k : Consumer} (own : k.Own c) (frame : Frame) :
    (k.putNowait c frame).Own c := by
  unfold Consumer.putNowait
  split
  · refine ⟨?_, own.received, own.once, own.unfinished⟩
    intro x hx
    rcases List.mem_append.mp hx with hx | hx
    · exact own.queue x hx
    · rw [List.mem_singleton.mp hx]
  · exact own

theorem Consumer.Own.gone {c : ℕ} {k : Consumer} (own : k.Own c) :
    ({ k with phase := .gone } : Consumer).Own c :=
  ⟨own.queue, own.received, own.once, by simp⟩

/-- The frame a consumer sends when its wait runs out ends the stream. -/
theorem Consumer.Own.timeout {c : ℕ} {k : Consumer} (own : k.Own c) (reading : k.phase = .reading)
    (failure : Failure) :
    ({ k with received := k.received ++ [(c, .error failure)], phase := .gone } : Consumer).Own c := by
  have none : k.received.filter (fun x => x.2.isTerminal) = [] := own.unfinished (.inr reading)
  refine ⟨own.queue, ?_, ?_, by simp⟩
  · intro x hx
    rcases List.mem_append.mp hx with hx | hx
    · exact own.received x hx
    · rw [List.mem_singleton.mp hx]
  · rw [Consumer.terminals, List.filter_append, none, List.nil_append]
    exact List.length_filter_le _ _

theorem Consumer.Own.read {c : ℕ} {k : Consumer} (own : k.Own c) (reading : k.phase = .reading) :
    k.read.Own c := by
  have none : k.received.filter (fun x => x.2.isTerminal) = [] := own.unfinished (.inr reading)
  unfold Consumer.read
  split
  · exact own
  · rename_i origin frame queue hqueue
    have mine : ∀ x ∈ (origin, frame) :: queue, x.1 = c := hqueue ▸ own.queue
    refine ⟨fun x hx => mine x (List.mem_cons_of_mem _ hx), ?_, ?_, ?_⟩
    · intro x hx
      rcases List.mem_append.mp hx with hx | hx
      · exact own.received x hx
      · exact mine x (List.mem_singleton.mp hx ▸ List.mem_cons_self)
    · rw [Consumer.terminals, List.filter_append, none, List.nil_append]
      exact List.length_filter_le _ _
    · intro hphase
      rw [Consumer.terminals, List.filter_append, none, List.nil_append]
      cases hterminal : frame.isTerminal <;> simp [hterminal] at hphase ⊢

namespace Parties

/-- Rewriting the waiter of `c` when it goes on waiting under its id. -/
theorem modify_waiter (parties : Parties p) (c : ℕ) {f : Waiter → Waiter}
    (same : ∀ w, (f w).requestId = w.requestId ∧ (f w).waiting = w.waiting)
    (own : ∀ w, w.Own c → (f w).Own c) :
    Parties { p with waiters := p.waiters.modify c f } where
  waiting := by
    intro c' w' hw' hwaiting
    rw [Dict.get?_modify, Option.map_eq_some_iff] at hw'
    obtain ⟨w, hw, rfl⟩ := hw'
    by_cases hc : c' = c
    · rw [if_pos hc] at hwaiting ⊢
      rw [(same w).2] at hwaiting
      rw [(same w).1]
      exact parties.waiting c' w hw hwaiting
    · rw [if_neg hc] at hwaiting ⊢
      exact parties.waiting c' w hw hwaiting
  streaming := parties.streaming
  waiters := by
    intro c' w' hw'
    rw [Dict.get?_modify, Option.map_eq_some_iff] at hw'
    obtain ⟨w, hw, rfl⟩ := hw'
    split
    · rename_i hc
      exact hc ▸ own w (hc ▸ parties.waiters c' w hw)
    · exact parties.waiters c' w hw
  consumers := parties.consumers

/-- Rewriting the consumer of `c` when it keeps its id and does not come back. -/
theorem modify_consumer (parties : Parties p) (c : ℕ) {f : Consumer → Consumer}
    (same : ∀ k, (f k).requestId = k.requestId)
    (gone : ∀ k, k.phase = .gone → (f k).phase = .gone) (own : ∀ k, k.Own c → (f k).Own c) :
    Parties { p with consumers := p.consumers.modify c f } where
  waiting := parties.waiting
  streaming := by
    intro c' k' hk' hphase
    rw [Dict.get?_modify, Option.map_eq_some_iff] at hk'
    obtain ⟨k, hk, rfl⟩ := hk'
    by_cases hc : c' = c
    · rw [if_pos hc] at hphase ⊢
      rw [same k]
      exact parties.streaming c' k hk fun h => hphase (gone k h)
    · rw [if_neg hc] at hphase ⊢
      exact parties.streaming c' k hk hphase
  waiters := parties.waiters
  consumers := by
    intro c' k' hk'
    rw [Dict.get?_modify, Option.map_eq_some_iff] at hk'
    obtain ⟨k, hk, rfl⟩ := hk'
    split
    · rename_i hc
      exact hc ▸ own k (hc ▸ parties.consumers c' k hk)
    · exact parties.consumers c' k hk

/-- Steps that touch no caller and no map a caller waits in. -/
theorem of_same (parties : Parties p) (futures : p'.pendingFutures = p.pendingFutures)
    (streams : p'.pendingStreams = p.pendingStreams) (waiters : p'.waiters = p.waiters)
    (consumers : p'.consumers = p.consumers) : Parties p' where
  waiting := by
    rw [futures, waiters]
    exact parties.waiting
  streaming := by
    rw [streams, consumers]
    exact parties.streaming
  waiters := by
    rw [waiters]
    exact parties.waiters
  consumers := by
    rw [consumers]
    exact parties.consumers

/-! ### Resolving by id -/

/-- The request `req` finds no caller but its own under its id. -/
structure Reaches (p : Proxy) (req : QueuedRequest) : Prop where
  futures : ∀ c, p.pendingFutures.get? req.requestId = some c → c = req.ref
  streams : ∀ c, p.pendingStreams.get? req.requestId = some c → c = req.ref

variable {req : QueuedRequest}

theorem reaches_of_owns (one : OneOwner p)
    (owns : Owns p req.requestId req.ref) : Reaches p req where
  futures _ h := one _ _ _ (.inl h) owns
  streams _ h := one _ _ _ (.inr (.inl h)) owns

theorem Reaches.of_same (reaches : Reaches p req) (same : p.SameMaps p') : Reaches p' req where
  futures := by
    rw [same.pendingFutures]
    exact reaches.futures
  streams := by
    rw [same.pendingStreams]
    exact reaches.streams

theorem setResult (parties : Parties p) (reaches : Reaches p req)
    (answer : Answer) : Parties (p.setResult req answer) := by
  cases hc : p.pendingFutures.get? req.requestId with
  | none => exact parties.of_same rfl rfl (by simp [Proxy.setResult, hc]) rfl
  | some c =>
      obtain rfl := reaches.futures c hc
      refine (parties.modify_waiter req.ref (f := fun w => w.resolve req.ref answer) ?_ ?_).of_same
        rfl rfl (by simp [Proxy.setResult, hc]) rfl
      · intro w
        unfold Waiter.resolve
        split <;> exact ⟨rfl, rfl⟩
      · exact fun w own => own.resolve answer

theorem putFrame (parties : Parties p) (c : ℕ) (frame : Frame) :
    Parties (p.putFrame c c frame) := by
  refine parties.modify_consumer c ?_ ?_ fun k own => own.putNowait frame
  · intro k
    unfold Consumer.putNowait
    split <;> rfl
  · intro k hk
    unfold Consumer.putNowait
    split <;> exact hk

theorem putNowait (parties : Parties p) (reaches : Reaches p req)
    (frame : Frame) : Parties (p.putNowait req frame) := by
  cases hc : p.pendingStreams.get? req.requestId with
  | none => exact parties.of_same rfl rfl rfl (by simp [Proxy.putNowait, hc])
  | some c =>
      obtain rfl := reaches.streams c hc
      exact (parties.putFrame req.ref frame).of_same rfl rfl rfl (by simp [Proxy.putNowait, hc])

theorem resolveError (parties : Parties p) (reaches : Reaches p req)
    (failure : Failure) : Parties (p.resolveError req failure) :=
  (parties.setResult reaches (.error failure)).putNowait ⟨reaches.futures, reaches.streams⟩
    (.error failure)

theorem onAdmissionTimeout (parties : Parties p) (reaches : Reaches p req) :
    Parties (p.onAdmissionTimeout req) :=
  (parties.setResult reaches .timeout).putNowait ⟨reaches.futures, reaches.streams⟩
    (.error { message := "timeout" })

/-- One effect of a task whose request owns its id and which holds its own queue. -/
theorem perform (cfg : ProxyConfig) (parties : Parties p) {d : DispatchDecision}
    (reaches : Reaches p d.request) {e : Effect} (own : ∀ q, e.queue? = some q → q = d.request.ref) :
    Parties (p.perform cfg d e) := by
  cases e with
  | resolveError failure => exact parties.resolveError reaches failure
  | setResult response => exact parties.setResult reaches _
  | put queue frame =>
      obtain rfl := own queue rfl
      exact parties.putFrame _ frame
  | recordCompletion status duration inputTokens outputTokens =>
      exact parties.of_same rfl rfl rfl rfl

theorem foldl_perform {d : DispatchDecision} {effects : List Effect}
    (own : ∀ e ∈ effects, ∀ q, e.queue? = some q → q = d.request.ref) :
    ∀ {p : Proxy}, Parties p → Reaches p d.request →
      Parties (effects.foldl (Proxy.perform cfg d) p) := by
  induction effects with
  | nil => exact fun parties _ => parties
  | cons e effects ih =>
      intro p parties reaches
      have first := perform cfg parties reaches (own e List.mem_cons_self)
      exact ih (fun e' he' => own e' (List.mem_cons_of_mem e he')) first
        (reaches.of_same (Proxy.sameMaps_perform cfg d p e))

theorem foldl_onAdmissionTimeout {rs : List QueuedRequest} :
    ∀ {p : Proxy}, Parties p → (∀ r ∈ rs, Reaches p r) →
      Parties (rs.foldl Proxy.onAdmissionTimeout p) := by
  induction rs with
  | nil => exact fun parties _ => parties
  | cons r rs ih =>
      intro p parties reaches
      refine ih (parties.onAdmissionTimeout (reaches r List.mem_cons_self)) ?_
      intro r' hr'
      have before := reaches r' (List.mem_cons_of_mem r hr')
      exact ⟨before.futures, before.streams⟩

/-! ### A caller that stops -/

/-- The waiter of `c` stops, and takes its own entry with it. -/
theorem stopWaiting (parties : Parties p) {c : ℕ} {w : Waiter} (hw : p.waiters.get? c = some w)
    (waiting : w.waiting = true) {f : Waiter → Waiter} (stopped : (f w).waiting = false)
    (own : (f w).Own c) : Parties (p.stopWaiting c w.requestId f) where
  waiting := by
    intro c' w' hw' hwaiting
    rw [Proxy.stopWaiting, Dict.get?_modify, Option.map_eq_some_iff] at hw'
    obtain ⟨v, hv, rfl⟩ := hw'
    by_cases hc : c' = c
    · subst hc
      obtain rfl := Option.some.inj (hw.symm.trans hv)
      rw [if_pos rfl, stopped] at hwaiting
      exact absurd hwaiting (by simp)
    · rw [if_neg hc] at hwaiting ⊢
      exact Dict.get?_erase_of_value_ne (parties.waiting c w hw waiting)
        (parties.waiting c' v hv hwaiting) hc
  streaming := parties.streaming
  waiters := by
    intro c' w' hw'
    rw [Proxy.stopWaiting, Dict.get?_modify, Option.map_eq_some_iff] at hw'
    obtain ⟨v, hv, rfl⟩ := hw'
    by_cases hc : c' = c
    · subst hc
      obtain rfl := Option.some.inj (hw.symm.trans hv)
      rw [if_pos rfl]
      exact own
    · rw [if_neg hc]
      exact parties.waiters c' v hv
  consumers := parties.consumers

/-- The consumer of `c` goes, and takes at most its own entry with it. -/
theorem goes (parties : Parties p) {c : ℕ} {k : Consumer} (hk : p.consumers.get? c = some k)
    {f : Consumer → Consumer} (gone : (f k).phase = .gone) (own : (f k).Own c)
    (consumers : p'.consumers = p.consumers.modify c f)
    (streams : ∀ id c', p.pendingStreams.get? id = some c' → c' ≠ c →
      p'.pendingStreams.get? id = some c')
    (futures : p'.pendingFutures = p.pendingFutures) (waiters : p'.waiters = p.waiters) :
    Parties p' where
  waiting := by
    rw [futures, waiters]
    exact parties.waiting
  streaming := by
    intro c' k' hk' hphase
    rw [consumers, Dict.get?_modify, Option.map_eq_some_iff] at hk'
    obtain ⟨v, hv, rfl⟩ := hk'
    by_cases hc : c' = c
    · subst hc
      obtain rfl := Option.some.inj (hk.symm.trans hv)
      rw [if_pos rfl] at hphase
      exact absurd gone hphase
    · rw [if_neg hc] at hphase ⊢
      exact streams _ c' (parties.streaming c' v hv hphase) hc
  waiters := by
    rw [waiters]
    exact parties.waiters
  consumers := by
    intro c' k' hk'
    rw [consumers, Dict.get?_modify, Option.map_eq_some_iff] at hk'
    obtain ⟨v, hv, rfl⟩ := hk'
    by_cases hc : c' = c
    · subst hc
      obtain rfl := Option.some.inj (hk.symm.trans hv)
      rw [if_pos rfl]
      exact own
    · rw [if_neg hc]
      exact parties.consumers c' v hv

end Parties

end Roadstead
