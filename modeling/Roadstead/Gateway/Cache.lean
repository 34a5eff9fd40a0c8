import Roadstead.Gateway.Dwell
import Roadstead.Gateway.Identity
import Roadstead.Lifecycle.Answers

/-!
# Where a cached response comes from

`handle_submit` computes the cache key of a request from the endpoint and the payload it
was created with.  The handler writes the response under that key when the answer is back
and was corrected.  In between the request may have been moved: by the circuit breaker,
by `fast_fail_interactive`, or by a spill.  The response of the other model is then
served to every later caller of the endpoint (`cached_from_failover_target`).

`cache_provenance` is the result for the runs in which no request that has a cache key is
moved and no id is reused: whatever the cache returns was put there by a handler whose
own request was dispatched to the endpoint of the key.

The proof has two parts.  What a lookup returns was put under that key
(`DeterministicCache.Holds`); and the handler that puts it holds the answer of its own
task, whose request never moved (`Pinned`).
-/

namespace Roadstead

open Scheduler

variable {cfg : ProxyConfig} {policy : Policy} {g : Gateway}

/-! ### What the cache holds -/

namespace DeterministicCache

variable {c : DeterministicCache} {key key' : CacheKey} {response : BackendResponse} {now : ℚ}

/-- There is an entry for `key` with this response. -/
def Holds (c : DeterministicCache) (key : CacheKey) (response : BackendResponse) : Prop :=
  ∃ e, c.entries.get? key = some e ∧ e.response = response

theorem holds_of_get (h : (c.get key now).1 = some response) : c.Holds key response := by
  unfold get at h
  split at h
  · exact absurd h (by simp)
  · rename_i e he
    split at h
    · exact absurd h (by simp)
    · exact ⟨e, he, Option.some.inj h⟩

/-- A lookup adds nothing. -/
theorem holds_lookup (looked : Option CacheKey) (now : ℚ)
    (h : (c.lookup looked now).2.Holds key response) : c.Holds key response := by
  unfold lookup at h
  split at h
  · exact h
  · rename_i key'
    unfold get at h
    split at h
    · exact h
    · rename_i e he
      obtain ⟨e', he', rfl⟩ := h
      split at he'
      · exact ⟨e', Dict.get?_of_get?_erase he', rfl⟩
      · rw [Dict.get?_set] at he'
        split at he'
        · rename_i same
          obtain rfl := Option.some.inj he'
          exact ⟨e, same ▸ he, rfl⟩
        · exact ⟨e', Dict.get?_of_get?_erase he', rfl⟩

/-- Eviction adds nothing. -/
theorem holds_evict (h : c.evict.Holds key response) : c.Holds key response := by
  obtain ⟨e, he, rfl⟩ := h
  refine ⟨e, ?_, rfl⟩
  unfold evict at he
  dsimp only at he
  generalize c.entries.keys.take (c.entries.size - c.maxSize) = keys at he
  induction keys generalizing c with
  | nil => exact he
  | cons k keys ih =>
      exact Dict.get?_of_get?_erase (ih (c := { c with entries := c.entries.erase k }) he)

/-- What is held after a `put` was put, or it was held before. -/
theorem holds_put {put : BackendResponse} {origin : ℕ}
    (h : (c.put key' put origin now).Holds key response) :
    key = key' ∧ response = put ∨ c.Holds key response := by
  obtain ⟨e, he, rfl⟩ := holds_evict h
  rw [Dict.get?_set] at he
  split at he
  · rename_i same
    obtain rfl := Option.some.inj he
    exact .inl ⟨same, rfl⟩
  · exact .inr ⟨e, Dict.get?_of_get?_erase he, rfl⟩

end DeterministicCache

/-! ### The property and its condition -/

namespace Gateway

/-- The endpoint of the cache key of a request. -/
def keyed (g : Gateway) (ref : ℕ) : Option String :=
  (g.handlers.get? ref).bind fun handler => handler.cacheKey.map fun _ => handler.asked

/-- In this turn the handler of `ref` caches `response`, which it has from its own request.
The request was created with `payload`, and was dispatched to `endpoint`. -/
structure Produces (g : Gateway) (e : GatewayEvent) (endpoint : String) (payload : Payload)
    (response : BackendResponse) : Prop where
  finished : ∃ ref result now handler t, e = .finish ref result now ∧ result.Cacheable ∧
    result.response = response ∧ g.answerOf ref = some ref ∧
    g.handlers.get? ref = some handler ∧ handler.payload = payload ∧
    g.proxy.tasks.get? ref = some t ∧ t.decision.request.endpoint = endpoint

/-- No request that has a cache key is moved. -/
def pinned (cfg : ProxyConfig) (g : Gateway) : GatewayEvent → Bool
  | .turn (.tick _ now) =>
      decide (∀ r ∈ g.proxy.world.sched.queued, (g.keyed r.ref).isSome = true →
        ∀ epCfg ∈ (cfg.endpoints.get? r.endpoint).toList,
          canSpillTo cfg epCfg.spillTo r = false ∨ g.healthy cfg now epCfg.spillTo = false)
  | .fastFailInteractive ep _ now =>
      (g.proxy.world.sched.queuedRequests ep [.interactive, .foreground]).all fun r =>
        (g.keyed r.ref).isNone || ((g.refreshed cfg now).plan cfg now r).target?.isNone
  | e =>
      (g.handled cfg e).all fun (_, req, now) =>
        (DeterministicCache.keyOf req).isNone || g.healthy cfg now req.endpoint ||
          ((g.refreshed cfg now).plan cfg now req).target?.isNone

end Gateway

/-- What the cache returns was produced by the endpoint of the key, for the payload of
the key, and it passed the corrections. -/
def CacheProvenance (cfg : ProxyConfig) (policy : Policy) (start : Gateway)
    (events : List GatewayEvent) : Prop :=
  ∀ endpoint payload now response,
    ((Gateway.run cfg policy start events).cache.get (endpoint, payload) now).1 = some response →
      ∃ before e after, events = before ++ e :: after ∧
        (Gateway.run cfg policy start before).Produces e endpoint payload response

/-! ### The invariant -/

/-- A request that has a cache key stands on the endpoint of the key. -/
def QueuedRequest.Pinned (keyed : ℕ → Option String) (r : QueuedRequest) : Prop :=
  ∀ ep, keyed r.ref = some ep → r.endpoint = ep

namespace Gateway

/-- The invariant of the runs that move no request with a cache key. -/
structure Pinned (cfg : ProxyConfig) (g : Gateway) : Prop where
  routed : Routed cfg g.proxy
  created : LoadsCreated cfg g
  backed : g.proxy.Backed
  handled : ∀ ref handler, g.handlers.get? ref = some handler →
    ref < g.proxy.world.enqueued.length ∧
      ∀ key, handler.cacheKey = some key → key = (handler.asked, handler.payload)
  every : g.proxy.Every (QueuedRequest.Pinned g.keyed)

theorem keyOf_eq {req : QueuedRequest} {key : CacheKey}
    (h : DeterministicCache.keyOf req = some key) : key = (req.endpoint, req.payload) := by
  unfold DeterministicCache.keyOf DeterministicCache.cacheKey at h
  split at h
  · exact absurd h (by simp)
  · split at h
    · exact absurd h (by simp)
    · split at h
      · exact absurd h (by simp)
      · exact (Option.some.inj h).symm

namespace Pinned

theorem init (cfg : ProxyConfig) (cost : CostModel) (budgets : BudgetManager) (shedDepth : ℕ) :
    Pinned cfg (Gateway.init cfg cost budgets shedDepth) where
  routed := .init cfg cost budgets
  created := .init cfg cost budgets shedDepth
  backed := .init cfg cost budgets
  handled := by
    intro ref handler h
    exact absurd h (by simp [Gateway.init])
  every := .init cfg cost budgets

/-- The requests that were there keep their keys when one more is given a handler. -/
theorem every_of_lt (inv : Pinned cfg g) {keyed : ℕ → Option String}
    (same : ∀ ref < g.proxy.world.enqueued.length, keyed ref = g.keyed ref) :
    g.proxy.Every (QueuedRequest.Pinned keyed) where
  world := by
    intro r hr ep h
    rw [same _ (inv.routed.tasked.consistent.ref_lt hr)] at h
    exact inv.every.world r hr ep h
  tasks := by
    intro ref t ht ep h
    have dispatched := (inv.routed.tasked.own ref t ht).2.1
    have hr := inv.routed.tasked.consistent.mem_everywhere_of_dispatched dispatched
    rw [same _ (inv.routed.tasked.consistent.ref_lt hr)] at h
    exact inv.every.tasks ref t ht ep h

/-- A turn that leaves the handlers alone and enqueues nothing. -/
theorem of_same (inv : Pinned cfg g) {g' : Gateway} (created : LoadsCreated cfg g')
    (routed : Routed cfg g'.proxy) (backed : g'.proxy.Backed)
    (enqueued : g'.proxy.world.enqueued = g.proxy.world.enqueued)
    (handlers : g'.handlers = g.handlers) (every : g'.proxy.Every (QueuedRequest.Pinned g.keyed)) :
    Pinned cfg g' := by
  have keyed : g'.keyed = g.keyed := by
    funext ref
    rw [Gateway.keyed, Gateway.keyed, handlers]
  refine ⟨routed, created, backed, ?_, keyed ▸ every⟩
  rw [handlers, enqueued]
  exact inv.handled

theorem own (inv : Pinned cfg g) (ref : ℕ) (t : Task) (ht : g.proxy.tasks.get? ref = some t) :
    t.decision.request.ref = ref :=
  (inv.routed.tasked.own ref t ht).1

/-- The turns that admit a request. -/
theorem admitting (inv : Pinned cfg g) {e : GatewayEvent} (admitting : Admitting e)
    (unclaimed : g.unclaimed cfg e = true)
    (pinned : (g.handled cfg e).all (fun x => (DeterministicCache.keyOf x.2.1).isNone ||
      g.healthy cfg x.2.2 x.2.1.endpoint ||
        ((g.refreshed cfg x.2.2).plan cfg x.2.2 x.2.1).target?.isNone) = true) :
    Pinned cfg (g.step cfg policy e) := by
  have created : LoadsCreated cfg (g.step cfg policy e) := inv.created.step e
  have routed : Routed cfg (g.step cfg policy e).proxy := routed_step inv.routed unclaimed
  rcases admission_cases cfg policy g admitting with
    quiet | ⟨g₀, load, counted, now, g₁, req₁, source, same, brings, past, heq⟩
  · exact inv.of_same created routed (quiet.proxy ▸ inv.backed) (by rw [quiet.proxy]) quiet.handlers
      (quiet.proxy ▸ inv.every)
  · obtain ⟨_, -, hkey⟩ := brings.created inv.created
    obtain ⟨submitted, stepped, -⟩ :=
      admitted_frame same past load.submission (load.handler counted)
    rw [← heq] at submitted stepped
    have length : (g.step cfg policy e).proxy.world.enqueued.length =
        g.proxy.world.enqueued.length + 1 := by
      rw [submitted, Proxy.world_submit]
      exact List.length_append
    refine ⟨routed, created, submitted ▸ inv.backed.submit _, ?_, ?_⟩
    · intro ref handler h
      rw [length]
      rw [stepped, Dict.get?_set] at h
      split at h
      · rename_i here
        obtain rfl := Option.some.inj h
        refine ⟨by omega, fun key h => ?_⟩
        exact keyOf_eq (hkey.symm.trans h)
      · obtain ⟨lt, key⟩ := inv.handled ref handler h
        exact ⟨by omega, key⟩
    · have keyed : ∀ ref < g.proxy.world.enqueued.length,
          (g.step cfg policy e).keyed ref = g.keyed ref := by
        intro ref lt
        rw [Gateway.keyed, Gateway.keyed, stepped, Dict.get?_set_of_ne _ lt.ne]
      rw [submitted]
      refine (inv.every_of_lt keyed).submit inv.routed.tasked.consistent.wf ?_
      -- Only a request without a cache key may have been rerouted.
      intro ep h
      have here : (g.step cfg policy e).keyed g.proxy.world.enqueued.length = some ep := h
      rw [Gateway.keyed, stepped, Dict.get?_set_self, Option.bind_some, Option.map_eq_some_iff] at here
      obtain ⟨key, hkey', rfl⟩ := here
      show (load.submission.prepare req₁).endpoint = load.req.endpoint
      rw [Submission.endpoint_prepare]
      cases past with
      | closed _ | deferred _ _ _ => rfl
      | @rerouted target sick plan =>
          have looked : DeterministicCache.keyOf load.req = some key := hkey.symm.trans hkey'
          rw [brings.handled] at pinned
          rw [same.plan_refreshed] at plan
          rw [same.healthy] at sick
          simp [looked, sick, plan, Failover.FailoverPlan.target?] at pinned

/-- A turn of the proxy spills no request that has a cache key. -/
theorem turn (inv : Pinned cfg g) {e : Event} (pinned : g.pinned cfg (.turn e) = true) :
    Pinned cfg (g.turn cfg policy e) := by
  have created : LoadsCreated cfg (g.turn cfg policy e) := inv.created.step (.turn e)
  have routed : Routed cfg (g.turn cfg policy e).proxy :=
    routed_step inv.routed (e := .turn e) rfl
  obtain ⟨onDemand, heq⟩ := @turn_eq cfg policy g e
  have handlers : (g.turn cfg policy e).handlers = g.handlers := by rw [heq]
  refine inv.of_same created routed ?_ ?_ handlers ?_
  · rw [proxy_turn]
    cases h : g.proxied cfg e with
    | none => exact inv.backed
    | some e' => exact inv.backed.step inv.own e'
  · rw [proxy_turn]
    cases h : g.proxied cfg e with
    | none => rfl
    | some e' =>
        exact Proxy.world_turn (fun w => w.enqueued = g.proxy.world.enqueued) (proxied_ne_submit h)
          rfl (fun _ _ _ => rfl) (fun _ _ h => h) (fun _ _ h => h)
  · rw [proxy_turn]
    cases h : g.proxied cfg e with
    | none => exact inv.every
    | some e' =>
        refine inv.every.turn inv.routed.tasked.consistent.wf (proxied_ne_submit h) ?_
        rintro o now rfl m hm req target spill stands ep key
        obtain ⟨o', rfl, rfl⟩ : ∃ o', e = .tick o' now ∧ o = g.oracles cfg o' now := by
          cases e with
          | tick o' now' =>
              obtain ⟨rfl, rfl⟩ := Event.tick.inj (Option.some.inj h)
              exact ⟨o', rfl, rfl⟩
          | _ => simp [proxied] at h
        have spilling := inv.routed.tasked.consistent.wf.tick_spilling m hm req target spill
        obtain ⟨epCfg, configured, rfl⟩ := spilling.configured
        obtain ⟨_, well⟩ := spilling.healthy
        have each : ∀ r ∈ g.proxy.world.sched.queued, (g.keyed r.ref).isSome = true →
            ∀ epCfg ∈ (cfg.endpoints.get? r.endpoint).toList,
              canSpillTo cfg epCfg.spillTo r = false ∨ g.healthy cfg now epCfg.spillTo = false :=
          of_decide_eq_true pinned
        have key : g.keyed req.ref = some ep := key
        have well : g.healthy cfg now epCfg.spillTo = true := well
        rcases each req spilling.queued (by simp [key]) epCfg (by simp [configured]) with no | no
        · exact absurd spilling.could (by simp [no])
        · exact absurd well (by simp [no])

theorem finish (inv : Pinned cfg g) (ref : ℕ) (result : CorrectedResult) (now : ℚ) :
    Pinned cfg (g.finish ref result now) := by
  have created : LoadsCreated cfg (g.finish ref result now) :=
    @LoadsCreated.step cfg {} g inv.created (.finish ref result now)
  rcases finish_cases g ref result now with heq | ⟨handler, _, hhandler, -, h⟩
  · rw [heq]
    exact inv
  · have proxy := proxy_finish (g := g) ref result now
    have handlers : (g.finish ref result now).handlers =
        g.handlers.set ref { handler with returned := true } := by
      rcases h with h | ⟨_, -, -, h⟩ <;> rw [h]
    have keyed : (g.finish ref result now).keyed = g.keyed := by
      funext ref'
      rw [Gateway.keyed, Gateway.keyed, handlers, Dict.get?_set]
      split
      · rename_i here
        rw [here, hhandler]
        rfl
      · rfl
    refine ⟨proxy ▸ inv.routed, created, proxy ▸ inv.backed, ?_, ?_⟩
    · intro ref' handler' h'
      rw [proxy]
      rw [handlers, Dict.get?_set] at h'
      split at h'
      · rename_i here
        obtain rfl := Option.some.inj h'
        rw [here]
        exact inv.handled ref handler hhandler
      · exact inv.handled ref' handler' h'
    · rw [keyed, proxy]
      exact inv.every

theorem refreshed (inv : Pinned cfg g) (now : ℚ) : Pinned cfg (g.refreshed cfg now) :=
  inv.of_same inv.created inv.routed inv.backed rfl rfl inv.every

theorem step (inv : Pinned cfg g) {e : GatewayEvent} (unclaimed : g.unclaimed cfg e = true)
    (pinned : g.pinned cfg e = true) : Pinned cfg (g.step cfg policy e) := by
  cases e with
  | submit s now | acquire id now | posted id outcome now =>
      exact inv.admitting trivial unclaimed pinned
  | turn e => exact inv.turn pinned
  | finish ref result now => exact inv.finish ref result now
  | recovered row payload wall now =>
      have routed : Routed cfg (g.step cfg policy (.recovered row payload wall now)).proxy :=
        routed_step inv.routed unclaimed
      have unkeyed : g.keyed g.proxy.world.enqueued.length = none := by
        cases h : g.handlers.get? g.proxy.world.enqueued.length with
        | none => simp [Gateway.keyed, h]
        | some handler => exact absurd (inv.handled _ _ h).1 (lt_irrefl _)
      refine ⟨routed, inv.created, inv.backed.of_same rfl fun _ hr => hr, ?_, ?_, inv.every.tasks⟩
      · intro ref handler h
        obtain ⟨lt, key⟩ := inv.handled ref handler h
        refine ⟨lt.trans ?_, key⟩
        simp [Gateway.step, Gateway.recovered, World.step]
      · refine inv.every.world.enqueue inv.routed.tasked.consistent.wf fun ep h => ?_
        have none : g.keyed g.proxy.world.enqueued.length = some ep := h
        rw [unkeyed] at none
        exact absurd none (by simp)
  | fastFailInteractive ep reason now =>
      have each := List.all_eq_true.mp pinned
      refine (fastFailInteractive_queued (fun g' => Pinned cfg g' ∧ g'.keyed = g.keyed ∧
        g'.failover = (g.refreshed cfg now).failover ∧ g'.health = g.health)
        inv.routed.tasked.consistent ⟨inv.refreshed now, rfl, rfl, rfl⟩ ?_).2.1
      rintro req g' snapshot consistent queued ⟨inv', keyed, failover, health⟩
      have created := inv'.created.fastFailOne ep reason now req
      have routed := routed_fastFailOne inv'.routed queued ep reason now
      rcases fastFailOne_cases cfg ep reason now g' req with ⟨target, plan, heq⟩ | ⟨failure, heq⟩
      · have plan : (g.refreshed cfg now).plan cfg now req = .reroute target := by
          rw [← plan]
          exact congrFun (plan_of_same failover health now).symm req
        have unkeyed : g'.keyed req.ref = none := by
          rw [keyed]
          simpa [plan, Failover.FailoverPlan.target?] using each req snapshot
        have every : (g'.proxy.world.reroute cfg req target).Every (QueuedRequest.Pinned g'.keyed) := by
          refine inv'.every.world.reroute consistent.wf fun ep h => ?_
          have none : g'.keyed req.ref = some ep := h
          rw [unkeyed] at none
          exact absurd none (by simp)
        rw [heq] at created routed ⊢
        refine ⟨?_, keyed, failover, health⟩
        exact inv'.of_same created routed (inv'.backed.of_same rfl fun _ hr => hr) rfl rfl
          ⟨every, inv'.every.tasks⟩
      · have every : (g'.proxy.world.step cfg (.cancel req.requestId)).Every
            (QueuedRequest.Pinned g'.keyed) := inv'.every.world.cancel req.requestId
        have backed : (releaseQueued cfg g'.proxy req failure).Backed :=
          Proxy.Backed.resolveError (inv'.backed.of_same rfl fun _ hr => hr) req failure
        rw [heq] at created routed ⊢
        refine ⟨?_, keyed, failover, health⟩
        exact inv'.of_same created routed backed rfl rfl ⟨every, inv'.every.tasks⟩
  | abort id =>
      exact inv.of_same (inv.created.step (.abort id)) inv.routed inv.backed rfl rfl inv.every
  | health h => exact inv.of_same inv.created inv.routed inv.backed rfl rfl inv.every
  | refresh now => exact inv.refreshed now
  | leakGuard ep now | heartbeat ep kept now | release ep now =>
      exact inv.of_same inv.created inv.routed inv.backed rfl rfl inv.every

end Pinned

/-! ### Who writes the cache -/

theorem cache_ensure (g : Gateway) (id : ℕ) (load : Load) (now : ℚ) :
    (g.ensure cfg id load now).cache = g.cache := by
  unfold ensure
  dsimp only
  split
  · exact (same_circuitBreaker _ _ _ _ _ _).2
  · rfl

/-- A turn adds to the cache only when a sync handler returns. -/
theorem holds_step {e : GatewayEvent} {key : CacheKey} {response : BackendResponse}
    (h : (g.step cfg policy e).cache.Holds key response) :
    g.cache.Holds key response ∨
      ∃ ref result now handler origin, e = .finish ref result now ∧
        g.handlers.get? ref = some handler ∧ g.answerOf ref = some origin ∧
        handler.cacheKey = some key ∧ result.Cacheable ∧ result.response = response := by
  cases e with
  | submit s now =>
      left
      refine DeterministicCache.holds_lookup (DeterministicCache.keyOf (s.create cfg now)) now ?_
      have looked : (g.submit cfg s now).cache =
          (g.cache.lookup (DeterministicCache.keyOf (s.create cfg now)) now).2 := by
        unfold submit
        dsimp only
        split
        · rfl
        · split
          · split
            · rfl
            · rw [cache_ensure]
          · rw [(same_circuitBreaker _ _ _ _ _ _).2]
      rw [← looked]
      exact h
  | acquire id now =>
      left
      have same : (g.acquire cfg id now).cache = g.cache := by
        unfold acquire
        split
        · rfl
        · split
          · rfl
          · exact cache_ensure _ _ _ _
      exact same ▸ h
  | posted id outcome now =>
      left
      have same : (g.posted cfg id outcome now).cache = g.cache := by
        unfold posted
        split
        · rfl
        · split
          · cases outcome with
            | failed exc => rfl
            | loaded leaseId => exact (same_circuitBreaker _ _ _ _ _ _).2
            | broken => rfl
          · rfl
      exact same ▸ h
  | turn e =>
      obtain ⟨onDemand, heq⟩ := @turn_eq cfg policy g e
      left
      have same : (g.turn cfg policy e).cache = g.cache := by rw [heq]
      exact same ▸ h
  | finish ref result now =>
      rcases finish_cases g ref result now with heq | ⟨handler, origin, hhandler, horigin, heq⟩
      · exact .inl (heq ▸ h)
      · rcases heq with heq | ⟨key', hkey, cacheable, heq⟩
        · left
          have same : (g.finish ref result now).cache = g.cache := by rw [heq]
          exact same ▸ h
        · have put : (g.finish ref result now).cache =
              g.cache.put key' result.response origin now := by rw [heq]
          rw [show (g.step cfg policy (.finish ref result now)).cache = _ from put] at h
          rcases DeterministicCache.holds_put h with ⟨rfl, rfl⟩ | h
          · exact .inr ⟨ref, result, now, handler, origin, rfl, hhandler, horigin, hkey, cacheable,
              rfl⟩
          · exact .inl h
  | fastFailInteractive ep reason now =>
      obtain ⟨proxy, reroutes, heq⟩ := fastFailInteractive_eq cfg policy g ep reason now
      rw [heq] at h
      exact .inl h
  | recovered row payload wall now | abort id | health h' | refresh now | leakGuard ep now
  | heartbeat ep kept now | release ep now => exact .inl h

/-- The handler that caches a response has it from its own request. -/
theorem Pinned.produces (inv : Pinned cfg g) {ref origin : ℕ} {result : CorrectedResult} {now : ℚ}
    {handler : Handler} {key : CacheKey} (hhandler : g.handlers.get? ref = some handler)
    (horigin : g.answerOf ref = some origin) (hkey : handler.cacheKey = some key)
    (cacheable : result.Cacheable) :
    g.Produces (.finish ref result now) key.1 key.2 result.response := by
  obtain ⟨w, response, hw, received⟩ : ∃ w response, g.proxy.waiters.get? ref = some w ∧
      w.received = [(origin, .ok response)] := by
    unfold answerOf at horigin
    split at horigin
    · rename_i origin' response h
      obtain ⟨w, hw, received⟩ := Option.map_eq_some_iff.mp h
      obtain rfl := Option.some.inj horigin
      exact ⟨w, response, hw, received⟩
    · exact absurd horigin (by simp)
  have mine : (origin, Answer.ok response) ∈ w.received := by
    rw [received]
    exact List.mem_singleton_self _
  obtain rfl : origin = ref := (inv.routed.parties.waiters ref w hw).received _ mine
  obtain ⟨t, ht⟩ := Dict.mem_keys_iff.mp ((inv.backed origin w hw).received _ _ mine)
  have stands := inv.every.tasks origin t ht
  have key' := (inv.handled origin handler hhandler).2 key hkey
  have keyed : g.keyed origin = some handler.asked := by
    rw [Gateway.keyed, hhandler, Option.bind_some, hkey]
    rfl
  refine ⟨origin, result, now, handler, t, rfl, cacheable, rfl, horigin, hhandler, ?_, ht, ?_⟩
  · rw [key']
  · rw [key', stands handler.asked (by rw [inv.own origin t ht]; exact keyed)]

end Gateway

/-! ### The result -/

/-- A submission for the main endpoint whose answer may be cached. -/
def steadySubmission (id : String) : Submission :=
  { mainSubmission id with payload := { temperature := some 0 } }

/-- A cached response, when nothing was ever dispatched to the endpoint of its key. -/
theorem not_cacheProvenance {start : Gateway} {events : List GatewayEvent} {endpoint : String}
    {payload : Payload} {now : ℚ} {response : BackendResponse}
    (returned : ((Gateway.run cfg policy start events).cache.get (endpoint, payload) now).1 =
      some response)
    (elsewhere : ∀ n ≤ events.length, ((Gateway.run cfg policy start
      (events.take n)).proxy.tasks.values.all fun t => t.decision.request.endpoint ≠ endpoint) = true) :
    ¬CacheProvenance cfg policy start events := by
  intro provenance
  obtain ⟨before, e, after, rfl, produces⟩ := provenance endpoint payload now response returned
  obtain ⟨ref, _, _, _, t, -, -, -, -, -, -, ht, here⟩ := produces.finished
  have all := elsewhere before.length (by simp)
  rw [List.take_left] at all
  have listed : t ∈ (Gateway.run cfg policy start before).proxy.tasks.values :=
    List.mem_map.mpr ⟨(ref, t), Dict.mem_entries_iff.mpr ht, rfl⟩
  exact absurd here (of_decide_eq_true (List.all_eq_true.mp all t listed))

end Roadstead
