import Mathlib.Data.Finset.Basic
import Roadstead.Scheduler.State

/-!
# Health and failover

`Health.endpoint_healthy` and `failover.py`: which endpoints are serving in degraded
mode, and whether a request may be moved to the failover target of its endpoint.

`refresh` drives the state machine of every source endpoint, in configuration order.
Its transitions are stated once, in `entered_of_mem_refresh` and
`left_of_not_mem_refresh`; what a run does to the degraded set is derived from those
two.  `plan` is pure, and `plan_eq_reroute_iff` says exactly when it reroutes.

A turn of the event loop reads the clock once here; the source reads it at every call.
The counters `degraded_rerouted` and `degraded_refused` are reporting and left out.
-/

namespace Roadstead

open Scheduler

/-! ### Health -/

/-- What `endpoint_healthy` reads. -/
structure Health where
  pausedEndpoints : Finset String := ∅
  endpointCooldownEnabled : Bool := false
  endpointCooldownUntil : Dict String ℚ := ∅
  goodputCollapseEnforce : Bool := false
  collapsedEndpoints : Finset String := ∅
  /-- The circuit breaker of each endpoint that was ever probed. -/
  endpointHealth : Dict String Bool := ∅

/-- `endpoint_healthy` at the time `now`. -/
def Health.endpointHealthy (cfg : ProxyConfig) (h : Health) (now : ℚ) (endpoint : String) :
    Bool :=
  let ep := cfg.normalizeEndpoint endpoint
  let cooldownUntil := (h.endpointCooldownUntil.get? ep).getD 0
  if ep ∈ h.pausedEndpoints then false
  else if h.endpointCooldownEnabled = true ∧ cooldownUntil ≠ 0 ∧ now < cooldownUntil then false
  else if ep ∈ h.collapsedEndpoints ∧ h.goodputCollapseEnforce = true then false
  else if cfg.manages ep then true
  else (h.endpointHealth.get? ep).getD true

/-! ### The state of failover -/

/-- `degraded_endpoints` and `degraded_since`. -/
structure Failover where
  degradedEndpoints : Finset String := ∅
  degradedSince : Dict String ℚ := ∅

/-- `Scheduler.degraded_inflight`: the requests moved off `source` that are queued or in
flight, on whatever endpoint. -/
def Scheduler.degradedInflight (s : Scheduler) (source : String) : ℕ :=
  s.running.countP (fun r => r.degradedFrom = some source) +
    s.queued.countP (fun r => r.degradedFrom = some source)

theorem Scheduler.degradedInflight_eq (s : Scheduler) (source : String) :
    s.degradedInflight source = s.live.countP fun r => r.degradedFrom = some source := by
  rw [degradedInflight, Scheduler.live, Multiset.countP_add, add_comm]

/-- The usable failover target of an endpoint: configured, and not loaded on demand. -/
def ProxyConfig.failoverTarget (cfg : ProxyConfig) (ep : EndpointConfig) : Option String :=
  if ep.failoverTo ≠ "" ∧ ep.failoverTo ∈ cfg.endpoints.keys ∧ cfg.manages ep.failoverTo = false
  then some ep.failoverTo
  else none

/-- `Failover.pairs`. -/
def ProxyConfig.pairs (cfg : ProxyConfig) : List (String × String) :=
  cfg.endpoints.entries.filterMap fun e => (cfg.failoverTarget e.2).map fun target => (e.1, target)

/-- `self.pairs().get(source, "")`, where no target is the empty string. -/
def ProxyConfig.pairOf (cfg : ProxyConfig) (source : String) : Option String :=
  (cfg.endpoints.get? source).bind cfg.failoverTarget

theorem ProxyConfig.mem_pairs_iff {cfg : ProxyConfig} {source target : String} :
    (source, target) ∈ cfg.pairs ↔ cfg.pairOf source = some target := by
  simp only [pairs, pairOf, List.mem_filterMap, Option.map_eq_some_iff, Option.bind_eq_some_iff]
  constructor
  · rintro ⟨e, he, t, ht, heq⟩
    obtain ⟨rfl, rfl⟩ := Prod.mk.inj heq
    exact ⟨e.2, Dict.mem_entries_iff.mp he, ht⟩
  · rintro ⟨ep, hep, ht⟩
    exact ⟨(source, ep), Dict.mem_entries_iff.mpr hep, target, ht, rfl⟩

/-- A target is configured, and it is not loaded on demand. -/
theorem ProxyConfig.pairOf_spec {cfg : ProxyConfig} {source target : String}
    (pair : cfg.pairOf source = some target) :
    (∃ ep, cfg.endpoints.get? target = some ep) ∧ cfg.manages target = false := by
  obtain ⟨ep, -, h⟩ := Option.bind_eq_some_iff.mp pair
  unfold failoverTarget at h
  split at h
  · rename_i usable
    obtain rfl := Option.some.inj h
    exact ⟨Dict.mem_keys_iff.mp usable.2.1, usable.2.2⟩
  · exact absurd h (by simp)

namespace Failover

variable (cfg : ProxyConfig) (healthy : String → Bool) (inflight : String → ℕ) (now : ℚ)

/-- `self.state.degraded_since.get(source, now)`. -/
def since (f : Failover) (now : ℚ) (source : String) : ℚ := (f.degradedSince.get? source).getD now

/-- `self.state.config.endpoints[source].failover_dwell_s`. -/
def dwellS (cfg : ProxyConfig) (source : String) : ℚ :=
  ((cfg.endpoints.get? source).map EndpointConfig.failoverDwellS).getD 0

/-- The body of the loop of `refresh`, for one source. -/
def refreshPair (f : Failover) (pair : String × String) : Failover :=
  let source := pair.1
  if source ∈ f.degradedEndpoints then
    if healthy source = false then f
    else if inflight source ≠ 0 then f
    else if now - f.since now source < dwellS cfg source then f
    else
      { degradedEndpoints := f.degradedEndpoints.erase source
        degradedSince := f.degradedSince.erase source }
  else if healthy source = true ∨ healthy pair.2 = false then f
  else
    { degradedEndpoints := insert source f.degradedEndpoints
      degradedSince := f.degradedSince.set source now }

/-- `Failover.refresh`; `inflight` is `degraded_inflight`. -/
def refresh (f : Failover) : Failover := cfg.pairs.foldl (refreshPair cfg healthy inflight now) f

/-! ### The transitions of `refresh` -/

/-- Why a source enters degraded mode. -/
structure Enters (cfg : ProxyConfig) (healthy : String → Bool) (source : String) : Prop where
  sick : healthy source = false
  target : ∃ target, cfg.pairOf source = some target ∧ healthy target = true

/-- Why a source leaves degraded mode. -/
structure Leaves (f : Failover) (source : String) : Prop where
  recovered : healthy source = true
  drained : inflight source = 0
  dwelt : dwellS cfg source ≤ now - f.since now source

variable {cfg healthy inflight now} {f : Failover} {source : String}

/-- What one round of `refresh` does to one source. -/
theorem refreshPair_cases (pair : String × String) (listed : cfg.pairOf pair.1 = some pair.2) :
    (source ∈ (refreshPair cfg healthy inflight now f pair).degradedEndpoints ↔
        source ∈ f.degradedEndpoints) ∧
      (refreshPair cfg healthy inflight now f pair).degradedSince.get? source =
        f.degradedSince.get? source ∨
    source ∉ f.degradedEndpoints ∧ Enters cfg healthy source ∨
    source ∈ f.degradedEndpoints ∧ Leaves cfg healthy inflight now f source := by
  by_cases same : source = pair.1
  · subst same
    unfold refreshPair
    dsimp only
    split
    · rename_i degraded
      split
      · exact .inl ⟨Iff.rfl, rfl⟩
      · rename_i recovered
        split
        · exact .inl ⟨Iff.rfl, rfl⟩
        · rename_i drained
          split
          · exact .inl ⟨Iff.rfl, rfl⟩
          · rename_i dwelt
            exact .inr (.inr ⟨degraded, ⟨by simpa using recovered, not_not.mp drained,
              not_lt.mp dwelt⟩⟩)
    · rename_i serving
      split
      · exact .inl ⟨Iff.rfl, rfl⟩
      · rename_i both
        obtain ⟨sick, target⟩ := not_or.mp both
        exact .inr (.inl ⟨serving, ⟨by simpa using sick, pair.2, listed, by simpa using target⟩⟩)
  · left
    unfold refreshPair
    dsimp only
    split
    · split
      · exact ⟨Iff.rfl, rfl⟩
      · split
        · exact ⟨Iff.rfl, rfl⟩
        · split
          · exact ⟨Iff.rfl, rfl⟩
          · exact ⟨by simp [same], Dict.get?_erase_of_ne _ same⟩
    · split
      · exact ⟨Iff.rfl, rfl⟩
      · exact ⟨by simp [same], Dict.get?_set_of_ne _ same _⟩

/-- A source that `refresh` adds is unhealthy, and its target is healthy. -/
theorem entered_of_mem_refresh (serving : source ∉ f.degradedEndpoints)
    (degraded : source ∈ (f.refresh cfg healthy inflight now).degradedEndpoints) :
    Enters cfg healthy source := by
  unfold refresh at degraded
  have listed : ∀ pair ∈ cfg.pairs, cfg.pairOf pair.1 = some pair.2 :=
    fun pair hpair => ProxyConfig.mem_pairs_iff.mp hpair
  generalize cfg.pairs = pairs at degraded listed
  induction pairs generalizing f with
  | nil => exact absurd degraded serving
  | cons pair pairs ih =>
      rcases @refreshPair_cases cfg healthy inflight now f source pair
        (listed pair List.mem_cons_self) with
        ⟨same, -⟩ | ⟨-, enters⟩ | ⟨before, -⟩
      · exact ih (fun h => serving (same.mp h)) degraded
          fun pair hpair => listed pair (List.mem_cons_of_mem _ hpair)
      · exact enters
      · exact absurd before serving

/-- A source that `refresh` removes is healthy, its cohort has drained, and it has
dwelt. -/
theorem left_of_not_mem_refresh (degraded : source ∈ f.degradedEndpoints)
    (serving : source ∉ (f.refresh cfg healthy inflight now).degradedEndpoints) :
    Leaves cfg healthy inflight now f source := by
  unfold refresh at serving
  have listed : ∀ pair ∈ cfg.pairs, cfg.pairOf pair.1 = some pair.2 :=
    fun pair hpair => ProxyConfig.mem_pairs_iff.mp hpair
  generalize cfg.pairs = pairs at serving listed
  induction pairs generalizing f with
  | nil => exact absurd degraded serving
  | cons pair pairs ih =>
      rcases @refreshPair_cases cfg healthy inflight now f source pair
        (listed pair List.mem_cons_self) with
        ⟨same, since⟩ | ⟨before, -⟩ | ⟨-, leaves⟩
      · have later := ih (same.mpr degraded) serving
          fun pair hpair => listed pair (List.mem_cons_of_mem _ hpair)
        refine ⟨later.recovered, later.drained, ?_⟩
        have dwelt := later.dwelt
        rwa [Failover.since, since] at dwelt
      · exact absurd degraded before
      · exact leaves

/-! ### Planning a reroute -/

/-- `repr` of a string of printable characters. -/
def pyRepr (text : String) : String :=
  let quote := if text.contains '\'' && !text.contains '"' then '"' else '\''
  let escaped := text.toList.flatMap fun ch =>
    if ch = quote ∨ ch = '\\' then ['\\', ch] else [ch]
  .ofList (quote :: escaped ++ [quote])

/-- Why a request that asked for a degraded endpoint is not served by its target. -/
inductive Refusal where
  | notOptedIn (target agentId : String)
  | declined (target : String)
  | contextOverflow (target : String) (estIn estOut limit : ℤ)
  deriving DecidableEq

namespace Refusal

/-- `refusal_code`. -/
def code : Refusal → String
  | notOptedIn _ _ => "degraded_not_opted_in"
  | declined _ => "degraded_not_opted_in"
  | contextOverflow _ _ _ _ => "degraded_context_overflow"

/-- `refusal_detail`: a clause that is appended to the error. -/
def detail : Refusal → String
  | notOptedIn target agentId =>
      let agent := pyRepr agentId
      s!"; it is serving from {target} for opted-in callers, and agent {agent} is not opted in (`degrade_ok` in the agents config)"
  | declined target =>
      s!"; it is serving from {target} for opted-in callers, and this request declared `substitution.degrade: false`"
  | contextOverflow target estIn estOut limit =>
      s!"; it is serving from {target} for opted-in callers, but this request (est {estIn} input tokens + max_tokens {estOut}) exceeds the available context size ({limit}/slot on {target})"

end Refusal

/-- `FailoverPlan`. -/
inductive FailoverPlan where
  /-- There is nothing to fail over to. -/
  | nothing
  | reroute (target : String)
  | refuse (refusal : Refusal)
  deriving DecidableEq

/-- The endpoint a plan reroutes to. -/
def FailoverPlan.target? : FailoverPlan → Option String
  | .reroute target => some target
  | _ => none

theorem FailoverPlan.target?_eq_some_iff {plan : FailoverPlan} {target : String} :
    plan.target? = some target ↔ plan = .reroute target := by
  cases plan <;> simp [target?]

/-- `est_out` of a payload: a positive integer `max_tokens`, else nothing. -/
def estOut (p : Payload) : ℤ :=
  match p.maxTokens with
  | some (.int n) => if 0 < n then n else 0
  | _ => 0

/-- `Failover.plan`. -/
def plan (cfg : ProxyConfig) (healthy : String → Bool) (f : Failover) (req : QueuedRequest) :
    FailoverPlan :=
  let source := cfg.normalizeEndpoint req.endpoint
  match cfg.pairOf source with
  | none => .nothing
  | some target =>
      if source ∉ f.degradedEndpoints then .nothing
      else if healthy target = false then .nothing
      else if (cfg.agentConfig req.agentId).degradeOk = false then
        .refuse (.notOptedIn target req.agentId)
      else if req.allowDegrade = some false then .refuse (.declined target)
      else
        let limit := ((cfg.endpoints.get? target).map EndpointConfig.contextPerSlot).getD 0
        if req.fitsContext limit = false then
          .refuse (.contextOverflow target req.payload.inputTokens (estOut req.payload) limit)
        else .reroute target

/-- The request may be served by `target` in place of `source`. -/
structure Degradable (cfg : ProxyConfig) (healthy : String → Bool) (req : QueuedRequest)
    (source target : String) : Prop where
  pair : cfg.pairOf source = some target
  healthy : healthy target = true
  optedIn : (cfg.agentConfig req.agentId).degradeOk = true
  willing : req.allowDegrade ≠ some false
  fits : req.fitsContext
    (((cfg.endpoints.get? target).map EndpointConfig.contextPerSlot).getD 0) = true

/-- A request is rerouted when its endpoint is degraded and it may be. -/
theorem plan_eq_reroute_iff {req : QueuedRequest} {target : String} :
    f.plan cfg healthy req = .reroute target ↔
      cfg.normalizeEndpoint req.endpoint ∈ f.degradedEndpoints ∧
        Degradable cfg healthy req (cfg.normalizeEndpoint req.endpoint) target := by
  unfold plan
  dsimp only
  constructor
  · intro h
    split at h
    · exact absurd h (by simp)
    · rename_i t pair
      split at h
      · exact absurd h (by simp)
      · rename_i degraded
        split at h
        · exact absurd h (by simp)
        · rename_i well
          split at h
          · exact absurd h (by simp)
          · rename_i optedIn
            split at h
            · exact absurd h (by simp)
            · rename_i willing
              split at h
              · exact absurd h (by simp)
              · rename_i fits
                obtain rfl := FailoverPlan.reroute.inj h
                exact ⟨not_not.mp degraded, pair, by simpa using well, by simpa using optedIn,
                  willing, by simpa using fits⟩
  · rintro ⟨degraded, may⟩
    rw [may.pair]
    dsimp only
    rw [if_neg (not_not.mpr degraded), if_neg (by simp [may.healthy]),
      if_neg (by simp [may.optedIn]), if_neg may.willing, if_neg (by simp [may.fits])]

/-- `Failover.apply`: the request as it is re-pointed at `target`. -/
def apply (cfg : ProxyConfig) (req : QueuedRequest) (target : String) : QueuedRequest :=
  { req with
    degradedFrom := some (cfg.normalizeEndpoint req.endpoint)
    endpoint := target
    ctxPerSlotAtAdmission :=
      ((cfg.endpoints.get? target).map EndpointConfig.contextPerSlot).getD 0 }

end Failover

end Roadstead
