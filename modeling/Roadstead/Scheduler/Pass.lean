import Roadstead.Scheduler.Moves

/-!
# Rounds, passes and ticks

The inversion of the dispatch loop, and the induction rules that every result
about a tick goes through.

A round that goes on is a `Round`; `bandStep_some` says so, and `bandStep_none`
lists the ways a round can leave the loop.  Forgetting what is local to one band,
a round is a `Move` of the whole tick: it takes the head of a deque and either
starts it or stores it at its spill target, and appends one `Moment` to the
trace.  `dispatchAll_invariant` is the rule for properties that every move keeps.
-/

namespace Roadstead

namespace Scheduler

variable {cfg : ProxyConfig} {o : Oracles} {now : ℚ}

/-! ### What an admission decision says -/

variable {epCfg : EndpointConfig}

theorem admission_dispatch_iff {site : CallSite} {s : Scheduler}
    {req : QueuedRequest} {occ : ℕ} {available : ℤ} {target : String} :
    admission cfg o site s epCfg req occ available target = .dispatch ↔
      0 < epCfg.maxSlots ∧ 0 < available ∧ (occ : ℤ) < epCfg.effectiveMaxSlots := by
  unfold admission
  split
  · simp
    omega
  · split
    · rename_i h
      simp only [true_iff]
      exact ⟨by omega, h⟩
    · rename_i h
      have refused : ¬(0 < epCfg.maxSlots ∧ 0 < available ∧
          (occ : ℤ) < epCfg.effectiveMaxSlots) := fun h' => h h'.2
      simp only [refused, iff_false]
      repeat' split
      all_goals exact Admission.noConfusion

/-- The conditions on the request, its agent and the target under which a request
that cannot be admitted locally may be spilled. -/
structure MaySpill (cfg : ProxyConfig) (o : Oracles) (site : CallSite) (s : Scheduler)
    (req : QueuedRequest) (target : String) : Prop where
  not_spilled : req.hasSpilled = false
  spill_ok : (cfg.agentConfig req.agentId).spillOk = true
  allowed : req.allowSpill ≠ some false
  may_spend : o.spendAllowed site req.agentId = true
  fits : ∃ tgtCfg, cfg.endpoints.get? target = some tgtCfg ∧
    req.fitsContext tgtCfg.contextPerSlot = true ∧
    (s.inFlight target : ℤ) < tgtCfg.effectiveMaxSlots

theorem admission_spill {site : CallSite} {s : Scheduler}
    {req : QueuedRequest} {occ : ℕ} {available : ℤ} {target : String}
    (h : admission cfg o site s epCfg req occ available target = .spill) :
    0 < epCfg.maxSlots ∧ ¬(0 < available ∧ (occ : ℤ) < epCfg.effectiveMaxSlots) ∧
      target ≠ "" ∧ MaySpill cfg o site s req target := by
  unfold admission at h
  split at h
  · exact Admission.noConfusion h
  rename_i hslots
  split at h
  · exact Admission.noConfusion h
  rename_i hlocal
  split at h
  · exact Admission.noConfusion h
  rename_i htarget
  split at h
  · exact Admission.noConfusion h
  rename_i hspilled
  split at h
  · exact Admission.noConfusion h
  rename_i hagent
  split at h
  · exact Admission.noConfusion h
  rename_i hcaller
  split at h
  · exact Admission.noConfusion h
  rename_i hspend
  split at h
  · exact Admission.noConfusion h
  rename_i tgtCfg htgt
  split at h
  · exact Admission.noConfusion h
  rename_i hfits
  split at h
  · exact Admission.noConfusion h
  rename_i hroom
  refine ⟨by omega, hlocal, htarget, ?_⟩
  exact
    { not_spilled := by simpa using hspilled
      spill_ok := by simpa using hagent
      allowed := hcaller
      may_spend := by simpa using hspend
      fits := ⟨tgtCfg, htgt, by simpa using hfits, not_le.mp hroom⟩ }

theorem spillTarget_spec {site : CallSite} (h : spillTarget cfg o site epCfg ≠ "") :
    spillTarget cfg o site epCfg = epCfg.spillTo ∧ epCfg.spillTo ∈ cfg.endpoints.keys ∧
      epCfg.spillTo ≠ epCfg.endpointClass ∧ o.healthy site epCfg.spillTo = true := by
  unfold spillTarget at h ⊢
  simp only at h ⊢
  split at h
  · exact absurd rfl h
  rename_i hconf
  split at h
  · exact absurd rfl h
  rename_i hself
  split at h
  · exact absurd rfl h
  rename_i hhealthy
  rw [if_neg hconf, if_neg hself, if_neg hhealthy]
  exact ⟨rfl, not_not.mp (not_or.mp hconf).2, hself, by simpa using hhealthy⟩

/-! ### One round -/

/-- The context `_dispatch_endpoint` builds for a band of a configured endpoint. -/
structure BandCtx.Ok (c : BandCtx) : Prop where
  configured : c.cfg.endpoints.get? c.epName = some c.epCfg
  resolved : c.target = spillTarget c.cfg c.oracles ⟨c.epName, some c.band, 0⟩ c.epCfg

theorem BandCtx.Ok.target_ne {c : BandCtx} (ok : c.Ok) (h : c.target ≠ "") :
    c.target ≠ c.epName := by
  have spec := spillTarget_spec (ok.resolved ▸ h)
  rw [ok.resolved, spec.1, ← c.cfg.endpointClass_eq ok.configured]
  exact spec.2.2.1

/-- Where the calls of the next round are made. -/
def BandVars.site (c : BandCtx) (v : BandVars) : CallSite :=
  ⟨c.epName, some c.band, v.attempts + 1⟩

/-- The round looks at `req`, the head of the deque of `agentId`, and decides. -/
structure Chosen (c : BandCtx) (v : BandVars) (agentId : String) (req : QueuedRequest)
    (rest : List QueuedRequest) (verdict : Admission) : Prop where
  head : (v.sched.queueOf c.epName).deque c.band agentId = req :: rest
  decided : admission c.cfg c.oracles (v.site c) v.sched c.epCfg req
    (c.inFlight + v.decisions.length) v.available c.target = verdict

/-- The decision a dispatch of `req` reports. -/
def BandVars.decision (c : BandCtx) (v : BandVars) (req : QueuedRequest) : DispatchDecision where
  request := req
  queueWaitMs := (c.now - req.enqueuedAt) * 1000
  occupancyAtDispatch := c.inFlight + v.decisions.length

/-- The variables after a round that dispatched. -/
def BandVars.dispatched (c : BandCtx) (v : BandVars) (agentId : String) (req : QueuedRequest)
    (rest : List QueuedRequest) : BandVars where
  sched := v.sched.afterDispatch c.epName c.band agentId req rest c.now
  decisions := v.decisions ++ [v.decision c req]
  trace := v.trace ++ [⟨v.sched, c.oracles, c.epName, v.site c, .dispatch (v.decision c req)⟩]
  available := v.available - 1
  attempts := v.attempts + 1

/-- The variables after a round that spilled. -/
def BandVars.spilled (c : BandCtx) (v : BandVars) (agentId : String) (req : QueuedRequest)
    (rest : List QueuedRequest) : BandVars where
  sched := afterSpill c.cfg v.sched c.epName c.band agentId req rest c.target
  decisions := v.decisions
  trace := v.trace ++ [⟨v.sched, c.oracles, c.epName, v.site c, .spill req c.target⟩]
  available := v.available
  attempts := v.attempts + 1

/-- A round of the loop that goes on. -/
inductive Round (c : BandCtx) (v : BandVars) : BandVars → Prop
  | dispatch {agentId req rest} (chosen : Chosen c v agentId req rest .dispatch) :
      Round c v (v.dispatched c agentId req rest)
  | spill {agentId req rest} (chosen : Chosen c v agentId req rest .spill) :
      Round c v (v.spilled c agentId req rest)

/-- Why a round leaves the loop. -/
inductive Stopped (c : BandCtx) (v : BandVars) : Prop
  | drained (empty : v.sched.waiting c.epName c.band = 0)
  | unpicked (nobody : v.sched.budgets.pickAgent
      ((v.sched.queueOf c.epName).agentsInBand c.band)
      ((v.sched.queueOf c.epName).waitByAgent c.band c.now) = none)
      (waiting : v.sched.waiting c.epName c.band ≠ 0)
  | deferred {agentId req rest} (chosen : Chosen c v agentId req rest .defer)

/-- The two inversions in one: a round on a valid queue finds a request to decide
about, or leaves the loop. -/
theorem bandStep_spec {c : BandCtx} {v : BandVars}
    (valid : (v.sched.queueOf c.epName).Valid) :
    (bandStep c v = none ∧ Stopped c v) ∨ ∃ v', bandStep c v = some v' ∧ Round c v v' := by
  unfold bandStep
  simp only
  split
  · rename_i hdepth
    exact .inl ⟨rfl, .drained (EndpointQueue.bandDepth_eq_zero_iff.mp hdepth)⟩
  rename_i hdepth
  have waiting : v.sched.waiting c.epName c.band ≠ 0 := fun h =>
    hdepth (EndpointQueue.bandDepth_eq_zero_iff.mpr h)
  rw [if_neg (valid.agentsInBand_ne_nil hdepth)]
  split
  · rename_i hpick
    exact .inl ⟨rfl, .unpicked hpick waiting⟩
  rename_i agentId hpick
  -- The picked agent is listed, so its deque has a head for `peek` and `dequeue`.
  obtain ⟨req, hpeek⟩ := valid.peek_isSome (BudgetManager.pickAgent_mem hpick)
  obtain ⟨rest, head⟩ := EndpointQueue.deque_of_peek hpeek
  rw [hpeek]
  simp only [EndpointQueue.dequeue_of_deque head]
  split
  · rename_i hdecided
    exact .inl ⟨rfl, .deferred ⟨head, hdecided⟩⟩
  · rename_i hdecided
    exact .inr ⟨_, rfl, Round.spill ⟨head, hdecided⟩⟩
  · rename_i hdecided
    exact .inr ⟨_, rfl, Round.dispatch ⟨head, hdecided⟩⟩

theorem bandStep_some {c : BandCtx} {v v' : BandVars}
    (valid : (v.sched.queueOf c.epName).Valid) (h : bandStep c v = some v') :
    Round c v v' := by
  rcases bandStep_spec (c := c) valid with ⟨hnone, -⟩ | ⟨v'', hsome, round⟩
  · rw [hnone] at h
    exact absurd h (by simp)
  · rw [hsome] at h
    exact Option.some.inj h ▸ round

theorem bandStep_none {c : BandCtx} {v : BandVars}
    (valid : (v.sched.queueOf c.epName).Valid) (h : bandStep c v = none) : Stopped c v := by
  rcases bandStep_spec (c := c) valid with ⟨-, stopped⟩ | ⟨v', hsome, -⟩
  · exact stopped
  · rw [hsome] at h
    exact absurd h (by simp)

theorem Round.wellFormed {c : BandCtx} {v v' : BandVars} (round : Round c v v')
    (wf : v.sched.WellFormed cfg) (hcfg : c.cfg = cfg) : v'.sched.WellFormed cfg := by
  cases round with
  | dispatch chosen => exact wf.afterDispatch chosen.head c.now
  | spill chosen =>
      subst hcfg
      exact wf.afterSpill chosen.head c.target

/-! ### Moves of a tick -/

/-- One dispatch or spill, as a step of the whole tick. -/
inductive Move (cfg : ProxyConfig) (o : Oracles) (now : ℚ) (p : Pass) : Moment → Pass → Prop
  | dispatch {ep epCfg band agentId req rest occ attempt}
      (configured : cfg.endpoints.get? ep = some epCfg)
      (head : (p.sched.queueOf ep).deque band agentId = req :: rest) :
      Move cfg o now p
        ⟨p.sched, o, ep, ⟨ep, some band, attempt⟩,
          .dispatch ⟨req, (now - req.enqueuedAt) * 1000, occ⟩⟩
        { sched := p.sched.afterDispatch ep band agentId req rest now
          decisions := p.decisions ++ [⟨req, (now - req.enqueuedAt) * 1000, occ⟩]
          trace := p.trace ++
            [⟨p.sched, o, ep, ⟨ep, some band, attempt⟩,
              .dispatch ⟨req, (now - req.enqueuedAt) * 1000, occ⟩⟩] }
  | spill {ep epCfg band agentId req rest target attempt}
      (configured : cfg.endpoints.get? ep = some epCfg)
      (head : (p.sched.queueOf ep).deque band agentId = req :: rest)
      (slots : 0 < epCfg.maxSlots)
      (elsewhere : target = epCfg.spillTo ∧ target ≠ ep)
      (healthy : o.healthy ⟨ep, some band, 0⟩ target = true)
      (may : MaySpill cfg o ⟨ep, some band, attempt⟩ p.sched req target) :
      Move cfg o now p
        ⟨p.sched, o, ep, ⟨ep, some band, attempt⟩, .spill req target⟩
        { sched := afterSpill cfg p.sched ep band agentId req rest target
          decisions := p.decisions
          trace := p.trace ++ [⟨p.sched, o, ep, ⟨ep, some band, attempt⟩, .spill req target⟩] }

/-- `q` as the continuation of what `p` has collected. -/
def Pass.after (p q : Pass) : Pass where
  sched := q.sched
  decisions := p.decisions ++ q.decisions
  trace := p.trace ++ q.trace

theorem dispatchNext_eq (p : Pass) (e : String × EndpointConfig) :
    dispatchNext cfg o now p e = p.after (dispatchEndpoint cfg o now p.sched e.1 e.2) := rfl

/-- Seen from the tick, a round is a move. -/
theorem Round.move {c : BandCtx} {v v' : BandVars} (round : Round c v v') (ok : c.Ok)
    (base : Pass) :
    ∃ m, m.endpoint = c.epName ∧ v'.trace = v.trace ++ [m] ∧
      Move c.cfg c.oracles c.now (base.after v.toPass) m (base.after v'.toPass) := by
  cases round with
  | dispatch chosen =>
      refine ⟨_, rfl, rfl, ?_⟩
      simp only [Pass.after, BandVars.dispatched, ← List.append_assoc]
      exact .dispatch ok.configured chosen.head
  | spill chosen =>
      obtain ⟨slots, -, htarget, may⟩ := admission_spill chosen.decided
      have spec := spillTarget_spec (ok.resolved ▸ htarget)
      refine ⟨_, rfl, rfl, ?_⟩
      simp only [Pass.after, BandVars.spilled, ← List.append_assoc]
      refine .spill ok.configured chosen.head slots ⟨?_, ok.target_ne htarget⟩ ?_ may
      · rw [ok.resolved, spec.1]
      · rw [ok.resolved, spec.1]
        exact spec.2.2.2

/-! ### Induction rules -/

/-- The loop variables when the loop over a band is entered. -/
def Pass.enter (p : Pass) (ep : String) (epCfg : EndpointConfig) (band : PriorityBand)
    (inFlight : ℕ) : BandVars where
  toPass := p
  available :=
    p.sched.availableForBand epCfg band (inFlight + p.decisions.length) (p.sched.queueOf ep)

/-- The context of the loop over a band. -/
def bandCtx (cfg : ProxyConfig) (o : Oracles) (now : ℚ) (ep : String) (epCfg : EndpointConfig)
    (inFlight : ℕ) (band : PriorityBand) : BandCtx :=
  ⟨cfg, o, ep, epCfg, now, inFlight, band, spillTarget cfg o ⟨ep, some band, 0⟩ epCfg⟩

theorem bandCtx_ok {ep : String}
    (hcfg : cfg.endpoints.get? ep = some epCfg) (inFlight : ℕ) (band : PriorityBand) :
    (bandCtx cfg o now ep epCfg inFlight band).Ok := ⟨hcfg, rfl⟩

/-- A property of the loop variables that every round keeps holds when the loop
over a band ends. -/
theorem dispatchBand_invariant {ep : String} {inFlight : ℕ}
    {p : Pass} {band : PriorityBand} (wf : p.sched.WellFormed cfg) (Inv : BandVars → Prop)
    (Post : Pass → Prop) (skip : Post p) (enter : Inv (p.enter ep epCfg band inFlight))
    (round : ∀ v v', v.sched.WellFormed cfg → Inv v →
      Round (bandCtx cfg o now ep epCfg inFlight band) v v' → Inv v')
    (leave : ∀ v, v.sched.WellFormed cfg → Inv v → Post v.toPass) :
    Post (dispatchBand cfg o ep epCfg now inFlight p band) := by
  unfold dispatchBand
  simp only
  split
  · exact skip
  split
  · exact skip
  have preserved : ∀ v v', (v.sched.WellFormed cfg ∧ Inv v) →
      bandStep (bandCtx cfg o now ep epCfg inFlight band) v = some v' →
      v'.sched.WellFormed cfg ∧ Inv v' := by
    intro v v' h hstep
    have r := bandStep_some (h.1.queue_valid _) hstep
    exact ⟨r.wellFormed h.1 rfl, round v v' h.1 h.2 r⟩
  have final := Loop.iterate_invariant preserved
    ((p.sched.queueOf ep).bandDepth band + ((p.sched.queueOf ep).agentsInBand band).length)
    ⟨wf, enter⟩
  exact leave _ final.1 final.2

/-- A property that the loop over each band keeps holds after the pass over an
endpoint. -/
theorem dispatchEndpoint_invariant {s : Scheduler} {ep : String}
    (Inv : Pass → Prop) (start : Inv { sched := s })
    (bands : ∀ p, Inv p → ∀ band, Inv (dispatchBand cfg o ep epCfg now (s.inFlight ep) p band)) :
    Inv (dispatchEndpoint cfg o now s ep epCfg) := by
  unfold dispatchEndpoint
  split
  · exact start
  split
  · exact start
  · exact List.foldlRecOn PriorityBand.all _ start fun p hp band _ => bands p hp band

/-- A property that every move keeps is kept by the pass over one endpoint. -/
theorem dispatchNext_invariant {p : Pass} {e : String × EndpointConfig} (Inv : Pass → Prop)
    (hcfg : cfg.endpoints.get? e.1 = some e.2) (wf : p.sched.WellFormed cfg) (start : Inv p)
    (moves : ∀ p m p', m.endpoint = e.1 → p.sched.WellFormed cfg → Inv p →
      Move cfg o now p m p' → Inv p') :
    Inv (dispatchNext cfg o now p e) ∧ (dispatchNext cfg o now p e).sched.WellFormed cfg := by
  rw [dispatchNext_eq]
  -- Nothing has been collected when the pass begins.
  have entered : Inv (p.after { sched := p.sched }) := by
    simpa [Pass.after] using start
  refine dispatchEndpoint_invariant
    (fun q => Inv (p.after q) ∧ q.sched.WellFormed cfg) ⟨entered, wf⟩ ?_
  rintro q ⟨hq, hqwf⟩ band
  refine dispatchBand_invariant hqwf (fun v => Inv (p.after v.toPass))
    (fun q => Inv (p.after q) ∧ q.sched.WellFormed cfg)
    ⟨hq, hqwf⟩ hq ?_ (fun v hv h => ⟨h, hv⟩)
  intro v v' hv hInv hround
  obtain ⟨m, hep, -, hmove⟩ := hround.move (bandCtx_ok hcfg _ band) p
  exact moves (p.after v.toPass) m _ hep hv hInv hmove

/-- A property that every move keeps holds after a tick's dispatch step. -/
theorem dispatchAll_invariant {s : Scheduler} (Inv : Pass → Prop) (wf : s.WellFormed cfg)
    (start : Inv { sched := s })
    (moves : ∀ p m p', p.sched.WellFormed cfg → Inv p → Move cfg o now p m p' → Inv p') :
    Inv (dispatchAll cfg o now s) ∧ (dispatchAll cfg o now s).sched.WellFormed cfg := by
  refine List.foldlRecOn (motive := fun p : Pass => Inv p ∧ p.sched.WellFormed cfg)
    cfg.endpoints.entries _ ⟨start, wf⟩ ?_
  rintro p ⟨hp, hwf⟩ e hmem
  exact dispatchNext_invariant Inv (Dict.mem_entries_iff.mp hmem) hwf hp
    fun p m p' _ => moves p m p'

end Scheduler

end Roadstead
