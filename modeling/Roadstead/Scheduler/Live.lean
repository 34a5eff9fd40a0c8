import Roadstead.Scheduler.Pass

/-!
# Cached numbers and live numbers

`_dispatch_endpoint` decides with numbers it computed earlier: the length of the
active map when the pass began plus the decisions made since, and an `available`
that is computed once per band and counted down.  The specification of admission
speaks about the *live* maps.

This file shows that the two agree, as long as no two requests the scheduler holds
share an id.  `Cached` is the loop invariant that ties them together; with it,

* a round dispatches exactly when the live headroom of the band is positive, and
  spills only when it is zero (`Round.live`),
* a loop that ends has drained its band or has no headroom left
  (`dispatchBand_exhausted`), provided the agents that wait have budgets.

With two live requests under one id the second dispatch overwrites the first in
the active map, the live number falls behind the cached one, and both fail.
-/

namespace Roadstead

namespace Scheduler

variable {cfg : ProxyConfig} {o : Oracles} {now : ℚ}

/-- `_available_for_band`, asked with live numbers. -/
def headroom (s : Scheduler) (epCfg : EndpointConfig) (band : PriorityBand) : ℤ :=
  s.availableForBand epCfg band (s.inFlight epCfg.endpointClass)
    (s.queueOf epCfg.endpointClass)

/-- The requests of the other two bands in flight on `ep`. -/
def nonBgInFlight (s : Scheduler) (ep : String) : ℤ := (s.inFlight ep : ℤ) - s.bgInFlight ep

/-- What is left to the other bands while background work waits. -/
def nonBgCeiling (epCfg : EndpointConfig) : ℤ :=
  max 1 (epCfg.effectiveMaxSlots - epCfg.backgroundFloorSlots)

theorem headroom_background (s : Scheduler) (epCfg : EndpointConfig) :
    s.headroom epCfg .background =
      if epCfg.effectiveMaxSlots ≤ s.inFlight epCfg.endpointClass then 0
      else min (epCfg.effectiveMaxSlots - s.inFlight epCfg.endpointClass)
        (max 0 (epCfg.backgroundCapSlots - s.bgInFlight epCfg.endpointClass)) := by
  simp only [headroom, availableForBand, sub_nonpos, if_true]

/-- For the other two bands the headroom does not depend on which of them asks. -/
theorem headroom_of_ne (s : Scheduler) (epCfg : EndpointConfig) {band : PriorityBand}
    (h : band ≠ .background) :
    s.headroom epCfg band =
      if epCfg.effectiveMaxSlots ≤ s.inFlight epCfg.endpointClass then 0
      else if s.waiting epCfg.endpointClass .background ≠ 0 then
        max 0 (nonBgCeiling epCfg - s.nonBgInFlight epCfg.endpointClass)
      else epCfg.effectiveMaxSlots - s.inFlight epCfg.endpointClass := by
  simp only [headroom, availableForBand, sub_nonpos, if_neg h, Nat.pos_iff_ne_zero, ne_eq,
    EndpointQueue.bandDepth_eq_zero_iff, nonBgCeiling, nonBgInFlight, waiting]
  congr

theorem headroom_nonneg (s : Scheduler) (epCfg : EndpointConfig) (band : PriorityBand) :
    0 ≤ s.headroom epCfg band := by
  by_cases h : band = .background
  · rw [h, headroom_background]
    split <;> omega
  · rw [headroom_of_ne s epCfg h]
    split
    · exact le_rfl
    · split <;> omega

variable {epCfg : EndpointConfig} {s : Scheduler}

/-- No headroom on a full endpoint. -/
theorem headroom_eq_zero_of_full
    (full : epCfg.effectiveMaxSlots ≤ s.inFlight epCfg.endpointClass) (band : PriorityBand) :
    s.headroom epCfg band = 0 := by
  by_cases h : band = .background
  · rw [h, headroom_background, if_pos full]
  · rw [headroom_of_ne s epCfg h, if_pos full]

theorem lt_of_headroom_pos {band : PriorityBand} (h : 0 < s.headroom epCfg band) :
    (s.inFlight epCfg.endpointClass : ℤ) < epCfg.effectiveMaxSlots := by
  by_contra full
  have := headroom_eq_zero_of_full (not_lt.mp full) band
  omega

theorem bg_lt_of_headroom_pos (h : 0 < s.headroom epCfg .background) :
    (s.bgInFlight epCfg.endpointClass : ℤ) < epCfg.backgroundCapSlots := by
  rw [headroom_background] at h
  split at h <;> omega

/-! ### Ids -/

/-- A queued request shares its id with no running one. -/
theorem UniqueIds.ne_of_running (unique : s.UniqueIds) {r r' : QueuedRequest}
    (hr : r ∈ s.queued) (hr' : r' ∈ s.running) : r.requestId ≠ r'.requestId := by
  intro hid
  rw [UniqueIds, liveIds, live, Multiset.map_add, Multiset.nodup_add] at unique
  refine Multiset.disjoint_left.mp unique.2.2 (Multiset.mem_map_of_mem _ hr) ?_
  rw [hid]
  exact Multiset.mem_map_of_mem _ hr'

theorem UniqueIds.not_active (unique : s.UniqueIds) (wf : s.WellFormed cfg)
    {r : QueuedRequest} (hr : r ∈ s.queued) (ep : String) :
    r.requestId ∉ (s.activeOf ep).keys := by
  intro hk
  obtain ⟨ar, har⟩ := Dict.mem_keys_iff.mp hk
  have running : ar.request ∈ s.running :=
    mem_running_iff.mpr ⟨ep, mem_requestsOf_iff.mpr ⟨_, ar, har, rfl⟩⟩
  exact unique.ne_of_running hr running (wf.active_here ep _ ar har).1.symm

section Dispatch

variable {s : Scheduler} {ep : String} {band : PriorityBand} {agentId : String}
  {req : QueuedRequest} {rest : List QueuedRequest}

theorem mem_queued_of_head (head : (s.queueOf ep).deque band agentId = req :: rest) :
    req ∈ s.queued := by
  rw [queued_takeOut (holds_of_head head)]
  exact Multiset.mem_cons_self _ _

theorem liveIds_afterDispatch (wf : s.WellFormed cfg) (unique : s.UniqueIds)
    (head : (s.queueOf ep).deque band agentId = req :: rest) (now : ℚ) :
    (s.afterDispatch ep band agentId req rest now).liveIds = s.liveIds := by
  have fresh := unique.not_active wf (mem_queued_of_head head) ep
  rw [liveIds, liveIds, live, live, running_afterDispatch now fresh,
    queued_afterDispatch head now, Multiset.add_cons, Multiset.cons_add]

theorem liveIds_afterSpill (wf : s.WellFormed cfg)
    (head : (s.queueOf ep).deque band agentId = req :: rest) (target : String) :
    (afterSpill cfg s ep band agentId req rest target).liveIds = s.liveIds := by
  obtain ⟨others, hbefore, hafter⟩ := wf.queued_afterSpill head target
  rw [liveIds, liveIds, live, live, hbefore, hafter, wf.running_afterSpill head target,
    Multiset.cons_add, Multiset.cons_add, Multiset.map_cons, Multiset.map_cons]
  rfl

/-- A dispatch takes one slot. -/
theorem inFlight_afterDispatch (wf : s.WellFormed cfg) (unique : s.UniqueIds)
    (head : (s.queueOf ep).deque band agentId = req :: rest) (now : ℚ) (ep' : String) :
    (s.afterDispatch ep band agentId req rest now).inFlight ep' =
      s.inFlight ep' + if ep' = ep then 1 else 0 := by
  have fresh := unique.not_active wf (mem_queued_of_head head) ep
  rw [inFlight, activeOf_afterDispatch]
  split
  · rename_i h
    rw [Dict.size_set_of_not_mem fresh, h]
    rfl
  · rfl

theorem bgInFlight_afterDispatch (wf : s.WellFormed cfg) (unique : s.UniqueIds)
    (head : (s.queueOf ep).deque band agentId = req :: rest) (now : ℚ) :
    (s.afterDispatch ep band agentId req rest now).bgInFlight ep =
      s.bgInFlight ep + if band = .background then 1 else 0 := by
  have fresh := unique.not_active wf (mem_queued_of_head head) ep
  have label : req.band = band := wf.band_of_head head
  rw [bgInFlight, activeOf_afterDispatch, if_pos rfl, Dict.sum_set_of_not_mem _ fresh, label]
  rfl

/-- A background request does not count against the other bands. -/
theorem nonBgInFlight_afterDispatch (wf : s.WellFormed cfg) (unique : s.UniqueIds)
    (head : (s.queueOf ep).deque band agentId = req :: rest) (now : ℚ)
    (hbg : band = .background) :
    (s.afterDispatch ep band agentId req rest now).nonBgInFlight ep = s.nonBgInFlight ep := by
  have inFlight := inFlight_afterDispatch wf unique head now ep
  have background := bgInFlight_afterDispatch wf unique head now
  rw [if_pos rfl] at inFlight
  rw [if_pos hbg] at background
  rw [nonBgInFlight, nonBgInFlight, inFlight, background]
  push_cast
  omega

/-- While `band` is served, the other bands of its endpoint keep their requests. -/
theorem waiting_afterDispatch_of_ne (head : (s.queueOf ep).deque band agentId = req :: rest)
    (now : ℚ) {ep' : String} {b : PriorityBand} (h : ¬(ep' = ep ∧ b = band)) :
    (s.afterDispatch ep band agentId req rest now).waiting ep' b = s.waiting ep' b := by
  rw [waiting_afterDispatch head now ep' b, if_neg h, zero_add]

theorem waiting_afterSpill_here (wf : s.WellFormed cfg)
    (head : (s.queueOf ep).deque band agentId = req :: rest) {target : String}
    (elsewhere : target ≠ ep) (b : PriorityBand) :
    s.waiting ep b =
      (if b = band then {req} else 0) +
        (afterSpill cfg s ep band agentId req rest target).waiting ep b := by
  have moved := wf.waiting_afterSpill head target ep b
  rw [if_neg fun h => elsewhere h.1.symm, zero_add] at moved
  simpa using moved

/-- A dispatch takes one off the headroom of its band, unless it filled the
endpoint. -/
theorem headroom_afterDispatch (wf : s.WellFormed cfg)
    (unique : s.UniqueIds) (hcfg : cfg.endpoints.get? ep = some epCfg)
    (head : (s.queueOf ep).deque band agentId = req :: rest) (now : ℚ)
    (pos : 0 < s.headroom epCfg band) :
    (s.afterDispatch ep band agentId req rest now).headroom epCfg band =
      if epCfg.effectiveMaxSlots ≤ s.inFlight ep + 1 then 0 else s.headroom epCfg band - 1 := by
  have hclass := cfg.endpointClass_eq hcfg
  have hin := inFlight_afterDispatch wf unique head now ep
  have hbg := bgInFlight_afterDispatch wf unique head now
  rw [if_pos rfl] at hin
  by_cases h : band = .background
  · subst h
    rw [if_pos rfl] at hbg
    rw [headroom_background, hclass] at pos ⊢
    rw [headroom_background, hclass, hin, hbg]
    push_cast
    split at pos
    · omega
    · rename_i hroom
      rw [if_neg hroom]
      split
      · rfl
      · omega
  · rw [if_neg h] at hbg
    have hwait : (s.afterDispatch ep band agentId req rest now).waiting ep .background =
        s.waiting ep .background :=
      waiting_afterDispatch_of_ne head now fun h' => h h'.2.symm
    rw [headroom_of_ne _ _ h, hclass] at pos ⊢
    rw [headroom_of_ne _ _ h, hclass, hwait, nonBgInFlight, hin, hbg]
    rw [nonBgInFlight] at pos ⊢
    push_cast
    split at pos
    · omega
    · rename_i hroom
      rw [if_neg hroom]
      split
      · rfl
      · split
        · rename_i hbgwait
          rw [if_pos hbgwait] at pos
          omega
        · omega

/-- A spill leaves the headroom of its band alone. -/
theorem headroom_afterSpill (wf : s.WellFormed cfg) (hcfg : cfg.endpoints.get? ep = some epCfg)
    (head : (s.queueOf ep).deque band agentId = req :: rest) {target : String}
    (elsewhere : target ≠ ep) :
    (afterSpill cfg s ep band agentId req rest target).headroom epCfg band =
      s.headroom epCfg band := by
  have hclass := cfg.endpointClass_eq hcfg
  have hin : (afterSpill cfg s ep band agentId req rest target).inFlight ep = s.inFlight ep :=
    congrArg Dict.size (wf.activeOf_afterSpill head target ep)
  have hbg : (afterSpill cfg s ep band agentId req rest target).bgInFlight ep =
      s.bgInFlight ep := by
    rw [bgInFlight, wf.activeOf_afterSpill head target ep]
    rfl
  by_cases h : band = .background
  · subst h
    rw [headroom_background, headroom_background, hclass, hin, hbg]
  · have hwait := waiting_afterSpill_here wf head elsewhere .background
    rw [if_neg fun h' => h h'.symm, zero_add] at hwait
    rw [headroom_of_ne _ _ h, headroom_of_ne _ _ h, hclass, nonBgInFlight, nonBgInFlight, hin,
      hbg, hwait]

end Dispatch

/-! ### The loop invariant -/

/-- The cached numbers of the loop over a band, against the live ones. -/
structure Cached (c : BandCtx) (v : BandVars) : Prop where
  unique : v.sched.UniqueIds
  occupancy : c.inFlight + v.decisions.length = v.sched.inFlight c.epName
  nonneg : 0 ≤ v.available
  agrees : v.sched.headroom c.epCfg c.band =
    if c.epCfg.effectiveMaxSlots ≤ v.sched.inFlight c.epName then 0 else v.available

/-- The condition `_admit` tests is that the live headroom is positive. -/
theorem Cached.admissible_iff {c : BandCtx} {v : BandVars} (cached : Cached c v) :
    (0 < v.available ∧ ((c.inFlight + v.decisions.length : ℕ) : ℤ) < c.epCfg.effectiveMaxSlots) ↔
      0 < v.sched.headroom c.epCfg c.band := by
  rw [cached.occupancy, cached.agrees]
  split
  · omega
  · omega

theorem headroom_eq_zero_iff_not_pos
    {band : PriorityBand} : s.headroom epCfg band = 0 ↔ ¬0 < s.headroom epCfg band := by
  have := s.headroom_nonneg epCfg band
  omega

/-- What the moment of a dispatch or a spill says about the live headroom. -/
def LiveMoment (cfg : ProxyConfig) (m : Moment) : Prop :=
  ∀ epCfg, cfg.endpoints.get? m.endpoint = some epCfg →
    match m.event with
    | .dispatch decision => 0 < m.before.headroom epCfg decision.request.band
    | .spill req _ => m.before.headroom epCfg req.band = 0

/-- One round keeps the cached numbers in step and happens at a live moment. -/
theorem Round.live {c : BandCtx} {v v' : BandVars} (round : Round c v v') (ok : c.Ok)
    (wf : v.sched.WellFormed c.cfg) (cached : Cached c v) :
    Cached c v' ∧ ∀ m, v'.trace = v.trace ++ [m] → LiveMoment c.cfg m := by
  have live := cached.admissible_iff
  cases round with
  | dispatch chosen =>
      have label := wf.band_of_head chosen.head
      have admitted := (admission_dispatch_iff.mp chosen.decided).2
      have pos := live.mp admitted
      have room : ¬c.epCfg.effectiveMaxSlots ≤ v.sched.inFlight c.epName := by
        rw [← cached.occupancy]
        exact not_le.mpr admitted.2
      have hin := inFlight_afterDispatch wf cached.unique chosen.head c.now c.epName
      rw [if_pos rfl] at hin
      constructor
      · refine ⟨?_, ?_, ?_, ?_⟩
        · rw [UniqueIds, BandVars.dispatched, liveIds_afterDispatch wf cached.unique chosen.head]
          exact cached.unique
        · simp only [BandVars.dispatched, List.length_append, List.length_singleton, hin,
            ← cached.occupancy]
          omega
        · have := admitted.1
          simp only [BandVars.dispatched]
          omega
        · have hroom := cached.agrees
          rw [if_neg room] at hroom
          show (v.sched.afterDispatch _ _ _ _ _ _).headroom _ _ =
            if _ ≤ ((v.sched.afterDispatch _ _ _ _ _ _).inFlight _ : ℤ) then 0
            else v.available - 1
          rw [headroom_afterDispatch wf cached.unique ok.configured chosen.head c.now pos, hin,
            hroom]
          push_cast
          rfl
      · intro m hm epCfg hcfg
        obtain rfl : _ = m := by simpa [BandVars.dispatched] using hm
        obtain rfl := Option.some.inj (ok.configured.symm.trans hcfg)
        show 0 < v.sched.headroom _ _
        rw [BandVars.decision, label]
        exact pos
  | spill chosen =>
      have label := wf.band_of_head chosen.head
      obtain ⟨-, refused, htarget, -⟩ := admission_spill chosen.decided
      have elsewhere := ok.target_ne htarget
      have hin : (v.spilled c _ _ _).sched.inFlight c.epName = v.sched.inFlight c.epName :=
        congrArg Dict.size (wf.activeOf_afterSpill chosen.head c.target c.epName)
      constructor
      · refine ⟨?_, ?_, cached.nonneg, ?_⟩
        · rw [UniqueIds, BandVars.spilled, liveIds_afterSpill wf chosen.head]
          exact cached.unique
        · rw [hin]
          exact cached.occupancy
        · rw [hin]
          simp only [BandVars.spilled]
          rw [headroom_afterSpill wf ok.configured chosen.head elsewhere]
          exact cached.agrees
      · intro m hm epCfg hcfg
        obtain rfl : _ = m := by simpa [BandVars.spilled] using hm
        obtain rfl := Option.some.inj (ok.configured.symm.trans hcfg)
        show v.sched.headroom _ _ = 0
        rw [label, headroom_eq_zero_iff_not_pos, ← live]
        exact refused

/-! ### Bands and ticks -/

/-- Between two bands of a pass: the count of the pass agrees with the live map. -/
structure InStep (cfg : ProxyConfig) (ep : String) (inFlight : ℕ) (p : Pass) : Prop where
  wf : p.sched.WellFormed cfg
  unique : p.sched.UniqueIds
  occupancy : inFlight + p.decisions.length = p.sched.inFlight ep

theorem InStep.available_eq {ep : String} {inFlight : ℕ} {p : Pass}
    (inStep : InStep cfg ep inFlight p) (hcfg : cfg.endpoints.get? ep = some epCfg)
    (band : PriorityBand) :
    p.sched.availableForBand epCfg band (inFlight + p.decisions.length) (p.sched.queueOf ep) =
      p.sched.headroom epCfg band := by
  rw [inStep.occupancy, headroom, cfg.endpointClass_eq hcfg]

theorem InStep.cached {ep : String} {inFlight : ℕ} {p : Pass}
    (inStep : InStep cfg ep inFlight p) (hcfg : cfg.endpoints.get? ep = some epCfg)
    (band : PriorityBand) :
    Cached (bandCtx cfg o now ep epCfg inFlight band) (p.enter ep epCfg band inFlight) := by
  have available := inStep.available_eq hcfg band
  refine ⟨inStep.unique, inStep.occupancy, ?_, ?_⟩
  · show 0 ≤ p.sched.availableForBand _ _ _ _
    rw [available]
    exact headroom_nonneg _ _ _
  · show p.sched.headroom epCfg band =
      if _ ≤ (p.sched.inFlight ep : ℤ) then 0 else p.sched.availableForBand _ _ _ _
    rw [available]
    split
    · rename_i full
      exact headroom_eq_zero_of_full (cfg.endpointClass_eq hcfg ▸ full) band
    · rfl

/-- The rule for one band, with the cached numbers in step. -/
theorem dispatchBand_live {ep : String} {inFlight : ℕ} {p : Pass}
    (hcfg : cfg.endpoints.get? ep = some epCfg) (inStep : InStep cfg ep inFlight p)
    (band : PriorityBand) (Inv : Pass → Prop) (start : Inv p)
    (round : ∀ v v', v.sched.WellFormed cfg →
      Cached (bandCtx cfg o now ep epCfg inFlight band) v → Inv v.toPass →
      Round (bandCtx cfg o now ep epCfg inFlight band) v v' → Inv v'.toPass) :
    InStep cfg ep inFlight (dispatchBand cfg o ep epCfg now inFlight p band) ∧
      Inv (dispatchBand cfg o ep epCfg now inFlight p band) := by
  refine dispatchBand_invariant inStep.wf
    (fun v => Cached (bandCtx cfg o now ep epCfg inFlight band) v ∧ Inv v.toPass)
    (fun p => InStep cfg ep inFlight p ∧ Inv p) ⟨inStep, start⟩
    ⟨inStep.cached hcfg band, start⟩ ?_ ?_
  · rintro v v' hwf ⟨cached, hInv⟩ r
    exact ⟨(r.live (bandCtx_ok hcfg _ band) hwf cached).1, round v v' hwf cached hInv r⟩
  · rintro v hwf ⟨cached, hInv⟩
    exact ⟨⟨hwf, cached.unique, cached.occupancy⟩, hInv⟩

/-- A property that every move at a live moment keeps is kept by the pass over one
endpoint. -/
theorem dispatchNext_live {p : Pass} {e : String × EndpointConfig} (Inv : Pass → Prop)
    (hcfg : cfg.endpoints.get? e.1 = some e.2) (wf : p.sched.WellFormed cfg)
    (unique : p.sched.UniqueIds) (start : Inv p)
    (moves : ∀ p m p', m.endpoint = e.1 → p.sched.WellFormed cfg → p.sched.UniqueIds →
      Inv p → Move cfg o now p m p' → LiveMoment cfg m → Inv p') :
    let p' := dispatchNext cfg o now p e
    p'.sched.WellFormed cfg ∧ p'.sched.UniqueIds ∧ Inv p' := by
  have entered : Inv (p.after { sched := p.sched }) := by
    simpa [Pass.after] using start
  have counted : InStep cfg e.1 (p.sched.inFlight e.1) { sched := p.sched } :=
    ⟨wf, unique, rfl⟩
  have bands : ∀ q, InStep cfg e.1 (p.sched.inFlight e.1) q ∧ Inv (p.after q) → ∀ band,
      InStep cfg e.1 (p.sched.inFlight e.1)
          (dispatchBand cfg o e.1 e.2 now (p.sched.inFlight e.1) q band) ∧
        Inv (p.after (dispatchBand cfg o e.1 e.2 now (p.sched.inFlight e.1) q band)) := by
    rintro q ⟨inStep, hq⟩ band
    refine dispatchBand_live hcfg inStep band (fun q => Inv (p.after q)) hq ?_
    intro v v' hwf cached hInv r
    obtain ⟨m, hep, htrace, hmove⟩ := r.move (bandCtx_ok hcfg _ band) p
    have live := (r.live (bandCtx_ok hcfg _ band) hwf cached).2 m htrace
    exact moves (p.after v.toPass) m _ hep hwf cached.unique hInv hmove live
  have final := dispatchEndpoint_invariant
    (fun q => InStep cfg e.1 (p.sched.inFlight e.1) q ∧ Inv (p.after q)) ⟨counted, entered⟩ bands
  exact ⟨final.1.wf, final.1.unique, final.2⟩

/-- A property that every move at a live moment keeps holds after a tick's dispatch
step. -/
theorem dispatchAll_live (Inv : Pass → Prop) (wf : s.WellFormed cfg)
    (unique : s.UniqueIds) (start : Inv { sched := s })
    (moves : ∀ p m p', p.sched.WellFormed cfg → p.sched.UniqueIds → Inv p →
      Move cfg o now p m p' → LiveMoment cfg m → Inv p') :
    let p' := dispatchAll cfg o now s
    p'.sched.WellFormed cfg ∧ p'.sched.UniqueIds ∧ Inv p' := by
  refine List.foldlRecOn
    (motive := fun p : Pass => p.sched.WellFormed cfg ∧ p.sched.UniqueIds ∧ Inv p)
    cfg.endpoints.entries _ ⟨wf, unique, start⟩ ?_
  rintro p ⟨hwf, hunique, hp⟩ e hmem
  exact dispatchNext_live Inv (Dict.mem_entries_iff.mp hmem) hwf hunique hp
    fun p m p' _ => moves p m p'

/-! ### Why a band stops -/

theorem Budgeted.afterDispatch {ep : String} {band : PriorityBand}
    {agentId : String} {req : QueuedRequest} {rest : List QueuedRequest}
    (budgeted : s.Budgeted) (head : (s.queueOf ep).deque band agentId = req :: rest)
    (now : ℚ) : (s.afterDispatch ep band agentId req rest now).Budgeted := by
  intro r hr
  have before : r ∈ s.queued := by
    rw [queued_afterDispatch head now]
    exact Multiset.mem_cons_of_mem hr
  have same : (s.afterDispatch ep band agentId req rest now).budgets.agents.keys =
      s.budgets.agents.keys := BudgetManager.keys_modify _ _ _
  rw [same]
  exact budgeted r before

theorem Budgeted.afterSpill {ep : String} {band : PriorityBand}
    {agentId : String} {req : QueuedRequest} {rest : List QueuedRequest}
    (budgeted : s.Budgeted) (wf : s.WellFormed cfg)
    (head : (s.queueOf ep).deque band agentId = req :: rest) (target : String) :
    (Scheduler.afterSpill cfg s ep band agentId req rest target).Budgeted := by
  intro r hr
  obtain ⟨others, hbefore, hafter⟩ := wf.queued_afterSpill head target
  rw [budgets_afterSpill, BudgetManager.mem_keys_getOrCreate]
  rw [hafter] at hr
  rcases Multiset.mem_cons.mp hr with rfl | hr
  · exact .inl rfl
  · refine .inr (budgeted r ?_)
    rw [hbefore]
    exact Multiset.mem_cons_of_mem hr

theorem Round.budgeted {c : BandCtx} {v v' : BandVars} (round : Round c v v')
    (wf : v.sched.WellFormed c.cfg) (budgeted : v.sched.Budgeted) : v'.sched.Budgeted := by
  cases round with
  | dispatch chosen => exact budgeted.afterDispatch chosen.head c.now
  | spill chosen => exact budgeted.afterSpill wf chosen.head c.target

/-- Every round takes one request out of its band. -/
theorem Round.card_lt {c : BandCtx} {v v' : BandVars} (round : Round c v v') (ok : c.Ok)
    (wf : v.sched.WellFormed c.cfg) :
    (v'.sched.waiting c.epName c.band).card < (v.sched.waiting c.epName c.band).card := by
  cases round with
  | dispatch chosen =>
      rw [waiting_afterDispatch chosen.head c.now c.epName c.band, if_pos ⟨rfl, rfl⟩,
        Multiset.card_add, Multiset.card_singleton]
      exact Nat.lt_add_of_pos_left Nat.one_pos
  | spill chosen =>
      obtain ⟨-, -, htarget, -⟩ := admission_spill chosen.decided
      rw [waiting_afterSpill_here wf chosen.head (ok.target_ne htarget) c.band, if_pos rfl,
        Multiset.card_add, Multiset.card_singleton]
      exact Nat.lt_add_of_pos_left Nat.one_pos

/-- A loop that stops on a request has no headroom for it. -/
theorem Stopped.exhausted {c : BandCtx} {v : BandVars} (stopped : Stopped c v)
    (wf : v.sched.WellFormed c.cfg) (cached : Cached c v) (budgeted : v.sched.Budgeted) :
    v.sched.waiting c.epName c.band = 0 ∨ v.sched.headroom c.epCfg c.band = 0 := by
  cases stopped with
  | drained empty => exact .inl empty
  | unpicked nobody waiting =>
      -- Somebody waits, and whoever waits has a budget and can be picked.
      exfalso
      obtain ⟨r, hr⟩ := Multiset.exists_mem_of_ne_zero waiting
      obtain ⟨a, ha⟩ := EndpointQueue.mem_bandContents_iff.mp hr
      have listed := (wf.queue_valid c.epName).deque_ne_nil_iff.mp (List.ne_nil_of_mem ha)
      have known := budgeted r (mem_queued_iff.mpr ⟨_, _, hr⟩)
      rw [(wf.mem_contents ha).2.2.1] at known
      exact BudgetManager.pickAgent_ne_none _ listed known nobody
  | deferred chosen =>
      right
      rw [headroom_eq_zero_iff_not_pos]
      intro pos
      have admissible := cached.admissible_iff.mpr pos
      have slots : 0 < c.epCfg.maxSlots := by
        have := c.epCfg.effectiveMaxSlots_le
        have := admissible.2
        omega
      have decided := chosen.decided
      rw [admission_dispatch_iff.mpr ⟨slots, admissible⟩] at decided
      exact Admission.noConfusion decided

/-- When the loop over a band ends, the band is drained or has no headroom left. -/
theorem dispatchBand_exhausted (o : Oracles) (now : ℚ) {ep : String} {inFlight : ℕ} {p : Pass}
    (hcfg : cfg.endpoints.get? ep = some epCfg) (inStep : InStep cfg ep inFlight p)
    (budgeted : p.sched.Budgeted) (band : PriorityBand) :
    let p' := dispatchBand cfg o ep epCfg now inFlight p band
    p'.sched.waiting ep band = 0 ∨ p'.sched.headroom epCfg band = 0 := by
  have available := inStep.available_eq hcfg band
  unfold dispatchBand
  simp only
  split
  · rename_i hdepth
    exact .inl (EndpointQueue.bandDepth_eq_zero_iff.mp hdepth)
  split
  · rename_i hnone
    rw [available] at hnone
    have := p.sched.headroom_nonneg epCfg band
    exact .inr (le_antisymm hnone.1 this)
  have ok : (bandCtx cfg o now ep epCfg inFlight band).Ok := bandCtx_ok hcfg inFlight band
  let Inv : BandVars → Prop := fun v => v.sched.WellFormed cfg ∧
    Cached (bandCtx cfg o now ep epCfg inFlight band) v ∧ v.sched.Budgeted
  have preserved : ∀ v v', Inv v →
      bandStep (bandCtx cfg o now ep epCfg inFlight band) v = some v' → Inv v' := by
    rintro v v' ⟨hwf, cached, hb⟩ hstep
    have r := bandStep_some (hwf.queue_valid _) hstep
    exact ⟨r.wellFormed hwf rfl, (r.live ok hwf cached).1, r.budgeted hwf hb⟩
  have decreases : ∀ v v', Inv v →
      bandStep (bandCtx cfg o now ep epCfg inFlight band) v = some v' →
      (v'.sched.waiting ep band).card < (v.sched.waiting ep band).card := by
    rintro v v' ⟨hwf, -, -⟩ hstep
    exact (bandStep_some (hwf.queue_valid _) hstep).card_lt ok hwf
  have entered : Inv (p.enter ep epCfg band inFlight) :=
    ⟨inStep.wf, inStep.cached hcfg band, budgeted⟩
  -- One attempt per queued request is enough for the loop to stop by itself.
  have enough : (p.sched.waiting ep band).card ≤
      (p.sched.queueOf ep).bandDepth band + ((p.sched.queueOf ep).agentsInBand band).length := by
    rw [waiting, EndpointQueue.card_bandContents]
    omega
  have final := Loop.iterate_invariant preserved
    ((p.sched.queueOf ep).bandDepth band + ((p.sched.queueOf ep).agentsInBand band).length)
    entered
  have stopped := Loop.iterate_stopped (fun v => (v.sched.waiting ep band).card) preserved
    decreases _ entered enough
  obtain ⟨hwf, cached, hb⟩ := final
  exact (bandStep_none (hwf.queue_valid _) stopped).exhausted hwf cached hb

end Scheduler

end Roadstead
