import Roadstead.Scheduler.Safety

/-!
# Bands

What the order of the three bands guarantees, for ticks that start in a state
without reused ids in which every agent with queued work has a budget.

`BandEffect` collects what the loop over one band does to its endpoint, and
`dispatchEndpoint_phases` cuts a pass into its three bands.  The point where the
two results of this file meet is `nonBg_exhausted`: if an interactive or foreground
request is left over, then the bands above background have no headroom when the
background band begins.

* `bandStrict_of_budgeted`: only a background request is ever dispatched past a waiting
  request of a higher band, and then the other bands have used up their ceiling.
* `workConserving_of_budgeted`: a request of the other bands is left waiting only in front of
  a full endpoint, or because slots were kept for background work that was queued
  when the pass began.

Both are about one tick of a state; `Scheduler.Raising` says which runs reach such states.
-/

namespace Roadstead

namespace Scheduler

variable {cfg : ProxyConfig} {o : Oracles} {now : ℚ} {s : Scheduler} {ep : String}
  {epCfg : EndpointConfig}

/-! ### One band -/

/-- What the loop over `band` of `ep` does, from `p` to `q`. -/
structure BandEffect (ep : String) (epCfg : EndpointConfig) (band : PriorityBand) (p q : Pass) :
    Prop where
  others : ∀ b ≠ band, q.sched.waiting ep b = p.sched.waiting ep b
  shrinks : q.sched.waiting ep band ≤ p.sched.waiting ep band
  decisions : ∃ new, q.decisions = p.decisions ++ new ∧ ∀ d ∈ new, d.request.band = band
  idle : p.sched.headroom epCfg band = 0 →
    q.decisions = p.decisions ∧ q.sched.activeOf ep = p.sched.activeOf ep ∧
      q.sched.headroom epCfg band = 0
  nonBg : band = .background → q.sched.nonBgInFlight ep = p.sched.nonBgInFlight ep
  running : p.sched.running ≤ q.sched.running
  left : ∀ r ∈ p.sched.waiting ep band,
    r ∈ q.sched.waiting ep band ∨ r ∈ q.sched.running ∨ r.hasSpilled = false
  budgeted : q.sched.Budgeted

theorem BandEffect.refl (ep : String) (epCfg : EndpointConfig) (band : PriorityBand) {p : Pass}
    (budgeted : p.sched.Budgeted) : BandEffect ep epCfg band p p where
  others := fun _ _ => rfl
  shrinks := le_rfl
  decisions := ⟨[], by simp⟩
  idle := fun h => ⟨rfl, rfl, h⟩
  nonBg := fun _ => rfl
  running := le_rfl
  left := fun _ h => .inl h
  budgeted := budgeted

/-- A band that dispatched had headroom when it began. -/
theorem BandEffect.room {band : PriorityBand} {p q : Pass} (effect : BandEffect ep epCfg band p q)
    {new : List DispatchDecision} (hnew : q.decisions = p.decisions ++ new)
    {d : DispatchDecision} (hd : d ∈ new) : p.sched.headroom epCfg band ≠ 0 := by
  intro none
  have same := (effect.idle none).1
  rw [hnew, List.append_right_eq_self] at same
  rw [same] at hd
  simp at hd

section Rounds

variable {c : BandCtx} {v v' : BandVars} {p : Pass} {agentId : String} {req : QueuedRequest}
  {rest : List QueuedRequest}

theorem BandEffect.dispatched (effect : BandEffect c.epName c.epCfg c.band p v.toPass)
    (wf : v.sched.WellFormed c.cfg) (cached : Cached c v)
    (chosen : Chosen c v agentId req rest .dispatch)
    (budgeted : (v.dispatched c agentId req rest).sched.Budgeted) :
    BandEffect c.epName c.epCfg c.band p (v.dispatched c agentId req rest).toPass := by
  have pos := cached.admissible_iff.mp (admission_dispatch_iff.mp chosen.decided).2
  have label := wf.band_of_head chosen.head
  have fresh := cached.unique.not_active wf (mem_queued_of_head chosen.head) c.epName
  have taken := waiting_afterDispatch chosen.head c.now c.epName c.band
  rw [if_pos ⟨rfl, rfl⟩] at taken
  have started : (v.dispatched c agentId req rest).sched.running = req ::ₘ v.sched.running :=
    running_afterDispatch c.now fresh
  refine ⟨?_, ?_, ?_, ?_, ?_, ?_, ?_, budgeted⟩
  · intro b hb
    rw [← effect.others b hb]
    exact waiting_afterDispatch_of_ne chosen.head c.now fun h => hb h.2
  · refine le_trans ?_ effect.shrinks
    rw [taken]
    exact Multiset.le_add_left _ _
  · obtain ⟨new, hnew, hband⟩ := effect.decisions
    refine ⟨new ++ [v.decision c req], ?_, ?_⟩
    · simp only [BandVars.dispatched, hnew, List.append_assoc]
    · intro d hd
      rcases List.mem_append.mp hd with hd | hd
      · exact hband d hd
      · rw [List.mem_singleton.mp hd]
        exact label
  · intro none
    have := (effect.idle none).2.2
    omega
  · intro hbg
    rw [← effect.nonBg hbg]
    exact nonBgInFlight_afterDispatch wf cached.unique chosen.head c.now hbg
  · rw [started]
    exact le_trans effect.running (Multiset.le_cons_self _ _)
  · intro r hr
    rw [started]
    rcases effect.left r hr with hr | hr | hr
    · rw [taken] at hr
      rcases Multiset.mem_add.mp hr with hr | hr
      · rw [Multiset.mem_singleton.mp hr]
        exact .inr (.inl (Multiset.mem_cons_self _ _))
      · exact .inl hr
    · exact .inr (.inl (Multiset.mem_cons_of_mem hr))
    · exact .inr (.inr hr)

theorem BandEffect.spilled (effect : BandEffect c.epName c.epCfg c.band p v.toPass) (ok : c.Ok)
    (wf : v.sched.WellFormed c.cfg) (chosen : Chosen c v agentId req rest .spill)
    (budgeted : (v.spilled c agentId req rest).sched.Budgeted) :
    BandEffect c.epName c.epCfg c.band p (v.spilled c agentId req rest).toPass := by
  obtain ⟨-, -, htarget, may⟩ := admission_spill chosen.decided
  have elsewhere := ok.target_ne htarget
  have taken := waiting_afterSpill_here wf chosen.head elsewhere
  have active := wf.activeOf_afterSpill chosen.head c.target c.epName
  have running := wf.running_afterSpill chosen.head c.target
  refine ⟨?_, ?_, effect.decisions, ?_, ?_, ?_, ?_, budgeted⟩
  · intro b hb
    rw [← effect.others b hb, taken b, if_neg hb, zero_add]
    rfl
  · refine le_trans ?_ effect.shrinks
    rw [taken c.band]
    exact Multiset.le_add_left _ _
  · intro none
    obtain ⟨hdecisions, hactive, hroom⟩ := effect.idle none
    refine ⟨hdecisions, active.trans hactive, ?_⟩
    exact (headroom_afterSpill wf ok.configured chosen.head elsewhere).trans hroom
  · intro hbg
    rw [← effect.nonBg hbg]
    show (Scheduler.afterSpill _ _ _ _ _ _ _ _).nonBgInFlight _ = _
    rw [nonBgInFlight, inFlight, bgInFlight, active]
    rfl
  · show p.sched.running ≤ (Scheduler.afterSpill _ _ _ _ _ _ _ _).running
    rw [running]
    exact effect.running
  · intro r hr
    show _ ∨ r ∈ (Scheduler.afterSpill _ _ _ _ _ _ _ _).running ∨ _
    rw [running]
    rcases effect.left r hr with hr | hr | hr
    · rw [taken c.band, if_pos rfl] at hr
      rcases Multiset.mem_add.mp hr with hr | hr
      · rw [Multiset.mem_singleton.mp hr]
        exact .inr (.inr may.not_spilled)
      · exact .inl hr
    · exact .inr (.inl hr)
    · exact .inr (.inr hr)

theorem BandEffect.round (effect : BandEffect c.epName c.epCfg c.band p v.toPass) (ok : c.Ok)
    (wf : v.sched.WellFormed c.cfg) (cached : Cached c v) (round : Round c v v') :
    BandEffect c.epName c.epCfg c.band p v'.toPass := by
  have budgeted := round.budgeted wf effect.budgeted
  cases round with
  | dispatch chosen => exact effect.dispatched wf cached chosen budgeted
  | spill chosen => exact effect.spilled ok wf chosen budgeted

end Rounds

theorem dispatchBand_effect (o : Oracles) (now : ℚ) {inFlight : ℕ} {p : Pass}
    (hcfg : cfg.endpoints.get? ep = some epCfg) (inStep : InStep cfg ep inFlight p)
    (budgeted : p.sched.Budgeted) (band : PriorityBand) :
    InStep cfg ep inFlight (dispatchBand cfg o ep epCfg now inFlight p band) ∧
      BandEffect ep epCfg band p (dispatchBand cfg o ep epCfg now inFlight p band) := by
  refine dispatchBand_live hcfg inStep band (fun q => BandEffect ep epCfg band p q)
    (.refl ep epCfg band budgeted) ?_
  intro v v' wf cached effect round
  exact effect.round (bandCtx_ok hcfg inFlight band) wf cached round

/-! ### One pass -/

theorem dispatchEndpoint_eq (known : ep ∈ s.queues.keys)
    (healthy : o.healthy ⟨ep, none, 0⟩ ep = true) :
    dispatchEndpoint cfg o now s ep epCfg =
      dispatchBand cfg o ep epCfg now (s.inFlight ep)
        (dispatchBand cfg o ep epCfg now (s.inFlight ep)
          (dispatchBand cfg o ep epCfg now (s.inFlight ep) { sched := s } .interactive)
          .foreground) .background := by
  unfold dispatchEndpoint
  rw [if_neg (not_not.mpr known), if_neg (by simp [healthy])]
  simp only [PriorityBand.all, List.foldl_cons, List.foldl_nil]

/-- The pass over an endpoint, cut between its bands. -/
structure Phases (cfg : ProxyConfig) (ep : String) (epCfg : EndpointConfig) (s : Scheduler)
    (p₁ p₂ p₃ : Pass) : Prop where
  interactive : BandEffect ep epCfg .interactive { sched := s } p₁
  foreground : BandEffect ep epCfg .foreground p₁ p₂
  background : BandEffect ep epCfg .background p₂ p₃
  inStep : InStep cfg ep (s.inFlight ep) p₂
  final : InStep cfg ep (s.inFlight ep) p₃
  stopped₁ : p₁.sched.waiting ep .interactive = 0 ∨ p₁.sched.headroom epCfg .interactive = 0
  stopped₂ : p₂.sched.waiting ep .foreground = 0 ∨ p₂.sched.headroom epCfg .foreground = 0

theorem dispatchEndpoint_phases (o : Oracles) (now : ℚ) (hcfg : cfg.endpoints.get? ep = some epCfg)
    (wf : s.WellFormed cfg) (unique : s.UniqueIds) (budgeted : s.Budgeted)
    (healthy : o.healthy ⟨ep, none, 0⟩ ep = true) :
    ∃ p₁ p₂, Phases cfg ep epCfg s p₁ p₂ (dispatchEndpoint cfg o now s ep epCfg) := by
  have known := wf.configured ep (Dict.mem_keys_iff.mpr ⟨_, hcfg⟩)
  rw [dispatchEndpoint_eq known healthy]
  have start : InStep cfg ep (s.inFlight ep) { sched := s } := ⟨wf, unique, rfl⟩
  -- Each band starts where the one before it stopped.
  have band₁ := dispatchBand_effect o now hcfg start budgeted .interactive
  have stop₁ := dispatchBand_exhausted o now hcfg start budgeted .interactive
  generalize dispatchBand cfg o ep epCfg now (s.inFlight ep) { sched := s } .interactive = p₁ at *
  have band₂ := dispatchBand_effect o now hcfg band₁.1 band₁.2.budgeted .foreground
  have stop₂ := dispatchBand_exhausted o now hcfg band₁.1 band₁.2.budgeted
    .foreground
  generalize dispatchBand cfg o ep epCfg now (s.inFlight ep) p₁ .foreground = p₂ at *
  have band₃ := dispatchBand_effect o now hcfg band₂.1 band₂.2.budgeted .background
  exact ⟨p₁, p₂, band₁.2, band₂.2, band₃.2, band₂.1, band₃.1, stop₁, stop₂⟩

section Phases

variable {p₁ p₂ p₃ : Pass}

theorem headroom_interactive_eq (s : Scheduler) (epCfg : EndpointConfig) :
    s.headroom epCfg .interactive = s.headroom epCfg .foreground := by
  rw [headroom_of_ne s epCfg (by decide), headroom_of_ne s epCfg (by decide)]

/-- A request of the first two bands is left over only if those bands have no
headroom when the background band begins. -/
theorem Phases.nonBg_exhausted (phases : Phases cfg ep epCfg s p₁ p₂ p₃) {b : PriorityBand}
    (hb : b ≠ .background) (waiting : p₃.sched.waiting ep b ≠ 0) :
    p₂.sched.headroom epCfg .foreground = 0 := by
  rw [phases.background.others b hb] at waiting
  cases b with
  | interactive =>
      rw [phases.foreground.others .interactive (by decide)] at waiting
      have none := phases.stopped₁.resolve_left waiting
      rw [headroom_interactive_eq] at none
      exact (phases.foreground.idle none).2.2
  | foreground => exact phases.stopped₂.resolve_left waiting
  | background => exact absurd rfl hb

/-- Without headroom the first two bands face a full endpoint or their ceiling. -/
theorem full_or_ceiling (hcfg : cfg.endpoints.get? ep = some epCfg)
    (none : s.headroom epCfg .foreground = 0) :
    epCfg.effectiveMaxSlots ≤ s.inFlight ep ∨
      (s.waiting ep .background ≠ 0 ∧ nonBgCeiling epCfg ≤ s.nonBgInFlight ep) := by
  rw [headroom_of_ne s epCfg (by decide), cfg.endpointClass_eq hcfg] at none
  split at none
  · rename_i full
    exact .inl full
  · split at none
    · rename_i hwait
      refine .inr ⟨hwait, ?_⟩
      omega
    · omega

/-- A request of the first two bands that was queued when the pass began is still
there, or was dispatched, or had not been spilled before. -/
theorem Phases.left (phases : Phases cfg ep epCfg s p₁ p₂ p₃) {b : PriorityBand}
    (hb : b ≠ .background) {r : QueuedRequest} (hr : r ∈ s.waiting ep b) :
    r ∈ p₃.sched.waiting ep b ∨ r ∈ p₃.sched.running ∨ r.hasSpilled = false := by
  have grows₂ := Multiset.subset_of_le phases.foreground.running
  have grows₃ := Multiset.subset_of_le phases.background.running
  rw [phases.background.others b hb]
  cases b with
  | interactive =>
      rw [phases.foreground.others .interactive (by decide)]
      rcases phases.interactive.left r hr with h | h | h
      · exact .inl h
      · exact .inr (.inl (grows₃ (grows₂ h)))
      · exact .inr (.inr h)
  | foreground =>
      have hr' : r ∈ p₁.sched.waiting ep .foreground := by
        rw [phases.interactive.others .foreground (by decide)]
        exact hr
      rcases phases.foreground.left r hr' with h | h | h
      · exact .inl h
      · exact .inr (.inl (grows₃ h))
      · exact .inr (.inr h)
  | background => exact absurd rfl hb

/-- A pass only adds decisions, and its slots with them. -/
theorem Phases.inFlight_le (phases : Phases cfg ep epCfg s p₁ p₂ p₃) :
    p₂.sched.inFlight ep ≤ p₃.sched.inFlight ep := by
  obtain ⟨new, hnew, -⟩ := phases.background.decisions
  rw [← phases.inStep.occupancy, ← phases.final.occupancy, hnew, List.length_append]
  omega

end Phases

/-! ### The place of a pass in its tick -/

/-- The tick up to the pass over `ep`: everything before it in configuration order. -/
def beforePass (cfg : ProxyConfig) (o : Oracles) (now : ℚ) (s : Scheduler) (ep : String) : Pass :=
  (cfg.endpoints.entries.takeWhile fun e => decide (e.1 ≠ ep)).foldl (dispatchNext cfg o now)
    { sched := s.afterExpiry now }

/-- A tick is what comes before the pass over `ep`, that pass, and the passes over
other endpoints. -/
theorem dispatchAll_split (hcfg : cfg.endpoints.get? ep = some epCfg) (o : Oracles) (now : ℚ)
    (s : Scheduler) :
    ∃ later : List (String × EndpointConfig),
      (∀ e ∈ later, e.1 ≠ ep ∧ cfg.endpoints.get? e.1 = some e.2) ∧
      (tick cfg o s now).toPass =
        later.foldl (dispatchNext cfg o now)
          (dispatchNext cfg o now (beforePass cfg o now s ep) (ep, epCfg)) := by
  obtain ⟨earlier, later, hsplit⟩ := List.append_of_mem (Dict.mem_entries_iff.mpr hcfg)
  -- No other entry has the key `ep`.
  have hkeys := cfg.endpoints.nodup
  rw [hsplit, List.map_append, List.map_cons, List.nodup_append, List.nodup_cons] at hkeys
  have hearlier : ∀ e ∈ earlier, e.1 ≠ ep := fun e he =>
    hkeys.2.2 e.1 (List.mem_map_of_mem he) ep (by simp)
  have htake : cfg.endpoints.entries.takeWhile (fun e => decide (e.1 ≠ ep)) = earlier := by
    rw [hsplit, List.takeWhile_append_of_pos (by simpa using hearlier),
      List.takeWhile_cons_of_neg (by simp), List.append_nil]
  refine ⟨later, ?_, ?_⟩
  · intro e he
    refine ⟨?_, Dict.mem_entries_iff.mp ?_⟩
    · intro h
      have hmem : e.1 ∈ later.map Prod.fst := List.mem_map_of_mem he
      exact hkeys.2.1.1 (h ▸ hmem)
    · rw [hsplit]
      simp [he]
  · rw [tick_toPass, dispatchAll, beforePass, htake, hsplit, List.foldl_append, List.foldl_cons]

theorem Move.budgeted {p p' : Pass} {m : Moment} (move : Move cfg o now p m p')
    (wf : p.sched.WellFormed cfg) (budgeted : p.sched.Budgeted) : p'.sched.Budgeted := by
  cases move with
  | dispatch _ head => exact budgeted.afterDispatch head now
  | spill _ head => exact budgeted.afterSpill wf head _

/-- The pass over an endpoint starts in a state like the one its tick started in. -/
theorem beforePass_spec (wf : s.WellFormed cfg) (unique : s.UniqueIds) (budgeted : s.Budgeted)
    (o : Oracles) (now : ℚ) (ep : String) :
    let p := beforePass cfg o now s ep
    p.sched.WellFormed cfg ∧ p.sched.UniqueIds ∧ p.sched.Budgeted := by
  refine List.foldlRecOn
    (motive := fun p : Pass => p.sched.WellFormed cfg ∧ p.sched.UniqueIds ∧ p.sched.Budgeted)
    _ _ ⟨wf.afterExpiry now, unique.afterExpiry wf now, budgeted.afterExpiry wf now⟩ ?_
  rintro p ⟨hwf, hunique, hb⟩ e hmem
  have hcfg := Dict.mem_entries_iff.mp ((List.takeWhile_prefix _).subset hmem)
  exact dispatchNext_live (fun p => p.sched.Budgeted) hcfg hwf hunique hb
    fun p m p' _ hwf _ hb move _ => move.budgeted hwf hb

/-- What the passes over other endpoints leave of `ep`: its slots stay as they are,
its queues only grow, and only with requests that were spilled. -/
structure Untouched (ep : String) (p q : Pass) : Prop where
  active : q.sched.activeOf ep = p.sched.activeOf ep
  queue : ∀ b, ∀ r ∈ q.sched.waiting ep b, r ∈ p.sched.waiting ep b ∨ r.hasSpilled = true
  running : p.sched.running ≤ q.sched.running

theorem Untouched.move {p q q' : Pass} {m : Moment} (untouched : Untouched ep p q)
    (hm : m.endpoint ≠ ep) (wf : q.sched.WellFormed cfg) (unique : q.sched.UniqueIds)
    (move : Move cfg o now q m q') : Untouched ep p q' := by
  cases move with
  | @dispatch ep' _ band agentId req rest occ attempt _ head =>
      have hep : ep ≠ ep' := fun h => hm h.symm
      have fresh := unique.not_active wf (mem_queued_of_head head) ep'
      refine ⟨?_, ?_, ?_⟩
      · rw [activeOf_afterDispatch, if_neg hep]
        exact untouched.active
      · intro b r hr
        rw [waiting_afterDispatch_of_ne head now fun h => hep h.1] at hr
        exact untouched.queue b r hr
      · rw [running_afterDispatch now fresh]
        exact le_trans untouched.running (Multiset.le_cons_self _ _)
  | @spill ep' _ band agentId req rest target attempt hcfg head slots elsewhere healthy may =>
      have hep : ep ≠ ep' := fun h => hm h.symm
      refine ⟨?_, ?_, ?_⟩
      · rw [wf.activeOf_afterSpill head]
        exact untouched.active
      · intro b r hr
        have moved := wf.waiting_afterSpill head target ep b
        rw [if_neg (c := ep = ep' ∧ b = band) fun h => hep h.1, zero_add] at moved
        change r ∈ (afterSpill _ _ _ _ _ _ _ _).waiting ep b at hr
        rw [← moved] at hr
        rcases Multiset.mem_add.mp hr with hr | hr
        · split at hr
          · rw [Multiset.mem_singleton.mp hr]
            exact .inr (wf.hasSpilled_moved hcfg head target)
          · simp at hr
        · exact untouched.queue b r hr
      · rw [wf.running_afterSpill head]
        exact untouched.running

theorem untouched_later (o : Oracles) (now : ℚ) {p : Pass} (later : List (String × EndpointConfig))
    (others : ∀ e ∈ later, e.1 ≠ ep ∧ cfg.endpoints.get? e.1 = some e.2)
    (wf : p.sched.WellFormed cfg) (unique : p.sched.UniqueIds) :
    let q := later.foldl (dispatchNext cfg o now) p
    q.sched.UniqueIds ∧ Untouched ep p q := by
  have start : Untouched ep p p := ⟨rfl, fun _ _ h => .inl h, le_rfl⟩
  refine (List.foldlRecOn
    (motive := fun q : Pass => q.sched.WellFormed cfg ∧ q.sched.UniqueIds ∧ Untouched ep p q)
    later _ ⟨wf, unique, start⟩ ?_).2
  rintro q ⟨hwf, hunique, hq⟩ e hmem
  exact dispatchNext_live (fun q => Untouched ep p q) (others e hmem).2 hwf hunique hq
    fun q m q' hm hwf hunique hq move _ => hq.move (hm ▸ (others e hmem).1) hwf hunique move

end Scheduler

open Scheduler

/-! ### Band strictness -/

/-- In the pass over `ep` of the tick at `now`, a request is dispatched past a
waiting request of a higher band only if it is a background request and the other
bands have reached their ceiling. -/
def BandStrict (cfg : ProxyConfig) (o : Oracles) (now : ℚ) (s : Scheduler) (ep : String)
    (epCfg : EndpointConfig) : Prop :=
  let before := (beforePass cfg o now s ep).sched
  let pass := dispatchEndpoint cfg o now before ep epCfg
  ∀ d ∈ pass.decisions, ∀ b : PriorityBand, b.value < d.request.band.value →
    ∀ r ∈ before.waiting ep b, r ∈ pass.sched.waiting ep b →
      d.request.band = .background ∧
        max 1 (epCfg.effectiveMaxSlots - epCfg.backgroundFloorSlots) ≤
          pass.sched.nonBgInFlight ep

theorem bandStrict_of_budgeted {cfg : ProxyConfig} {s : Scheduler} (wf : s.WellFormed cfg)
    (unique : s.UniqueIds) (budgeted : s.Budgeted) (o : Oracles) (now : ℚ) {ep : String}
    {epCfg : EndpointConfig} (hcfg : cfg.endpoints.get? ep = some epCfg) :
    BandStrict cfg o now s ep epCfg := by
  unfold BandStrict
  intro before pass d hd b hb r _ hr
  obtain ⟨hwf, hunique, hbudgeted⟩ := beforePass_spec wf unique budgeted o now ep
  -- An endpoint that is not healthy dispatches nothing.
  have healthy : o.healthy ⟨ep, none, 0⟩ ep = true := by
    by_contra h
    have none : pass.decisions = [] := by
      simp only [pass, dispatchEndpoint]
      split
      · rfl
      · rw [if_pos (by simpa using h)]
    rw [none] at hd
    simp at hd
  obtain ⟨p₁, p₂, phases⟩ :=
    dispatchEndpoint_phases o now hcfg hwf hunique hbudgeted healthy
  have left : pass.sched.waiting ep b ≠ 0 := fun h => by
    rw [h] at hr
    simp at hr
  have hnonBg : b ≠ .background := by
    rintro rfl
    cases hband : d.request.band <;> simp [hband, PriorityBand.value] at hb
  have exhausted := phases.nonBg_exhausted hnonBg left
  obtain ⟨new₁, hnew₁, hband₁⟩ := phases.interactive.decisions
  obtain ⟨new₂, hnew₂, hband₂⟩ := phases.foreground.decisions
  obtain ⟨new₃, hnew₃, hband₃⟩ := phases.background.decisions
  have hd' : d ∈ new₁ ++ new₂ ++ new₃ := by
    have : pass.decisions = new₁ ++ new₂ ++ new₃ := by
      rw [hnew₃, hnew₂, hnew₁]
      rfl
    exact this ▸ hd
  rcases List.mem_append.mp hd' with hd' | hd'
  · exfalso
    rcases List.mem_append.mp hd' with hd' | hd'
    · rw [hband₁ d hd'] at hb
      simp [PriorityBand.value] at hb
    · -- Only an interactive request is above a foreground one, and it stopped the
      -- interactive band, so the foreground band had no headroom either.
      rw [hband₂ d hd'] at hb
      obtain rfl : b = .interactive := by
        cases b <;> simp [PriorityBand.value] at hb ⊢
      rw [phases.background.others _ (by decide), phases.foreground.others _ (by decide)] at left
      have none := phases.stopped₁.resolve_left left
      rw [headroom_interactive_eq] at none
      exact phases.foreground.room hnew₂ hd' none
  · refine ⟨hband₃ d hd', ?_⟩
    have room := phases.background.room hnew₃ hd'
    rw [phases.background.nonBg rfl]
    rcases full_or_ceiling hcfg exhausted with full | ceiling
    · exact absurd (headroom_eq_zero_of_full (cfg.endpointClass_eq hcfg ▸ full) _) room
    · exact ceiling.2

/-- Four slots, two of them kept for background work while some is queued. -/
def wideEndpoint : EndpointConfig where
  endpointClass := "local"
  maxSlots := 4
  backgroundFloorPct := 1 / 2

def wideFleet : ProxyConfig where
  endpoints := ⟨[("local", wideEndpoint)], by decide +kernel⟩
  stored_under_class := by decide
  class_ne_empty := by decide

theorem not_bandStrict {cfg : ProxyConfig} {o : Oracles} {now : ℚ} {s : Scheduler}
    {ep : String} {epCfg : EndpointConfig}
    (overtaking : ∃ d ∈ (dispatchEndpoint cfg o now (beforePass cfg o now s ep).sched
      ep epCfg).decisions, d.request.band = .background)
    (overtaken : (beforePass cfg o now s ep).sched.waiting ep .interactive ∩
      (dispatchEndpoint cfg o now (beforePass cfg o now s ep).sched
        ep epCfg).sched.waiting ep .interactive ≠ 0)
    (below : (dispatchEndpoint cfg o now (beforePass cfg o now s ep).sched
        ep epCfg).sched.nonBgInFlight ep <
      max 1 (epCfg.effectiveMaxSlots - epCfg.backgroundFloorSlots)) :
    ¬BandStrict cfg o now s ep epCfg := by
  intro strict
  obtain ⟨d, hd, hband⟩ := overtaking
  obtain ⟨r, hmem⟩ := Multiset.exists_mem_of_ne_zero overtaken
  obtain ⟨hr, hleft⟩ := Multiset.mem_inter.mp hmem
  have above : PriorityBand.interactive.value < d.request.band.value := by
    rw [hband]
    decide
  exact absurd (strict d hd .interactive above r hr hleft).2 (not_le.mpr below)

/-- Two live requests under one id: the ceiling is reached by count, but one of the
two is missing from the active map. -/
theorem band_overtaken_by_reused_id :
    let s := (World.run wideFleet (World.init wideFleet {} {})
      [.enqueue (localRequest "x" .interactive), .enqueue (localRequest "x" .interactive),
        .enqueue (localRequest "z" .interactive), .enqueue (localRequest "b" .background)]).sched
    s.Budgeted ∧ ¬BandStrict wideFleet {} 1 s "local" wideEndpoint :=
  ⟨by decide,
    not_bandStrict (by decide +kernel) (by decide +kernel) (by decide +kernel)⟩

/-! ### Work conservation -/

/-- If a request of the first two bands waits on `ep` through the whole tick at
`now`, then the endpoint is full, or the other bands have reached their ceiling and
slots are kept for background work: `kept` holds of the state before the pass over
`ep` and the state after the tick. -/
def WorkConserving (cfg : ProxyConfig) (o : Oracles) (now : ℚ) (s : Scheduler) (ep : String)
    (epCfg : EndpointConfig) (kept : Scheduler → Scheduler → Prop) : Prop :=
  let before := (beforePass cfg o now s ep).sched
  let after := (tick cfg o s now).sched
  ∀ b ≠ PriorityBand.background, ∀ r ∈ before.waiting ep b, r ∈ after.waiting ep b →
    epCfg.effectiveMaxSlots ≤ after.inFlight ep ∨
      (kept before after ∧ max 1 (epCfg.effectiveMaxSlots - epCfg.backgroundFloorSlots) ≤
        after.nonBgInFlight ep)

theorem workConserving_of_budgeted {cfg : ProxyConfig} {s : Scheduler} (wf : s.WellFormed cfg)
    (unique : s.UniqueIds) (budgeted : s.Budgeted) (o : Oracles) (now : ℚ) {ep : String}
    {epCfg : EndpointConfig} (hcfg : cfg.endpoints.get? ep = some epCfg)
    (healthy : o.healthy ⟨ep, none, 0⟩ ep = true) :
    WorkConserving cfg o now s ep epCfg fun before _ => before.waiting ep .background ≠ 0 := by
  unfold WorkConserving
  intro before after b hb r hr hstill
  obtain ⟨hwf, hunique, hbudgeted⟩ := beforePass_spec wf unique budgeted o now ep
  obtain ⟨p₁, p₂, phases⟩ :=
    dispatchEndpoint_phases o now hcfg hwf hunique hbudgeted healthy
  obtain ⟨later, others, hsplit⟩ := dispatchAll_split hcfg o now s
  obtain ⟨uniqueAfter, untouched⟩ := untouched_later o now later others
    (p := dispatchNext cfg o now (beforePass cfg o now s ep) (ep, epCfg))
    phases.final.wf phases.final.unique
  rw [← hsplit] at uniqueAfter untouched
  -- A request that left `ep` during its pass was dispatched or spilled, and either way
  -- it is not back in the queue when the tick ends.
  have left : r ∈ (dispatchEndpoint cfg o now before ep epCfg).sched.waiting ep b := by
    rcases untouched.queue b r hstill with here | spilled
    · exact here
    · rcases phases.left hb hr with here | started | unspilled
      · exact here
      · have queued : r ∈ after.queued := mem_queued_iff.mpr ⟨ep, b, hstill⟩
        have running := Multiset.mem_of_le untouched.running started
        exact absurd rfl (uniqueAfter.ne_of_running queued running)
      · exact absurd (spilled.symm.trans unspilled) (by simp)
  have waiting : (dispatchEndpoint cfg o now before ep epCfg).sched.waiting ep b ≠ 0 := fun h => by
    rw [h] at left
    simp at left
  have hin : after.inFlight ep =
      (dispatchEndpoint cfg o now before ep epCfg).sched.inFlight ep :=
    congrArg Dict.size untouched.active
  have hnonBg : after.nonBgInFlight ep =
      (dispatchEndpoint cfg o now before ep epCfg).sched.nonBgInFlight ep := by
    rw [nonBgInFlight, nonBgInFlight, hin, bgInFlight, untouched.active]
    rfl
  rw [hin, hnonBg]
  rcases full_or_ceiling hcfg (phases.nonBg_exhausted hb waiting) with full | ⟨hbg, ceiling⟩
  · left
    have grows : (p₂.sched.inFlight ep : ℤ) ≤
        (dispatchEndpoint cfg o now before ep epCfg).sched.inFlight ep :=
      Int.ofNat_le.mpr phases.inFlight_le
    exact le_trans full grows
  · right
    rw [phases.foreground.others _ (by decide), phases.interactive.others _ (by decide)] at hbg
    refine ⟨hbg, ?_⟩
    rw [phases.background.nonBg rfl]
    exact ceiling

/-- A tick that leaves an interactive request in front of a free slot although no
background work is queued refutes that slots are kept for queued work only. -/
theorem not_workConserving {cfg : ProxyConfig} {o : Oracles} {now : ℚ} {s : Scheduler}
    {ep : String} {epCfg : EndpointConfig}
    (idle : (beforePass cfg o now s ep).sched.waiting ep .interactive ∩
      (tick cfg o s now).sched.waiting ep .interactive ≠ 0)
    (free : ((tick cfg o s now).sched.inFlight ep : ℤ) < epCfg.effectiveMaxSlots)
    (none : (tick cfg o s now).sched.waiting ep .background = 0) :
    ¬WorkConserving cfg o now s ep epCfg fun _ after => after.waiting ep .background ≠ 0 := by
  intro conserving
  obtain ⟨r, hmem⟩ := Multiset.exists_mem_of_ne_zero idle
  obtain ⟨hr, hstill⟩ := Multiset.mem_inter.mp hmem
  rcases conserving .interactive (by decide) r hr hstill with full | ⟨kept, -⟩
  · exact absurd full (not_le.mpr free)
  · exact kept none

/-- More interactive requests than the ceiling, and one background request. -/
def servedInSamePass : List Op :=
  [.enqueue (localRequest "x" .interactive), .enqueue (localRequest "y" .interactive),
    .enqueue (localRequest "z" .interactive), .enqueue (localRequest "b" .background)]

/-- A request, its completion, a second request an hour and a half later, and the
retention sweep right after it was enqueued. -/
def evictedBudget : List Op :=
  [.enqueue (localRequest "x" .interactive), .tick {} 1,
    .complete { requestId := "x", durationS := 1 },
    .enqueue { localRequest "y" .interactive with enqueuedAt := 5000, timeoutDeadline := 6000 },
    .pruneIdle 5001 3600]

/-- Two ways a slot stays idle in front of a waiting request although no background
work is queued after the tick.  The background request the slots were kept for was
served in the same pass; or the retention sweep evicted the budget of an agent whose
last charge is old and whose next request is queued. -/
theorem idle_slot_without_background :
    ¬WorkConserving wideFleet {} 1
        (World.run wideFleet (World.init wideFleet {} {}) servedInSamePass).sched "local"
        wideEndpoint (fun _ after => after.waiting "local" .background ≠ 0) ∧
      ¬WorkConserving wideFleet {} 5002
        (World.run wideFleet (World.init wideFleet {} {}) evictedBudget).sched "local"
        wideEndpoint (fun _ after => after.waiting "local" .background ≠ 0) :=
  ⟨not_workConserving (by decide +kernel) (by decide +kernel) (by decide +kernel),
    not_workConserving (by decide +kernel) (by decide +kernel) (by decide +kernel)⟩

end Roadstead
