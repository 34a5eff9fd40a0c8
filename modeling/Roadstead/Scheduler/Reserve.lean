import Roadstead.Scheduler.Safety

/-!
# The slots held back from background work

`fast_path_reserve_slots` holds slots back from the background band, and
`background_cap_slots` says how many that leaves.  In every run, with whatever ids, the
background requests in flight stay within that cap (`background_within_cap`): inside one pass
the loop variable `available` counts down what the cap has left, and a dispatch adds at
most one request.

The cap itself is the larger of `effective_max_slots - fast_path_reserve_slots` and
`background_floor_slots`, and the floor is a share of `max_slots`, which a
`dispatch_concurrency_cap` does not shrink.  So the reserve is kept where the floor leaves it
(`reserve_kept`), and `reserve_lost_under_cap` is a run in which it does not.
-/

namespace Roadstead

namespace Scheduler

variable {cfg : ProxyConfig} {s s' : Scheduler} {ep : String}

/-- What is in flight decides how much of it is background work. -/
theorem bgInFlight_congr (same : s'.activeOf ep = s.activeOf ep) :
    s'.bgInFlight ep = s.bgInFlight ep := by
  rw [bgInFlight, bgInFlight, same]

/-- A dispatch adds one background request at most, on its own endpoint and in the background
band. -/
theorem bgInFlight_afterDispatch_le (wf : s.WellFormed cfg) {ep' agentId : String}
    {band : PriorityBand} {req : QueuedRequest} {rest : List QueuedRequest}
    (head : (s.queueOf ep').deque band agentId = req :: rest) (now : ℚ) (ep : String) :
    (s.afterDispatch ep' band agentId req rest now).bgInFlight ep ≤
      s.bgInFlight ep + if ep = ep' ∧ band = .background then 1 else 0 := by
  by_cases here : ep = ep'
  · subst here
    have label : req.band = band := wf.band_of_head head
    rw [bgInFlight, activeOf_afterDispatch, if_pos rfl]
    refine (Dict.sum_set_le _ _ _ _).trans ?_
    simp only [label, true_and]
    rfl
  · refine (bgInFlight_congr ?_).le.trans (Nat.le_add_right _ _)
    rw [activeOf_afterDispatch, if_neg here]

/-! ### One pass -/

/-- What the loop over the background band of `ep` still has, the cap has left. -/
structure WithinCap (ep : String) (cap : ℤ) (v : BandVars) : Prop where
  inFlight : (v.sched.bgInFlight ep : ℤ) ≤ cap
  left : 0 < v.available → v.available + v.sched.bgInFlight ep ≤ cap

theorem availableForBand_background_le {epCfg : EndpointConfig}
    (within : (s.bgInFlight epCfg.endpointClass : ℤ) ≤ epCfg.backgroundCapSlots)
    (currentInFlight : ℕ) (eq : EndpointQueue) :
    s.availableForBand epCfg .background currentInFlight eq +
      s.bgInFlight epCfg.endpointClass ≤ epCfg.backgroundCapSlots := by
  unfold availableForBand
  simp only [if_true]
  split <;> omega

/-- The loop over one band keeps the background work of `ep` within the cap. -/
theorem bgInFlight_dispatchBand {o : Oracles} {now : ℚ} {epCfg : EndpointConfig}
    (hcfg : cfg.endpoints.get? ep = some epCfg) {ep' : String} {epCfg' : EndpointConfig}
    (hcfg' : cfg.endpoints.get? ep' = some epCfg') {p : Pass} (wf : p.sched.WellFormed cfg)
    (within : (p.sched.bgInFlight ep : ℤ) ≤ epCfg.backgroundCapSlots) (inFlight : ℕ)
    (band : PriorityBand) :
    ((dispatchBand cfg o ep' epCfg' now inFlight p band).sched.bgInFlight ep : ℤ) ≤
        epCfg.backgroundCapSlots ∧
      (dispatchBand cfg o ep' epCfg' now inFlight p band).sched.WellFormed cfg := by
  refine dispatchBand_invariant wf
    (fun v => (v.sched.bgInFlight ep : ℤ) ≤ epCfg.backgroundCapSlots ∧
      (ep = ep' → band = .background → WithinCap ep epCfg.backgroundCapSlots v))
    (fun q => (q.sched.bgInFlight ep : ℤ) ≤ epCfg.backgroundCapSlots ∧ q.sched.WellFormed cfg)
    ⟨within, wf⟩ ⟨within, ?_⟩ ?_ (fun v hv h => ⟨h.1, hv⟩)
  · rintro rfl rfl
    obtain rfl := Option.some.inj (hcfg.symm.trans hcfg')
    refine ⟨within, fun _ => ?_⟩
    have class_eq := cfg.endpointClass_eq hcfg
    have left := availableForBand_background_le (class_eq.symm ▸ within)
      (inFlight + p.decisions.length) (p.sched.queueOf ep)
    rwa [class_eq] at left
  · intro v v' hv inv round
    cases round with
    | @dispatch agentId req rest chosen =>
        have room := (admission_dispatch_iff.mp chosen.decided).2.1
        have adds : (v.sched.afterDispatch ep' band agentId req rest now).bgInFlight ep ≤
            v.sched.bgInFlight ep + if ep = ep' ∧ band = .background then 1 else 0 :=
          bgInFlight_afterDispatch_le hv chosen.head now ep
        show ((v.sched.afterDispatch ep' band agentId req rest now).bgInFlight ep : ℤ) ≤ _ ∧ _
        by_cases here : ep = ep' ∧ band = .background
        · have before := inv.2 here.1 here.2
          have left := before.left room
          rw [if_pos here] at adds
          have within : ((v.sched.afterDispatch ep' band agentId req rest now).bgInFlight ep : ℤ) ≤
              epCfg.backgroundCapSlots := by omega
          refine ⟨within, fun _ _ => ⟨within, fun _ => ?_⟩⟩
          show v.available - 1 +
            ((v.sched.afterDispatch ep' band agentId req rest now).bgInFlight ep : ℤ) ≤ _
          omega
        · rw [if_neg here, Nat.add_zero] at adds
          refine ⟨le_trans (by exact_mod_cast adds) inv.1, fun h₁ h₂ => absurd ⟨h₁, h₂⟩ here⟩
    | @spill agentId req rest chosen =>
        let c := bandCtx cfg o now ep' epCfg' inFlight band
        have same : (v.spilled c agentId req rest).sched.bgInFlight ep = v.sched.bgInFlight ep :=
          bgInFlight_congr (hv.activeOf_afterSpill chosen.head c.target ep)
        have within : ((v.spilled c agentId req rest).sched.bgInFlight ep : ℤ) ≤
            epCfg.backgroundCapSlots := by
          rw [same]
          exact inv.1
        refine ⟨within, fun h₁ h₂ => ⟨within, fun room => ?_⟩⟩
        show v.available + ((v.spilled c agentId req rest).sched.bgInFlight ep : ℤ) ≤ _
        rw [same]
        exact (inv.2 h₁ h₂).left room

theorem bgInFlight_dispatchAll {o : Oracles} {now : ℚ} {epCfg : EndpointConfig}
    (hcfg : cfg.endpoints.get? ep = some epCfg) (wf : s.WellFormed cfg)
    (within : (s.bgInFlight ep : ℤ) ≤ epCfg.backgroundCapSlots) :
    ((dispatchAll cfg o now s).sched.bgInFlight ep : ℤ) ≤ epCfg.backgroundCapSlots ∧
      (dispatchAll cfg o now s).sched.WellFormed cfg := by
  refine List.foldlRecOn (motive := fun p : Pass =>
    (p.sched.bgInFlight ep : ℤ) ≤ epCfg.backgroundCapSlots ∧ p.sched.WellFormed cfg)
    cfg.endpoints.entries _ ⟨within, wf⟩ ?_
  rintro p ⟨hp, hwf⟩ e hmem
  have pass : ((dispatchEndpoint cfg o now p.sched e.1 e.2).sched.bgInFlight ep : ℤ) ≤
        epCfg.backgroundCapSlots ∧
      (dispatchEndpoint cfg o now p.sched e.1 e.2).sched.WellFormed cfg :=
    dispatchEndpoint_invariant
      (fun q => (q.sched.bgInFlight ep : ℤ) ≤ epCfg.backgroundCapSlots ∧ q.sched.WellFormed cfg)
      ⟨hp, hwf⟩ fun q hq band =>
        bgInFlight_dispatchBand hcfg (Dict.mem_entries_iff.mp hmem) hq.2 hq.1 _ band
  exact pass

end Scheduler

open Scheduler

variable {cfg : ProxyConfig}

/-! ### Every run -/

/-- A call other than a tick starts nothing. -/
theorem World.bgInFlight_step_le {w : World} (wf : w.sched.WellFormed cfg) {op : Op}
    (quiet : ∀ o now, op ≠ .tick o now) (ep : String) :
    (w.step cfg op).sched.bgInFlight ep ≤ w.sched.bgInFlight ep := by
  cases op with
  | enqueue req => exact (bgInFlight_congr (wf.activeOf_enqueue _ ep)).le
  | tick o now => exact absurd rfl (quiet o now)
  | complete record =>
      rcases w.step_complete cfg record with ⟨-, same⟩ | ⟨ep', ar, -, stepped⟩
      · rw [same]
      · rw [stepped]
        show (w.sched.finish ep' ar record).bgInFlight ep ≤ _
        rw [bgInFlight, activeOf_finish]
        split
        · rename_i here
          subst here
          exact Dict.sum_erase_le _ _ _
        · exact le_rfl
  | cancel id =>
      rcases w.step_cancel cfg id with ⟨-, same⟩ | ⟨ep', b, a, req, rest, -, -, stepped⟩
      · rw [same]
      · rw [stepped]
        exact le_rfl
  | pruneIdle now ttl => exact le_rfl

/-- The background work in flight never exceeds the cap, whatever is called. -/
theorem background_within_cap (cost : CostModel) (budgets : BudgetManager) (ops : List Op)
    {ep : String} {epCfg : EndpointConfig} (hcfg : cfg.endpoints.get? ep = some epCfg) :
    ((World.run cfg (World.init cfg cost budgets) ops).sched.bgInFlight ep : ℤ) ≤
      epCfg.backgroundCapSlots := by
  refine (Runs.run_forall
    (fun w : World => (w.sched.bgInFlight ep : ℤ) ≤ epCfg.backgroundCapSlots ∧
      w.sched.WellFormed cfg) ?_ ⟨?_, wellFormed_init cfg cost budgets⟩ ops).1
  · rintro w op ⟨within, wf⟩
    refine ⟨?_, World.wellFormed_step wf op⟩
    by_cases ticks : ∃ o now, op = .tick o now
    · obtain ⟨o, now, rfl⟩ := ticks
      exact (bgInFlight_dispatchAll hcfg (wf.afterExpiry now) within).1
    · have quiet := World.bgInFlight_step_le wf
        (fun o now h => ticks ⟨o, now, h⟩) ep
      exact le_trans (by exact_mod_cast quiet) within
  · have nothing : (World.init cfg cost budgets).sched.bgInFlight ep = 0 := by
      show (Scheduler.init cfg cost budgets).bgInFlight ep = 0
      rw [bgInFlight, activeOf_init]
      rfl
    rw [nothing, EndpointConfig.backgroundCapSlots, EndpointConfig.backgroundFloorSlots]
    exact le_trans (by norm_num) ((le_max_left 1 _).trans (le_max_left _ _))

/-- Where the background floor is no larger than what the reserve leaves, no run ever has more
background requests in flight than that. -/
theorem reserve_kept (cfg : ProxyConfig) (cost : CostModel) (budgets : BudgetManager)
    (ops : List Op) (ep : String) (epCfg : EndpointConfig)
    (hcfg : cfg.endpoints.get? ep = some epCfg) (reserve : 1 ≤ epCfg.fastPathReserveSlots)
    (slots : epCfg.fastPathReserveSlots < epCfg.effectiveMaxSlots)
    (floor : epCfg.backgroundFloorSlots ≤ epCfg.effectiveMaxSlots - epCfg.fastPathReserveSlots) :
    ((World.run cfg (World.init cfg cost budgets) ops).sched.bgInFlight ep : ℤ) ≤
      epCfg.effectiveMaxSlots - epCfg.fastPathReserveSlots := by
  have cap : epCfg.backgroundCapSlots =
      epCfg.effectiveMaxSlots - epCfg.fastPathReserveSlots := by
    unfold EndpointConfig.backgroundCapSlots
    simp only
    rw [if_pos ⟨by omega, by omega⟩]
    exact max_eq_right floor
  exact cap ▸ background_within_cap cost budgets ops hcfg

/-- `slots` physical slots of which three are dispatched to and one is held back. -/
def cappedFleet (slots : ℤ) : ProxyConfig where
  endpoints := ⟨[("local",
    { endpointClass := "local", maxSlots := slots, fastPathReserveSlots := 1,
      dispatchConcurrencyCap := 3 })], by simp⟩
  stored_under_class := by simp
  class_ne_empty := by simp

/-- Three background requests, and a tick. -/
def backgroundBurst : List Op :=
  [.enqueue (localRequest "x" .background), .enqueue (localRequest "y" .background),
    .enqueue (localRequest "z" .background), .tick {} 1]

/-- Of four slots the floor is one, and the third slot stays free. -/
theorem reserve_kept_of_four :
    ((World.run (cappedFleet 4) (World.init (cappedFleet 4) {} {}) backgroundBurst).sched.bgInFlight
      "local" : ℤ) ≤ 2 :=
  reserve_kept (cappedFleet 4) {} {} backgroundBurst "local" _ rfl (by decide)
    (by decide +kernel) (by decide +kernel)

/-- Of twenty slots the floor is four, more than are dispatched to at all: background work
takes all three, the reserved one included. -/
theorem reserve_lost_under_cap :
    ∃ epCfg, (cappedFleet 20).endpoints.get? "local" = some epCfg ∧
      1 ≤ epCfg.fastPathReserveSlots ∧ epCfg.fastPathReserveSlots < epCfg.effectiveMaxSlots ∧
      ¬((World.run (cappedFleet 20) (World.init (cappedFleet 20) {} {})
        backgroundBurst).sched.bgInFlight "local" : ℤ) ≤
          epCfg.effectiveMaxSlots - epCfg.fastPathReserveSlots :=
  ⟨_, rfl, by decide +kernel, by decide +kernel, by decide +kernel⟩

end Roadstead
