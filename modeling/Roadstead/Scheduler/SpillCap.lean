import Roadstead.Scheduler.Safety

/-!
# Spill and the cap of the remote

Before a spill, `_admit` compares the *active* map of the target with its effective
slots.  A spilled request first lands in the target's queue, so several spills of one
tick can all pass the same test, and more requests move than the target has slots
(`spill_overcommits`).

The bound holds when everything that can end up on the target fits
(`spill_within_cap`): the requests in flight there, the requests queued there, and
the requests queued elsewhere that the spill conditions would let through.  It also
holds, for want of a spill, when the target is full or nothing can be spilled to it.
The proof is a potential: no move increases the number of requests bound for the
target.
-/

namespace Roadstead

open Scheduler

variable {cfg : ProxyConfig} {o : Oracles} {now : ℚ}

/-- What a spill counts against the cap of `target`: the requests in flight there and
those queued there that were spilled. -/
def remoteLoad (s : Scheduler) (target : String) : ℕ :=
  s.inFlight target + ((s.queueOf target).contents.filter fun r => r.hasSpilled = true).card

/-- If the tick spills to `target`, the load there ends within the effective slots,
or no higher than it was. -/
def SpillCapped (cfg : ProxyConfig) (o : Oracles) (now : ℚ) (s : Scheduler) (target : String)
    (tgtCfg : EndpointConfig) : Prop :=
  (∃ m ∈ (tick cfg o s now).trace, ∃ req, m.event = .spill req target) →
    (remoteLoad (tick cfg o s now).sched target : ℤ) ≤
      max tgtCfg.effectiveMaxSlots (remoteLoad s target)

/-- The conditions on a request queued elsewhere under which it can be spilled to
`target`, whatever the callbacks answer. -/
def canSpillTo (cfg : ProxyConfig) (target : String) (r : QueuedRequest) : Bool :=
  match cfg.endpoints.get? r.endpoint, cfg.endpoints.get? target with
  | some epCfg, some tgtCfg =>
      epCfg.spillTo = target ∧ r.endpoint ≠ target ∧ 0 < epCfg.maxSlots ∧
        r.hasSpilled = false ∧ (cfg.agentConfig r.agentId).spillOk = true ∧
        r.allowSpill ≠ some false ∧ r.fitsContext tgtCfg.contextPerSlot = true
  | _, _ => false

/-- The request is queued on `target` or can be spilled to it. -/
def boundFor (cfg : ProxyConfig) (target : String) (r : QueuedRequest) : Bool :=
  r.endpoint = target || canSpillTo cfg target r

/-- The target is full, or nothing that is queued when the tick dispatches can be
spilled to it, or all that can end up there fits its slots. -/
def SpillFits (cfg : ProxyConfig) (now : ℚ) (s : Scheduler) (target : String)
    (tgtCfg : EndpointConfig) : Prop :=
  tgtCfg.effectiveMaxSlots ≤ s.inFlight target ∨
    (s.afterExpiry now).queued.filter (fun r => canSpillTo cfg target r = true) = 0 ∨
    (s.inFlight target +
        ((s.afterExpiry now).queued.filter fun r => boundFor cfg target r = true).card : ℤ) ≤
      tgtCfg.effectiveMaxSlots

instance (now : ℚ) (s : Scheduler) (target : String) (tgtCfg : EndpointConfig) :
    Decidable (SpillFits cfg now s target tgtCfg) :=
  inferInstanceAs (Decidable (_ ∨ _))

/-! ### What is queued on one endpoint -/

/-- The queue of an endpoint holds the queued requests that name it. -/
theorem contents_eq_filter {s : Scheduler} (wf : s.WellFormed cfg) (target : String) :
    (s.queueOf target).contents = s.queued.filter fun r => r.endpoint = target := by
  let keep : Multiset QueuedRequest →+ Multiset QueuedRequest :=
    { toFun := Multiset.filter fun r => r.endpoint = target
      map_zero' := Multiset.filter_zero _
      map_add' := Multiset.filter_add _ }
  have hsum : s.queued.filter (fun r => r.endpoint = target) =
      s.queues.sum fun _ eq => keep eq.contents := Dict.map_sum keep _ _
  have entry : ∀ ep eq, (ep, eq) ∈ s.queues.entries →
      s.queueOf ep = eq ∧ ∀ r ∈ eq.contents, r.endpoint = ep := by
    intro ep eq hmem
    have heq : s.queueOf ep = eq := by simp [queueOf, Dict.mem_entries_iff.mp hmem]
    refine ⟨heq, fun r hr => ?_⟩
    rw [← heq] at hr
    obtain ⟨b, hr⟩ := EndpointQueue.mem_contents_iff.mp hr
    exact wf.queued_here ep b r hr
  -- Of the queues of other endpoints nothing is kept, of the queue of `target` everything.
  have dropped : ∀ ep eq, (ep, eq) ∈ s.queues.entries → ep ≠ target →
      keep eq.contents = 0 := by
    intro ep eq hmem hne
    exact Multiset.filter_eq_nil.mpr fun r hr h => hne (((entry ep eq hmem).2 r hr).symm.trans h)
  rw [hsum]
  by_cases h : target ∈ s.queues.keys
  · have hget := get?_queues_of_mem h
    rw [Dict.sum_eq_of_key hget dropped]
    exact (Multiset.filter_eq_self.mpr (entry _ _ (Dict.mem_entries_iff.mpr hget)).2).symm
  · rw [Dict.sum_eq_zero _ fun ep eq hmem => dropped ep eq hmem ?_, queueOf_of_not_mem h,
      EndpointQueue.contents_eq]
    · simp
    · rintro rfl
      exact h (List.mem_map_of_mem hmem)

/-- The load of a target counts some of the requests bound for it. -/
theorem remoteLoad_le {s : Scheduler} (wf : s.WellFormed cfg) (target : String) :
    remoteLoad s target ≤
      s.inFlight target + (s.queued.filter fun r => boundFor cfg target r = true).card := by
  rw [remoteLoad, contents_eq_filter wf, Multiset.filter_filter]
  refine Nat.add_le_add_left (Multiset.card_le_card ?_) _
  refine Multiset.monotone_filter_right _ fun r hr => ?_
  simp [boundFor, hr.2]

/-! ### The potential -/

/-- What holds during the dispatch step, against the state `s` it started in. -/
structure SpillInv (cfg : ProxyConfig) (s : Scheduler) (target : String) (p : Pass) : Prop where
  potential : p.sched.inFlight target +
      (p.sched.queued.filter fun r => boundFor cfg target r = true).card ≤
    s.inFlight target + (s.queued.filter fun r => boundFor cfg target r = true).card
  occupied : s.inFlight target ≤ p.sched.inFlight target
  candidates : (p.sched.queued.filter fun r => canSpillTo cfg target r = true).card ≤
    (s.queued.filter fun r => canSpillTo cfg target r = true).card
  spilled : (∃ m ∈ p.trace, ∃ req, m.event = .spill req target) →
    s.queued.filter (fun r => canSpillTo cfg target r = true) ≠ 0 ∧
      ∃ tgtCfg, cfg.endpoints.get? target = some tgtCfg ∧
        (s.inFlight target : ℤ) < tgtCfg.effectiveMaxSlots

/-- A request that was spilled cannot be spilled again. -/
theorem canSpillTo_of_hasSpilled (cfg : ProxyConfig) (target : String) {r : QueuedRequest}
    (h : r.hasSpilled = true) : canSpillTo cfg target r = false := by
  unfold canSpillTo
  split <;> simp [h]

section Moves

variable {s : Scheduler} {target : String} {ep : String} {epCfg : EndpointConfig}
  {band : PriorityBand} {agentId : String} {req : QueuedRequest} {rest : List QueuedRequest}

/-- A dispatch takes a slot of its own endpoint at most. -/
theorem inFlight_afterDispatch_bounds (s : Scheduler) (ep : String) (band : PriorityBand)
    (agentId : String) (req : QueuedRequest) (rest : List QueuedRequest) (now : ℚ)
    (target : String) :
    s.inFlight target ≤ (s.afterDispatch ep band agentId req rest now).inFlight target ∧
      (s.afterDispatch ep band agentId req rest now).inFlight target ≤
        s.inFlight target + if target = ep then 1 else 0 := by
  rw [inFlight, inFlight, activeOf_afterDispatch]
  split
  · rename_i h
    rw [h]
    exact Dict.size_set_bounds _ _ _
  · exact ⟨le_rfl, le_rfl⟩

/-- A dispatch takes what it counts in flight out of what is bound for the target. -/
theorem potential_afterDispatch (wf : s.WellFormed cfg)
    (head : (s.queueOf ep).deque band agentId = req :: rest) (now : ℚ) (target : String) :
    (s.afterDispatch ep band agentId req rest now).inFlight target +
        ((s.afterDispatch ep band agentId req rest now).queued.filter
          fun r => boundFor cfg target r = true).card ≤
      s.inFlight target + (s.queued.filter fun r => boundFor cfg target r = true).card := by
  have hend : req.endpoint = ep := wf.endpoint_of_head head
  have hsize := (inFlight_afterDispatch_bounds s ep band agentId req rest now target).2
  rw [queued_afterDispatch head now, Multiset.filter_cons, Multiset.card_add]
  by_cases h : target = ep
  · have bound : boundFor cfg target req = true := by simp [boundFor, hend, h]
    rw [if_pos h] at hsize
    rw [if_pos bound, Multiset.card_singleton]
    omega
  · rw [if_neg h] at hsize
    omega

/-- A request that is spilled to `target` could be spilled to `target`. -/
theorem canSpillTo_of_maySpill (wf : s.WellFormed cfg)
    (hcfg : cfg.endpoints.get? ep = some epCfg)
    (head : (s.queueOf ep).deque band agentId = req :: rest) (slots : 0 < epCfg.maxSlots)
    (elsewhere : target = epCfg.spillTo ∧ target ≠ ep) {site : CallSite}
    (may : MaySpill cfg o site s req target) : canSpillTo cfg target req = true := by
  have hend : req.endpoint = ep := wf.endpoint_of_head head
  obtain ⟨tgtCfg, htgt, hfits, -⟩ := may.fits
  simp [canSpillTo, hend, hcfg, htgt, elsewhere.1.symm, elsewhere.2.symm, slots,
    may.not_spilled, may.spill_ok, may.allowed, hfits]

end Moves

theorem SpillInv.move {s : Scheduler} {target : String} {p p' : Pass} {m : Moment}
    (inv : SpillInv cfg s target p) (wf : p.sched.WellFormed cfg)
    (move : Move cfg o now p m p') : SpillInv cfg s target p' := by
  cases move with
  | @dispatch ep epCfg band agentId req rest occ attempt hcfg head =>
      have hsize := inFlight_afterDispatch_bounds p.sched ep band agentId req rest now target
      refine ⟨le_trans (potential_afterDispatch wf head now target) inv.potential,
        le_trans inv.occupied hsize.1, le_trans ?_ inv.candidates, ?_⟩
      · rw [queued_afterDispatch head now, Multiset.filter_cons, Multiset.card_add]
        exact Nat.le_add_left _ _
      · rintro ⟨m', hm', req', hevent⟩
        rcases List.mem_append.mp hm' with hm' | hm'
        · exact inv.spilled ⟨m', hm', req', hevent⟩
        · rw [List.mem_singleton.mp hm'] at hevent
          exact PassEvent.noConfusion hevent
  | @spill ep epCfg band agentId req rest goal attempt hcfg head slots elsewhere healthy may =>
      obtain ⟨others, hbefore, hafter⟩ := wf.queued_afterSpill head goal
      have hin : (afterSpill cfg p.sched ep band agentId req rest goal).inFlight target =
          p.sched.inFlight target := congrArg Dict.size (wf.activeOf_afterSpill head goal target)
      have done := canSpillTo_of_hasSpilled cfg target (wf.hasSpilled_moved hcfg head goal)
      have could : goal = target → canSpillTo cfg target req = true := by
        rintro rfl
        exact canSpillTo_of_maySpill wf hcfg head slots elsewhere may
      have movedBound :
          boundFor cfg target (moved cfg p.sched req goal) = decide (goal = target) := by
        rw [boundFor, done, Bool.or_false]
        rfl
      refine ⟨le_trans ?_ inv.potential, le_trans inv.occupied hin.ge,
        le_trans ?_ inv.candidates, ?_⟩
      · show (afterSpill cfg p.sched ep band agentId req rest goal).inFlight target +
          ((afterSpill cfg p.sched ep band agentId req rest goal).queued.filter _).card ≤ _
        rw [hin, hafter, hbefore, Multiset.filter_cons, Multiset.filter_cons, Multiset.card_add,
          Multiset.card_add, movedBound]
        by_cases h : goal = target
        · have bound : boundFor cfg target req = true := by simp [boundFor, could h]
          rw [if_pos (by simpa using h), if_pos bound, Multiset.card_singleton,
            Multiset.card_singleton]
        · rw [if_neg (by simpa using h), Multiset.card_zero]
          omega
      · show ((afterSpill cfg p.sched ep band agentId req rest goal).queued.filter _).card ≤ _
        rw [hafter, hbefore, Multiset.filter_cons, Multiset.filter_cons, Multiset.card_add,
          Multiset.card_add, if_neg (by simp [done]), Multiset.card_zero]
        omega
      · rintro ⟨m', hm', req', hevent⟩
        rcases List.mem_append.mp hm' with hm' | hm'
        · exact inv.spilled ⟨m', hm', req', hevent⟩
        · rw [List.mem_singleton.mp hm'] at hevent
          obtain ⟨-, rfl⟩ := PassEvent.spill.inj hevent
          constructor
          · have here := inv.candidates
            rw [hbefore, Multiset.filter_cons, if_pos (could rfl), Multiset.card_add,
              Multiset.card_singleton] at here
            intro none
            rw [none, Multiset.card_zero] at here
            omega
          · obtain ⟨tgtCfg, htgt, -, room⟩ := may.fits
            have occupied := inv.occupied
            exact ⟨tgtCfg, htgt, by omega⟩

/-- In every state the scheduler can reach, a tick keeps the load of a target within
its cap if all that can end up there fits. -/
theorem spill_within_cap (cfg : ProxyConfig) (cost : CostModel) (budgets : BudgetManager)
    (ops : List Op) (o : Oracles) (now : ℚ) {target : String} {tgtCfg : EndpointConfig}
    (hcfg : cfg.endpoints.get? target = some tgtCfg)
    (fits : SpillFits cfg now (World.run cfg (World.init cfg cost budgets) ops).sched target
      tgtCfg) :
    SpillCapped cfg o now (World.run cfg (World.init cfg cost budgets) ops).sched target
      tgtCfg := by
  have wf := wellFormed_run cfg cost budgets ops
  generalize (World.run cfg (World.init cfg cost budgets) ops).sched = s at wf fits
  have start : SpillInv cfg (s.afterExpiry now) target { sched := s.afterExpiry now } :=
    ⟨le_rfl, le_rfl, le_rfl, by simp⟩
  obtain ⟨inv, wf'⟩ : SpillInv cfg (s.afterExpiry now) target
        (dispatchAll cfg o now (s.afterExpiry now)) ∧
      (dispatchAll cfg o now (s.afterExpiry now)).sched.WellFormed cfg :=
    dispatchAll_invariant (fun p => SpillInv cfg (s.afterExpiry now) target p)
      (wf.afterExpiry now) start fun p m p' hwf inv move => inv.move hwf move
  rw [← tick_toPass] at inv wf'
  intro spilled
  obtain ⟨candidate, tgtCfg', hcfg', room⟩ := inv.spilled spilled
  obtain rfl := Option.some.inj (hcfg.symm.trans hcfg')
  rcases fits with full | none | fits
  · exact absurd full (not_le.mpr room)
  · exact absurd none candidate
  · have load := remoteLoad_le wf' target
    have potential := inv.potential
    rw [show (s.afterExpiry now).inFlight target = s.inFlight target from rfl] at potential
    refine le_trans ?_ (le_max_left _ _)
    omega

/-- One request too many for the local slots, and a remote slot for it. -/
theorem spill_within_cap_small_fleet :
    let s := (World.run smallFleet (World.init smallFleet {} {})
      [.enqueue (localRequest "x" .interactive), .enqueue (localRequest "y" .interactive),
        .tick {} 1, .enqueue (localRequest "z" .interactive)]).sched
    SpillFits smallFleet 2 s "remote" { endpointClass := "remote", maxSlots := 1 } ∧
      SpillCapped smallFleet {} 2 s "remote" { endpointClass := "remote", maxSlots := 1 } :=
  ⟨by decide +kernel, spill_within_cap smallFleet {} {} _ {} 2 rfl (by decide +kernel)⟩

/-- Four requests on two local slots: both that do not fit pass the test against the
one remote slot. -/
theorem spill_overcommits :
    ¬SpillCapped smallFleet {} 1
      (World.run smallFleet (World.init smallFleet {} {})
        [.enqueue (localRequest "x" .interactive), .enqueue (localRequest "y" .interactive),
          .enqueue (localRequest "z" .interactive),
          .enqueue (localRequest "u" .interactive)]).sched
      "remote" { endpointClass := "remote", maxSlots := 1 } := by
  intro capped
  refine absurd (capped ?_) (by decide +kernel)
  have found : ∃ m ∈ (tick smallFleet {} (World.run smallFleet (World.init smallFleet {} {})
      [.enqueue (localRequest "x" .interactive), .enqueue (localRequest "y" .interactive),
        .enqueue (localRequest "z" .interactive),
        .enqueue (localRequest "u" .interactive)]).sched 1).trace,
      m.event.spill?.any (fun x => decide (x.2 = "remote")) = true := by
    decide +kernel
  obtain ⟨m, hm, hevent⟩ := found
  obtain ⟨⟨req, target⟩, hspill, htarget⟩ := (Option.any_eq_true _ _).mp hevent
  obtain rfl : target = "remote" := of_decide_eq_true htarget
  exact ⟨m, hm, req, PassEvent.eq_of_spill? hspill⟩

end Roadstead
