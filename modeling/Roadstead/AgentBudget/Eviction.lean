import Roadstead.AgentBudget.Rates

/-!
# What an eviction changes

`prune_idle` drops the budgets that have not been charged for a while, on the grounds that
such an agent "is recreated at the identical state" when it returns.  Two managers are
compared: in one the evicted agents have returned at once (`evictAndReturn`), in the other
they were never evicted, and both are credited up to `now`.

A returned budget starts from the defaults of the dataclass, with a balance of zero, while
the budget that stayed is at the cap, or still in debt, or wherever `dueBalance` puts it.
So the eviction is invisible exactly when every evicted agent is due a balance of zero
and the rates come back (`RatesReturn`).  The second condition is met wherever there is
something to share out (`ratesReturn_of_shares`); in a degenerate state, without capacity or
without weight, a returned agent has no rate while the evicted one may have kept an old
one.
-/

namespace Roadstead.BudgetManager

/-- The budgets `prune_idle` evicts, under their names. -/
def evicted (m : BudgetManager) (now idleTtlS : ℚ) : List (String × AgentBudget) :=
  m.agents.entries.filter fun e => e.2.lastActiveAt ≠ 0 ∧ idleTtlS < now - e.2.lastActiveAt

/-- An evicted agent asks again, with the weight and the cap it had. -/
def welcome (now : ℚ) (m : BudgetManager) (e : String × AgentBudget) : BudgetManager :=
  m.getOrCreate e.1 e.2.weight e.2.maxBalance now

/-- Evict, and let every evicted agent return at once. -/
def evictAndReturn (m : BudgetManager) (now idleTtlS : ℚ) : BudgetManager :=
  (m.evicted now idleTtlS).foldl (welcome now) (m.pruneIdle now idleTtlS)

/-- The balance of an agent. -/
def balanceOf (m : BudgetManager) (agentId : String) : Option ℚ :=
  (m.agents.get? agentId).map AgentBudget.balance

/-- The charges and credits of normal operation. -/
def Op.Deals : Op → Prop
  | .charge .. | .retroactiveAdjust .. | .replenish _ => True
  | _ => False

/-- No later charge, credit or pick tells the two managers apart. -/
def BehaveAlike (m m' : BudgetManager) : Prop :=
  ∀ ops : List Op, (∀ op ∈ ops, op.Deals) →
    (∀ a, (Runs.run step m ops).balanceOf a = (Runs.run step m' ops).balanceOf a) ∧
    ∀ candidates waitByAgent, (Runs.run step m ops).pickAgent candidates waitByAgent =
      (Runs.run step m' ops).pickAgent candidates waitByAgent

/-- The eviction makes no difference: an agent that returns has the balance it would have had,
and nothing later tells. -/
def EvictionInvisible (m : BudgetManager) (now idleTtlS : ℚ) : Prop :=
  (∀ e ∈ m.evicted now idleTtlS,
    (m.evictAndReturn now idleTtlS).balanceOf e.1 = (m.replenish now).balanceOf e.1) ∧
  BehaveAlike ((m.evictAndReturn now idleTtlS).replenish now) (m.replenish now)

/-! ### The condition -/

/-- What the balance comes to at `now`: credited since the last tick, up to the cap. -/
def dueBalance (now : ℚ) (b : AgentBudget) : ℚ :=
  if now ≤ b.lastReplenishAt then b.balance
  else min b.maxBalance (b.balance + b.replenishRate * (now - b.lastReplenishAt))

/-- The total weights in force while `returning` come back to agents that weigh `present`. -/
def runningTotals (present : ℚ) : List AgentBudget → List ℚ
  | [] => []
  | b :: returning => (present + b.weight) :: runningTotals (present + b.weight) returning

/-- The rate an agent is left with after recomputations under each of `totals`. -/
def rateThrough (capacity weight rate : ℚ) (totals : List ℚ) : ℚ :=
  totals.foldl (fun rate total => rateAt capacity total weight rate) rate

/-- Each agent that comes back gets the rate it had. -/
def ReturnedRates (capacity present : ℚ) : List AgentBudget → Prop
  | [] => True
  | b :: returning =>
      rateThrough capacity b.weight 0 (runningTotals present (b :: returning)) = b.replenishRate ∧
      ReturnedRates capacity (present + b.weight) returning

/-- The weight of the agents that stay. -/
def stayingWeight (m : BudgetManager) (now idleTtlS : ℚ) : ℚ :=
  m.totalWeight - ((m.evicted now idleTtlS).map fun e => e.2.weight).sum

/-- The rates in force once everybody is back are those in force before. -/
def RatesReturn (m : BudgetManager) (now idleTtlS : ℚ) : Prop :=
  let present := m.stayingWeight now idleTtlS
  let returning := (m.evicted now idleTtlS).map Prod.snd
  (∀ e ∈ m.agents.entries, e ∉ m.evicted now idleTtlS →
    rateThrough m.totalCapacity e.2.weight e.2.replenishRate
      (present :: runningTotals present returning) = e.2.replenishRate) ∧
  ReturnedRates m.totalCapacity present returning

@[simp] theorem rateThrough_cons (capacity weight rate total : ℚ) (totals : List ℚ) :
    rateThrough capacity weight rate (total :: totals) =
      rateThrough capacity weight (rateAt capacity total weight rate) totals := rfl

theorem dueBalance_eq (now : ℚ) (b : AgentBudget) :
    dueBalance now b = (b.replenish now).balance := by
  unfold dueBalance AgentBudget.replenish
  simp only [sub_nonpos]
  by_cases early : now ≤ b.lastReplenishAt
  · rw [if_pos early, if_pos early]
  · rw [if_neg early, if_neg early]

/-! ### Telling two managers apart -/

/-- The two budgets are charged, credited and ranked alike. -/
structure SameStanding (b b' : AgentBudget) : Prop where
  weight : b.weight = b'.weight
  maxBalance : b.maxBalance = b'.maxBalance
  balance : b.balance = b'.balance
  rate : b.replenishRate = b'.replenishRate
  lastReplenishAt : b.lastReplenishAt = b'.lastReplenishAt

theorem SameStanding.replenish {b b' : AgentBudget} (same : SameStanding b b') (now : ℚ) :
    SameStanding (b.replenish now) (b'.replenish now) := by
  unfold AgentBudget.replenish
  simp only [same.lastReplenishAt]
  split
  · exact ⟨same.weight, same.maxBalance, same.balance, same.rate, rfl⟩
  · refine ⟨same.weight, same.maxBalance, ?_, same.rate, rfl⟩
    simp only [same.maxBalance, same.balance, same.rate]

theorem SameStanding.charge {b b' : AgentBudget} (same : SameStanding b b') (costSs now : ℚ) :
    SameStanding (b.charge costSs now) (b'.charge costSs now) :=
  ⟨same.weight, same.maxBalance, congrArg (· - costSs) same.balance, same.rate,
    same.lastReplenishAt⟩

theorem SameStanding.adjust {b b' : AgentBudget} (same : SameStanding b b')
    (estimated actual : ℚ) :
    SameStanding (adjustBudget estimated actual b) (adjustBudget estimated actual b') := by
  have moved := congrArg (· + (estimated - actual)) same.balance
  unfold adjustBudget
  simp only
  split
  · exact ⟨same.weight, same.maxBalance, moved, same.rate, same.lastReplenishAt⟩
  · split
    · exact ⟨same.weight, same.maxBalance, moved, same.rate, same.lastReplenishAt⟩
    · exact same

theorem SameStanding.score {b b' : AgentBudget} (same : SameStanding b b') :
    b.score = b'.score := by
  unfold AgentBudget.score
  rw [same.weight, same.balance]

/-- The two managers know the same agents, at the same standing. -/
structure SameBooks (m m' : BudgetManager) : Prop where
  timeout : m.starvationTimeoutS = m'.starvationTimeoutS
  agents : ∀ a, Option.Rel SameStanding (m.agents.get? a) (m'.agents.get? a)

theorem rel_map {A : Type} {R : A → A → Prop} {f : A → A}
    (carries : ∀ x y, R x y → R (f x) (f y)) {o o' : Option A} (h : Option.Rel R o o') :
    Option.Rel R (o.map f) (o'.map f) := by
  cases h with
  | some r => exact .some (carries _ _ r)
  | none => exact .none

theorem map_eq_of_rel {A B : Type} {R : A → A → Prop} {f : A → B}
    (reads : ∀ x y, R x y → f x = f y) {o o' : Option A} (h : Option.Rel R o o') :
    o.map f = o'.map f := by
  cases h with
  | some r => exact congrArg some (reads _ _ r)
  | none => rfl

theorem SameBooks.modify {m m' : BudgetManager} (same : SameBooks m m') (a : String)
    {f : AgentBudget → AgentBudget}
    (keeps : ∀ b b', SameStanding b b' → SameStanding (f b) (f b')) :
    SameBooks (m.modify a f) (m'.modify a f) := by
  have timeout : ∀ m : BudgetManager, (m.modify a f).starvationTimeoutS = m.starvationTimeoutS := by
    intro m
    unfold BudgetManager.modify
    split <;> rfl
  refine ⟨by rw [timeout, timeout, same.timeout], fun a' => ?_⟩
  rw [get?_modify, get?_modify]
  split
  · exact rel_map keeps (same.agents a)
  · exact same.agents a'

theorem SameBooks.step {m m' : BudgetManager} (same : SameBooks m m') {op : Op} (deals : op.Deals) :
    SameBooks (m.step op) (m'.step op) := by
  cases op with
  | charge a costSs now => exact same.modify a fun _ _ h => h.charge costSs now
  | retroactiveAdjust a estimated actual =>
      exact same.modify a fun _ _ h => h.adjust estimated actual
  | replenish now =>
      refine ⟨same.timeout, fun a => ?_⟩
      show Option.Rel _ ((m.agents.map fun _ b => b.replenish now).get? a)
        ((m'.agents.map fun _ b => b.replenish now).get? a)
      rw [Dict.get?_map, Dict.get?_map]
      exact rel_map (fun _ _ h => h.replenish now) (same.agents a)
  | _ => exact deals.elim

theorem SameBooks.run {m m' : BudgetManager} (same : SameBooks m m') {ops : List Op}
    (deals : ∀ op ∈ ops, op.Deals) : SameBooks (Runs.run BudgetManager.step m ops) (Runs.run BudgetManager.step m' ops) := by
  induction ops generalizing m m' with
  | nil => exact same
  | cons op ops ih =>
      exact ih (same.step (deals op List.mem_cons_self))
        fun op' h => deals op' (List.mem_cons_of_mem op h)

theorem SameBooks.balanceOf {m m' : BudgetManager} (same : SameBooks m m') (a : String) :
    m.balanceOf a = m'.balanceOf a :=
  map_eq_of_rel (fun _ _ h => h.balance) (same.agents a)

theorem SameBooks.pickAgent {m m' : BudgetManager} (same : SameBooks m m')
    (candidates : List String) (waitByAgent : Dict String ℚ) :
    m.pickAgent candidates waitByAgent = m'.pickAgent candidates waitByAgent := by
  have ranked : (fun a => (m.agents.get? a).map fun b => (b.score, a)) =
      fun a => (m'.agents.get? a).map fun b => (b.score, a) := by
    funext a
    exact map_eq_of_rel (fun _ _ h => congrArg (·, a) h.score) (same.agents a)
  simp only [BudgetManager.pickAgent, same.timeout, ranked]

theorem SameBooks.behaveAlike {m m' : BudgetManager} (same : SameBooks m m') :
    BehaveAlike m m' := fun _ deals =>
  ⟨fun a => (same.run deals).balanceOf a, fun candidates waits =>
    (same.run deals).pickAgent candidates waits⟩

/-- Managers that behave alike have the same balances, and the same rates too: a large
enough charge keeps both balances under their caps for the next credit. -/
theorem BehaveAlike.standing {m m' : BudgetManager} (alike : BehaveAlike m m') {a : String}
    {b b' : AgentBudget} (known : m.agents.get? a = some b) (known' : m'.agents.get? a = some b')
    {now : ℚ} (last : b.lastReplenishAt = now) (last' : b'.lastReplenishAt = now) :
    b.balance = b'.balance ∧ b.replenishRate = b'.replenishRate := by
  have balance : b.balance = b'.balance := by
    have := (alike [] (by simp)).1 a
    simpa [balanceOf, known, known'] using this
  refine ⟨balance, ?_⟩
  let cost := |b.balance| + |b.replenishRate| + |b'.replenishRate| + |b.maxBalance| + |b'.maxBalance|
  -- What the script makes of a budget whose cap is not reached.
  have after : ∀ (m : BudgetManager) (b : AgentBudget), m.agents.get? a = some b →
      b.lastReplenishAt = now → b.balance - cost + b.replenishRate ≤ b.maxBalance →
      (Runs.run step m [.charge a cost now, .replenish (now + 1)]).balanceOf a =
        some (b.balance - cost + b.replenishRate) := by
    intro m b known last room
    show (((m.charge a cost now).replenish (now + 1)).agents.get? a).map _ = _
    simp only [BudgetManager.replenish, Dict.get?_map, charge, get?_modify, if_true, known,
      Option.map_some, Option.some.injEq]
    rw [← dueBalance_eq]
    have elapsed : ¬now + 1 ≤ (b.charge cost now).lastReplenishAt := by
      show ¬now + 1 ≤ b.lastReplenishAt
      linarith
    rw [dueBalance, if_neg elapsed]
    show min b.maxBalance (b.balance - cost + b.replenishRate * (now + 1 - b.lastReplenishAt)) = _
    rw [last, add_sub_cancel_left, mul_one]
    exact min_eq_right room
  have bounds : b.balance - cost + b.replenishRate ≤ b.maxBalance ∧
      b'.balance - cost + b'.replenishRate ≤ b'.maxBalance := by
    have h₁ := le_abs_self b.balance
    have h₂ := le_abs_self b.replenishRate
    have h₃ := le_abs_self b'.replenishRate
    have h₄ := neg_abs_le b.maxBalance
    have h₅ := neg_abs_le b'.maxBalance
    have n₁ := abs_nonneg b.replenishRate
    have n₂ := abs_nonneg b'.replenishRate
    have n₃ := abs_nonneg b.maxBalance
    have n₄ := abs_nonneg b'.maxBalance
    rw [← balance]
    exact ⟨by linarith, by linarith⟩
  have same := (alike [.charge a cost now, .replenish (now + 1)] (by simp [Op.Deals])).1 a
  rw [after m b known last bounds.1, after m' b' known' last' bounds.2, ← balance] at same
  exact add_left_cancel (Option.some.inj same)

/-! ### The manager after everybody is back -/

theorem staleAgents_eq (m : BudgetManager) (now idleTtlS : ℚ) :
    m.staleAgents now idleTtlS = (m.evicted now idleTtlS).map Prod.fst := rfl

variable {m : BudgetManager} {now idleTtlS : ℚ}

theorem evicted_known {e : String × AgentBudget}
    (mem : e ∈ m.evicted now idleTtlS) : m.agents.get? e.1 = some e.2 :=
  Dict.mem_entries_iff.mp (List.mem_of_mem_filter mem)

theorem nodup_evicted (m : BudgetManager) (now idleTtlS : ℚ) :
    ((m.evicted now idleTtlS).map Prod.fst).Nodup :=
  (List.filter_sublist.map Prod.fst).nodup m.agents.nodup

/-- An agent that is known and whose budget is not evicted stays. -/
theorem mem_evicted_iff {a : String} {b : AgentBudget} (known : m.agents.get? a = some b) :
    a ∈ m.staleAgents now idleTtlS ↔ (a, b) ∈ m.evicted now idleTtlS := by
  rw [staleAgents_eq]
  constructor
  · intro mem
    obtain ⟨e, there, rfl⟩ := List.mem_map.mp mem
    have same : e.2 = b := Option.some.inj ((evicted_known there).symm.trans known)
    exact same ▸ there
  · exact fun mem => List.mem_map.mpr ⟨(a, b), mem, rfl⟩

/-- The budget an agent comes back to, once it has the rate `rate`. -/
def returned (now : ℚ) (e : String × AgentBudget) (rate : ℚ) : AgentBudget :=
  { agentId := e.1, weight := e.2.weight, maxBalance := e.2.maxBalance, lastReplenishAt := now,
    lastActiveAt := now, replenishRate := rate }

variable {es : List (String × AgentBudget)}

section Welcome

variable {m : BudgetManager} {now : ℚ}

theorem get?_welcome {e : String × AgentBudget} (gone : e.1 ∉ m.agents.keys) (a : String) :
    (welcome now m e).agents.get? a =
      if a = e.1 then
        some (returned now e (rateAt m.totalCapacity (m.totalWeight + e.2.weight) e.2.weight 0))
      else (m.agents.get? a).map fun b =>
        { b with replenishRate :=
            rateAt m.totalCapacity (m.totalWeight + e.2.weight) b.weight b.replenishRate } := by
  unfold welcome getOrCreate
  rw [if_neg gone, get?_recalculateRates, Dict.get?_set]
  simp only [totalWeight, Dict.sum_set_of_not_mem _ gone]
  by_cases same : a = e.1
  · rw [if_pos same, if_pos same]
    rfl
  · rw [if_neg same, if_neg same]

theorem totalWeight_welcome {e : String × AgentBudget} (gone : e.1 ∉ m.agents.keys) :
    (welcome now m e).totalWeight = m.totalWeight + e.2.weight := by
  unfold welcome getOrCreate
  rw [if_neg gone, totalWeight_recalculateRates]
  exact Dict.sum_set_of_not_mem _ gone _

theorem totalCapacity_welcome (e : String × AgentBudget) :
    (welcome now m e).totalCapacity = m.totalCapacity := by
  unfold welcome getOrCreate
  split
  · rfl
  · rw [totalCapacity_recalculateRates]

theorem starvationTimeoutS_foldl_welcome (es : List (String × AgentBudget)) :
    (es.foldl (welcome now) m).starvationTimeoutS = m.starvationTimeoutS := by
  refine List.foldlRecOn
    (motive := fun r : BudgetManager => r.starvationTimeoutS = m.starvationTimeoutS) es _ rfl ?_
  intro r same e _
  rw [← same]
  unfold welcome getOrCreate
  split
  · rfl
  · rw [starvationTimeoutS_recalculateRates]

/-- The first of several agents to come back is not in the way of the others. -/
theorem gone_welcome {e : String × AgentBudget}
    (nodup : ((e :: es).map Prod.fst).Nodup) (gone : ∀ x ∈ e :: es, x.1 ∉ m.agents.keys) :
    ∀ x ∈ es, x.1 ∉ (welcome now m e).agents.keys := by
  intro x hx
  simp only [List.map_cons, List.nodup_cons] at nodup
  unfold welcome
  rw [mem_keys_getOrCreate, not_or]
  refine ⟨?_, gone x (List.mem_cons_of_mem e hx)⟩
  intro same
  exact nodup.1 (List.mem_map.mpr ⟨x, hx, same⟩)

/-- An agent that was there all the time has been through every recomputation. -/
theorem get?_foldl_welcome (nodup : (es.map Prod.fst).Nodup)
    (gone : ∀ e ∈ es, e.1 ∉ m.agents.keys) {a : String} (other : a ∉ es.map Prod.fst) :
    (es.foldl (welcome now) m).agents.get? a = (m.agents.get? a).map fun b =>
      { b with
        replenishRate := rateThrough m.totalCapacity b.weight b.replenishRate
          (runningTotals m.totalWeight (es.map Prod.snd)) } := by
  induction es generalizing m with
  | nil =>
      show m.agents.get? a = (m.agents.get? a).map id
      rw [Option.map_id, id]
  | cons e es ih =>
      have here : e.1 ∉ m.agents.keys := gone e List.mem_cons_self
      rw [List.map_cons, List.mem_cons, not_or] at other
      rw [List.foldl_cons, ih (List.nodup_cons.mp nodup).2 (gone_welcome nodup gone) other.2,
        get?_welcome here, if_neg other.1, Option.map_map, totalCapacity_welcome,
        totalWeight_welcome here]
      rfl

/-- An agent that comes back starts over, at some rate. -/
theorem get?_foldl_welcome_self
    (nodup : (es.map Prod.fst).Nodup) (gone : ∀ e ∈ es, e.1 ∉ m.agents.keys) :
    ∀ e ∈ es, ∃ rate, (es.foldl (welcome now) m).agents.get? e.1 = some (returned now e rate) := by
  induction es generalizing m with
  | nil => simp
  | cons e es ih =>
      have here : e.1 ∉ m.agents.keys := gone e List.mem_cons_self
      have apart := List.nodup_cons.mp nodup
      intro x hx
      rcases List.mem_cons.mp hx with rfl | hx
      · rw [List.foldl_cons, get?_foldl_welcome apart.2 (gone_welcome nodup gone) apart.1,
          get?_welcome here, if_pos rfl]
        exact ⟨_, rfl⟩
      · exact ih apart.2 (gone_welcome nodup gone) x hx

/-- The rates of the agents that come back are what `ReturnedRates` says. -/
theorem returnedRates_iff (nodup : (es.map Prod.fst).Nodup) (gone : ∀ e ∈ es, e.1 ∉ m.agents.keys) :
    ReturnedRates m.totalCapacity m.totalWeight (es.map Prod.snd) ↔
      ∀ e ∈ es, (es.foldl (welcome now) m).rateOf e.1 = some e.2.replenishRate := by
  induction es generalizing m with
  | nil => simp [ReturnedRates]
  | cons e es ih =>
      have here : e.1 ∉ m.agents.keys := gone e List.mem_cons_self
      have apart := List.nodup_cons.mp nodup
      have rest := ih (m := welcome now m e) apart.2 (gone_welcome nodup gone)
      rw [totalCapacity_welcome, totalWeight_welcome here] at rest
      rw [List.forall_mem_cons, List.map_cons, ReturnedRates, rest, List.foldl_cons]
      refine and_congr_left fun _ => ?_
      unfold rateOf
      rw [get?_foldl_welcome apart.2 (gone_welcome nodup gone) apart.1, get?_welcome here,
        if_pos rfl, totalCapacity_welcome, totalWeight_welcome here]
      simp [returned, runningTotals]

end Welcome

/-! ### The manager after the eviction -/

theorem sum_foldl_erase {d : Dict String AgentBudget}
    (nodup : (es.map Prod.fst).Nodup) (known : ∀ e ∈ es, d.get? e.1 = some e.2) :
    ((es.map Prod.fst).foldl Dict.erase d).sum (fun _ b => b.weight) +
      (es.map fun e => e.2.weight).sum = d.sum fun _ b => b.weight := by
  induction es generalizing d with
  | nil => simp
  | cons e es ih =>
      have apart := List.nodup_cons.mp nodup
      have still : ∀ x ∈ es, (d.erase e.1).get? x.1 = some x.2 := by
        intro x hx
        rw [Dict.get?_erase_of_ne d fun same => apart.1 (List.mem_map.mpr ⟨x, hx, same⟩)]
        exact known x (List.mem_cons_of_mem e hx)
      have erased := Dict.sum_erase (fun _ b => AgentBudget.weight b) (known e List.mem_cons_self)
      simp only [List.map_cons, List.foldl_cons, List.sum_cons]
      have rest := ih apart.2 still
      linarith

/-- The state `prune_idle` recomputes the rates of. -/
theorem pruneIdle_eq (leaving : m.evicted now idleTtlS ≠ []) :
    m.pruneIdle now idleTtlS = recalculateRates
      { m with agents := ((m.evicted now idleTtlS).map Prod.fst).foldl Dict.erase m.agents } := by
  unfold pruneIdle
  simp only [staleAgents_eq, List.map_eq_nil_iff, leaving, if_false]

theorem totalWeight_pruneIdle (leaving : m.evicted now idleTtlS ≠ []) :
    (m.pruneIdle now idleTtlS).totalWeight = m.stayingWeight now idleTtlS := by
  rw [pruneIdle_eq leaving, totalWeight_recalculateRates, stayingWeight]
  exact eq_sub_of_add_eq (sum_foldl_erase (nodup_evicted m now idleTtlS) fun _ => evicted_known)

theorem totalCapacity_pruneIdle (m : BudgetManager) (now idleTtlS : ℚ) :
    (m.pruneIdle now idleTtlS).totalCapacity = m.totalCapacity := by
  unfold pruneIdle
  simp only
  split
  · rfl
  · rw [totalCapacity_recalculateRates]

theorem starvationTimeoutS_pruneIdle (m : BudgetManager) (now idleTtlS : ℚ) :
    (m.pruneIdle now idleTtlS).starvationTimeoutS = m.starvationTimeoutS := by
  unfold pruneIdle
  simp only
  split
  · rfl
  · rw [starvationTimeoutS_recalculateRates]

theorem get?_pruneIdle (leaving : m.evicted now idleTtlS ≠ []) (a : String) :
    (m.pruneIdle now idleTtlS).agents.get? a =
      if a ∈ m.staleAgents now idleTtlS then none
      else (m.agents.get? a).map fun b =>
        { b with replenishRate :=
            rateAt m.totalCapacity (m.stayingWeight now idleTtlS) b.weight b.replenishRate } := by
  have total := totalWeight_pruneIdle leaving
  rw [pruneIdle_eq leaving, totalWeight_recalculateRates] at total
  rw [pruneIdle_eq leaving, get?_recalculateRates, total, Dict.get?_foldl_erase, staleAgents_eq]
  split <;> rfl

theorem gone_pruneIdle (leaving : m.evicted now idleTtlS ≠ []) :
    ∀ e ∈ m.evicted now idleTtlS, e.1 ∉ (m.pruneIdle now idleTtlS).agents.keys := by
  intro e he
  rw [← Dict.get?_eq_none_iff, get?_pruneIdle leaving, if_pos]
  exact List.mem_map.mpr ⟨e, he, rfl⟩

/-- An agent that stayed has been through the recomputations under every total. -/
theorem get?_evictAndReturn
    (leaving : m.evicted now idleTtlS ≠ []) {a : String} (stays : a ∉ m.staleAgents now idleTtlS) :
    (m.evictAndReturn now idleTtlS).agents.get? a = (m.agents.get? a).map fun b =>
      { b with
        replenishRate := rateThrough m.totalCapacity b.weight b.replenishRate
          (m.stayingWeight now idleTtlS :: runningTotals (m.stayingWeight now idleTtlS)
            ((m.evicted now idleTtlS).map Prod.snd)) } := by
  unfold evictAndReturn
  rw [get?_foldl_welcome (nodup_evicted m now idleTtlS) (gone_pruneIdle leaving) stays,
    get?_pruneIdle leaving, if_neg stays, Option.map_map, totalCapacity_pruneIdle,
    totalWeight_pruneIdle leaving]
  rfl

/-- An agent that was evicted starts over, at some rate. -/
theorem get?_evictAndReturn_self (leaving : m.evicted now idleTtlS ≠ []) :
    ∀ e ∈ m.evicted now idleTtlS, ∃ rate,
      (m.evictAndReturn now idleTtlS).agents.get? e.1 = some (returned now e rate) :=
  get?_foldl_welcome_self (nodup_evicted m now idleTtlS) (gone_pruneIdle leaving)

theorem returnedRates_evicted_iff (leaving : m.evicted now idleTtlS ≠ []) :
    ReturnedRates m.totalCapacity (m.stayingWeight now idleTtlS)
        ((m.evicted now idleTtlS).map Prod.snd) ↔
      ∀ e ∈ m.evicted now idleTtlS,
        (m.evictAndReturn now idleTtlS).rateOf e.1 = some e.2.replenishRate := by
  rw [← totalCapacity_pruneIdle m now idleTtlS, ← totalWeight_pruneIdle leaving]
  exact returnedRates_iff (nodup_evicted m now idleTtlS) (gone_pruneIdle leaving)

/-- Where nobody is evicted nothing happens, and there is nothing to come back. -/
theorem invisible_of_nobody (conserved : m.Conserved) (nobody : m.evicted now idleTtlS = []) :
    EvictionInvisible m now idleTtlS ∧ RatesReturn m now idleTtlS := by
  have nothing : m.evictAndReturn now idleTtlS = m := by
    simp [evictAndReturn, pruneIdle, staleAgents_eq, nobody]
  constructor
  · unfold EvictionInvisible
    rw [nobody, nothing]
    exact ⟨by simp, fun _ _ => ⟨fun _ => rfl, fun _ _ => rfl⟩⟩
  · unfold RatesReturn
    simp only [nobody, List.map_nil, runningTotals, ReturnedRates, and_true, stayingWeight,
      List.sum_nil, sub_zero]
    intro e he _
    show rateAt m.totalCapacity m.totalWeight e.2.weight e.2.replenishRate = e.2.replenishRate
    unfold rateAt
    split
    · rfl
    · rename_i good
      rw [not_or, not_le, not_le] at good
      exact (conserved good.1 good.2 e.1 e.2 (Dict.mem_entries_iff.mp he)).symm

/-- Balances of zero and old rates: the two managers are at the same standing. -/
theorem sameBooks_of_return (leaving : m.evicted now idleTtlS ≠ [])
    (due : ∀ e ∈ m.evicted now idleTtlS, dueBalance now e.2 = 0) (rates : RatesReturn m now idleTtlS) :
    SameBooks ((m.evictAndReturn now idleTtlS).replenish now) (m.replenish now) := by
  refine ⟨?_, fun a => ?_⟩
  · show (m.evictAndReturn now idleTtlS).starvationTimeoutS = m.starvationTimeoutS
    rw [evictAndReturn, starvationTimeoutS_foldl_welcome, starvationTimeoutS_pruneIdle]
  simp only [BudgetManager.replenish, Dict.get?_map]
  by_cases stale : a ∈ m.staleAgents now idleTtlS
  · obtain ⟨e, he, rfl⟩ := List.mem_map.mp stale
    obtain ⟨rate, there⟩ := get?_evictAndReturn_self leaving e he
    have sameRate := (returnedRates_evicted_iff leaving).mp rates.2 e he
    rw [rateOf, there] at sameRate
    rw [evicted_known he, there]
    refine .some ?_
    -- A budget made at `now` is not credited at `now`.
    have still : (returned now e rate).replenish now = returned now e rate := by
      simp [AgentBudget.replenish, returned]
    show SameStanding ((returned now e rate).replenish now) (e.2.replenish now)
    rw [still]
    have held : ((e.2.replenish now).balance, (e.2.replenish now).lastReplenishAt) = (0, now) := by
      rw [← dueBalance_eq, due e he]
      unfold AgentBudget.replenish
      simp only
      split <;> rfl
    have kept := neutral_replenish now e.2
    refine ⟨kept.1.symm, ?_, (congrArg Prod.fst held).symm, ?_, (congrArg Prod.snd held).symm⟩
    · show e.2.maxBalance = (e.2.replenish now).maxBalance
      unfold AgentBudget.replenish
      simp only
      split <;> rfl
    · exact (Option.some.inj sameRate).trans kept.2.symm
  · rw [get?_evictAndReturn leaving stale]
    rcases known : m.agents.get? a with - | b
    · exact .none
    · have stays : (a, b) ∉ m.evicted now idleTtlS := fun h => stale ((mem_evicted_iff known).mpr h)
      have same := rates.1 (a, b) (Dict.mem_entries_iff.mpr known) stays
      rw [Option.map_some, same]
      exact .some ⟨rfl, rfl, rfl, rfl, rfl⟩

/-- What an invisible eviction says about balances and rates. -/
theorem return_of_invisible
    (leaving : m.evicted now idleTtlS ≠ []) (invisible : EvictionInvisible m now idleTtlS) :
    (∀ e ∈ m.evicted now idleTtlS, dueBalance now e.2 = 0) ∧ RatesReturn m now idleTtlS := by
  obtain ⟨balances, alike⟩ := invisible
  have last : ∀ b : AgentBudget, (b.replenish now).lastReplenishAt = now := by
    intro b
    unfold AgentBudget.replenish
    simp only
    split <;> rfl
  have back := get?_evictAndReturn_self leaving
  have credited : ∀ m : BudgetManager, ∀ a b, m.agents.get? a = some b →
      (m.replenish now).agents.get? a = some (b.replenish now) := by
    intro m a b known
    simp only [BudgetManager.replenish, Dict.get?_map, known, Option.map_some]
  refine ⟨fun e he => ?_, fun e he stays => ?_, ?_⟩
  · have same := balances e he
    obtain ⟨rate, there⟩ := back e he
    rw [balanceOf, balanceOf, there, credited m e.1 e.2 (evicted_known he)] at same
    rw [dueBalance_eq]
    exact (Option.some.inj same).symm
  · have known := Dict.mem_entries_iff.mp he
    have stale : e.1 ∉ m.staleAgents now idleTtlS := fun h => stays ((mem_evicted_iff known).mp h)
    have there := get?_evictAndReturn leaving stale
    rw [known, Option.map_some] at there
    have same := (alike.standing (credited _ _ _ there) (credited _ _ _ known) (last _) (last _)).2
    rw [(neutral_replenish now _).2, (neutral_replenish now _).2] at same
    exact same
  · refine (returnedRates_evicted_iff leaving).mpr fun e he => ?_
    obtain ⟨rate, there⟩ := back e he
    have same := (alike.standing (credited _ _ _ there) (credited _ _ _ (evicted_known he))
      (last _) (last _)).2
    rw [(neutral_replenish now _).2, (neutral_replenish now _).2] at same
    rw [rateOf, there]
    exact congrArg some same

/-- Among positive shares the last total decides, and it is the old one. -/
theorem rateThrough_runningTotals {capacity : ℚ} (positive : 0 < capacity) (weight : ℚ)
    (returning : List AgentBudget) {present total rate : ℚ}
    (all : present + (returning.map AgentBudget.weight).sum = total) (heavy : 0 < total) :
    rateThrough capacity weight rate (present :: runningTotals present returning) =
      capacity * (weight / total) := by
  induction returning generalizing present rate with
  | nil =>
      obtain rfl : present = total := by simpa using all
      simp [runningTotals, rateThrough, rateAt, not_le.mpr positive, not_le.mpr heavy]
  | cons b returning ih =>
      rw [rateThrough_cons]
      refine ih ?_
      rw [← all, List.map_cons, List.sum_cons, add_assoc]

/-- Where there is capacity and weight to share out, the rates come back. -/
theorem ratesReturn_of_shares (conserved : m.Conserved)
    (capacity : 0 < m.totalCapacity) (total : 0 < m.totalWeight) (now idleTtlS : ℚ) :
    RatesReturn m now idleTtlS := by
  have all : m.stayingWeight now idleTtlS +
      (((m.evicted now idleTtlS).map Prod.snd).map AgentBudget.weight).sum = m.totalWeight := by
    rw [stayingWeight, List.map_map]
    exact sub_add_cancel _ _
  have returned : ∀ (returning : List AgentBudget) (present : ℚ),
      (∀ b ∈ returning, b.replenishRate = m.totalCapacity * (b.weight / m.totalWeight)) →
      present + (returning.map AgentBudget.weight).sum = m.totalWeight →
      ReturnedRates m.totalCapacity present returning := by
    intro returning
    induction returning with
    | nil => exact fun _ _ _ => trivial
    | cons b returning ih =>
        intro present shares all
        rw [List.map_cons, List.sum_cons, ← add_assoc] at all
        refine ⟨?_, ih _ (fun x hx => shares x (List.mem_cons_of_mem b hx)) all⟩
        rw [shares b List.mem_cons_self]
        exact rateThrough_runningTotals capacity b.weight returning all total
  refine ⟨fun e he _ => ?_, returned _ _ (fun b hb => ?_) all⟩
  · rw [conserved capacity total e.1 e.2 (Dict.mem_entries_iff.mp he)]
    exact rateThrough_runningTotals capacity e.2.weight _ all total
  · obtain ⟨e, he, rfl⟩ := List.mem_map.mp hb
    exact conserved capacity total e.1 e.2 (evicted_known he)

/-- In every reachable state an eviction is invisible exactly when each evicted agent is due a
balance of zero and the rates come back, which they do wherever there is capacity and
weight to share out. -/
theorem eviction_invisible_iff (starvationTimeoutS : ℚ) (ops : List Op) (m : BudgetManager)
    (reached : m = Runs.run step (fresh starvationTimeoutS) ops) (now idleTtlS : ℚ) :
    (EvictionInvisible m now idleTtlS ↔
      (∀ e ∈ m.evicted now idleTtlS, dueBalance now e.2 = 0) ∧ RatesReturn m now idleTtlS) ∧
    (0 < m.totalCapacity → 0 < m.totalWeight →
      (EvictionInvisible m now idleTtlS ↔
        ∀ e ∈ m.evicted now idleTtlS, dueBalance now e.2 = 0)) := by
  have conserved : m.Conserved := reached ▸ conserved_run starvationTimeoutS ops
  have exact : EvictionInvisible m now idleTtlS ↔
      (∀ e ∈ m.evicted now idleTtlS, dueBalance now e.2 = 0) ∧ RatesReturn m now idleTtlS := by
    by_cases leaving : m.evicted now idleTtlS = []
    · have both := invisible_of_nobody conserved leaving
      simp [both.1, both.2, leaving]
    · refine ⟨return_of_invisible leaving, fun ⟨due, rates⟩ => ⟨fun e he => ?_, ?_⟩⟩
      · obtain ⟨rate, there⟩ := get?_evictAndReturn_self leaving e he
        rw [balanceOf, balanceOf, there]
        simp only [BudgetManager.replenish, Dict.get?_map, evicted_known he, Option.map_some]
        rw [← dueBalance_eq, due e he]
        rfl
      · exact (sameBooks_of_return leaving due rates).behaveAlike
  refine ⟨exact, fun capacity total => exact.trans (and_iff_left ?_)⟩
  exact ratesReturn_of_shares conserved capacity total now idleTtlS

/-- Two agents share a capacity of 4; one has consumed `costSs` and not asked for two hours. -/
def oneIdle (costSs : ℚ) : BudgetManager :=
  Runs.run step (fresh 30)
    [.setTotalCapacity 4, .getOrCreate "nightly" 1 60 1, .getOrCreate "chat" 1 60 1,
      .charge "nightly" costSs 1, .charge "chat" 1 7000]

/-- A debt of 14400 slot-seconds is paid off just when the agent is evicted. -/
theorem eviction_invisible_paid_off : EvictionInvisible (oneIdle 14400) 7201 3600 :=
  ((eviction_invisible_iff 30 _ (oneIdle 14400) rfl 7201 3600).2 (by decide +kernel)
    (by decide +kernel)).mpr (by decide +kernel)

/-- An idle agent is evicted at the cap and comes back with nothing. -/
theorem idle_agent_loses_its_balance :
    (oneIdle 2).evicted 7201 3600 ≠ [] ∧
    ((oneIdle 2).replenish 7201).balanceOf "nightly" = some 60 ∧
    ((oneIdle 2).evictAndReturn 7201 3600).balanceOf "nightly" = some 0 ∧
    ¬EvictionInvisible (oneIdle 2) 7201 3600 := by
  have stayed : ((oneIdle 2).replenish 7201).balanceOf "nightly" = some 60 := by decide +kernel
  have back : ((oneIdle 2).evictAndReturn 7201 3600).balanceOf "nightly" = some 0 := by
    decide +kernel
  have gone : ∃ e ∈ (oneIdle 2).evicted 7201 3600, e.1 = "nightly" := by decide +kernel
  obtain ⟨e, he, name⟩ := gone
  refine ⟨List.ne_nil_of_mem he, stayed, back, fun invisible => ?_⟩
  have same := invisible.1 e he
  rw [name, stayed, back] at same
  exact absurd same (by decide)

end Roadstead.BudgetManager
