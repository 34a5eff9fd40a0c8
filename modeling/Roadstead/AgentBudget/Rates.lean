import Mathlib.Algebra.BigOperators.Ring.List
import Roadstead.AgentBudget
import Roadstead.Lib.Run

/-!
# The replenish rates share out the capacity

The replenish rate of an agent is derived: `_recalculate_rates` writes it, from the
weights and the capacity, and has two early returns that leave the old rates in place.
The invariant is therefore conditional (`Conserved`): *when* the capacity and the total
weight are positive, each rate is the agent's share.  It holds in the degenerate states for
want of the condition, and every operation by which a degenerate state is left again
ends with a recomputation, so nothing has to be known about the rates that a degenerate
state kept.

`rateAt` is what the recomputation does to the rate of one agent.
-/

namespace Roadstead.BudgetManager

/-- `remove`. -/
def remove (m : BudgetManager) (agentId : String) : BudgetManager :=
  recalculateRates { m with agents := m.agents.erase agentId }

/-- The calls that write to a budget manager. -/
inductive Op where
  | getOrCreate (agentId : String) (weight maxBalance now : ℚ)
  | reweight (agentId : String) (weight maxBalance : Option ℚ)
  | remove (agentId : String)
  | pruneIdle (now idleTtlS : ℚ)
  | setTotalCapacity (totalSlots : ℚ)
  | replenish (now : ℚ)
  | charge (agentId : String) (costSs now : ℚ)
  | retroactiveAdjust (agentId : String) (estimated actual : ℚ)

/-- One call. -/
def step (m : BudgetManager) : Op → BudgetManager
  | .getOrCreate agentId weight maxBalance now => m.getOrCreate agentId weight maxBalance now
  | .reweight agentId weight maxBalance => m.reweight agentId weight maxBalance
  | .remove agentId => m.remove agentId
  | .pruneIdle now idleTtlS => m.pruneIdle now idleTtlS
  | .setTotalCapacity totalSlots => m.setTotalCapacity totalSlots
  | .replenish now => m.replenish now
  | .charge agentId costSs now => m.charge agentId costSs now
  | .retroactiveAdjust agentId estimated actual => m.retroactiveAdjust agentId estimated actual

/-- The weights of all agents together. -/
def totalWeight (m : BudgetManager) : ℚ := m.agents.sum fun _ b => b.weight

/-- The replenish rate of an agent. -/
def rateOf (m : BudgetManager) (agentId : String) : Option ℚ :=
  (m.agents.get? agentId).map AgentBudget.replenishRate

/-- Where there is a capacity to share out and a weight to share it by, every rate is a
share. -/
def Conserved (m : BudgetManager) : Prop :=
  0 < m.totalCapacity → 0 < m.totalWeight → ∀ a b, m.agents.get? a = some b →
    b.replenishRate = m.totalCapacity * (b.weight / m.totalWeight)

/-! ### The recomputation -/

/-- The rate of an agent of weight `weight` after a recomputation among agents that
weigh `total`; `rate` is the one it had. -/
def rateAt (capacity total weight rate : ℚ) : ℚ :=
  if capacity ≤ 0 ∨ total ≤ 0 then rate else capacity * (weight / total)

/-- The recomputation rewrites rates and nothing else. -/
theorem get?_recalculateRates (m : BudgetManager) (a : String) :
    m.recalculateRates.agents.get? a = (m.agents.get? a).map fun b =>
      { b with replenishRate :=
          rateAt m.totalCapacity m.totalWeight b.weight b.replenishRate } := by
  unfold recalculateRates
  by_cases none : m.agents.entries = [] ∨ m.totalCapacity ≤ 0
  · rw [if_pos none]
    rcases none with empty | capacity
    · -- Nobody is there to have a rate.
      have : m.agents = ∅ := Dict.ext_entries empty
      rw [this]
      rfl
    · simp [rateAt, capacity]
  · rw [if_neg none]
    rw [not_or] at none
    show (if m.totalWeight ≤ 0 then m else _).agents.get? a = _
    by_cases total : m.totalWeight ≤ 0
    · rw [if_pos total]
      simp [rateAt, total]
    · rw [if_neg total]
      simp only [Dict.get?_map, rateAt, none.2, total, or_self, if_false]
      rfl

@[simp] theorem totalCapacity_recalculateRates (m : BudgetManager) :
    m.recalculateRates.totalCapacity = m.totalCapacity := by
  unfold recalculateRates
  split
  · rfl
  · simp only
    split <;> rfl

@[simp] theorem starvationTimeoutS_recalculateRates (m : BudgetManager) :
    m.recalculateRates.starvationTimeoutS = m.starvationTimeoutS := by
  unfold recalculateRates
  split
  · rfl
  · simp only
    split <;> rfl

@[simp] theorem totalWeight_recalculateRates (m : BudgetManager) :
    m.recalculateRates.totalWeight = m.totalWeight := by
  unfold recalculateRates
  split
  · rfl
  · simp only
    split
    · rfl
    · simp [totalWeight, Dict.sum_map]

/-- Whatever the rates were, they are shares after a recomputation. -/
theorem conserved_recalculateRates (m : BudgetManager) : m.recalculateRates.Conserved := by
  intro capacity total a b known
  rw [totalCapacity_recalculateRates] at capacity ⊢
  rw [totalWeight_recalculateRates] at total ⊢
  rw [get?_recalculateRates, Option.map_eq_some_iff] at known
  obtain ⟨old, -, rfl⟩ := known
  simp [rateAt, not_le.mpr capacity, not_le.mpr total]

/-! ### The operations that leave the rates alone -/

/-- `f` rewrites neither a weight nor a rate. -/
def Neutral (f : AgentBudget → AgentBudget) : Prop :=
  ∀ b, (f b).weight = b.weight ∧ (f b).replenishRate = b.replenishRate

theorem neutral_replenish (now : ℚ) : Neutral fun b => b.replenish now := by
  intro b
  unfold AgentBudget.replenish
  simp only
  split <;> exact ⟨rfl, rfl⟩

theorem neutral_charge (costSs now : ℚ) : Neutral fun b => b.charge costSs now :=
  fun _ => ⟨rfl, rfl⟩

theorem neutral_adjustBudget (estimated actual : ℚ) : Neutral (adjustBudget estimated actual) := by
  intro b
  unfold adjustBudget
  simp only
  split
  · exact ⟨rfl, rfl⟩
  · split <;> exact ⟨rfl, rfl⟩

theorem get?_modify (m : BudgetManager) (a a' : String) (f : AgentBudget → AgentBudget) :
    (m.modify a f).agents.get? a' =
      if a' = a then (m.agents.get? a).map f else m.agents.get? a' := by
  unfold modify
  rcases h : m.agents.get? a with - | b
  · by_cases same : a' = a
    · simp [same, h]
    · simp [same]
  · simp [Dict.get?_set]

theorem rateOf_modify {f : AgentBudget → AgentBudget} (neutral : Neutral f) (m : BudgetManager)
    (a a' : String) : (m.modify a f).rateOf a' = m.rateOf a' := by
  unfold rateOf
  rw [get?_modify]
  by_cases same : a' = a
  · rw [if_pos same, same, Option.map_map]
    congr 1
    funext b
    exact (neutral b).2
  · rw [if_neg same]

theorem rateOf_replenish (m : BudgetManager) (now : ℚ) (a : String) :
    (m.replenish now).rateOf a = m.rateOf a := by
  simp only [rateOf, replenish, Dict.get?_map, Option.map_map]
  congr 1
  funext b
  exact (neutral_replenish now b).2

theorem totalWeight_modify {f : AgentBudget → AgentBudget} (neutral : Neutral f)
    (m : BudgetManager) (a : String) : (m.modify a f).totalWeight = m.totalWeight := by
  unfold modify
  rcases h : m.agents.get? a with - | b
  · rfl
  · have traded := Dict.sum_set_of_get? (fun _ b => b.weight) h (f b)
    rw [(neutral b).1] at traded
    exact add_right_cancel traded

theorem totalWeight_replenish (m : BudgetManager) (now : ℚ) :
    (m.replenish now).totalWeight = m.totalWeight := by
  simp only [totalWeight, replenish, Dict.sum_map]
  exact m.agents.sum_congr fun _ b _ => (neutral_replenish now b).1

theorem Conserved.modify {m : BudgetManager} (conserved : m.Conserved) (a : String)
    {f : AgentBudget → AgentBudget} (neutral : Neutral f) : (m.modify a f).Conserved := by
  have sameCapacity : (m.modify a f).totalCapacity = m.totalCapacity := by
    unfold BudgetManager.modify
    split <;> rfl
  intro capacity total a' b known
  rw [sameCapacity] at capacity ⊢
  rw [totalWeight_modify neutral] at total ⊢
  rw [get?_modify] at known
  by_cases same : a' = a
  · rw [if_pos same, Option.map_eq_some_iff] at known
    obtain ⟨old, there, rfl⟩ := known
    rw [(neutral old).1, (neutral old).2]
    exact conserved capacity total a old there
  · rw [if_neg same] at known
    exact conserved capacity total a' b known

theorem Conserved.replenish {m : BudgetManager} (conserved : m.Conserved) (now : ℚ) :
    (m.replenish now).Conserved := by
  intro capacity total a b known
  rw [totalWeight_replenish] at total ⊢
  simp only [BudgetManager.replenish, Dict.get?_map, Option.map_eq_some_iff] at known
  obtain ⟨old, there, rfl⟩ := known
  rw [(neutral_replenish now old).1, (neutral_replenish now old).2]
  exact conserved capacity total a old there

/-! ### One call, and any number of them -/

theorem Conserved.step {m : BudgetManager} (conserved : m.Conserved) (op : Op) :
    (m.step op).Conserved := by
  cases op with
  | getOrCreate agentId weight maxBalance now =>
      show (m.getOrCreate agentId weight maxBalance now).Conserved
      unfold BudgetManager.getOrCreate
      split
      · exact conserved
      · exact conserved_recalculateRates _
  | reweight agentId weight maxBalance =>
      show (m.reweight agentId weight maxBalance).Conserved
      unfold BudgetManager.reweight
      split
      · exact conserved
      · exact conserved_recalculateRates _
  | remove agentId => exact conserved_recalculateRates _
  | pruneIdle now idleTtlS =>
      show (m.pruneIdle now idleTtlS).Conserved
      unfold BudgetManager.pruneIdle
      simp only
      split
      · -- Nobody was stale, so nobody left.
        rename_i nobody
        simpa [nobody] using conserved
      · exact conserved_recalculateRates _
  | setTotalCapacity totalSlots => exact conserved_recalculateRates _
  | replenish now => exact conserved.replenish now
  | charge agentId costSs now => exact conserved.modify agentId (neutral_charge costSs now)
  | retroactiveAdjust agentId estimated actual =>
      exact conserved.modify agentId (neutral_adjustBudget estimated actual)

/-- A manager as it is made, before any call. -/
def fresh (starvationTimeoutS : ℚ) : BudgetManager := { starvationTimeoutS := starvationTimeoutS }

theorem conserved_run (starvationTimeoutS : ℚ) (ops : List Op) :
    (Runs.run step (fresh starvationTimeoutS) ops).Conserved := by
  refine Runs.run_forall Conserved (fun m op h => h.step op) ?_ ops
  intro capacity
  exact absurd capacity (lt_irrefl 0)

/-- Shares of a positive total weight add up to the whole capacity. -/
theorem Conserved.sum_rates {m : BudgetManager} (conserved : m.Conserved)
    (capacity : 0 < m.totalCapacity) (total : 0 < m.totalWeight) :
    (m.agents.sum fun _ b => b.replenishRate) = m.totalCapacity := by
  have shares : (m.agents.sum fun _ b => b.replenishRate) =
      m.agents.sum fun _ b => m.totalCapacity * (b.weight / m.totalWeight) :=
    m.agents.sum_congr fun a b mem =>
      conserved capacity total a b (Dict.mem_entries_iff.mp mem)
  have factored : (m.agents.sum fun _ b => m.totalCapacity * (b.weight / m.totalWeight)) =
      (m.totalCapacity / m.totalWeight) * m.totalWeight := by
    unfold totalWeight Dict.sum
    rw [← List.sum_map_mul_left]
    congr 1
    refine List.map_congr_left fun e _ => ?_
    ring
  rw [shares, factored]
  exact div_mul_cancel₀ _ total.ne'

/-- Whatever was called before: where there are agents, capacity and weight, the rates are
the agents' shares and add up to the capacity.  Crediting and charging rewrite no rate. -/
theorem rates_share_capacity (starvationTimeoutS : ℚ) (ops : List Op) (m : BudgetManager)
    (reached : m = Runs.run step (fresh starvationTimeoutS) ops) :
    (m.agents.entries ≠ [] → 0 < m.totalCapacity → 0 < m.totalWeight →
      (m.agents.sum fun _ b => b.replenishRate) = m.totalCapacity ∧
      ∀ a b, m.agents.get? a = some b →
        b.replenishRate = m.totalCapacity * b.weight / m.totalWeight) ∧
    ∀ a, (∀ now, (m.replenish now).rateOf a = m.rateOf a) ∧
      (∀ agentId costSs now, (m.charge agentId costSs now).rateOf a = m.rateOf a) ∧
      ∀ agentId estimated actual,
        (m.retroactiveAdjust agentId estimated actual).rateOf a = m.rateOf a := by
  have conserved : m.Conserved := reached ▸ conserved_run starvationTimeoutS ops
  refine ⟨fun _ capacity total => ⟨conserved.sum_rates capacity total, fun a b known => ?_⟩,
    fun a => ⟨fun now => rateOf_replenish m now a, fun agentId costSs now => ?_,
      fun agentId estimated actual => ?_⟩⟩
  · rw [mul_div_assoc]
    exact conserved capacity total a b known
  · exact rateOf_modify (neutral_charge costSs now) m agentId a
  · exact rateOf_modify (neutral_adjustBudget estimated actual) m agentId a

/-- Two agents of weight 3 and 1 at a capacity of 8, after a weight of zero and back. -/
theorem rates_share_capacity_reweighted :
    let m := Runs.run step (fresh 30)
      [.setTotalCapacity 8, .getOrCreate "chat" 0 60 1, .getOrCreate "batch" 1 60 1,
        .reweight "chat" (some 3) none]
    m.rateOf "chat" = some 6 ∧ (m.agents.sum fun _ b => b.replenishRate) = 8 := by
  intro m
  have nonempty : m.agents.entries ≠ [] := by decide +kernel
  have shared := (rates_share_capacity 30 _ m rfl).1 nonempty (by decide +kernel) (by decide +kernel)
  refine ⟨by decide +kernel, ?_⟩
  exact shared.1.trans (by decide +kernel)

end Roadstead.BudgetManager
