import Mathlib.Algebra.Field.Rat
import Mathlib.Algebra.Group.Prod
import Mathlib.Algebra.Order.Ring.Rat
import Mathlib.Tactic.Linarith
import Mathlib.Tactic.Ring
import Roadstead.Lib.Dict

/-!
# Deficit-round-robin budgets

`agent_budget.py`: the balance of one agent and the manager that credits,
charges, picks and evicts.  Units are slot-seconds, and the arithmetic is exact.

`_last_waits` is left out: `pick_agent` writes it for the observability snapshot
and no scheduling decision reads it.
-/

namespace Roadstead

/-- The balance of one agent. -/
structure AgentBudget where
  agentId : String
  weight : ℚ := 1
  replenishRate : ℚ := 0
  maxBalance : ℚ := 60
  balance : ℚ := 0
  totalConsumed : ℚ := 0
  totalRequests : ℕ := 0
  lastReplenishAt : ℚ := 0
  lastActiveAt : ℚ := 0
  /-- When the balance went negative; `0` means it is not. -/
  negativeSince : ℚ := 0
  deriving DecidableEq

namespace AgentBudget

/-- Debit `costSs`. -/
def charge (b : AgentBudget) (costSs now : ℚ) : AgentBudget :=
  let balance := b.balance - costSs
  { b with
    balance := balance
    totalConsumed := b.totalConsumed + costSs
    totalRequests := b.totalRequests + 1
    lastActiveAt := now
    negativeSince := if balance < 0 ∧ b.negativeSince = 0 then now else b.negativeSince }

/-- Give back an over-estimate. -/
def refund (b : AgentBudget) (deltaSs : ℚ) : AgentBudget :=
  let balance := b.balance + deltaSs
  { b with
    balance := balance
    totalConsumed := b.totalConsumed - deltaSs
    negativeSince := if 0 ≤ balance then 0 else b.negativeSince }

/-- The body of the loop in `replenish`. -/
def replenish (b : AgentBudget) (now : ℚ) : AgentBudget :=
  let elapsed := now - b.lastReplenishAt
  if elapsed ≤ 0 then { b with lastReplenishAt := now }
  else
    let balance := min b.maxBalance (b.balance + b.replenishRate * elapsed)
    { b with
      balance := balance
      lastReplenishAt := now
      negativeSince := if 0 ≤ balance then 0 else b.negativeSince }

/-- The weight-normalised balance `pick_agent` compares. -/
def score (b : AgentBudget) : ℚ := if 0 < b.weight then b.balance / b.weight else b.balance

end AgentBudget

/-- `BudgetManager`. -/
structure BudgetManager where
  agents : Dict String AgentBudget := ∅
  starvationTimeoutS : ℚ := 30
  totalCapacity : ℚ := 0
  deriving DecidableEq

namespace BudgetManager

/-- `_recalculate_rates`. -/
def recalculateRates (m : BudgetManager) : BudgetManager :=
  if m.agents.entries = [] ∨ m.totalCapacity ≤ 0 then m
  else
    let totalWeight := m.agents.sum fun _ b => b.weight
    if totalWeight ≤ 0 then m
    else
      { m with
        agents := m.agents.map fun _ b =>
          { b with replenishRate := m.totalCapacity * (b.weight / totalWeight) } }

/-- `get_or_create`, called with an explicit `now` throughout the scheduler. -/
def getOrCreate (m : BudgetManager) (agentId : String) (weight maxBalance now : ℚ) :
    BudgetManager :=
  if agentId ∈ m.agents.keys then m
  else
    recalculateRates
      { m with
        agents := m.agents.set agentId
          { agentId := agentId, weight := weight, maxBalance := maxBalance,
            lastReplenishAt := now, lastActiveAt := now } }

/-- `reweight`: the rate changes, the balance stays. -/
def reweight (m : BudgetManager) (agentId : String) (weight maxBalance : Option ℚ) : BudgetManager :=
  match m.agents.get? agentId with
  | none => m
  | some b =>
      recalculateRates
        { m with
          agents := m.agents.set agentId
            { b with weight := weight.getD b.weight, maxBalance := maxBalance.getD b.maxBalance } }

/-- The agents `prune_idle` evicts: charged (or created) at a non-zero instant and
idle for more than `idleTtlS` since. -/
def staleAgents (m : BudgetManager) (now idleTtlS : ℚ) : List String :=
  (m.agents.entries.filter fun e =>
    e.2.lastActiveAt ≠ 0 ∧ idleTtlS < now - e.2.lastActiveAt).map Prod.fst

/-- `prune_idle`. -/
def pruneIdle (m : BudgetManager) (now idleTtlS : ℚ) : BudgetManager :=
  let stale := m.staleAgents now idleTtlS
  let m := { m with agents := stale.foldl Dict.erase m.agents }
  if stale = [] then m else m.recalculateRates

/-- `set_total_capacity`. -/
def setTotalCapacity (m : BudgetManager) (totalSlots : ℚ) : BudgetManager :=
  recalculateRates { m with totalCapacity := totalSlots }

/-- `replenish`. -/
def replenish (m : BudgetManager) (now : ℚ) : BudgetManager :=
  { m with agents := m.agents.map fun _ b => b.replenish now }

/-- Rewrite the budget of `agentId`, if there is one. -/
def modify (m : BudgetManager) (agentId : String) (f : AgentBudget → AgentBudget) :
    BudgetManager :=
  match m.agents.get? agentId with
  | none => m
  | some b => { m with agents := m.agents.set agentId (f b) }

/-- `charge`. -/
def charge (m : BudgetManager) (agentId : String) (costSs now : ℚ) : BudgetManager :=
  m.modify agentId fun b => b.charge costSs now

/-- What `retroactive_adjust` does to one budget. -/
def adjustBudget (estimated actual : ℚ) (b : AgentBudget) : AgentBudget :=
  let delta := estimated - actual
  if 0 < delta then b.refund delta
  else if delta < 0 then
    { b with balance := b.balance + delta, totalConsumed := b.totalConsumed - delta }
  else b

/-- `retroactive_adjust`. -/
def retroactiveAdjust (m : BudgetManager) (agentId : String) (estimated actual : ℚ) :
    BudgetManager :=
  m.modify agentId (adjustBudget estimated actual)

/-- `max(pairs, key=...)`: the first of the pairs with the largest number, and the
fold of the scan for the best score, which replaces on a strictly larger one. -/
def firstMax : List (ℚ × String) → Option (ℚ × String)
  | [] => none
  | p :: ps => some (ps.foldl (fun best q => if best.1 < q.1 then q else best) p)

/-- `pick_agent`: the longest-waiting candidate past the starvation timeout, else
the candidate with a budget whose score is highest. -/
def pickAgent (m : BudgetManager) (candidates : List String)
    (waitByAgent : Dict String ℚ) : Option String :=
  let wait (a : String) : ℚ := (waitByAgent.get? a).getD 0
  let starving :=
    if waitByAgent.entries = [] then []
    else (candidates.filter fun a => m.starvationTimeoutS ≤ wait a).map fun a => (wait a, a)
  match firstMax starving with
  | some p => some p.2
  | none =>
      let scored := candidates.filterMap fun a => (m.agents.get? a).map fun b => (b.score, a)
      (firstMax scored).map Prod.snd

/-! ### Who has a budget -/

@[simp] theorem keys_recalculateRates (m : BudgetManager) :
    m.recalculateRates.agents.keys = m.agents.keys := by
  unfold recalculateRates
  split
  · rfl
  · simp only
    split
    · rfl
    · simp

@[simp] theorem keys_replenish (m : BudgetManager) (now : ℚ) :
    (m.replenish now).agents.keys = m.agents.keys := by
  simp [replenish]

@[simp] theorem keys_modify (m : BudgetManager) (a : String) (f : AgentBudget → AgentBudget) :
    (m.modify a f).agents.keys = m.agents.keys := by
  unfold modify
  cases h : m.agents.get? a with
  | none => rfl
  | some b => exact Dict.keys_set_of_mem (Dict.mem_keys_iff.mpr ⟨b, h⟩) _

variable {m : BudgetManager}

theorem mem_keys_getOrCreate {a a' : String} {w x now : ℚ} :
    a' ∈ (m.getOrCreate a w x now).agents.keys ↔ a' = a ∨ a' ∈ m.agents.keys := by
  unfold getOrCreate
  split
  · rename_i known
    constructor
    · exact Or.inr
    · rintro (rfl | h)
      · exact known
      · exact h
  · rw [keys_recalculateRates, Dict.mem_keys_set]

/-! ### The choice of an agent -/

theorem firstMax_mem {ps : List (ℚ × String)} {p : ℚ × String} (h : firstMax ps = some p) :
    p ∈ ps := by
  cases ps with
  | nil => simp [firstMax] at h
  | cons q qs =>
      obtain rfl := Option.some.inj h
      -- The running best is one of the pairs seen so far.
      refine List.foldlRecOn (motive := fun best => best ∈ q :: qs) qs _ (by simp) ?_
      intro best hbest x hx
      split
      · exact List.mem_cons_of_mem _ hx
      · exact hbest

theorem firstMax_eq_none_iff {ps : List (ℚ × String)} : firstMax ps = none ↔ ps = [] := by
  cases ps with
  | nil | cons p ps => simp [firstMax]

/-- Only a candidate is picked. -/
theorem pickAgent_mem {candidates : List String} {waits : Dict String ℚ}
    {a : String} (h : m.pickAgent candidates waits = some a) : a ∈ candidates := by
  simp only [pickAgent] at h
  split at h
  · rename_i p hp
    obtain rfl := Option.some.inj h
    have mem := firstMax_mem hp
    split at mem
    · simp at mem
    · obtain ⟨c, hc, rfl⟩ := List.mem_map.mp mem
      exact (List.mem_filter.mp hc).1
  · obtain ⟨p, hp, rfl⟩ := Option.map_eq_some_iff.mp h
    obtain ⟨c, hc, hsome⟩ := List.mem_filterMap.mp (firstMax_mem hp)
    obtain ⟨b, -, rfl⟩ := Option.map_eq_some_iff.mp hsome
    exact hc

/-- A candidate with a budget is enough for somebody to be picked. -/
theorem pickAgent_ne_none {candidates : List String}
    (waits : Dict String ℚ) {a : String} (ha : a ∈ candidates) (known : a ∈ m.agents.keys) :
    m.pickAgent candidates waits ≠ none := by
  obtain ⟨b, hb⟩ := Dict.mem_keys_iff.mp known
  simp only [pickAgent]
  split
  · simp
  · rw [Ne, Option.map_eq_none_iff, firstMax_eq_none_iff]
    refine List.ne_nil_of_mem (a := (b.score, a)) ?_
    exact List.mem_filterMap.mpr ⟨a, ha, by rw [hb]; rfl⟩

/-! ### What an agent has consumed -/

/-- `total_consumed` and `total_requests` of an agent, zero without a budget. -/
def spent (m : BudgetManager) (a : String) : ℚ × ℕ :=
  match m.agents.get? a with
  | none => (0, 0)
  | some b => (b.totalConsumed, b.totalRequests)

/-- Rewriting balances and rates spends nothing. -/
theorem spent_map (m m' : BudgetManager) (f : String → AgentBudget → AgentBudget)
    (h : m'.agents = m.agents.map f)
    (keeps : ∀ k b, (f k b).totalConsumed = b.totalConsumed ∧
      (f k b).totalRequests = b.totalRequests) (a : String) : m'.spent a = m.spent a := by
  simp only [spent, h, Dict.get?_map]
  cases m.agents.get? a with
  | none => rfl
  | some b => exact Prod.ext (keeps a b).1 (keeps a b).2

@[simp] theorem spent_recalculateRates (m : BudgetManager) (a : String) :
    m.recalculateRates.spent a = m.spent a := by
  unfold recalculateRates
  split
  · rfl
  · simp only
    split
    · rfl
    · exact spent_map m _ (fun _ b =>
        { b with replenishRate := m.totalCapacity * (b.weight / m.agents.sum fun _ b => b.weight) })
        rfl (fun _ _ => ⟨rfl, rfl⟩) a

@[simp] theorem spent_replenish (m : BudgetManager) (now : ℚ) (a : String) :
    (m.replenish now).spent a = m.spent a := by
  refine spent_map m _ (fun _ b => b.replenish now) rfl (fun _ b => ?_) a
  unfold AgentBudget.replenish
  simp only
  split <;> exact ⟨rfl, rfl⟩

@[simp] theorem spent_getOrCreate (m : BudgetManager) (a a' : String) (w x now : ℚ) :
    (m.getOrCreate a w x now).spent a' = m.spent a' := by
  unfold getOrCreate
  split
  · rfl
  · rename_i unknown
    rw [spent_recalculateRates]
    by_cases h : a' = a
    · simp [spent, h, Dict.get?_eq_none_iff.mpr unknown]
    · simp [spent, Dict.get?_set_of_ne _ h]

theorem spent_modify {a : String} (known : a ∈ m.agents.keys)
    {f : AgentBudget → AgentBudget} {consumed : ℚ} {requests : ℕ}
    (effect : ∀ b, (f b).totalConsumed = b.totalConsumed + consumed ∧
      (f b).totalRequests = b.totalRequests + requests) (a' : String) :
    (m.modify a f).spent a' = m.spent a' + if a' = a then (consumed, requests) else 0 := by
  obtain ⟨b, hb⟩ := Dict.mem_keys_iff.mp known
  by_cases h : a' = a
  · subst h
    simp only [modify, hb, spent, Dict.get?_set_self, if_true]
    exact Prod.ext (effect b).1 (effect b).2
  · simp only [modify, hb, spent, Dict.get?_set_of_ne _ h, if_neg h, add_zero]

/-- A charge consumes its cost and counts one request. -/
theorem spent_charge {a : String} (known : a ∈ m.agents.keys) (cost now : ℚ) (a' : String) :
    (m.charge a cost now).spent a' = m.spent a' + if a' = a then (cost, 1) else 0 :=
  spent_modify known (fun _ => ⟨rfl, rfl⟩) a'

/-- An adjustment replaces the estimate by what was used, on either side. -/
theorem spent_retroactiveAdjust {a : String} (known : a ∈ m.agents.keys)
    (estimated actual : ℚ) (a' : String) :
    (m.retroactiveAdjust a estimated actual).spent a' =
      m.spent a' + if a' = a then (actual - estimated, 0) else 0 := by
  refine spent_modify known (fun b => ?_) a'
  unfold adjustBudget
  simp only
  split
  · refine ⟨?_, rfl⟩
    show b.totalConsumed - (estimated - actual) = _
    ring
  · split
    · refine ⟨?_, rfl⟩
      show b.totalConsumed - (estimated - actual) = _
      ring
    · refine ⟨?_, rfl⟩
      have exact : actual - estimated = 0 := by linarith
      rw [exact, add_zero]

end BudgetManager

end Roadstead
