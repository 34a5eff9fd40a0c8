import Mathlib.Tactic.Positivity
import Roadstead.AgentBudget.Rates
import Roadstead.Lib.Since

/-!
# The clock of a debt

`negative_since` is meant to be the instant at which the balance went negative, and zero while it
is not.  A charge, a refund and a replenish tick each keep it by hand; the undercharge branch of
`retroactive_adjust` lowers the balance and does not, and has no clock to do it with.

What the field has to be after a change of the balance is `debtClock`, a function of the budget
before, of the new balance and of the instant.  Each operation writes that value exactly under a
condition on its arguments and on the budget it meets (`Call.Keeps`), and so a run gives every
agent the right clock at every point exactly when every call of it keeps the clock
(`debt_clock_iff`).  With costs, caps, weights and a capacity that are not negative, only an
adjustment can fail to (`keeps_of_solvent`).
-/

namespace Roadstead

namespace AgentBudget

/-- `is_starving`. -/
def isStarving (b : AgentBudget) (now starvationTimeoutS : ℚ) : Bool :=
  if b.negativeSince = 0 then false else decide (starvationTimeoutS ≤ now - b.negativeSince)

/-- What `negative_since` has to be once the balance is `balance`, if it was right before. -/
def debtClock (b : AgentBudget) (balance now : ℚ) : ℚ :=
  if 0 ≤ balance then 0 else if 0 ≤ b.balance then now else b.negativeSince

/-- The clock runs while there is a debt. -/
def Ticks (b : AgentBudget) : Prop := b.negativeSince ≠ 0 ↔ b.balance < 0

section

variable {b : AgentBudget}

theorem Ticks.stopped (ticks : b.Ticks) (solvent : 0 ≤ b.balance) : b.negativeSince = 0 := by
  by_contra running
  exact absurd solvent (not_le.mpr (ticks.mp running))

theorem debtClock_of_nonneg {balance : ℚ} (h : 0 ≤ balance) (now : ℚ) :
    b.debtClock balance now = 0 := if_pos h

theorem debtClock_of_neg_of_nonneg {balance : ℚ} (h : balance < 0) (solvent : 0 ≤ b.balance)
    (now : ℚ) : b.debtClock balance now = now := by
  rw [debtClock, if_neg (not_le.mpr h), if_pos solvent]

theorem debtClock_of_neg_of_neg {balance : ℚ} (h : balance < 0) (debt : b.balance < 0)
    (now : ℚ) : b.debtClock balance now = b.negativeSince := by
  rw [debtClock, if_neg (not_le.mpr h), if_neg (not_le.mpr debt)]

/-- A balance that stays on its side keeps its clock. -/
theorem Ticks.debtClock_eq (ticks : b.Ticks) {balance : ℚ} (same : 0 ≤ balance ↔ 0 ≤ b.balance)
    (now : ℚ) : b.debtClock balance now = b.negativeSince := by
  by_cases solvent : 0 ≤ balance
  · rw [debtClock_of_nonneg solvent, ticks.stopped (same.mp solvent)]
  · rw [debtClock_of_neg_of_neg (not_le.mp solvent) (not_le.mp fun h => solvent (same.mpr h))]

/-- A clock that the operation leaves alone is right exactly when the balance stays on its side. -/
theorem Ticks.negativeSince_eq_iff (ticks : b.Ticks) {balance now : ℚ} (positive : 0 < now) :
    b.negativeSince = b.debtClock balance now ↔ (0 ≤ balance ↔ 0 ≤ b.balance) := by
  refine ⟨fun right => ?_, fun same => (ticks.debtClock_eq same now).symm⟩
  constructor
  · intro solvent
    by_contra debt
    rw [debtClock_of_nonneg solvent] at right
    exact ticks.mpr (not_le.mp debt) right
  · intro solvent
    by_contra debt
    rw [debtClock_of_neg_of_nonneg (not_le.mp debt) solvent, ticks.stopped solvent] at right
    exact positive.ne right

/-! ### The operations -/

/-- A charge dates a new debt; only a negative charge that pays off a debt goes unnoticed. -/
theorem charge_keeps_iff (ticks : b.Ticks) (costSs : ℚ) {now : ℚ} (positive : 0 < now) :
    (b.charge costSs now).negativeSince = b.debtClock (b.balance - costSs) now ↔
      (b.balance < 0 → b.balance < costSs) := by
  show (if b.balance - costSs < 0 ∧ b.negativeSince = 0 then now else b.negativeSince) = _ ↔ _
  by_cases solvent : 0 ≤ b.balance
  · refine iff_of_true ?_ fun debt => absurd solvent (not_le.mpr debt)
    rw [ticks.stopped solvent]
    by_cases crossed : b.balance - costSs < 0
    · rw [if_pos ⟨crossed, rfl⟩, debtClock_of_neg_of_nonneg crossed solvent]
    · rw [if_neg fun h => crossed h.1, debtClock_of_nonneg (not_lt.mp crossed)]
  · have running := ticks.mpr (not_le.mp solvent)
    rw [if_neg fun h => running h.2, ticks.negativeSince_eq_iff positive, sub_nonneg]
    constructor
    · intro same _
      exact not_le.mp fun paid => solvent (same.mp paid)
    · intro owes
      exact iff_of_false (not_le.mpr (owes (not_le.mp solvent))) solvent

/-- A credit that may only lower the clock to zero is right where it cannot make a debt. -/
theorem Ticks.reset_keeps_iff (ticks : b.Ticks) {balance now : ℚ} (positive : 0 < now) :
    (if 0 ≤ balance then 0 else b.negativeSince) = b.debtClock balance now ↔
      (0 ≤ b.balance → 0 ≤ balance) := by
  by_cases solvent : 0 ≤ balance
  · rw [if_pos solvent, debtClock_of_nonneg solvent]
    exact iff_of_true rfl fun _ => solvent
  · rw [if_neg solvent, ticks.negativeSince_eq_iff positive]
    exact ⟨fun same => same.mpr, fun kept => ⟨fun h => absurd h solvent, kept⟩⟩

/-- A tick dates no new debt, which a negative cap or a negative rate could make. -/
theorem replenish_keeps_iff (ticks : b.Ticks) {now : ℚ} (positive : 0 < now) :
    (b.replenish now).negativeSince = b.debtClock (b.replenish now).balance now ↔
      (0 ≤ b.balance → b.lastReplenishAt < now →
        0 ≤ b.maxBalance ∧ 0 ≤ b.balance + b.replenishRate * (now - b.lastReplenishAt)) := by
  unfold replenish
  simp only
  by_cases elapsed : now - b.lastReplenishAt ≤ 0
  · rw [if_pos elapsed]
    refine iff_of_true (ticks.debtClock_eq Iff.rfl now).symm fun _ later => ?_
    exact absurd (sub_pos.mpr later) (not_lt.mpr elapsed)
  · rw [if_neg elapsed]
    have later : b.lastReplenishAt < now := sub_pos.mp (not_le.mp elapsed)
    rw [ticks.reset_keeps_iff positive, le_min_iff]
    exact imp_congr_right fun _ => (imp_iff_right later).symm

end

end AgentBudget

namespace BudgetManager

theorem balance_adjustBudget (estimated actual : ℚ) (b : AgentBudget) :
    (adjustBudget estimated actual b).balance = b.balance + (estimated - actual) := by
  unfold adjustBudget
  simp only
  split
  · rfl
  · split
    · rfl
    · rename_i above below
      have exact : estimated - actual = 0 := le_antisymm (not_lt.mp above) (not_lt.mp below)
      rw [exact, add_zero]

/-- The undercharge branch dates nothing: it is right only while what is charged in addition is
there, or is added to a debt. -/
theorem adjustBudget_keeps_iff {b : AgentBudget} (ticks : b.Ticks) (estimated actual : ℚ) {now : ℚ}
    (positive : 0 < now) :
    (adjustBudget estimated actual b).negativeSince =
        b.debtClock (adjustBudget estimated actual b).balance now ↔
      (0 ≤ b.balance → actual - estimated ≤ b.balance) := by
  have covered : 0 ≤ b.balance + (estimated - actual) ↔ actual - estimated ≤ b.balance := by
    constructor
    · intro h
      linarith
    · intro h
      linarith
  rw [balance_adjustBudget, ← covered]
  unfold adjustBudget
  simp only
  by_cases refunded : 0 < estimated - actual
  · rw [if_pos refunded]
    exact ticks.reset_keeps_iff positive
  · rw [if_neg refunded]
    have alone : (if estimated - actual < 0 then
        { b with
          balance := b.balance + (estimated - actual)
          totalConsumed := b.totalConsumed - (estimated - actual) }
        else b).negativeSince = b.negativeSince := by
      split <;> rfl
    rw [alone, ticks.negativeSince_eq_iff positive]
    refine ⟨fun same => same.mpr, fun kept => ⟨fun left => ?_, kept⟩⟩
    linarith

/-! ### Calls -/

/-- The calls in question. -/
inductive Deal where
  | getOrCreate (agentId : String) (weight maxBalance : ℚ)
  | charge (agentId : String) (costSs : ℚ)
  | retroactiveAdjust (agentId : String) (estimated actual : ℚ)
  | replenish

/-- A call and the clock's value at it.  `retroactive_adjust` is not told the latter. -/
structure Call where
  now : ℚ
  deal : Deal

def serve (m : BudgetManager) (call : Call) : BudgetManager :=
  match call.deal with
  | .getOrCreate agentId weight maxBalance => m.getOrCreate agentId weight maxBalance call.now
  | .charge agentId costSs => m.charge agentId costSs call.now
  | .retroactiveAdjust agentId estimated actual => m.retroactiveAdjust agentId estimated actual
  | .replenish => m.replenish call.now

namespace Call

/-- What the call does to the balance, and to the clock, of an agent that is there. -/
def effect (call : Call) (a : String) (b : AgentBudget) : AgentBudget :=
  match call.deal with
  | .getOrCreate .. => b
  | .charge agentId costSs => if a = agentId then b.charge costSs call.now else b
  | .retroactiveAdjust agentId estimated actual =>
      if a = agentId then adjustBudget estimated actual b else b
  | .replenish => b.replenish call.now

/-- The call does not take the balance of `a` across zero where the clock is not looked after. -/
def Keeps (call : Call) (a : String) (b : AgentBudget) : Prop :=
  match call.deal with
  | .getOrCreate .. => True
  | .charge agentId costSs => a = agentId → b.balance < 0 → b.balance < costSs
  | .retroactiveAdjust agentId estimated actual =>
      a = agentId → 0 ≤ b.balance → actual - estimated ≤ b.balance
  | .replenish =>
      0 ≤ b.balance → b.lastReplenishAt < call.now →
        0 ≤ b.maxBalance ∧ 0 ≤ b.balance + b.replenishRate * (call.now - b.lastReplenishAt)

/-- The clock is right after the call exactly when the call keeps it. -/
theorem keeps_iff {call : Call} (positive : 0 < call.now) {a : String} {b : AgentBudget}
    (ticks : b.Ticks) :
    (call.effect a b).negativeSince = b.debtClock (call.effect a b).balance call.now ↔
      call.Keeps a b := by
  have untouched : b.negativeSince = b.debtClock b.balance call.now :=
    (ticks.debtClock_eq Iff.rfl call.now).symm
  unfold effect Keeps
  cases call.deal with
  | getOrCreate agentId weight maxBalance => exact iff_of_true untouched trivial
  | charge agentId costSs =>
      by_cases own : a = agentId
      · simp only [if_pos own, forall_prop_of_true own]
        exact AgentBudget.charge_keeps_iff ticks costSs positive
      · simp only [if_neg own]
        exact iff_of_true untouched fun h => absurd h own
  | retroactiveAdjust agentId estimated actual =>
      by_cases own : a = agentId
      · simp only [if_pos own, forall_prop_of_true own]
        exact adjustBudget_keeps_iff ticks estimated actual positive
      · simp only [if_neg own]
        exact iff_of_true untouched fun h => absurd h own
  | replenish => exact AgentBudget.replenish_keeps_iff ticks positive

end Call

theorem get?_serve_of_some {m : BudgetManager} {a : String} {b : AgentBudget}
    (there : m.agents.get? a = some b) (call : Call) :
    ∃ b', (m.serve call).agents.get? a = some b' ∧ b'.balance = (call.effect a b).balance ∧
      b'.negativeSince = (call.effect a b).negativeSince := by
  unfold serve Call.effect
  cases call.deal with
  | getOrCreate agentId weight maxBalance =>
      by_cases known : agentId ∈ m.agents.keys
      · simp only [getOrCreate, if_pos known]
        exact ⟨b, there, rfl, rfl⟩
      · have apart : a ≠ agentId := by
          rintro rfl
          exact known (Dict.mem_keys_iff.mpr ⟨b, there⟩)
        simp only [getOrCreate, if_neg known, get?_recalculateRates, Dict.get?_set_of_ne _ apart,
          there, Option.map_some]
        exact ⟨_, rfl, rfl, rfl⟩
  | charge agentId costSs =>
      simp only [charge, get?_modify]
      by_cases own : a = agentId
      · rw [← own, there, if_pos rfl, if_pos rfl]
        exact ⟨_, rfl, rfl, rfl⟩
      · rw [there, if_neg own, if_neg own]
        exact ⟨b, rfl, rfl, rfl⟩
  | retroactiveAdjust agentId estimated actual =>
      simp only [retroactiveAdjust, get?_modify]
      by_cases own : a = agentId
      · rw [← own, there, if_pos rfl, if_pos rfl]
        exact ⟨_, rfl, rfl, rfl⟩
      · rw [there, if_neg own, if_neg own]
        exact ⟨b, rfl, rfl, rfl⟩
  | replenish =>
      simp only [replenish, Dict.get?_map, there, Option.map_some]
      exact ⟨_, rfl, rfl, rfl⟩

/-- A budget is made without a debt. -/
theorem get?_serve_of_none {m : BudgetManager} {a : String} (nobody : m.agents.get? a = none)
    {call : Call} {b : AgentBudget} (made : (m.serve call).agents.get? a = some b) :
    b.balance = 0 ∧ b.negativeSince = 0 := by
  unfold serve at made
  cases deal : call.deal with
  | getOrCreate agentId weight maxBalance =>
      simp only [deal, getOrCreate] at made
      by_cases known : agentId ∈ m.agents.keys
      · rw [if_pos known, nobody] at made
        exact absurd made (by simp)
      · rw [if_neg known, get?_recalculateRates, Dict.get?_set] at made
        by_cases own : a = agentId
        · rw [if_pos own, Option.map_some] at made
          obtain rfl := Option.some.inj made
          exact ⟨rfl, rfl⟩
        · rw [if_neg own, nobody] at made
          exact absurd made (by simp)
  | charge agentId costSs =>
      simp only [deal, charge, get?_modify] at made
      split at made
      · rename_i own
        rw [← own, nobody] at made
        exact absurd made (by simp)
      · rw [nobody] at made
        exact absurd made (by simp)
  | retroactiveAdjust agentId estimated actual =>
      simp only [deal, retroactiveAdjust, get?_modify] at made
      split at made
      · rename_i own
        rw [← own, nobody] at made
        exact absurd made (by simp)
      · rw [nobody] at made
        exact absurd made (by simp)
  | replenish => simp [deal, replenish, Dict.get?_map, nobody] at made

/-! ### Since when -/

/-- The balance of `a` is negative. -/
def InDebt (a : String) (m : BudgetManager) : Prop :=
  ∃ b, m.agents.get? a = some b ∧ b.balance < 0

theorem inDebt_iff {m : BudgetManager} {a : String} {b : AgentBudget}
    (there : m.agents.get? a = some b) : InDebt a m ↔ b.balance < 0 := by
  unfold InDebt
  rw [there]
  simp

/-- `call` took the balance of `a` from non-negative to negative, and it has been negative ever
since. -/
abbrev InDebtSince (start : BudgetManager) (calls : List Call) (a : String) (call : Call) : Prop :=
  Runs.Since serve (InDebt a) start calls call

/-- What `negative_since` and `is_starving` are to say of the budget of `a` after `calls`. -/
structure Dated (start : BudgetManager) (calls : List Call) (a : String) (b : AgentBudget) :
    Prop where
  ticks : b.negativeSince ≠ 0 ↔ b.balance < 0
  since : b.negativeSince ≠ 0 →
    ∃ call, InDebtSince start calls a call ∧ call.now = b.negativeSince
  starving : ∀ now starvationTimeoutS, b.isStarving now starvationTimeoutS = true ↔
    ∃ call, InDebtSince start calls a call ∧ starvationTimeoutS ≤ now - call.now

section

variable {start : BudgetManager} {calls : List Call} {call : Call} {a : String}
  {b b' : AgentBudget}

/-- `is_starving` reads the field, so it is right when the field is. -/
theorem Dated.intro (there : (Runs.run serve start calls).agents.get? a = some b)
    (ticks : b.Ticks)
    (since : b.negativeSince ≠ 0 →
      ∃ call, InDebtSince start calls a call ∧ call.now = b.negativeSince) :
    Dated start calls a b := by
  refine ⟨ticks, since, fun now starvationTimeoutS => ?_⟩
  unfold AgentBudget.isStarving
  constructor
  · intro starving
    split at starving
    · exact absurd starving (by simp)
    · rename_i running
      obtain ⟨call, dated, at_⟩ := since running
      exact ⟨call, dated, at_ ▸ of_decide_eq_true starving⟩
  · rintro ⟨call, dated, long⟩
    have running : b.negativeSince ≠ 0 := ticks.mpr ((inDebt_iff there).mp dated.holds)
    obtain ⟨call', dated', at_⟩ := since running
    rw [if_neg running, ← at_, dated'.unique dated]
    exact decide_eq_true long

/-- One more call leaves the clock right exactly when it sets it to `debtClock`. -/
theorem Dated.concat_iff (positive : 0 < call.now)
    (there : (Runs.run serve start calls).agents.get? a = some b)
    (there' : (Runs.run serve start (calls ++ [call])).agents.get? a = some b')
    (dated : Dated start calls a b) :
    Dated start (calls ++ [call]) a b' ↔
      b'.negativeSince = b.debtClock b'.balance call.now := by
  constructor
  · intro dated'
    by_cases solvent' : 0 ≤ b'.balance
    · rw [AgentBudget.debtClock_of_nonneg solvent']
      exact AgentBudget.Ticks.stopped dated'.ticks solvent'
    · have debt' := not_le.mp solvent'
      obtain ⟨call', since', at'⟩ := dated'.since (dated'.ticks.mpr debt')
      rcases (Runs.since_concat.mp since').2 with old | ⟨solvent, rfl⟩
      · have debt := (inDebt_iff there).mp old.holds
        obtain ⟨call₀, since₀, at₀⟩ := dated.since (dated.ticks.mpr debt)
        rw [AgentBudget.debtClock_of_neg_of_neg debt' debt, ← at', ← at₀, old.unique since₀]
      · rw [inDebt_iff there, not_lt] at solvent
        rw [AgentBudget.debtClock_of_neg_of_nonneg debt' solvent, at']
  · intro right
    by_cases solvent' : 0 ≤ b'.balance
    · rw [AgentBudget.debtClock_of_nonneg solvent'] at right
      have stopped : ¬b'.negativeSince ≠ 0 := not_not.mpr right
      exact .intro there' (iff_of_false stopped (not_lt.mpr solvent')) fun h => absurd h stopped
    · have debt' := not_le.mp solvent'
      have inDebt := (inDebt_iff there').mpr debt'
      by_cases solvent : 0 ≤ b.balance
      · rw [AgentBudget.debtClock_of_neg_of_nonneg debt' solvent] at right
        refine .intro there' (iff_of_true (right ▸ positive.ne') debt') fun _ => ?_
        have before : ¬InDebt a (Runs.run serve start calls) :=
          fun h => absurd solvent (not_le.mpr ((inDebt_iff there).mp h))
        exact ⟨call, Runs.since_concat.mpr ⟨inDebt, .inr ⟨before, rfl⟩⟩, right.symm⟩
      · rw [AgentBudget.debtClock_of_neg_of_neg debt' (not_le.mp solvent)] at right
        have running := dated.ticks.mpr (not_le.mp solvent)
        obtain ⟨call₀, since₀, at₀⟩ := dated.since running
        exact .intro there' (iff_of_true (right ▸ running) debt') fun _ =>
          ⟨call₀, Runs.since_concat.mpr ⟨inDebt, .inl since₀⟩, at₀.trans right.symm⟩

end

/-! ### Runs -/

/-- A manager with a capacity and nobody to share it yet. -/
def opened (starvationTimeoutS totalSlots : ℚ) : BudgetManager :=
  (fresh starvationTimeoutS).setTotalCapacity totalSlots

/-- The call keeps the clock of every agent that is there. -/
def KeepsClocks (m : BudgetManager) (call : Call) : Prop :=
  ∀ a b, m.agents.get? a = some b → call.Keeps a b

/-- Every agent's clock is right after `calls`. -/
def AllDated (start : BudgetManager) (calls : List Call) : Prop :=
  ∀ a b, (Runs.run serve start calls).agents.get? a = some b → Dated start calls a b

/-- A call leaves every clock right exactly when it keeps every clock. -/
theorem AllDated.concat_iff {start : BudgetManager} {calls : List Call}
    (dated : AllDated start calls) {call : Call} (positive : 0 < call.now) :
    AllDated start (calls ++ [call]) ↔ KeepsClocks (Runs.run serve start calls) call := by
  have last : Runs.run serve start (calls ++ [call]) =
      (Runs.run serve start calls).serve call := Runs.run_append serve start calls [call]
  constructor
  · intro dated' a b there
    obtain ⟨b', there', balance, clock⟩ := get?_serve_of_some there call
    rw [← last] at there'
    have right := ((dated a b there).concat_iff positive there there').mp (dated' a b' there')
    rw [balance, clock] at right
    exact (Call.keeps_iff positive (dated a b there).ticks).mp right
  · intro keeps a b' there'
    rw [last] at there'
    rcases before : (Runs.run serve start calls).agents.get? a with - | b
    · obtain ⟨balance, clock⟩ := get?_serve_of_none before there'
      rw [← last] at there'
      have stopped : ¬b'.negativeSince ≠ 0 := not_not.mpr clock
      exact .intro there' (iff_of_false stopped (by simp [balance])) fun h => absurd h stopped
    · obtain ⟨b₁, there₁, balance, clock⟩ := get?_serve_of_some before call
      obtain rfl := Option.some.inj (there₁.symm.trans there')
      rw [← last] at there'
      refine ((dated a b before).concat_iff positive before there').mpr ?_
      rw [balance, clock]
      exact (Call.keeps_iff positive (dated a b before).ticks).mpr (keeps a b before)

/-- From a right start the clocks are right all along exactly when every call keeps them. -/
theorem AllDated.always_iff {start : BudgetManager} (right : AllDated start []) {calls : List Call}
    (positive : ∀ call ∈ calls, 0 < call.now) :
    (∀ before, before <+: calls → AllDated start before) ↔
      Runs.Along serve KeepsClocks start calls := by
  rw [Runs.along_iff]
  refine History.always_iff right fun before call within dated => dated.concat_iff ?_
  exact positive call (within.mem (by simp))

theorem allDated_opened (starvationTimeoutS totalSlots : ℚ) :
    AllDated (opened starvationTimeoutS totalSlots) [] := by
  intro a b there
  rw [Runs.run_nil, opened, setTotalCapacity, get?_recalculateRates] at there
  exact absurd there (by simp [fresh])

/-- After every call of a run each agent's clock is right, exactly when no call of the run takes a
balance across zero where the clock is not looked after: no negative charge pays off a debt, no
adjustment charges more than a balance that is not negative, and no tick takes such a balance below
zero by its cap or its rate.  The instants need not even be in order. -/
theorem debt_clock_iff (starvationTimeoutS totalSlots : ℚ) (calls : List Call)
    (positive : ∀ call ∈ calls, 0 < call.now) :
    (∀ before, before <+: calls → AllDated (opened starvationTimeoutS totalSlots) before) ↔
      Runs.Along serve KeepsClocks (opened starvationTimeoutS totalSlots) calls :=
  (allDated_opened starvationTimeoutS totalSlots).always_iff positive

/-- A charge into debt, and an adjustment that adds to it. -/
theorem debt_clock_of_charge :
    let calls : List Call :=
      [⟨1, .getOrCreate "chat" 1 60⟩, ⟨2, .charge "chat" 5⟩, ⟨3, .retroactiveAdjust "chat" 5 6⟩]
    (∀ before, before <+: calls → AllDated (opened 30 10) before) ↔
      Runs.Along serve KeepsClocks (opened 30 10) calls :=
  debt_clock_iff 30 10 _ (by decide)

/-- A request is estimated at 5 and costs 20: the agent has been in debt since, at 3, and its
clock has not been started. -/
theorem undercharge_is_not_dated :
    let calls : List Call :=
      [⟨1, .getOrCreate "chat" 1 60⟩, ⟨2, .replenish⟩, ⟨2, .charge "chat" 5⟩,
        ⟨3, .retroactiveAdjust "chat" 5 20⟩]
    Runs.Clocked Call.now calls 3 ∧ (∀ call ∈ calls, 0 < call.now) ∧
      ((Runs.run serve (opened 30 10) calls).agents.get? "chat").map
          (fun b => (b.balance, b.negativeSince, b.isStarving 1000 30)) = some (-10, 0, false) ∧
      ¬∀ before, before <+: calls → AllDated (opened 30 10) before := by
  intro calls
  have found : ((Runs.run serve (opened 30 10) calls).agents.get? "chat").map
      (fun b => (b.balance, b.negativeSince, b.isStarving 1000 30)) = some (-10, 0, false) := by
    decide +kernel
  refine ⟨by decide, by decide, found, fun always => ?_⟩
  obtain ⟨b, there, values⟩ := Option.map_eq_some_iff.mp found
  obtain ⟨balance, clock, -⟩ : b.balance = -10 ∧ b.negativeSince = 0 ∧ _ := by simpa using values
  have dated := always calls (List.prefix_refl calls) "chat" b there
  exact dated.ticks.mpr (by rw [balance]; norm_num) clock

end BudgetManager

end Roadstead
