import Roadstead.AgentBudget.Rates
import Roadstead.Management.Handlers
import Roadstead.TimeoutModel.Monotone

/-!
# Debt across a restart

`service.py` restores the balances that `save_budgets` wrote: the snapshot is rounded, the table
has defaults for a falsy value, a row without a stanza and without a debt is dropped, and what is
left is clamped to the cap.  The clamp is meant (*balances are clamped to the agent's cap*), and it
works on both sides: a debt above the cap comes back as a debt of the cap.  Nothing else is lost
(`debt_restored`): no weight, whatever it is, and no debt up to the cap beyond the rounding.

The quota edits of the management plane take part: they go to the configuration, to the live
budget and to the overlay, which is applied to the file before the balances are restored.  They
are taken to reach the overlay's file.  That the three agree is the invariant (`Kept`), and with it
the fallbacks are harmless: the weight of a caller without a stanza is the default one, so the
row's falsy weight is nobody's.

`accountOf` is what of a budget a restart has to give back; replenish rates are derived.
-/

namespace Roadstead

open Management (AgentQuota QuotaPatch)

/-! ### The quota configuration -/

/-- Edits made together are edits made one after the other. -/
theorem Management.QuotaPatch.edit_update (old fields : QuotaPatch) (cfg : AgentQuota) :
    (old.update fields).edit cfg = fields.edit (old.edit cfg) := by
  unfold QuotaPatch.update QuotaPatch.edit
  simp only [Option.getD_or]

/-- `agent_config`: the stanza of a caller, or the defaults. -/
def quotaOf (agents : Dict String AgentQuota) (agentId : String) : AgentQuota :=
  (agents.get? agentId).getD { agentId := agentId }

/-- The quota part of `AdminOverlay.apply`. -/
def applyOverlay (overlay : Dict String QuotaPatch) (file : Dict String AgentQuota) :
    Dict String AgentQuota :=
  overlay.entries.foldl (fun agents e => agents.set e.1 (e.2.edit (quotaOf agents e.1))) file

theorem get?_applyOverlay (overlay : Dict String QuotaPatch) (file : Dict String AgentQuota)
    (a : String) :
    (applyOverlay overlay file).get? a =
      match overlay.get? a with
      | none => file.get? a
      | some p => some (p.edit (quotaOf file a)) := by
  refine (Dict.foldl_entries (fun agents => agents.get? a)
    (fun (p : QuotaPatch) found => some (p.edit (found.getD { agentId := a }))) (k := a)
    (d := overlay) ?_ ?_ file).trans ?_
  · intro agents e _ apart
    exact Dict.get?_set_of_ne _ apart.symm _
  · intro agents p _
    exact Dict.get?_set_self _ _ _
  · cases overlay.get? a <;> rfl

/-! ### The table -/

/-- The persisted fields of a row of `snapshot`. -/
structure SnapshotRow where
  agentId : String
  weight : ℚ
  balanceSs : ℚ
  totalConsumedSs : ℚ

/-- A row of `proxy_agent_budgets`. -/
structure BudgetRow where
  weight : ℚ
  balance : ℚ
  totalConsumed : ℚ
  deriving DecidableEq

/-- `x or fallback`, of a number. -/
def orNumber (x fallback : ℚ) : ℚ := if x = 0 then fallback else x

@[simp] theorem orNumber_zero (x : ℚ) : orNumber x 0 = x := by
  unfold orNumber
  split
  · rename_i zero
    exact zero.symm
  · rfl

/-- `save_budgets`: rows are replaced, and none is deleted. -/
def saveBudgets (rows : Dict String BudgetRow) (budgets : List SnapshotRow) :
    Dict String BudgetRow :=
  budgets.foldl (fun rows b => rows.set b.agentId ⟨b.weight, b.balanceSs, b.totalConsumedSs⟩) rows

/-- `load_budgets`. -/
def loadBudgets (rows : Dict String BudgetRow) : Dict String BudgetRow :=
  rows.map fun _ r => ⟨orNumber r.weight 1, orNumber r.balance 0, orNumber r.totalConsumed 0⟩

/-- `delete_budgets`. -/
def deleteBudgets (rows : Dict String BudgetRow) (agentIds : List String) :
    Dict String BudgetRow :=
  agentIds.foldl Dict.erase rows

/-- The row of `snapshot` for one budget. -/
def AgentBudget.snapshotRow (b : AgentBudget) : SnapshotRow :=
  ⟨b.agentId, b.weight, roundTo 2 b.balance, roundTo 1 b.totalConsumed⟩

namespace BudgetManager

/-- `snapshot`. -/
def snapshot (m : BudgetManager) : List SnapshotRow := m.agents.values.map AgentBudget.snapshotRow

/-! ### Start-up -/

/-- The loop that registers the callers with a stanza. -/
def preRegister (m : BudgetManager) (agents : Dict String AgentQuota) (now : ℚ) :
    BudgetManager :=
  agents.entries.foldl (fun m e => m.getOrCreate e.1 e.2.weight e.2.maxBalanceSs now) m

/-- `max(-b.max_balance, min(b.max_balance, balance))`. -/
def clamp (cap balance : ℚ) : ℚ := max (-cap) (min cap balance)

/-- A row without a stanza and without a debt. -/
def ghost (agents : Dict String AgentQuota) (agentId : String) (row : BudgetRow) : Bool :=
  (agents.get? agentId).isNone && decide (0 ≤ orNumber row.balance 0)

/-- What the body of the loop does to the budget it has got or created. -/
def restoreBudget (acfg : Option AgentQuota) (row : BudgetRow) (now : ℚ) (b : AgentBudget) :
    AgentBudget :=
  let b :=
    match acfg with
    | none => b
    | some cfg => { b with maxBalance := cfg.maxBalanceSs, weight := cfg.weight }
  { b with
    balance := clamp b.maxBalance row.balance
    totalConsumed := row.totalConsumed
    lastReplenishAt := now }

/-- The body of the restoring loop; `max_balance` is left to its default. -/
def restoreRow (agents : Dict String AgentQuota) (now : ℚ) (m : BudgetManager)
    (row : String × BudgetRow) : BudgetManager :=
  if ghost agents row.1 row.2 then m
  else
    let acfg := agents.get? row.1
    let weight := (acfg.map fun cfg => cfg.weight).getD row.2.weight
    (m.getOrCreate row.1 weight 60 now).modify row.1 (restoreBudget acfg row.2 now)

end BudgetManager

/-! ### The process and its store -/

/-- The quotas, the budgets and the table of one deployment. -/
structure BudgetHost where
  /-- `config.agents`, with the stanzas that `agent_config` made up on the way. -/
  agents : Dict String AgentQuota
  overlay : Dict String QuotaPatch
  budgets : BudgetManager
  rows : Dict String BudgetRow

namespace BudgetHost

section

variable (file : Dict String AgentQuota) (starvationTimeoutS : ℚ)

/-- The start of the service on an overlay and a table. -/
def start (overlay : Dict String QuotaPatch) (rows : Dict String BudgetRow)
    (totalSlots now : ℚ) : BudgetHost :=
  let agents := applyOverlay overlay file
  let registered :=
    ((BudgetManager.fresh starvationTimeoutS).setTotalCapacity totalSlots).preRegister agents now
  let loaded := loadBudgets rows
  let ghostRows := (loaded.entries.filter fun e => BudgetManager.ghost agents e.1 e.2).map Prod.fst
  { agents := agents
    overlay := overlay
    budgets := loaded.entries.foldl (BudgetManager.restoreRow agents now) registered
    rows := deleteBudgets rows ghostRows }

/-- What happens to the budgets of a deployment. -/
inductive Event where
  | enqueue (agentId : String) (enqueuedAt : ℚ)
  | charge (agentId : String) (costSs now : ℚ)
  | retroactiveAdjust (agentId : String) (estimated actual : ℚ)
  | replenish (now : ℚ)
  | setTotalCapacity (totalSlots : ℚ)
  /-- `handle_admin_caller`, with the fields it has validated. -/
  | edit (agentId : String) (fields : QuotaPatch)
  /-- The daily sweep: `prune_idle` and `delete_budgets`. -/
  | sweep (now idleTtlS : ℚ)
  /-- `save_budgets(snapshot())`, every minute and at shutdown. -/
  | save
  /-- The process ends, in order or not, and a new one starts. -/
  | restart (totalSlots now : ℚ)

def step (h : BudgetHost) : Event → BudgetHost
  | .enqueue agentId enqueuedAt =>
      let cfg := quotaOf h.agents agentId
      { h with
        agents := h.agents.setDefault agentId cfg
        budgets := h.budgets.getOrCreate agentId cfg.weight cfg.maxBalanceSs enqueuedAt }
  | .charge agentId costSs now => { h with budgets := h.budgets.charge agentId costSs now }
  | .retroactiveAdjust agentId estimated actual =>
      { h with budgets := h.budgets.retroactiveAdjust agentId estimated actual }
  | .replenish now => { h with budgets := h.budgets.replenish now }
  | .setTotalCapacity totalSlots => { h with budgets := h.budgets.setTotalCapacity totalSlots }
  | .edit agentId fields =>
      { h with
        agents := h.agents.set agentId (fields.edit (quotaOf h.agents agentId))
        overlay := h.overlay.set agentId (((h.overlay.get? agentId).getD {}).update fields)
        budgets :=
          if fields.weight.isSome || fields.maxBalanceSs.isSome then
            h.budgets.reweight agentId fields.weight fields.maxBalanceSs
          else h.budgets }
  | .sweep now idleTtlS =>
      { h with
        budgets := h.budgets.pruneIdle now idleTtlS
        rows := deleteBudgets h.rows (h.budgets.staleAgents now idleTtlS) }
  | .save => { h with rows := saveBudgets h.rows h.budgets.snapshot }
  | .restart totalSlots now => start file starvationTimeoutS h.overlay h.rows totalSlots now

end

end BudgetHost

/-! ### Accounts -/

/-- What a restart has to give back of a budget. -/
structure Account where
  agentId : String
  weight : ℚ
  maxBalance : ℚ
  balance : ℚ
  deriving DecidableEq

def AgentBudget.account (b : AgentBudget) : Account :=
  ⟨b.agentId, b.weight, b.maxBalance, b.balance⟩

/-- The account stands under the caller's name, weight and cap. -/
structure Account.Carries (x : Account) (a : String) (cfg : AgentQuota) : Prop where
  named : x.agentId = a
  weight : x.weight = cfg.weight
  cap : x.maxBalance = cfg.maxBalanceSs

namespace BudgetManager

def accountOf (m : BudgetManager) (a : String) : Option Account :=
  (m.agents.get? a).map AgentBudget.account

@[simp] theorem accountOf_recalculateRates (m : BudgetManager) (a : String) :
    m.recalculateRates.accountOf a = m.accountOf a := by
  unfold accountOf
  rw [get?_recalculateRates, Option.map_map]
  rfl

@[simp] theorem accountOf_setTotalCapacity (m : BudgetManager) (slots : ℚ) (a : String) :
    (m.setTotalCapacity slots).accountOf a = m.accountOf a :=
  accountOf_recalculateRates _ a

theorem accountOf_getOrCreate (m : BudgetManager) (a a' : String) (w x now : ℚ) :
    (m.getOrCreate a w x now).accountOf a' =
      (m.accountOf a').or (if a' = a then some ⟨a, w, x, 0⟩ else none) := by
  unfold getOrCreate
  by_cases known : a ∈ m.agents.keys
  · rw [if_pos known]
    obtain ⟨b, found⟩ := Dict.mem_keys_iff.mp known
    by_cases same : a' = a
    · simp [accountOf, same, found]
    · simp [same]
  · rw [if_neg known, accountOf_recalculateRates]
    by_cases same : a' = a
    · simp [accountOf, same, Dict.get?_eq_none_iff.mpr known, AgentBudget.account]
    · simp [accountOf, same, Dict.get?_set_of_ne]

theorem accountOf_modify {f : AgentBudget → AgentBudget} {g : Account → Account}
    (effect : ∀ b, (f b).account = g b.account) (m : BudgetManager) (a a' : String) :
    (m.modify a f).accountOf a' = if a' = a then (m.accountOf a).map g else m.accountOf a' := by
  unfold accountOf
  rw [get?_modify]
  split
  · rw [Option.map_map, Option.map_map]
    congr 1
    funext b
    exact effect b
  · rfl

/-! ### What the start gives back -/

theorem accountOf_preRegister (m : BudgetManager) (agents : Dict String AgentQuota)
    (now : ℚ) (a : String) :
    (m.preRegister agents now).accountOf a =
      match agents.get? a with
      | none => m.accountOf a
      | some cfg => (m.accountOf a).or (some ⟨a, cfg.weight, cfg.maxBalanceSs, 0⟩) := by
  refine (Dict.foldl_entries (fun m => accountOf m a)
    (fun (cfg : AgentQuota) found => found.or (some ⟨a, cfg.weight, cfg.maxBalanceSs, 0⟩))
    (k := a) (d := agents) ?_ ?_ m).trans ?_
  · intro m e _ apart
    rw [accountOf_getOrCreate, if_neg apart.symm, Option.or_none]
  · intro m cfg _
    rw [accountOf_getOrCreate, if_pos rfl]
  · cases agents.get? a <;> rfl

/-- What `restoreBudget` does to an account. -/
def restoreAccount (acfg : Option AgentQuota) (row : BudgetRow) (x : Account) : Account :=
  let x :=
    match acfg with
    | none => x
    | some cfg => { x with maxBalance := cfg.maxBalanceSs, weight := cfg.weight }
  { x with balance := clamp x.maxBalance row.balance }

theorem account_restoreBudget (acfg : Option AgentQuota) (row : BudgetRow) (now : ℚ)
    (b : AgentBudget) :
    (restoreBudget acfg row now b).account = restoreAccount acfg row b.account := by
  cases acfg <;> rfl

theorem accountOf_restoreRow_of_ne {agents : Dict String AgentQuota} {now : ℚ}
    (m : BudgetManager) {row : String × BudgetRow} {a : String} (apart : row.1 ≠ a) :
    (restoreRow agents now m row).accountOf a = m.accountOf a := by
  unfold restoreRow
  split
  · rfl
  · simp only
    rw [accountOf_modify (account_restoreBudget _ row.2 now), if_neg apart.symm,
      accountOf_getOrCreate, if_neg apart.symm, Option.or_none]

theorem accountOf_restoreRow_self {agents : Dict String AgentQuota} {now : ℚ}
    (m : BudgetManager) (row : BudgetRow) (a : String) :
    (restoreRow agents now m (a, row)).accountOf a =
      if ghost agents a row then m.accountOf a
      else
        ((m.accountOf a).or
            (some ⟨a, ((agents.get? a).map fun cfg => cfg.weight).getD row.weight, 60, 0⟩)).map
          (restoreAccount (agents.get? a) row) := by
  unfold restoreRow
  split
  · rfl
  · simp only
    rw [accountOf_modify (account_restoreBudget _ row now), if_pos rfl, accountOf_getOrCreate,
      if_pos rfl]

/-- What a caller has after a start: from its stanza and from its row. -/
def restored (acfg : Option AgentQuota) (row : Option BudgetRow) (a : String) :
    Option Account :=
  match acfg, row with
  | some cfg, none => some ⟨a, cfg.weight, cfg.maxBalanceSs, 0⟩
  | some cfg, some row =>
      some ⟨a, cfg.weight, cfg.maxBalanceSs, clamp cfg.maxBalanceSs row.balance⟩
  | none, none => none
  | none, some row =>
      if 0 ≤ row.balance then none else some ⟨a, row.weight, 60, clamp 60 row.balance⟩

end BudgetManager

namespace BudgetHost

open BudgetManager

variable {file : Dict String AgentQuota} {starvationTimeoutS : ℚ}

/-- The budget of a caller after a start depends on its stanza and on its row. -/
theorem accountOf_start (overlay : Dict String QuotaPatch) (rows : Dict String BudgetRow)
    (totalSlots now : ℚ) (a : String) :
    (start file starvationTimeoutS overlay rows totalSlots now).budgets.accountOf a =
      restored ((applyOverlay overlay file).get? a) ((loadBudgets rows).get? a) a := by
  let agents := applyOverlay overlay file
  have registered : (((fresh starvationTimeoutS).setTotalCapacity totalSlots).preRegister
      agents now).accountOf a = restored (agents.get? a) none a := by
    rw [accountOf_preRegister, accountOf_setTotalCapacity]
    cases agents.get? a <;> rfl
  let own (row : BudgetRow) (found : Option Account) : Option Account :=
    if ghost agents a row then found
    else
      (found.or (some ⟨a, ((agents.get? a).map fun cfg => cfg.weight).getD row.weight, 60, 0⟩)).map
        (restoreAccount (agents.get? a) row)
  have looped := Dict.foldl_entries (fun m => accountOf m a) own (d := loadBudgets rows)
    (fun m row _ apart => @accountOf_restoreRow_of_ne agents now m row a apart)
    (fun m row _ => accountOf_restoreRow_self m row a)
    (((fresh starvationTimeoutS).setTotalCapacity totalSlots).preRegister agents now)
  refine looped.trans ?_
  simp only [registered, own]
  cases (loadBudgets rows).get? a with
  | none => rfl
  | some row =>
      rcases configured : agents.get? a with - | cfg
      · by_cases idle : 0 ≤ row.balance
        · simp [restored, ghost, configured, idle]
        · simp [restored, ghost, configured, idle, restoreAccount]
      · simp [restored, ghost, configured, restoreAccount]

end BudgetHost

/-! ### Names, weights and caps -/

namespace BudgetManager

/-- Every budget stands under its caller's name and quota. -/
def AllCarry (m : BudgetManager) (quota : String → AgentQuota) : Prop :=
  ∀ a x, m.accountOf a = some x → x.Carries a (quota a)

namespace AllCarry

variable {m : BudgetManager} {quota : String → AgentQuota}

theorem setTotalCapacity (carry : m.AllCarry quota) (slots : ℚ) :
    (m.setTotalCapacity slots).AllCarry quota := by
  intro a x known
  rw [accountOf_setTotalCapacity] at known
  exact carry a x known

theorem getOrCreate (carry : m.AllCarry quota) (a : String) (now : ℚ) :
    (m.getOrCreate a (quota a).weight (quota a).maxBalanceSs now).AllCarry quota := by
  intro a' x known
  rw [accountOf_getOrCreate] at known
  rcases Option.or_eq_some_iff.mp known with old | ⟨-, new⟩
  · exact carry a' x old
  · by_cases same : a' = a
    · rw [if_pos same] at new
      obtain rfl := Option.some.inj new
      exact ⟨same.symm, by rw [same], by rw [same]⟩
    · rw [if_neg same] at new
      exact absurd new (by simp)

/-- Only the balance of `a` is rewritten. -/
theorem modify (carry : m.AllCarry quota) (a : String) {f : AgentBudget → AgentBudget}
    {g : ℚ → ℚ} (effect : ∀ b, (f b).account = { b.account with balance := g b.balance }) :
    (m.modify a f).AllCarry quota := by
  intro a' x known
  rw [accountOf_modify (g := fun x => { x with balance := g x.balance }) effect] at known
  by_cases same : a' = a
  · rw [if_pos same, Option.map_eq_some_iff] at known
    obtain ⟨old, there, rfl⟩ := known
    have before := carry a old there
    exact ⟨same ▸ before.named, same ▸ before.weight, same ▸ before.cap⟩
  · rw [if_neg same] at known
    exact carry a' x known

theorem charge (carry : m.AllCarry quota) (a : String) (costSs now : ℚ) :
    (m.charge a costSs now).AllCarry quota :=
  carry.modify a (g := fun balance => balance - costSs) fun _ => rfl

theorem retroactiveAdjust (carry : m.AllCarry quota) (a : String) (estimated actual : ℚ) :
    (m.retroactiveAdjust a estimated actual).AllCarry quota := by
  refine carry.modify a (g := fun balance => balance + (estimated - actual)) fun b => ?_
  unfold adjustBudget
  simp only
  split
  · rfl
  · split
    · rfl
    · rename_i above below
      have exact : estimated - actual = 0 := le_antisymm (not_lt.mp above) (not_lt.mp below)
      rw [exact, add_zero]
      rfl

theorem replenish (carry : m.AllCarry quota) (now : ℚ) : (m.replenish now).AllCarry quota := by
  intro a x known
  simp only [accountOf, BudgetManager.replenish, Dict.get?_map, Option.map_map,
    Option.map_eq_some_iff] at known
  obtain ⟨b, there, rfl⟩ := known
  have before := carry a b.account (by rw [accountOf, there, Option.map_some])
  show (b.replenish now).account.Carries a (quota a)
  unfold AgentBudget.replenish
  simp only
  split
  · exact before
  · exact ⟨before.named, before.weight, before.cap⟩

theorem pruneIdle (carry : m.AllCarry quota) (now idleTtlS : ℚ) :
    (m.pruneIdle now idleTtlS).AllCarry quota := by
  intro a x known
  have kept : ({ m with agents := (m.staleAgents now idleTtlS).foldl Dict.erase m.agents } :
      BudgetManager).accountOf a = some x := by
    unfold BudgetManager.pruneIdle at known
    simp only at known
    split at known
    · exact known
    · rwa [accountOf_recalculateRates] at known
  rw [accountOf, Dict.get?_foldl_erase] at kept
  split at kept
  · exact absurd kept (by simp)
  · exact carry a x kept

/-- A live budget follows the edit of its caller's quota. -/
theorem reweight (carry : m.AllCarry quota) {a : String} {fields : QuotaPatch}
    {quota' : String → AgentQuota} (edited : quota' a = fields.edit (quota a))
    (others : ∀ a', a' ≠ a → quota' a' = quota a') :
    (m.reweight a fields.weight fields.maxBalanceSs).AllCarry quota' := by
  intro a' x known
  unfold BudgetManager.reweight at known
  split at known
  · -- Nobody is there to be reweighted.
    rename_i nobody
    have apart : a' ≠ a := by
      rintro rfl
      rw [accountOf, nobody] at known
      exact absurd known (by simp)
    rw [others a' apart]
    exact carry a' x known
  · rename_i b there
    rw [accountOf_recalculateRates, accountOf, Dict.get?_set] at known
    by_cases same : a' = a
    · rw [if_pos same, Option.map_some] at known
      obtain rfl := Option.some.inj known
      have before := carry a b.account (by rw [accountOf, there, Option.map_some])
      rw [same, edited]
      refine ⟨before.named, ?_, ?_⟩
      · exact congrArg fields.weight.getD before.weight
      · exact congrArg fields.maxBalanceSs.getD before.cap
    · rw [if_neg same] at known
      rw [others a' same]
      exact carry a' x known

end AllCarry

/-- After a save, a live budget has the row of its snapshot, and nobody else's row is touched. -/
theorem get?_saveBudgets {m : BudgetManager} {quota : String → AgentQuota}
    (carry : m.AllCarry quota) (rows : Dict String BudgetRow) (a : String) :
    (saveBudgets rows m.snapshot).get? a =
      match m.agents.get? a with
      | none => rows.get? a
      | some b => some ⟨b.weight, roundTo 2 b.balance, roundTo 1 b.totalConsumed⟩ := by
  have named : ∀ e ∈ m.agents.entries, e.2.agentId = e.1 := by
    intro e mem
    have there : m.agents.get? e.1 = some e.2 := Dict.mem_entries_iff.mp mem
    exact (carry e.1 e.2.account (by rw [accountOf, there, Option.map_some])).named
  unfold saveBudgets snapshot Dict.values
  rw [List.foldl_map, List.foldl_map]
  refine (Dict.foldl_entries (fun rows => rows.get? a) (fun (b : AgentBudget) _ =>
    some ⟨b.weight, roundTo 2 b.balance, roundTo 1 b.totalConsumed⟩) (k := a) (d := m.agents)
    ?_ ?_ rows).trans ?_
  · intro rows e mem apart
    exact Dict.get?_set_of_ne _ (by rw [AgentBudget.snapshotRow, named e mem]; exact apart.symm) _
  · intro rows b there
    have own := named (a, b) (Dict.mem_entries_iff.mpr there)
    show (rows.set b.agentId _).get? a = _
    rw [own, Dict.get?_set_self]
    rfl
  · cases m.agents.get? a <;> rfl

end BudgetManager

namespace BudgetHost

open BudgetManager

variable {file : Dict String AgentQuota} {starvationTimeoutS : ℚ}

/-! ### The configuration, the live budgets and the table agree -/

/-- The quota of a caller, as the file and the overlay have it. -/
def quota (file : Dict String AgentQuota) (overlay : Dict String QuotaPatch) (a : String) :
    AgentQuota :=
  quotaOf (applyOverlay overlay file) a

theorem quota_eq (overlay : Dict String QuotaPatch) (a : String) :
    quota file overlay a = ((overlay.get? a).getD {}).edit (quotaOf file a) := by
  unfold quota
  rw [quotaOf, get?_applyOverlay]
  cases overlay.get? a with
  | none | some p => rfl

/-- The invariant of a deployment. -/
structure Kept (file : Dict String AgentQuota) (h : BudgetHost) : Prop where
  /-- The edits in force are those a start would apply. -/
  durable : ∀ a, quotaOf h.agents a = quota file h.overlay a
  carry : h.budgets.AllCarry (quota file h.overlay)
  /-- The row of a caller without a stanza has the default weight. -/
  plain : ∀ a row, h.rows.get? a = some row → (applyOverlay h.overlay file).get? a = none →
    row.weight = 1

theorem mem_of_get?_deleteBudgets {rows : Dict String BudgetRow} {ids : List String} {a : String}
    {row : BudgetRow} (kept : (deleteBudgets rows ids).get? a = some row) :
    rows.get? a = some row := by
  rw [deleteBudgets, Dict.get?_foldl_erase] at kept
  split at kept
  · exact absurd kept (by simp)
  · exact kept

theorem kept_start (overlay : Dict String QuotaPatch) (rows : Dict String BudgetRow)
    (plain : ∀ a row, rows.get? a = some row → (applyOverlay overlay file).get? a = none →
      row.weight = 1) (totalSlots now : ℚ) :
    Kept file (start file starvationTimeoutS overlay rows totalSlots now) where
  durable _ := rfl
  carry := by
    intro a x known
    rw [accountOf_start] at known
    show x.Carries a (quotaOf (applyOverlay overlay file) a)
    unfold quotaOf
    rcases configured : (applyOverlay overlay file).get? a with - | cfg
    · rcases loaded : (loadBudgets rows).get? a with - | row
      · simp [restored, configured, loaded] at known
      · rw [configured, loaded, restored] at known
        split at known
        · exact absurd known (by simp)
        · obtain rfl := Option.some.inj known
          rw [loadBudgets, Dict.get?_map, Option.map_eq_some_iff] at loaded
          obtain ⟨stored, there, rfl⟩ := loaded
          refine ⟨rfl, ?_, rfl⟩
          show orNumber stored.weight 1 = 1
          rw [plain a stored there configured]
          rfl
    · rcases loaded : (loadBudgets rows).get? a with - | row
      · rw [configured, loaded] at known
        obtain rfl := Option.some.inj known
        exact ⟨rfl, rfl, rfl⟩
      · rw [configured, loaded] at known
        obtain rfl := Option.some.inj known
        exact ⟨rfl, rfl, rfl⟩
  plain a row there := plain a row (mem_of_get?_deleteBudgets there)

theorem Kept.edit {h : BudgetHost} (kept : Kept file h) (agentId : String) (fields : QuotaPatch) :
    Kept file (h.step file starvationTimeoutS (.edit agentId fields)) := by
  let overlay := h.overlay.set agentId (((h.overlay.get? agentId).getD {}).update fields)
  have edited : quota file overlay agentId = fields.edit (quota file h.overlay agentId) := by
    rw [quota_eq, quota_eq, Dict.get?_set_self, Option.getD_some, QuotaPatch.edit_update]
  have others : ∀ a, a ≠ agentId → quota file overlay a = quota file h.overlay a := by
    intro a apart
    rw [quota_eq, quota_eq, Dict.get?_set_of_ne _ apart]
  refine ⟨fun a => ?_, ?_, fun a row there unconfigured => ?_⟩
  · show ((h.agents.set agentId (fields.edit (quotaOf h.agents agentId))).get? a).getD _ =
      quota file overlay a
    rw [Dict.get?_set]
    by_cases same : a = agentId
    · rw [if_pos same, Option.getD_some, kept.durable, same, edited]
    · rw [if_neg same, others a same]
      exact kept.durable a
  · show (if fields.weight.isSome || fields.maxBalanceSs.isSome then
      h.budgets.reweight agentId fields.weight fields.maxBalanceSs else h.budgets).AllCarry
      (quota file overlay)
    split
    · exact kept.carry.reweight edited others
    · rename_i neither
      -- Such an edit changes neither the weight nor the cap.
      rw [Bool.or_eq_true, not_or, Bool.not_eq_true, Bool.not_eq_true, Option.isSome_eq_false_iff,
        Option.isSome_eq_false_iff, Option.isNone_iff_eq_none, Option.isNone_iff_eq_none] at neither
      intro a x known
      have before := kept.carry a x known
      by_cases own : a = agentId
      · subst own
        rw [edited]
        refine ⟨before.named, before.weight.trans ?_, before.cap.trans ?_⟩
        · rw [QuotaPatch.edit, neither.1, Option.getD_none]
        · rw [QuotaPatch.edit, neither.2, Option.getD_none]
      · rw [others a own]
        exact before
  · refine kept.plain a row there ?_
    have none : (applyOverlay overlay file).get? a = none := unconfigured
    rw [get?_applyOverlay] at none ⊢
    by_cases own : a = agentId
    · rw [own, Dict.get?_set_self] at none
      exact absurd none (by simp)
    · rwa [Dict.get?_set_of_ne _ own] at none

theorem Kept.step {h : BudgetHost} (kept : Kept file h) (e : Event) :
    Kept file (h.step file starvationTimeoutS e) := by
  cases e with
  | enqueue agentId enqueuedAt =>
      refine ⟨fun a => ?_, ?_, kept.plain⟩
      · refine Eq.trans ?_ (kept.durable a)
        show ((h.agents.setDefault agentId (quotaOf h.agents agentId)).get? a).getD _ = _
        rw [Dict.get?_setDefault]
        unfold quotaOf
        by_cases same : a = agentId
        · rw [if_pos same, same]
          cases h.agents.get? agentId <;> rfl
        · rw [if_neg same, Option.or_none]
      · show (h.budgets.getOrCreate agentId (quotaOf h.agents agentId).weight
          (quotaOf h.agents agentId).maxBalanceSs enqueuedAt).AllCarry _
        rw [kept.durable agentId]
        exact kept.carry.getOrCreate agentId enqueuedAt
  | charge agentId costSs now => exact ⟨kept.durable, kept.carry.charge agentId costSs now, kept.plain⟩
  | retroactiveAdjust agentId estimated actual =>
      exact ⟨kept.durable, kept.carry.retroactiveAdjust agentId estimated actual, kept.plain⟩
  | replenish now => exact ⟨kept.durable, kept.carry.replenish now, kept.plain⟩
  | setTotalCapacity totalSlots =>
      exact ⟨kept.durable, kept.carry.setTotalCapacity totalSlots, kept.plain⟩
  | edit agentId fields => exact kept.edit agentId fields
  | sweep now idleTtlS =>
      exact ⟨kept.durable, kept.carry.pruneIdle now idleTtlS,
        fun a row there => kept.plain a row (mem_of_get?_deleteBudgets there)⟩
  | save =>
      refine ⟨kept.durable, kept.carry, fun a row there unconfigured => ?_⟩
      have saved : (saveBudgets h.rows h.budgets.snapshot).get? a = some row := there
      rw [get?_saveBudgets kept.carry] at saved
      split at saved
      · exact kept.plain a row saved unconfigured
      · rename_i b live
        obtain rfl := Option.some.inj saved
        have weight := (kept.carry a b.account (by rw [accountOf, live, Option.map_some])).weight
        refine weight.trans ?_
        have none : (applyOverlay h.overlay file).get? a = none := unconfigured
        rw [quota, quotaOf, none]
        rfl
  | restart totalSlots now => exact kept_start h.overlay h.rows kept.plain totalSlots now

/-! ### Saving, and starting again -/

/-- A deployment that is started for the first time. -/
def boot (file : Dict String AgentQuota) (starvationTimeoutS totalSlots now : ℚ) :
    BudgetHost :=
  start file starvationTimeoutS ∅ ∅ totalSlots now

theorem kept_run (totalSlots now : ℚ) (events : List Event) :
    Kept file (Runs.run (step file starvationTimeoutS)
      (boot file starvationTimeoutS totalSlots now) events) := by
  refine Runs.run_forall (Kept file) (fun h e kept => kept.step e) ?_ events
  exact kept_start ∅ ∅ (by simp) totalSlots now

/-- The account of a caller with a live budget, after a save and a start. -/
theorem Kept.accountOf_restart {h : BudgetHost} (kept : Kept file h) {a : String}
    {b : AgentBudget} (live : h.budgets.agents.get? a = some b) (totalSlots now : ℚ) :
    ((h.step file starvationTimeoutS .save).step file starvationTimeoutS
        (.restart totalSlots now)).budgets.accountOf a =
      if (applyOverlay h.overlay file).get? a = none ∧ 0 ≤ roundTo 2 b.balance then none
      else some ⟨a, b.weight, b.maxBalance, clamp b.maxBalance (roundTo 2 b.balance)⟩ := by
  have carried := kept.carry a b.account (by rw [accountOf, live, Option.map_some])
  have weight : b.weight = (quotaOf (applyOverlay h.overlay file) a).weight := carried.weight
  have cap : b.maxBalance = (quotaOf (applyOverlay h.overlay file) a).maxBalanceSs := carried.cap
  refine (accountOf_start h.overlay (saveBudgets h.rows h.budgets.snapshot) totalSlots now a).trans ?_
  rw [loadBudgets, Dict.get?_map, get?_saveBudgets kept.carry, live]
  unfold quotaOf at weight cap
  rcases configured : (applyOverlay h.overlay file).get? a with - | cfg
  · rw [configured] at weight cap
    simp only [Option.getD_none] at weight cap
    by_cases idle : 0 ≤ roundTo 2 b.balance
    · simp [restored, idle]
    · have kept : orNumber b.weight 1 = b.weight := by rw [weight, orNumber]; simp
      simp [restored, idle, kept, cap]
  · rw [configured] at weight cap
    simp only [Option.getD_some] at weight cap
    simp [restored, weight, cap]

theorem abs_roundTo_sub_le (x : ℚ) : |roundTo 2 x - x| ≤ 1 / 200 := by
  have near := Binary64.abs_roundHalfEven_sub_le (x * 10 ^ 2)
  rw [abs_le] at near ⊢
  unfold roundTo
  constructor <;> linarith

/-- Whatever happened to a deployment before, edits and restarts included: a save and a start give
a caller in debt its weight and its cap back, and its rounded debt, up to the cap.  A caller that
has no budget afterwards had a debt that rounds to nothing. -/
theorem debt_restored (starvationTimeoutS totalSlots now : ℚ) (events : List Event)
    (h : BudgetHost) (reached : h = Runs.run (step file starvationTimeoutS)
      (boot file starvationTimeoutS totalSlots now) events)
    (totalSlots' now' : ℚ) (a : String) (b : AgentBudget)
    (live : h.budgets.agents.get? a = some b) (debt : b.balance < 0) :
    let back := ((h.step file starvationTimeoutS .save).step file starvationTimeoutS
      (.restart totalSlots' now')).budgets.agents.get? a
    |roundTo 2 b.balance - b.balance| ≤ 1 / 200 ∧
      (back = none → roundTo 2 b.balance = 0) ∧
      ∀ b', back = some b' → b'.weight = b.weight ∧ b'.maxBalance = b.maxBalance ∧
        b'.balance = clamp b.maxBalance (roundTo 2 b.balance) := by
  intro back
  have kept : Kept file h := reached ▸ kept_run totalSlots now events
  have account : back.map AgentBudget.account = _ := kept.accountOf_restart live totalSlots' now'
  refine ⟨abs_roundTo_sub_le b.balance, fun gone => ?_, fun b' there => ?_⟩
  · rw [gone, Option.map_none] at account
    split at account
    · rename_i idle
      have rounded := roundTo_mono 2 debt.le
      have zero : roundTo 2 0 = 0 := by decide +kernel
      exact le_antisymm (zero ▸ rounded) idle.2
    · exact absurd account (by simp)
  · rw [there, Option.map_some] at account
    split at account
    · exact absurd account (by simp)
    · have same := Option.some.inj account
      exact ⟨congrArg Account.weight same, congrArg Account.maxBalance same,
        congrArg Account.balance same⟩

/-- A caller of weight zero and one without a stanza go into debt, the latter through an
adjustment and a restart. -/
def indebted : List Event :=
  [.enqueue "ops" 1, .charge "ops" 100 2, .enqueue "batch" 2, .charge "batch" 30 3,
    .retroactiveAdjust "batch" 30 (61 / 2), .save, .restart 4 0, .charge "batch" (1 / 3) 9]

def opsFile : Dict String AgentQuota :=
  (∅ : Dict String AgentQuota).set "ops" { agentId := "ops", weight := 0 }

theorem debt_restored_indebted :
    let h := Runs.run (step opsFile 30) (boot opsFile 30 4 0) indebted
    ∃ b', ((h.step opsFile 30 .save).step opsFile 30 (.restart 4 0)).budgets.agents.get? "batch" =
      some b' ∧ b'.weight = 1 ∧ b'.balance = -3083 / 100 := by
  intro h
  obtain ⟨b, live, facts⟩ := Option.map_eq_some_iff.mp (by decide +kernel :
    (h.budgets.agents.get? "batch").map (fun b => (b.balance, b.weight, b.maxBalance)) =
      some (-185 / 6, 1, 60))
  obtain ⟨balance, weight, cap⟩ : b.balance = -185 / 6 ∧ b.weight = 1 ∧ b.maxBalance = 60 := by
    simpa using facts
  obtain ⟨b', back⟩ := Option.isSome_iff_exists.mp (by decide +kernel :
    (((h.step opsFile 30 .save).step opsFile 30 (.restart 4 0)).budgets.agents.get? "batch").isSome)
  have restored := (debt_restored 30 4 0 indebted h rfl 4 0 "batch" b live
    (by rw [balance]; norm_num)).2.2 b' back
  rw [balance, weight, cap] at restored
  exact ⟨b', back, restored.1, restored.2.2.trans (by decide +kernel)⟩

/-- A debt of a hundred slot-seconds comes back as a debt of sixty. -/
theorem debt_above_the_cap_is_forgiven :
    let h := Runs.run (step ∅ 30) (boot ∅ 30 4 0) [.enqueue "batch" 1, .charge "batch" 100 2]
    (h.budgets.accountOf "batch").map Account.balance = some (-100) ∧ roundTo 2 (-100) = -100 ∧
      (((h.step ∅ 30 .save).step ∅ 30 (.restart 4 0)).budgets.accountOf "batch").map
        Account.balance = some (-60) := by
  decide +kernel

end BudgetHost

end Roadstead
