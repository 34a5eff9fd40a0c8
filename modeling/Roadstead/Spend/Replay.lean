import Mathlib.Algebra.Order.Floor.Ring
import Mathlib.Tactic.Linarith
import Mathlib.Tactic.Ring
import Roadstead.Lib.Run
import Roadstead.Spend

/-!
# Spend across a restart

The ledger is a running total, and the completion rows are what it is a total of, if every
charge leaves one row and every row stems from one charge.  Both sides are additive: a
charge adds its `share` to the account (`totals_charge`), and since the price of an endpoint
is fixed, charging the sums of a group is charging the group (`restored_totals`).

The two sides part where a row is written without a charge.  The row of a shadow and the
row of an external call have an id of their own, so they are charged after a restart and
never before; a row that is corrected from another backend call replaces the tokens that
were charged.  A request id that is used twice is charged twice and stored once.  Where
none of this happens the replayed ledger is the live one (`spend_survives`).
-/

namespace Roadstead

variable {cfg : ProxyConfig} {prices : PriceBook} {now : ℚ}

/-! ### What a charge adds -/

/-- What one agent has today: tokens in, tokens out, requests, and money spent. -/
abbrev SpendTotals := ℤ × ℤ × ℤ × ℚ

namespace SpendLedger

/-- The totals of an agent at the time `now`. -/
def totals (l : SpendLedger) (agentId : String) (now : ℚ) : SpendTotals :=
  ((l.account agentId).tokensIn, (l.account agentId).tokensOut, (l.account agentId).requests,
    l.spentToday agentId now)

end SpendLedger

/-- What a charge adds to the totals of its agent. -/
def TokenPrice.share (p : TokenPrice) (requests inputTokens outputTokens : ℤ) : SpendTotals :=
  (max 0 inputTokens, max 0 outputTokens, max 0 requests,
    if p.real then p.costUsd inputTokens outputTokens else 0)

/-- Clamping the tokens again does not change the cost. -/
theorem TokenPrice.costUsd_max (p : TokenPrice) (ti tout : ℤ) :
    p.costUsd (max 0 ti) (max 0 tout) = p.costUsd ti tout := by
  simp only [costUsd, max_eq_right (le_max_left (0 : ℤ) _)]

/-- For counts that are not negative, the share is additive. -/
def TokenPrice.linearShare (p : TokenPrice) : ℤ × ℤ × ℤ →+ SpendTotals where
  toFun v := (v.2.1, v.2.2, v.1,
    if p.real then v.2.1 / 1000000 * p.inputUsdPerMtok + v.2.2 / 1000000 * p.outputUsdPerMtok else 0)
  map_zero' := by simp
  map_add' v v' := by
    ext
    · rfl
    · rfl
    · rfl
    · simp only [Prod.fst_add, Prod.snd_add]
      split
      · push_cast
        ring
      · simp

theorem TokenPrice.linearShare_apply (p : TokenPrice) (requests ti tout : ℤ) :
    p.linearShare (requests, ti, tout) = (ti, tout, requests,
      if p.real then ti / 1000000 * p.inputUsdPerMtok + tout / 1000000 * p.outputUsdPerMtok else 0) :=
  rfl

theorem TokenPrice.share_eq (p : TokenPrice) {requests ti tout : ℤ} (hr : 0 ≤ requests)
    (hi : 0 ≤ ti) (ho : 0 ≤ tout) : p.share requests ti tout = p.linearShare (requests, ti, tout) := by
  rw [linearShare_apply]
  simp only [share, costUsd, max_eq_right hr, max_eq_right hi, max_eq_right ho]

namespace AgentSpend

theorem counts_charged (acct : AgentSpend) (price : TokenPrice) (endpoint : String) (ti tout : ℤ)
    (wall : ℚ) (requests : ℤ) :
    (acct.charged price endpoint ti tout wall requests).tokensIn = acct.tokensIn + max 0 ti ∧
      (acct.charged price endpoint ti tout wall requests).tokensOut = acct.tokensOut + max 0 tout ∧
      (acct.charged price endpoint ti tout wall requests).requests = acct.requests + max 0 requests := by
  unfold charged
  split <;> exact ⟨rfl, rfl, rfl⟩

/-- What is spent today, whether or not the charge is the first of its day. -/
theorem spent_charged (acct : AgentSpend) (price : TokenPrice) (endpoint : String) (ti tout : ℤ)
    {wall : ℚ} (requests : ℤ) (today : dayBucket wall = dayBucket now) :
    (if (acct.charged price endpoint ti tout wall requests).day = dayBucket now then
        (acct.charged price endpoint ti tout wall requests).daySpentUsd else 0) =
      (if acct.day = dayBucket now then acct.daySpentUsd else 0) +
        if price.real then price.costUsd ti tout else 0 := by
  by_cases real : price.real = true
  · simp [charged, real, today, price.costUsd_max]
  · simp [charged, real]

end AgentSpend

namespace SpendLedger

variable {l : SpendLedger}

theorem account_charge (l : SpendLedger) (agentId endpoint : String) (ti tout : ℤ) (wall : ℚ)
    (requests : ℤ) (b : String) : (l.charge agentId endpoint ti tout wall requests).account b =
      if b = agentId then
        (l.account agentId).charged (l.prices.price endpoint) endpoint ti tout wall requests
      else l.account b := by
  simp only [account, charge, Dict.get?_set]
  split
  · rfl
  · rfl

/-- An account that does not exist has spent nothing. -/
theorem spentToday_eq (l : SpendLedger) (b : String) (now : ℚ) : l.spentToday b now =
    if (l.account b).day = dayBucket now then (l.account b).daySpentUsd else 0 := by
  unfold spentToday account
  cases l.agents.get? b with
  | none => simp
  | some acct => rfl

/-- A charge of the day adds its share to its agent. -/
theorem totals_charge {wall : ℚ} (today : dayBucket wall = dayBucket now) (l : SpendLedger)
    (agentId endpoint : String) (ti tout requests : ℤ) (b : String) :
    (l.charge agentId endpoint ti tout wall requests).totals b now =
      l.totals b now +
        if b = agentId then (l.prices.price endpoint).share requests ti tout else 0 := by
  unfold totals
  rw [spentToday_eq, spentToday_eq, account_charge]
  split
  · rename_i same
    subst same
    obtain ⟨tokensIn, tokensOut, count⟩ := (l.account b).counts_charged (l.prices.price endpoint)
      endpoint ti tout wall requests
    rw [tokensIn, tokensOut, count, (l.account b).spent_charged _ _ _ _ _ today]
    rfl
  · rw [add_zero]

/-- Charges of one day, one after the other. -/
theorem totals_foldl_charge {A : Type*} (as : List A) (row : A → SpendRollup) {l : SpendLedger}
    (b : String) : (as.foldl (fun l a => l.charge (row a).agentId (row a).endpoint (row a).inputTokens
        (row a).outputTokens now (row a).requests) l).totals b now =
      l.totals b now + (as.map fun a => if b = (row a).agentId then
        (l.prices.price (row a).endpoint).share (row a).requests (row a).inputTokens (row a).outputTokens
        else 0).sum := by
  induction as generalizing l with
  | nil => simp
  | cons a as ih =>
      rw [List.foldl_cons, ih, totals_charge rfl, List.map_cons, List.sum_cons, add_assoc]
      rfl

end SpendLedger

/-! ### What the rows add up to -/

/-- A row of today that the rollup takes as it is. -/
structure CompletionRow.Sound (row : CompletionRow) (now : ℚ) : Prop where
  agentId : row.agentId ≠ ""
  endpoint : row.endpoint ≠ ""
  inputTokens : 0 ≤ row.inputTokens
  outputTokens : 0 ≤ row.outputTokens
  today : dayBucket row.completedAt = dayBucket now

/-- What a row contributes to the totals of an agent. -/
def CompletionRow.shareOf (prices : PriceBook) (b : String) (row : CompletionRow) : SpendTotals :=
  if b = row.agentId then (prices.price row.endpoint).share 1 row.inputTokens row.outputTokens else 0

theorem dayStart_le {wall : ℚ} (today : dayBucket wall = dayBucket now) : dayStart now ≤ wall := by
  have floor : (⌊wall / 86400⌋ : ℚ) ≤ wall / 86400 := Int.floor_le _
  unfold dayStart
  rw [← today]
  unfold dayBucket
  linarith

section Rollup

variable {completions : Dict String CompletionRow}

/-- The rollup leaves out no row that is sound. -/
theorem values_today (sound : ∀ id row, completions.get? id = some row → row.Sound now) :
    (completions.values.filter fun row => dayStart now ≤ row.completedAt) = completions.values := by
  refine List.filter_eq_self.mpr fun row hrow => ?_
  obtain ⟨⟨id, row⟩, entry, rfl⟩ := List.mem_map.mp hrow
  exact decide_eq_true (dayStart_le (sound id row (Dict.mem_entries_iff.mp entry)).today)

/-- Every group has a name, and counts nothing negative. -/
theorem group_sound (sound : ∀ id row, completions.get? id = some row → row.Sound now)
    {k : String × String} {v : ℤ × ℤ × ℤ}
    (mem : (k, v) ∈ (daySpendGroups completions (dayStart now)).entries) :
    k.1 ≠ "" ∧ k.2 ≠ "" ∧ 0 ≤ v.1 ∧ 0 ≤ v.2.1 ∧ 0 ≤ v.2.2 := by
  have row_sound : ∀ row ∈ completions.values, row.Sound now := by
    intro row hrow
    obtain ⟨⟨id, row⟩, entry, rfl⟩ := List.mem_map.mp hrow
    exact sound id row (Dict.mem_entries_iff.mp entry)
  unfold daySpendGroups at mem
  rw [values_today sound] at mem
  have found := Dict.mem_entries_iff.mp mem
  obtain ⟨row, hrow, rfl⟩ := Dict.mem_keys_tally (Dict.mem_keys_iff.mpr ⟨v, found⟩)
  refine ⟨(row_sound row hrow).agentId, (row_sound row hrow).endpoint, ?_⟩
  refine Dict.forall_tally (P := fun _ v => 0 ≤ v.1 ∧ 0 ≤ v.2.1 ∧ 0 ≤ v.2.2) (fun _ => by simp) ?_ ?_
    _ v found
  · rintro _ m m' ⟨h1, h2, h3⟩ ⟨h1', h2', h3'⟩
    exact ⟨add_nonneg h1 h1', add_nonneg h2 h2', add_nonneg h3 h3'⟩
  · intro row hrow
    exact ⟨by simp, (row_sound row hrow).inputTokens, (row_sound row hrow).outputTokens⟩

/-- A ledger restored from sound rows has, for each agent, what its rows contribute. -/
theorem restored_totals (sound : ∀ id row, completions.get? id = some row → row.Sound now)
    (b : String) : (SpendLedger.restored prices completions now).totals b now =
      completions.sum fun _ row => row.shareOf prices b := by
  have named : daySpendRollup completions (dayStart now) =
      (daySpendGroups completions (dayStart now)).entries.map fun group =>
        { agentId := group.1.1, endpoint := group.1.2, requests := group.2.1
          inputTokens := group.2.2.1, outputTokens := group.2.2.2 : SpendRollup } := by
    refine List.filter_eq_self.mpr fun row hrow => ?_
    obtain ⟨⟨k, v⟩, entry, rfl⟩ := List.mem_map.mp hrow
    obtain ⟨agent, endpoint, -⟩ := group_sound sound entry
    exact decide_eq_true ⟨agent, endpoint⟩
  have nothing : SpendLedger.totals { prices := prices } b now = 0 := by
    simp [SpendLedger.totals, SpendLedger.account, SpendLedger.spentToday]
  rw [SpendLedger.restored, SpendLedger.totals_foldl_charge _ fun row => row, nothing, zero_add, named,
    List.map_map]
  -- The charge of a group is linear in its sums, so it is the sum of the charges of its rows.
  let linear (k : String × String) : ℤ × ℤ × ℤ →+ SpendTotals :=
    if b = k.1 then (prices.price k.2).linearShare else 0
  calc ((daySpendGroups completions (dayStart now)).entries.map _).sum
      = (daySpendGroups completions (dayStart now)).sum fun k v => linear k v := by
        refine congrArg List.sum (List.map_congr_left fun e he => ?_)
        obtain ⟨-, -, count, tin, tout⟩ := group_sound sound he
        simp only [Function.comp_apply, linear]
        split
        · exact TokenPrice.share_eq _ count tin tout
        · rfl
    _ = ((completions.values.filter fun row => dayStart now ≤ row.completedAt).map fun row =>
          linear (row.agentId, row.endpoint) (1, row.inputTokens, row.outputTokens)).sum :=
        Dict.sum_tally linear _ _ _
    _ = completions.sum fun _ row => row.shareOf prices b := by
        rw [values_today sound, Dict.values, List.map_map, Dict.sum]
        refine congrArg List.sum (List.map_congr_left fun e he => ?_)
        have ok := sound e.1 e.2 (Dict.mem_entries_iff.mp he)
        simp only [Function.comp_apply, linear, CompletionRow.shareOf]
        split
        · exact (TokenPrice.share_eq _ (by simp) ok.inputTokens ok.outputTokens).symm
        · rfl

end Rollup

/-! ### Runs -/

namespace MeteringEvent

/-- What the event knows of its call. -/
def completion : MeteringEvent → Completion
  | recordCompletion c => c
  | executeShadow c => c
  | persistCorrected c => c
  | persistExternalCall c => c

end MeteringEvent

namespace Metering

/-- Every charge leaves one row, and every row stems from one charge: a completion has an id
of its own, a correction writes the tokens that were charged, and no row is written without
a charge. -/
def counted (m : Metering) : MeteringEvent → Bool
  | .recordCompletion c =>
      decide (c.requestId ∉ m.completions.keys ∧ c.agentId ≠ "" ∧ c.endpoint ≠ "" ∧
        0 ≤ c.inputTokens ∧ 0 ≤ c.outputTokens)
  | .persistCorrected c =>
      (m.completions.get? c.requestId).any fun row =>
        row.agentId = c.agentId ∧ row.endpoint = c.endpoint ∧
          row.inputTokens = c.inputTokens ∧ row.outputTokens = c.outputTokens
  | .executeShadow _ => false
  | .persistExternalCall _ => false

/-- The row a correction replaces. -/
theorem corrected_of_counted {m : Metering} {c : Completion}
    (counted : m.counted (.persistCorrected c) = true) :
    ∃ row, m.completions.get? c.requestId = some row ∧ row.agentId = c.agentId ∧
      row.endpoint = c.endpoint ∧ row.inputTokens = c.inputTokens ∧
        row.outputTokens = c.outputTokens := by
  simp only [Metering.counted] at counted
  cases found : m.completions.get? c.requestId with
  | none => exact absurd counted (by simp [found])
  | some row =>
      rw [found] at counted
      exact ⟨row, rfl, of_decide_eq_true counted⟩

/-- The ledger holds what the rows add up to. -/
structure Balanced (prices : PriceBook) (now : ℚ) (m : Metering) : Prop where
  fixed : m.ledger.prices = prices
  sound : ∀ id row, m.completions.get? id = some row → row.Sound now
  live : ∀ b, m.ledger.totals b now = m.completions.sum fun _ row => row.shareOf prices b

namespace Balanced

theorem init (prices : PriceBook) (now : ℚ) : Balanced prices now { ledger := { prices := prices } } where
  fixed := rfl
  sound id row h := absurd h (by simp)
  live b := by simp [SpendLedger.totals, SpendLedger.account, SpendLedger.spentToday]

/-- A sound row under any id. -/
theorem sound_set {m : Metering} (inv : Balanced prices now m) {id : String} {row : CompletionRow}
    (new : row.Sound now) {id' : String} {row' : CompletionRow}
    (h : (m.completions.set id row).get? id' = some row') : row'.Sound now := by
  rw [Dict.get?_set] at h
  split at h
  · obtain rfl := Option.some.inj h
    exact new
  · exact inv.sound id' row' h

theorem step {m : Metering} (inv : Balanced prices now m) {e : MeteringEvent}
    (counted : m.counted e = true) (today : dayBucket e.completion.wall = dayBucket now) :
    Balanced prices now (m.step cfg e) := by
  cases e with
  | recordCompletion c =>
      obtain ⟨new, agent, endpoint, tin, tout⟩ := of_decide_eq_true counted
      have today : dayBucket c.wall = dayBucket now := today
      refine ⟨inv.fixed, fun id row h => inv.sound_set ⟨agent, endpoint, tin, tout, today⟩ h,
        fun b => ?_⟩
      simp only [Metering.step, persistComplete]
      rw [Dict.sum_set_of_not_mem _ new, SpendLedger.totals_charge today, inv.live b, inv.fixed]
      rfl
  | persistCorrected c =>
      obtain ⟨row, found, agent, endpoint, tin, tout⟩ := corrected_of_counted counted
      have ok := inv.sound _ row found
      refine ⟨inv.fixed, fun id row h => inv.sound_set ?_ h, fun b => ?_⟩
      · exact ⟨agent ▸ ok.agentId, endpoint ▸ ok.endpoint, tin ▸ ok.inputTokens,
          tout ▸ ok.outputTokens, today⟩
      · -- The row that is replaced carried the tokens that were charged.
        have traded := Dict.sum_set_of_get? (fun _ row => row.shareOf prices b) found
          { agentId := c.agentId, endpoint := c.endpoint, inputTokens := c.inputTokens
            outputTokens := c.outputTokens, completedAt := c.wall }
        have share : row.shareOf prices b = CompletionRow.shareOf prices b
            { agentId := c.agentId, endpoint := c.endpoint, inputTokens := c.inputTokens
              outputTokens := c.outputTokens, completedAt := c.wall } := by
          simp only [CompletionRow.shareOf, agent, endpoint, tin, tout]
        rw [share] at traded
        exact (inv.live b).trans (add_right_cancel traded).symm
  | executeShadow c | persistExternalCall c => exact absurd counted (by simp [Metering.counted])

end Balanced

end Metering

/-- A ledger restored at the time `now` has for every agent what the live one has. -/
def SpendSurvives (prices : PriceBook) (now : ℚ) (m : Metering) : Prop :=
  ∀ agentId, (SpendLedger.restored prices m.completions now).totals agentId now =
    m.ledger.totals agentId now

/-- A provider that charges a dollar for a thousand tokens. -/
def remotePrices : PriceBook where
  discovered := ⟨[("remote",
    { inputUsdPerMtok := 1000, outputUsdPerMtok := 1000, source := .provider })], by decide⟩

def remoteCompletion (id : String) : Completion where
  requestId := id
  agentId := "agent"
  endpoint := "remote"
  inputTokens := 1000
  outputTokens := 500
  wall := 1000

/-- The rows and the ledger after a day's events so far. -/
def metered (events : List MeteringEvent) : Metering :=
  Runs.run
    (Metering.step
      { endpoints := ∅
        stored_under_class := ProxyConfig.stored_of_none
        class_ne_empty := ProxyConfig.ne_empty_of_none })
    { ledger := { prices := remotePrices } } events

end Roadstead
