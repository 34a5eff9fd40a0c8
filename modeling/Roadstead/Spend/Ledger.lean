import Roadstead.Lib.Window
import Roadstead.Spend.Replay

/-!
# The spend ledger adds up

A charge is priced when it is made, and what it leaves is a receipt.  The account of an agent is
what its receipts add up to (`Books`): each total takes the receipts of its kind, and the window of
the day those of one day.  The day follows the receipts that mean an invoice, so that under a clock
that does not go back it moves once to each day that has one (`rollovers_eq`).
-/

namespace Roadstead

/-! ### Receipts -/

/-- A charge and its price. -/
structure Receipt where
  agentId : String
  endpoint : String
  price : TokenPrice
  inputTokens : ℤ
  outputTokens : ℤ
  requests : ℤ
  /-- When the charge was made. -/
  time : ℚ

namespace Receipt

def usd (r : Receipt) : ℚ := r.price.costUsd r.inputTokens r.outputTokens

/-- The UTC day of the charge. -/
def day (r : Receipt) : ℤ := dayBucket r.time

/-- The receipts that mean an invoice. -/
def invoiced (rs : List Receipt) : List Receipt := rs.filter fun r => r.price.real

theorem invoiced_concat (rs : List Receipt) (r : Receipt) :
    invoiced (rs ++ [r]) = invoiced rs ++ if r.price.real then [r] else [] := by
  rw [invoiced, List.filter_append, ← invoiced, List.filter_cons, List.filter_nil]

/-- What the receipts that satisfy `p` add up to. -/
def total (rs : List Receipt) (p : Receipt → Bool) : ℚ := ((rs.filter p).map usd).sum

theorem total_append (rs rs' : List Receipt) (p : Receipt → Bool) :
    total (rs ++ rs') p = total rs p + total rs' p := by
  rw [total, List.filter_append, List.map_append, List.sum_append]
  rfl

theorem total_concat (rs : List Receipt) (r : Receipt) (p : Receipt → Bool) :
    total (rs ++ [r]) p = total rs p + if p r then r.usd else 0 := by
  rw [total_append, total, total, List.filter_cons, List.filter_nil]
  split
  · simp
  · simp

theorem total_eq_zero {rs : List Receipt} {p : Receipt → Bool} (none : ∀ r ∈ rs, p r = false) :
    total rs p = 0 := by
  have nothing : rs.filter p = [] := by
    rw [List.filter_eq_nil_iff]
    intro r mem
    rw [none r mem]
    exact Bool.false_ne_true
  rw [total, nothing]
  rfl

end Receipt

open Receipt

/-! ### One account -/

namespace AgentSpend

variable {price : TokenPrice}

/-- A charge that means an invoice. -/
theorem charged_real (acct : AgentSpend) (endpoint : String) (ti tout : ℤ) (now : ℚ) (requests : ℤ)
    (real : price.real = true) :
    (acct.charged price endpoint ti tout now requests).spentUsd =
        acct.spentUsd + price.costUsd ti tout ∧
      (acct.charged price endpoint ti tout now requests).avoidedUsd = acct.avoidedUsd ∧
      (acct.charged price endpoint ti tout now requests).byEndpoint =
        acct.byEndpoint.addTo endpoint (price.costUsd ti tout) ∧
      (acct.charged price endpoint ti tout now requests).day = dayBucket now ∧
      (acct.charged price endpoint ti tout now requests).daySpentUsd =
        (if acct.day = dayBucket now then acct.daySpentUsd else 0) + price.costUsd ti tout := by
  rw [charged, if_pos real, price.costUsd_max]
  exact ⟨rfl, rfl, rfl, rfl, rfl⟩

/-- A charge that does not. -/
theorem charged_notional (acct : AgentSpend) (endpoint : String) (ti tout : ℤ) (now : ℚ)
    (requests : ℤ) (notional : ¬price.real = true) :
    (acct.charged price endpoint ti tout now requests).spentUsd = acct.spentUsd ∧
      (acct.charged price endpoint ti tout now requests).avoidedUsd =
        acct.avoidedUsd + price.costUsd ti tout ∧
      (acct.charged price endpoint ti tout now requests).byEndpoint = acct.byEndpoint ∧
      (acct.charged price endpoint ti tout now requests).day = acct.day ∧
      (acct.charged price endpoint ti tout now requests).daySpentUsd = acct.daySpentUsd := by
  rw [charged, if_neg notional, price.costUsd_max]
  exact ⟨rfl, rfl, rfl, rfl, rfl⟩

end AgentSpend

/-- The account of an agent is what its receipts add up to, none of them later than `now`. -/
structure Books (rs : List Receipt) (acct : AgentSpend) (now : ℚ) : Prop where
  tokensIn : acct.tokensIn = (rs.map fun r => max 0 r.inputTokens).sum
  tokensOut : acct.tokensOut = (rs.map fun r => max 0 r.outputTokens).sum
  requests : acct.requests = (rs.map fun r => max 0 r.requests).sum
  spent : acct.spentUsd = total (invoiced rs) fun _ => true
  avoided : acct.avoidedUsd = total rs fun r => !r.price.real
  endpoint : ∀ endpoint, (acct.byEndpoint.get? endpoint).getD 0 =
    total (invoiced rs) fun r => decide (r.endpoint = endpoint)
  endpoints : (acct.byEndpoint.sum fun _ usd => usd) = acct.spentUsd
  /-- The day is that of the last invoice. -/
  day : acct.day = ((invoiced rs).map Receipt.day).getLast?.getD 0
  today : acct.daySpentUsd = total (invoiced rs) fun r => decide (r.day = acct.day)
  ordered : (rs.map Receipt.time).Pairwise (· ≤ ·)
  past : ∀ r ∈ rs, r.time ≤ now

section Books

variable {rs : List Receipt} {acct : AgentSpend} {now now' : ℚ}

theorem Books.nil (agentId : String) (now : ℚ) : Books [] { agentId := agentId } now where
  tokensIn := rfl
  tokensOut := rfl
  requests := rfl
  spent := rfl
  avoided := rfl
  endpoint _ := rfl
  endpoints := rfl
  day := rfl
  today := rfl
  ordered := List.Pairwise.nil
  past _ mem := absurd mem List.not_mem_nil

theorem Books.later (books : Books rs acct now) (later : now ≤ now') : Books rs acct now' :=
  { books with past := fun r mem => (books.past r mem).trans later }

theorem dayBucket_mono (le : now ≤ now') : dayBucket now ≤ dayBucket now' :=
  Int.floor_le_floor (div_le_div_of_nonneg_right le (by norm_num))

theorem invoiced_sublist (rs : List Receipt) : (invoiced rs).Sublist rs := List.filter_sublist

/-- The days of the invoices do not go back. -/
theorem Books.days_ordered (books : Books rs acct now) :
    ((invoiced rs).map Receipt.day).Pairwise (· ≤ ·) := by
  have times := (List.pairwise_map.mp books.ordered).sublist (invoiced_sublist rs)
  exact List.pairwise_map.mpr (times.imp fun le => dayBucket_mono le)

/-- The account stands at a day that is neither before an invoice nor after today. -/
theorem Books.day_bounds (books : Books rs acct now) {r : Receipt} (mem : r ∈ invoiced rs) :
    r.day ≤ acct.day ∧ acct.day ≤ dayBucket now := by
  have here : r.day ∈ (invoiced rs).map Receipt.day := List.mem_map_of_mem mem
  constructor
  · rw [books.day]
    exact Window.le_getLast_of_mem books.days_ordered here 0
  · have found := List.getLast?_eq_some_getLast (List.ne_nil_of_mem here)
    obtain ⟨r', mem', day⟩ := List.mem_map.mp (List.getLast_mem (List.ne_nil_of_mem here))
    rw [books.day, found, Option.getD_some, ← day]
    exact dayBucket_mono (books.past r' ((invoiced_sublist rs).mem mem'))

/-- The window of the day has what was invoiced today. -/
theorem Books.spentToday (books : Books rs acct now) :
    (if acct.day = dayBucket now then acct.daySpentUsd else 0) =
      total (invoiced rs) fun r => decide (r.day = dayBucket now) := by
  split
  · next same => rw [books.today, same]
  · next other =>
      refine (total_eq_zero fun r mem => decide_eq_false fun here => other ?_).symm
      obtain ⟨last, today⟩ := books.day_bounds mem
      exact le_antisymm today (here ▸ last)

/-- A charge leaves its receipt. -/
theorem Books.charged {r : Receipt} (books : Books rs acct r.time) :
    Books (rs ++ [r])
      (acct.charged r.price r.endpoint r.inputTokens r.outputTokens r.time r.requests) r.time := by
  obtain ⟨tokensIn, tokensOut, requests⟩ := acct.counts_charged r.price r.endpoint r.inputTokens
    r.outputTokens r.time r.requests
  have window := books.spentToday
  have times : ((rs ++ [r]).map Receipt.time).Pairwise (· ≤ ·) := by
    rw [List.map_append, List.pairwise_append]
    refine ⟨books.ordered, List.pairwise_singleton _ _, ?_⟩
    intro t mem t' mem'
    obtain ⟨r', before, rfl⟩ := List.mem_map.mp mem
    rw [List.mem_singleton.mp mem']
    exact books.past r' before
  have past : ∀ r' ∈ rs ++ [r], r'.time ≤ r.time := by
    intro r' mem
    rcases List.mem_append.mp mem with before | here
    · exact books.past r' before
    · rw [List.mem_singleton.mp here]
  have sums (f : Receipt → ℤ) : ((rs ++ [r]).map f).sum = (rs.map f).sum + f r := by
    rw [List.map_append, List.sum_append, List.map_singleton, List.sum_singleton]
  by_cases real : r.price.real = true
  · have invoices : invoiced (rs ++ [r]) = invoiced rs ++ [r] := by rw [invoiced_concat, if_pos real]
    obtain ⟨spent, avoided, byEndpoint, day, daySpent⟩ :=
      acct.charged_real r.endpoint r.inputTokens r.outputTokens r.time r.requests real
    constructor
    case tokensIn => rw [tokensIn, books.tokensIn, sums]
    case tokensOut => rw [tokensOut, books.tokensOut, sums]
    case requests => rw [requests, books.requests, sums]
    case spent => rw [spent, books.spent, invoices, total_concat, if_pos rfl, usd]
    case avoided => rw [avoided, books.avoided, total_concat, real, if_neg (by simp), add_zero]
    case endpoint =>
      intro endpoint
      rw [byEndpoint, Dict.getD_addTo, books.endpoint, invoices, total_concat]
      simp only [decide_eq_true_eq, usd]
    case endpoints =>
      rw [byEndpoint, spent, ← books.endpoints]
      exact Dict.sum_addTo (fun _ => AddMonoidHom.id ℚ) _ _ _
    case day =>
      rw [day, invoices, List.map_append, List.map_singleton, List.getLast?_concat,
        Option.getD_some, Receipt.day]
    case today =>
      rw [daySpent, day, window, invoices, total_concat, if_pos (by simp [Receipt.day]), usd]
    case ordered => exact times
    case past => exact past
  · have invoices : invoiced (rs ++ [r]) = invoiced rs := by
      rw [invoiced_concat, if_neg real, List.append_nil]
    obtain ⟨spent, avoided, byEndpoint, day, daySpent⟩ :=
      acct.charged_notional r.endpoint r.inputTokens r.outputTokens r.time r.requests real
    constructor
    case tokensIn => rw [tokensIn, books.tokensIn, sums]
    case tokensOut => rw [tokensOut, books.tokensOut, sums]
    case requests => rw [requests, books.requests, sums]
    case spent => rw [spent, books.spent, invoices]
    case avoided => rw [avoided, books.avoided, total_concat, if_pos (by simpa using real), usd]
    case endpoint =>
      intro endpoint
      rw [byEndpoint, books.endpoint, invoices]
    case endpoints => rw [byEndpoint, spent, books.endpoints]
    case day => rw [day, invoices, books.day]
    case today => rw [daySpent, day, invoices, books.today]
    case ordered => exact times
    case past => exact past

end Books

/-! ### Runs -/

namespace SpendLedger

/-- The receipt that a call leaves. -/
def receipt (l : SpendLedger) (call : ℚ × SpendCall) : List Receipt :=
  match call.2 with
  | .charge agentId endpoint inputTokens outputTokens requests =>
      [{ agentId := agentId, endpoint := endpoint, price := l.prices.price endpoint
         inputTokens := inputTokens, outputTokens := outputTokens, requests := requests
         time := call.1 }]
  | .read => []
  | .declare _ _ => []
  | .observe _ _ => []

/-- The receipts of an agent, in the order of its charges. -/
def receipts (l : SpendLedger) (calls : List (ℚ × SpendCall)) (agentId : String) : List Receipt :=
  (Runs.emitted step receipt l calls).filter fun r => decide (r.agentId = agentId)

theorem receipts_concat (l : SpendLedger) (calls : List (ℚ × SpendCall)) (call : ℚ × SpendCall)
    (agentId : String) : l.receipts (calls ++ [call]) agentId = l.receipts calls agentId ++
      ((Runs.run step l calls).receipt call).filter fun r => decide (r.agentId = agentId) := by
  rw [receipts, Runs.emitted_concat, List.filter_append, receipts]

/-- A call leaves its receipt with its agent, and every other account as it is. -/
theorem account_step (l : SpendLedger) (call : ℚ × SpendCall) (agentId : String) :
    (∃ r, (l.receipt call).filter (fun r => decide (r.agentId = agentId)) = [r] ∧ r.time = call.1 ∧
        (l.step call).account agentId = (l.account agentId).charged r.price r.endpoint r.inputTokens
          r.outputTokens r.time r.requests) ∨
      (l.receipt call).filter (fun r => decide (r.agentId = agentId)) = [] ∧
        (l.step call).account agentId = l.account agentId := by
  obtain ⟨now, op⟩ := call
  cases op with
  | charge other endpoint ti tout requests =>
      rw [step, account_charge]
      by_cases here : other = agentId
      · refine .inl ⟨_, List.filter_cons_of_pos (by simpa using here), rfl, ?_⟩
        rw [if_pos here.symm, here]
      · refine .inr ⟨?_, if_neg (Ne.symm here)⟩
        rw [receipt, List.filter_cons_of_neg (by simpa using here), List.filter_nil]
  | read | declare endpoint price | observe endpoint price => exact .inr ⟨rfl, rfl⟩

/-- The day that a call moves an account to, if it moves it. -/
def rollover (agentId : String) (l : SpendLedger) (call : ℚ × SpendCall) : List ℤ :=
  if ((l.step call).account agentId).day = (l.account agentId).day then []
  else [((l.step call).account agentId).day]

/-- The days that the account of an agent moves to. -/
def rollovers (l : SpendLedger) (calls : List (ℚ × SpendCall)) (agentId : String) : List ℤ :=
  Runs.emitted step (rollover agentId) l calls

variable {prices : PriceBook} {calls : List (ℚ × SpendCall)} {now : ℚ}

/-- The account of an agent is what its receipts add up to. -/
theorem books_run (prices : PriceBook) (clock : Runs.Clocked Prod.fst calls now) (agentId : String) :
    Books (receipts { prices := prices } calls agentId)
      ((Runs.run step { prices := prices } calls).account agentId) now := by
  refine Runs.run_clocked (fun calls (l : SpendLedger) now =>
    Books (receipts { prices := prices } calls agentId) (l.account agentId) now) ?_ ?_ ?_ clock
  · exact fun now => Books.nil agentId now
  · exact fun calls l now now' books later => books.later later
  · intro calls call books
    rw [receipts_concat]
    rcases account_step (Runs.run step { prices := prices } calls) call agentId with
      ⟨r, left, time, account⟩ | ⟨left, account⟩
    · rw [left, account, ← time]
      exact (time ▸ books).charged
    · rw [left, account, List.append_nil]
      exact books

/-- The account moves to the days of its invoices, as they come. -/
theorem rollovers_eq (prices : PriceBook) (clock : Runs.Clocked Prod.fst calls now)
    (agentId : String) : rollovers { prices := prices } calls agentId =
      Window.changes 0
        ((invoiced (receipts { prices := prices } calls agentId)).map Receipt.day) := by
  induction calls using List.reverseRecOn generalizing now with
  | nil => rfl
  | append_singleton calls call ih =>
      obtain ⟨before, -⟩ := Runs.clocked_concat.mp clock
      have books := books_run prices before agentId
      rw [rollovers, Runs.emitted_concat, ← rollovers, ih before, receipts_concat, rollover]
      rcases account_step (Runs.run step { prices := prices } calls) call agentId with
        ⟨r, left, time, account⟩ | ⟨left, account⟩
      · rw [left, account, invoiced_concat]
        by_cases real : r.price.real = true
        · obtain ⟨-, -, -, day, -⟩ := AgentSpend.charged_real
            ((Runs.run step { prices := prices } calls).account agentId) r.endpoint r.inputTokens
            r.outputTokens r.time r.requests real
          rw [if_pos real, List.map_append, List.map_singleton, Window.changes_concat, day,
            ← books.day]
          rfl
        · obtain ⟨-, -, -, day, -⟩ := AgentSpend.charged_notional
            ((Runs.run step { prices := prices } calls).account agentId) r.endpoint r.inputTokens
            r.outputTokens r.time r.requests real
          rw [if_neg real, List.append_nil, day, if_pos rfl, List.append_nil]
      · rw [left, account, if_pos rfl, List.append_nil, List.append_nil]

/-- Under a clock that does not go back, what an agent has spent today is what was invoiced to it in
the current UTC day; what it has spent is what was ever invoiced to it, by endpoint and as a whole;
what is notional is kept apart; and the account moves to a day once, if there is an invoice of that
day.  An account starts out in the day 0, and has no need to move to it. -/
theorem spend_ledger_law (prices : PriceBook) (clock : Runs.Clocked Prod.fst calls now)
    (agentId : String) :
    let l := Runs.run step { prices := prices } calls
    let rs := receipts { prices := prices } calls agentId
    let days := (invoiced rs).map Receipt.day
    l.spentToday agentId now = total (invoiced rs) (fun r => decide (r.day = dayBucket now)) ∧
      (l.account agentId).spentUsd = ((l.account agentId).byEndpoint.sum fun _ usd => usd) ∧
      (∀ endpoint, ((l.account agentId).byEndpoint.get? endpoint).getD 0 =
        total (invoiced rs) fun r => decide (r.endpoint = endpoint)) ∧
      (l.account agentId).spentUsd = total (invoiced rs) (fun _ => true) ∧
      (l.account agentId).avoidedUsd = total rs (fun r => !r.price.real) ∧
      (l.account agentId).tokensIn = (rs.map fun r => max 0 r.inputTokens).sum ∧
      (l.account agentId).tokensOut = (rs.map fun r => max 0 r.outputTokens).sum ∧
      (l.account agentId).requests = (rs.map fun r => max 0 r.requests).sum ∧
      (rollovers { prices := prices } calls agentId).Nodup ∧
      ∀ day, day ∈ rollovers { prices := prices } calls agentId ↔
        day ∈ days ∧ ¬(day = 0 ∧ days.head? = some 0) := by
  intro l rs days
  have books := books_run prices clock agentId
  have rolls := rollovers_eq prices clock agentId
  have ordered := books.days_ordered
  refine ⟨?_, books.endpoints.symm, books.endpoint, books.spent, books.avoided, books.tokensIn,
    books.tokensOut, books.requests, ?_, ?_⟩
  · rw [spentToday_eq]
    exact books.spentToday
  · rw [rolls]
    exact Window.nodup_changes ordered 0
  · intro day
    rw [rolls]
    exact Window.mem_changes_iff_head ordered 0 day

/-- An invoice and a notional charge on one day, and an invoice on the next. -/
theorem spend_ledger_law_days :
    (Runs.run step { prices := {} }
      [(86400, .declare "cloud" { inputUsdPerMtok := 2, source := .config }),
        (86400, .charge "a" "cloud" 1000000 0 1), (90000, .charge "a" "local" 1000000 0 1),
        (90001, .read), (172800, .charge "a" "cloud" 500000 0 1)]).spentToday "a" 172801 = 1 := by
  have clock : Runs.Clocked Prod.fst
      [(86400, SpendCall.declare "cloud" { inputUsdPerMtok := 2, source := .config }),
        (86400, .charge "a" "cloud" 1000000 0 1), (90000, .charge "a" "local" 1000000 0 1),
        (90001, .read), (172800, .charge "a" "cloud" 500000 0 1)] (172801 : ℚ) := by decide
  rw [(spend_ledger_law {} clock "a").1]
  decide +kernel

end SpendLedger

end Roadstead
