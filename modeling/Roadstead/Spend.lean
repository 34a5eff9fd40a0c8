import Mathlib.Algebra.Group.Prod
import Mathlib.Data.Rat.Floor
import Roadstead.Config

/-!
# Spend

`spend.py`, and the two halves of the account it keeps: the `SpendLedger` a process charges
as it goes, and the completion rows from which `service.startup` charges it again.  The
definitions follow the source; nothing is proved here.

Four paths write a completion row.  `record_completion` charges the ledger first, for every
status; the comparison with a shadow backend, the correction of a row and the ingest of an
external call only write.  A row is stored under its request id, so a second one replaces
the first, and the row of a shadow has an id of its own.

Amounts of money are the rational numbers that the prices and the token counts determine;
the rounding of doubles is left out.  So are the columns of a row that no total reads, and
the rows that retention deletes, which are older than a day.  Every write is applied.
-/

namespace Roadstead

/-! ### Prices -/

/-- What a price is a statement about. -/
inductive PriceSource where
  /-- The backend published it. -/
  | provider
  /-- An operator declared it. -/
  | config
  /-- What renting the model would have cost. -/
  | imputed
  deriving DecidableEq

/-- `TokenPrice`: dollars for a million tokens. -/
structure TokenPrice where
  inputUsdPerMtok : ℚ := 0
  outputUsdPerMtok : ℚ := 0
  source : PriceSource := .imputed
  deriving DecidableEq

namespace TokenPrice

/-- The price means an invoice. -/
def real (p : TokenPrice) : Bool := p.source ≠ .imputed

/-- `cost_usd`. -/
def costUsd (p : TokenPrice) (inputTokens outputTokens : ℤ) : ℚ :=
  let ti := max 0 inputTokens
  let tout := max 0 outputTokens
  ti / 1000000 * p.inputUsdPerMtok + tout / 1000000 * p.outputUsdPerMtok

end TokenPrice

/-- `str.strip`, on ASCII text. -/
def stripAscii (text : String) : String :=
  let trimmed := text.toList.dropWhile Char.isWhitespace
  .ofList (trimmed.reverse.dropWhile Char.isWhitespace).reverse

/-- `PriceBook`. -/
structure PriceBook where
  declared : Dict String TokenPrice := ∅
  discovered : Dict String TokenPrice := ∅
  /-- The table of `usage_rates`. -/
  cloudRate : String → ℚ × ℚ := fun _ => (0, 0)
  /-- `str.strip`; nothing is assumed about it. -/
  strip : String → String := stripAscii

namespace PriceBook

/-- `_imputed_price`. -/
def imputedPrice (book : PriceBook) (endpoint : String) : TokenPrice where
  inputUsdPerMtok := (book.cloudRate endpoint).1
  outputUsdPerMtok := (book.cloudRate endpoint).2

/-- `price`: what was declared wins over what was published. -/
def price (book : PriceBook) (endpoint : String) : TokenPrice :=
  let ep := book.strip endpoint
  match book.declared.get? ep with
  | some p => p
  | none =>
      match book.discovered.get? ep with
      | some p => p
      | none => book.imputedPrice ep

/-- `declare`. -/
def declare (book : PriceBook) (endpoint : String) (price : TokenPrice) : PriceBook :=
  { book with declared := book.declared.set endpoint price }

/-- `observe`. -/
def observe (book : PriceBook) (endpoint : String) (price : TokenPrice) : PriceBook :=
  { book with discovered := book.discovered.set endpoint price }

end PriceBook

/-! ### The ledger -/

/-- `day_bucket`: the day since the epoch, UTC. -/
def dayBucket (now : ℚ) : ℤ := ⌊now / 86400⌋

/-- `day_start`. -/
def dayStart (now : ℚ) : ℚ := dayBucket now * 86400

/-- `AgentSpend`. -/
structure AgentSpend where
  agentId : String
  tokensIn : ℤ := 0
  tokensOut : ℤ := 0
  spentUsd : ℚ := 0
  avoidedUsd : ℚ := 0
  requests : ℤ := 0
  /-- The day `daySpentUsd` refers to. -/
  day : ℤ := 0
  daySpentUsd : ℚ := 0
  byEndpoint : Dict String ℚ := ∅

/-- The account after a charge. -/
def AgentSpend.charged (acct : AgentSpend) (price : TokenPrice) (endpoint : String)
    (inputTokens outputTokens : ℤ) (now : ℚ) (requests : ℤ) : AgentSpend :=
  let ti := max 0 inputTokens
  let tout := max 0 outputTokens
  let acct :=
    { acct with
      tokensIn := acct.tokensIn + ti
      tokensOut := acct.tokensOut + tout
      requests := acct.requests + max 0 requests }
  let amount := price.costUsd ti tout
  if price.real then
    { acct with
      spentUsd := acct.spentUsd + amount
      byEndpoint := acct.byEndpoint.addTo endpoint amount
      day := dayBucket now
      daySpentUsd := (if acct.day = dayBucket now then acct.daySpentUsd else 0) + amount }
  else { acct with avoidedUsd := acct.avoidedUsd + amount }

/-- `SpendLedger`. -/
structure SpendLedger where
  prices : PriceBook
  agents : Dict String AgentSpend := ∅

namespace SpendLedger

/-- The account of an agent; one that was never charged is empty. -/
def account (l : SpendLedger) (agentId : String) : AgentSpend :=
  (l.agents.get? agentId).getD { agentId := agentId }

/-- `charge`. -/
def charge (l : SpendLedger) (agentId endpoint : String) (inputTokens outputTokens : ℤ) (now : ℚ)
    (requests : ℤ := 1) : SpendLedger :=
  { l with
    agents := l.agents.set agentId
      ((l.account agentId).charged (l.prices.price endpoint) endpoint inputTokens outputTokens now
        requests) }

/-- `spent_today`. -/
def spentToday (l : SpendLedger) (agentId : String) (now : ℚ) : ℚ :=
  match l.agents.get? agentId with
  | none => 0
  | some acct => if acct.day = dayBucket now then acct.daySpentUsd else 0

end SpendLedger

/-- A call of the ledger, or of its prices. -/
inductive SpendCall where
  | charge (agentId endpoint : String) (inputTokens outputTokens requests : ℤ)
  /-- `spent_today`, `snapshot` or `get`: each of them only reads. -/
  | read
  | declare (endpoint : String) (price : TokenPrice)
  | observe (endpoint : String) (price : TokenPrice)
  deriving DecidableEq

/-- The ledger after a call at the time `call.1`. -/
def SpendLedger.step (l : SpendLedger) (call : ℚ × SpendCall) : SpendLedger :=
  match call.2 with
  | .charge agentId endpoint inputTokens outputTokens requests =>
      l.charge agentId endpoint inputTokens outputTokens call.1 requests
  | .read => l
  | .declare endpoint price => { l with prices := l.prices.declare endpoint price }
  | .observe endpoint price => { l with prices := l.prices.observe endpoint price }

/-! ### The completion rows -/

/-- A row of `proxy_completions`. -/
structure CompletionRow where
  agentId : String
  endpoint : String
  inputTokens : ℤ
  outputTokens : ℤ
  completedAt : ℚ
  deriving DecidableEq

/-- What the paths that end a call know of it. -/
structure Completion where
  requestId : String
  agentId : String
  endpoint : String
  inputTokens : ℤ
  outputTokens : ℤ
  /-- `time.time()`. -/
  wall : ℚ
  deriving DecidableEq

/-- The ledger of a process, and the completion rows. -/
structure Metering where
  ledger : SpendLedger
  completions : Dict String CompletionRow := ∅

/-- The end of a call, as metering sees it. -/
inductive MeteringEvent where
  /-- `record_completion`, whatever the status. -/
  | recordCompletion (c : Completion)
  /-- The row of `execute_shadow`. -/
  | executeShadow (c : Completion)
  /-- `_persist_corrected`, and the row of a degeneration re-dispatch. -/
  | persistCorrected (c : Completion)
  /-- `persist_external_call`. -/
  | persistExternalCall (c : Completion)
  deriving DecidableEq

namespace Metering

/-- `INSERT OR REPLACE INTO proxy_completions`. -/
def persistComplete (m : Metering) (requestId endpoint : String) (c : Completion) : Metering :=
  { m with
    completions := m.completions.set requestId
      { agentId := c.agentId, endpoint := endpoint, inputTokens := c.inputTokens
        outputTokens := c.outputTokens, completedAt := c.wall } }

def step (cfg : ProxyConfig) (m : Metering) : MeteringEvent → Metering
  | .recordCompletion c =>
      { m with
        ledger := m.ledger.charge c.agentId c.endpoint c.inputTokens c.outputTokens c.wall
      }.persistComplete c.requestId c.endpoint c
  | .executeShadow c => m.persistComplete ("shadow-" ++ c.requestId) c.endpoint c
  | .persistCorrected c => m.persistComplete c.requestId c.endpoint c
  | .persistExternalCall c => m.persistComplete c.requestId (cfg.normalizeEndpoint c.endpoint) c

end Metering

/-- A row of the rollup. -/
structure SpendRollup where
  agentId : String
  endpoint : String
  requests : ℤ
  inputTokens : ℤ
  outputTokens : ℤ

/-- The groups of `day_spend_rollup`: the number of rows, and the sums of their tokens. -/
def daySpendGroups (completions : Dict String CompletionRow) (since : ℚ) :
    Dict (String × String) (ℤ × ℤ × ℤ) :=
  Dict.tally (fun row => (row.agentId, row.endpoint))
    (fun row => (1, row.inputTokens, row.outputTokens))
    (completions.values.filter fun row => since ≤ row.completedAt)

/-- `day_spend_rollup`. -/
def daySpendRollup (completions : Dict String CompletionRow) (since : ℚ) : List SpendRollup :=
  ((daySpendGroups completions since).entries.map fun group =>
    { agentId := group.1.1, endpoint := group.1.2, requests := group.2.1
      inputTokens := group.2.2.1, outputTokens := group.2.2.2 : SpendRollup }).filter fun row =>
        row.agentId ≠ "" ∧ row.endpoint ≠ ""

/-- The ledger of a process that starts at the time `now`: today's rollup, charged to an
empty ledger. -/
def SpendLedger.restored (prices : PriceBook) (completions : Dict String CompletionRow) (now : ℚ) :
    SpendLedger :=
  (daySpendRollup completions (dayStart now)).foldl
    (fun l row => l.charge row.agentId row.endpoint row.inputTokens row.outputTokens now row.requests)
    { prices := prices }

end Roadstead
