import Roadstead.Config
import Roadstead.TimeoutModel

/-!
# Request rates

`rate.py`: the `RateLedger`, which counts the requests of each caller over a sliding window, and the
`RateStanding` that a threshold gives.  The definitions follow the source; nothing is proved here.

A method that trims a window gives the new ledger beside its answer.  Times are the rational numbers
that doubles are, and their differences are exact.
-/

namespace Roadstead

namespace Rate

/-- `WINDOW_S`. -/
def windowS : ℚ := 60

/-- `_MAX_SAMPLES`. -/
def maxSamples : ℕ := 4096

/-- `_trim`. -/
def trim (window : List ℚ) (now : ℚ) : List ℚ :=
  window.dropWhile fun time => decide (time < now - windowS)

end Rate

open Rate

/-- `RateLedger`: the timestamps of each caller, the oldest first. -/
structure RateLedger where
  windows : Dict String (List ℚ) := ∅

namespace RateLedger

/-- `record`. -/
def record (l : RateLedger) (agentId : String) (now : ℚ) : RateLedger :=
  let window := (l.windows.get? agentId).getD [] ++ [now]
  let window := if maxSamples < window.length then window.tail else window
  { windows := l.windows.set agentId (trim window now) }

/-- `observed`. -/
def observed (l : RateLedger) (agentId : String) (now : ℚ) : RateLedger × ℚ :=
  match l.windows.get? agentId with
  | none => (l, 0)
  | some [] => (l, 0)
  | some window =>
      let window := trim window now
      ({ windows := l.windows.set agentId window }, window.length * (60 / windowS))

/-- `prune`: the callers that are dropped are counted. -/
def prune (l : RateLedger) (now : ℚ) : RateLedger × ℕ :=
  let trimmed := l.windows.map fun _ window => trim window now
  let kept := trimmed.filter fun _ window => !window.isEmpty
  ({ windows := kept }, trimmed.size - kept.size)

/-- One turn of the comprehension of `snapshot`. -/
def snapshotRow (now : ℚ) (acc : RateLedger × List (String × ℚ)) (agentId : String) :
    RateLedger × List (String × ℚ) :=
  let (l, rate) := acc.1.observed agentId now
  (l, acc.2 ++ [(agentId, roundTo 2 rate)])

/-- `snapshot`: the callers with their rates, by name. -/
def snapshot (l : RateLedger) (now : ℚ) : RateLedger × List (String × ℚ) :=
  let (l, rows) := l.windows.keys.foldl (snapshotRow now) (l, [])
  (l, rows.mergeSort fun row row' => decide (row.1 ≤ row'.1))

end RateLedger

/-- `RateStanding`. -/
structure RateStanding where
  agentId : String
  observedPerMin : ℚ
  /-- The threshold in force, if the caller has one. -/
  limitPerMin : Option ℚ := none

namespace RateStanding

/-- `over`: a threshold of 0 is one. -/
def «over» (s : RateStanding) : Bool := s.limitPerMin.any fun limit => decide (limit < s.observedPerMin)

/-- `may_spill`. -/
def maySpill (s : RateStanding) : Bool := !s.«over»

/-- `effective_priority`: one step down, floored. -/
def effectivePriority (s : RateStanding) (declared : LLMPriority) : LLMPriority :=
  if !s.«over» then declared
  else .coerce (min (declared.value + 1) LLMPriority.p4Hygiene.value)

end RateStanding

/-- `standing`, which trims the window it reads. -/
def rateStanding (l : RateLedger) (agentId : String) (limitPerMin : Option ℚ) (now : ℚ) :
    RateLedger × RateStanding :=
  let (l, rate) := l.observed agentId now
  (l, { agentId := agentId, observedPerMin := rate, limitPerMin := limitPerMin })

/-! ### Calls -/

/-- A call of the ledger. -/
inductive RateCall where
  | record (agentId : String)
  | observed (agentId : String)
  | snapshot
  | prune
  deriving DecidableEq

namespace RateLedger

/-- The ledger after a call at the time `call.1`. -/
def step (l : RateLedger) (call : ℚ × RateCall) : RateLedger :=
  match call.2 with
  | .record agentId => l.record agentId call.1
  | .observed agentId => (l.observed agentId call.1).1
  | .snapshot => (l.snapshot call.1).1
  | .prune => (l.prune call.1).1

end RateLedger

end Roadstead
