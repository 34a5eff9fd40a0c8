import Mathlib.Algebra.Order.Floor.Defs
import Mathlib.Algebra.BigOperators.Group.List.Basic
import Mathlib.Data.Finset.Insert
import Mathlib.Data.Rat.Floor
import Roadstead.Lib.Dict

/-!
# The goodput detector

`goodput.py`: the thresholds, the rings of samples, `evaluate` and the latch `step`; and `sample_goodput` of
`health.py` over them.  Times, rates and counters are rationals.  The numbers that a verdict
carries for the log are left out; what it decides by them is not.
-/

namespace Roadstead.Goodput

/-! ### Samples and thresholds -/

/-- The counters that the module reads. -/
inductive Key where
  | iterations
  | generation
  | prompt
  | running
  | busy
  deriving DecidableEq

namespace Key

def cumulative : List Key := [iterations, generation, prompt]

def name : Key → String
  | iterations => "iterations"
  | generation => "generation"
  | prompt => "prompt"
  | running => "running"
  | busy => "busy"

end Key

/-- What a scrape supplies; `none` for a counter that is absent. -/
abbrev Counters := Key → Option ℚ

structure Sample where
  ts : ℚ
  values : Counters

inductive Clause where
  | occupancy
  | iterations
  | generation
  | prefill
  | engineIdle
  deriving DecidableEq

namespace Clause

def name : Clause → String
  | occupancy => "occupancy"
  | iterations => "iterations"
  | generation => "generation"
  | prefill => "prefill"
  | engineIdle => "engine_idle"

/-- The counters that a clause needs. -/
def keys : Clause → List Key
  | occupancy => [.running]
  | iterations => [.iterations]
  | generation => [.generation, .running]
  | prefill => [.prompt]
  | engineIdle => [.busy]

end Clause

def minSamples : ℕ := 2
def minWindowS : ℚ := 5

/-- `GoodputThresholds`. -/
structure Thresholds where
  minRunning : ℤ := 0
  sustainEvaluations : ℤ := 0
  maxIterationRate : Option ℚ := none
  maxGenerationTpsPerRequest : Option ℚ := none
  maxPrefillTps : Option ℚ := none
  busyMin : ℚ := 0
  recoveryEvaluations : ℤ := 0
  maxHoldS : ℚ := 0

namespace Thresholds

variable (t : Thresholds)

/-- A ceiling that is declared. -/
def declared (ceiling : Option ℚ) : Bool := ceiling.any fun c => decide (0 < c)

def progressClauses : List Clause :=
  (if declared t.maxIterationRate then [Clause.iterations] else []) ++
  (if declared t.maxGenerationTpsPerRequest then [Clause.generation] else []) ++
  (if declared t.maxPrefillTps then [Clause.prefill] else []) ++
  (if 0 < t.busyMin then [Clause.engineIdle] else [])

def armed : Bool := decide (1 ≤ t.minRunning ∧ 1 ≤ t.sustainEvaluations ∧ t.progressClauses ≠ [])

def effectiveRecoveryEvaluations : ℤ := if t.recoveryEvaluations ≠ 0 then t.recoveryEvaluations else 2

def effectiveMaxHoldS : ℚ := if t.maxHoldS ≠ 0 then t.maxHoldS else 300

/-- The clauses of the conjunction. -/
def needed : List Clause := .occupancy :: t.progressClauses

end Thresholds

inductive Verdict where
  | healthy
  | collapsed
  | unknown
  deriving DecidableEq

inductive LatchAction where
  | none
  | trip
  | clear
  deriving DecidableEq

/-- `GoodputVerdict`, without the rounded numbers. -/
structure GoodputVerdict where
  outcome : Verdict
  samples : ℕ := 0
  clausesHeld : List Clause := []
  clausesCleared : List Clause := []
  reason : String := ""
  deriving DecidableEq

structure LatchState where
  consecutiveCollapsed : ℤ := 0
  consecutiveHealthy : ℤ := 0
  /-- When the trip that is held began; 0 when none is. -/
  trippedAt : ℚ := 0
  trips : ℕ := 0

/-! ### The window -/

/-- Seconds between the first and the last sample. -/
def span (window : List Sample) : ℚ := (window.getLast?.elim 0 Sample.ts) - window.head?.elim 0 Sample.ts

/-- A counter falls below the last value before it, unless a sample without it stands between. -/
def falls : Option ℚ → List (Option ℚ) → Bool
  | _, [] => false
  | _, none :: rest => falls none rest
  | prev, some cur :: rest => prev.any (fun p => decide (cur < p)) || falls (some cur) rest

/-- `_reset_detected`. -/
def resetDetected (window : List Sample) : Bool :=
  Key.cumulative.any fun key => falls none (window.map fun s => s.values key)

/-- `_missing_counters`. -/
def missingCounters (window : List Sample) (clauses : List Clause) : List Key :=
  (clauses.flatMap Clause.keys).eraseDups.filter fun key => window.any fun s => (s.values key).isNone

/-- `_rate`. -/
def rate (window : List Sample) (key : Key) : Option ℚ :=
  if span window ≤ 0 then none
  else
    match window.head?.bind fun s => s.values key, window.getLast?.bind fun s => s.values key with
    | some first, some last => some ((last - first) / span window)
    | _, _ => none

/-- The readings of a gauge. -/
def readings (window : List Sample) (key : Key) : List ℚ := window.filterMap fun s => s.values key

/-- `_max_level`. -/
def maxLevel (window : List Sample) (key : Key) : Option ℚ :=
  if window.any fun s => (s.values key).isNone then none else (readings window key).max?

def runningMin (window : List Sample) : ℚ := (readings window .running).min?.getD 0

def runningMean (window : List Sample) : ℚ :=
  (readings window .running).sum / (readings window .running).length

/-- The progress clauses in the order of the rule, each with its value and its ceiling. -/
def rows (t : Thresholds) (window : List Sample) : List (Clause × Option ℚ × ℚ) :=
  let generationPerReq :=
    (rate window .generation).bind fun tps =>
      if runningMean window ≤ 0 then none else some (tps / runningMean window)
  [(.iterations, rate window .iterations, t.maxIterationRate.getD 0),
    (.generation, generationPerReq, t.maxGenerationTpsPerRequest.getD 0),
    (.prefill, rate window .prompt, t.maxPrefillTps.getD 0),
    (.engineIdle, maxLevel window .busy, t.busyMin)].filter fun row => decide (row.1 ∈ t.progressClauses)

/-- What `evaluate` makes of a window that has every counter it needs. -/
def judge (t : Thresholds) (window : List Sample) : GoodputVerdict :=
  if runningMin window < t.minRunning then
    { outcome := .healthy, samples := window.length, clausesCleared := [.occupancy] }
  else
    match (rows t window).find? fun row => row.2.1.isNone with
    | some row =>
        { outcome := .unknown, samples := window.length, reason := "rate_unavailable:" ++ row.1.name }
    | none =>
        let below := fun row : Clause × Option ℚ × ℚ => row.2.1.any fun value => decide (value < row.2.2)
        let held := Clause.occupancy :: ((rows t window).filter below).map Prod.fst
        { outcome := if held.length = t.needed.length then .collapsed else .healthy
          samples := window.length
          clausesHeld := held
          clausesCleared := ((rows t window).filter fun row => !below row).map Prod.fst }

/-! ### The monitor -/

structure GoodputMonitor where
  ringCapacity : ℕ := 6
  rateWindowS : ℚ := 25
  rings : Dict String (List Sample) := ∅
  latches : Dict String LatchState := ∅

/-- `int`. -/
def int (q : ℚ) : ℚ := if 0 ≤ q then ⌊q⌋ else ⌈q⌉

/-- The values that `observe` records of a scrape; a failed one has none. -/
def recorded (counters : Option Counters) : Counters := fun key =>
  ((counters.bind fun values => values key)).map fun raw => if key = .busy then raw else int raw

namespace GoodputMonitor

variable (m : GoodputMonitor) (endpoint : String)

def ring : List Sample := (m.rings.get? endpoint).getD []

def latch : LatchState := (m.latches.get? endpoint).getD {}

/-- `observe`. -/
def observe (ts : ℚ) (counters : Option Counters) : GoodputMonitor :=
  let ring := m.ring endpoint ++ [{ ts := ts, values := recorded counters }]
  { m with rings := m.rings.set endpoint (ring.drop (ring.length - max minSamples m.ringCapacity)) }

/-- `forget`. -/
def forget : GoodputMonitor := { m with rings := m.rings.erase endpoint, latches := m.latches.erase endpoint }

/-- The samples inside the trailing window. -/
def window (now : ℚ) : List Sample := (m.ring endpoint).filter fun s => decide (now - s.ts ≤ m.rateWindowS)

/-- `evaluate`: a counter that fell drops the history of the ring. -/
def evaluate (t : Thresholds) (now : ℚ) : GoodputMonitor × GoodputVerdict :=
  let window := m.window endpoint now
  if t.armed = false then (m, { outcome := .unknown, reason := "not_configured" })
  else if m.ring endpoint = [] then (m, { outcome := .unknown, reason := "no_samples" })
  else if window.length < minSamples then
    (m, { outcome := .unknown, samples := window.length, reason := "too_few_samples" })
  else if span window < minWindowS then
    (m, { outcome := .unknown, samples := window.length, reason := "window_too_short" })
  else if resetDetected window then
    ({ m with rings := m.rings.set endpoint (m.ring endpoint).getLast?.toList },
      { outcome := .unknown, samples := window.length, reason := "counter_reset" })
  else if missingCounters window t.needed ≠ [] then
    (m,
      { outcome := .unknown
        samples := window.length
        reason := "counters_absent:" ++ ",".intercalate ((missingCounters window t.needed).map Key.name) })
  else (m, judge t window)

end GoodputMonitor

/-- What `step` makes of one latch. -/
def LatchState.step (latch : LatchState) (outcome : Verdict) (tripped : Bool) (t : Thresholds) (now : ℚ) :
    LatchState × LatchAction :=
  if tripped = true ∧ latch.trippedAt ≠ 0 ∧ t.effectiveMaxHoldS ≤ now - latch.trippedAt then
    ({ latch with trippedAt := 0, consecutiveCollapsed := 0, consecutiveHealthy := 0 }, .clear)
  else
    match outcome with
    | .collapsed =>
        let consecutive := min (latch.consecutiveCollapsed + 1) t.sustainEvaluations
        if tripped = false ∧ t.sustainEvaluations ≤ consecutive then
          ({ consecutiveHealthy := 0, consecutiveCollapsed := 0, trippedAt := now, trips := latch.trips + 1 }, .trip)
        else ({ latch with consecutiveHealthy := 0, consecutiveCollapsed := consecutive }, .none)
    | .healthy =>
        let consecutive := latch.consecutiveHealthy + 1
        if tripped = true ∧ t.effectiveRecoveryEvaluations ≤ consecutive then
          ({ latch with consecutiveCollapsed := 0, trippedAt := 0, consecutiveHealthy := 0 }, .clear)
        else ({ latch with consecutiveCollapsed := 0, consecutiveHealthy := consecutive }, .none)
    | .unknown => ({ latch with consecutiveCollapsed := 0, consecutiveHealthy := 0 }, .none)

/-- `step`. -/
def GoodputMonitor.step (m : GoodputMonitor) (endpoint : String) (outcome : Verdict) (tripped : Bool)
    (t : Thresholds) (now : ℚ) : GoodputMonitor × LatchAction :=
  let stepped := (m.latch endpoint).step outcome tripped t now
  ({ m with latches := m.latches.set endpoint stepped.1 }, stepped.2)

/-! ### The poller -/

/-- What `sample_goodput` reads and writes of the state. -/
structure Health where
  goodput : GoodputMonitor := {}
  verdicts : Dict String GoodputVerdict := ∅
  collapsedEndpoints : Finset String := ∅

/-- One call of `sample_goodput`: the thresholds that the endpoint declares then, and what the probes answer. -/
structure Tick where
  endpoint : String
  thresholds : Thresholds
  now : ℚ
  counters : Option Counters
  busy : Option ℚ := none

/-- The counters of a tick, with the gauge where the clause for it is declared. -/
def Tick.merged (tick : Tick) : Option Counters :=
  if 0 < tick.thresholds.busyMin then
    some fun key => if key = .busy then tick.busy else tick.counters.bind fun values => values key
  else tick.counters

/-- `sample_goodput`. -/
def Health.sampleGoodput (h : Health) (tick : Tick) : Health :=
  if tick.thresholds.armed = false then h
  else
    let observed := h.goodput.observe tick.endpoint tick.now tick.merged
    let judged := observed.evaluate tick.endpoint tick.thresholds tick.now
    let tripped := decide (tick.endpoint ∈ h.collapsedEndpoints)
    let stepped := judged.1.step tick.endpoint judged.2.outcome tripped tick.thresholds tick.now
    { goodput := stepped.1
      verdicts := h.verdicts.set tick.endpoint judged.2
      collapsedEndpoints :=
        match stepped.2 with
        | .trip => insert tick.endpoint h.collapsedEndpoints
        | .clear => h.collapsedEndpoints.erase tick.endpoint
        | .none => h.collapsedEndpoints }

end Roadstead.Goodput
