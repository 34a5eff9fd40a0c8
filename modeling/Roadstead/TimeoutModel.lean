import Mathlib.Algebra.Order.Field.Rat
import Mathlib.Data.List.Sort
import Roadstead.Lib.Binary64
import Roadstead.Lib.Dict
import Roadstead.Lib.Run

/-!
# Timeout advice

`timeout_model.py`: conditioned distributions of end-to-end latencies, the advice that is
read off them, and the factors by which `ProxyState.effective_timeout_advice` lifts it.

Times are exact rational numbers.  `math.log` is a parameter (`Logarithm`), as a monotone
function that is not negative from one on; the memo of one `advise` call is left out, since
`_collect` answers the same each time, and so is the `except` of `effective_timeout_advice`,
since nothing under its `try` raises.
-/

namespace Roadstead

/-- `round(x, digits)`. -/
def roundTo (digits : ℕ) (x : ℚ) : ℚ := Binary64.roundHalfEven (x * 10 ^ digits) / 10 ^ digits

/-! ### Buckets and percentiles -/

def outEdges : List ℤ := [128, 512, 2048, 8192]

def inEdges : List ℤ := [1024, 4096, 16384, 32768, 65536, 131072, 262144]

/-- `_bucket`: `bisect_left` in ascending edges. -/
def bucket (n : ℤ) (edges : List ℤ) : ℕ := (edges.takeWhile (· < max 0 n)).length

/-- `percentile`. -/
def percentile (sortedValues : List ℚ) (pct : ℕ) : ℚ :=
  if sortedValues = [] then 0
  else sortedValues.getD (min (sortedValues.length * pct / 100) (sortedValues.length - 1)) 0

/-! ### The model -/

/-- Endpoint class, priority, input bucket, output bucket. -/
abbrev CellKey := String × ℤ × ℕ × ℕ

/-- `TimeoutModel`. -/
structure TimeoutModel where
  normalize : String → String := id
  margin : ℚ := 3 / 2
  windowS : ℚ := 7 * 86400
  minSamples : ℤ := 30
  maxPerCell : ℕ := 2000
  floors : Dict String ℚ := ∅
  decodeRates : Dict String ℚ := ∅
  /-- Pairs of a timestamp in seconds and a latency in milliseconds, oldest first. -/
  cells : Dict CellKey (List (ℚ × ℚ)) := ∅

namespace TimeoutModel

/-- `record`; a full deque drops its oldest entries. -/
def record (m : TimeoutModel) (endpoint : String) (priority inputTokens outputTokens : ℤ)
    (endToEndMs : ℚ) (status : String) (now : ℚ) : TimeoutModel :=
  if status ≠ "ok" ∨ endToEndMs ≤ 0 then m
  else
    let key := (m.normalize endpoint, priority, bucket inputTokens inEdges,
      bucket outputTokens outEdges)
    let cell := (m.cells.get? key).getD [] ++ [(now, endToEndMs)]
    { m with cells := m.cells.set key (cell.drop (cell.length - m.maxPerCell)) }

/-- `prune`. -/
def prune (m : TimeoutModel) (now : ℚ) : TimeoutModel :=
  let kept := m.cells.map fun _ cell => cell.dropWhile fun s => s.1 < now - m.windowS
  { m with cells := kept.filter fun _ cell => cell ≠ [] }

/-- `_collect`; `none` on a dimension aggregates over it. -/
def collect (m : TimeoutModel) (ep : String) (priority : Option ℤ) (inB outB : Option ℕ) :
    List ℚ :=
  match priority, inB, outB with
  | some pri, some i, some o => ((m.cells.get? (ep, pri, i, o)).getD []).map Prod.snd
  | _, _, _ =>
      m.cells.entries.flatMap fun e =>
        if e.1.1 ≠ ep then []
        else if priority.any (e.1.2.1 ≠ ·) then []
        else if inB.any (e.1.2.2.1 ≠ ·) then []
        else if outB.any (e.1.2.2.2 ≠ ·) then []
        else e.2.map Prod.snd

/-- `floor_ms`. -/
def floorMs (m : TimeoutModel) (endpoint : String) : ℚ :=
  (m.floors.get? (m.normalize endpoint)).getD 60 * 1000

/-- `decode_rate_floor_ms`, with the margin and the bound it is called with. -/
def decodeRateFloorMs (estOut : ℤ) (decodeTokS : ℚ) : ℚ :=
  if decodeTokS ≤ 0 ∨ estOut ≤ 0 then 0
  else min (estOut / decodeTokS * (5 / 4)) 1800 * 1000

def decodeFloorMs (m : TimeoutModel) (endpoint : String) (estOut : ℤ) : ℚ :=
  decodeRateFloorMs estOut ((m.decodeRates.get? (m.normalize endpoint)).getD 0)

/-! ### Advice -/

/-- What the fallback ladder answers for one cell. -/
structure LadderAnswer where
  minMs : ℚ
  medianMs : ℚ
  p95Ms : ℚ
  recommended : ℚ
  sampleCount : ℕ
  source : String

/-- The rungs, finest first. -/
def levels (m : TimeoutModel) (ep : String) (pri : ℤ) (inB outB : ℕ) : List (String × List ℚ) :=
  [("cell", m.collect ep (some pri) (some inB) (some outB)),
    ("tier_out", m.collect ep (some pri) none (some outB)),
    ("tier", m.collect ep (some pri) none none),
    ("endpoint", m.collect ep none none none)]

/-- `_advise_at`: the first rung with enough samples answers, or the floor. -/
def adviseAt (m : TimeoutModel) (ep : String) (pri : ℤ) (inB outB : ℕ) (floorMs : ℚ) :
    LadderAnswer :=
  let rung := (m.levels ep pri inB outB).find? fun l => m.minSamples ≤ l.2.length
  let samples := (rung.map Prod.snd).getD []
  let source := (rung.map Prod.fst).getD "floor"
  if samples = [] then ⟨floorMs, floorMs, floorMs, floorMs, 0, source⟩
  else
    let sorted := samples.mergeSort (· ≤ ·)
    { minMs := sorted.headD 0
      medianMs := percentile sorted 50
      p95Ms := percentile sorted 95
      recommended := max (percentile sorted 99 * m.margin) floorMs
      sampleCount := sorted.length
      source := source }

/-- The number of samples of an endpoint in each output bucket, of one priority or of all. -/
def outCounts (m : TimeoutModel) (ep : String) (pri : Option ℤ) : Dict ℕ ℕ :=
  (m.cells.entries.filter fun e => e.1.1 = ep ∧ pri.all (e.1.2.1 = ·)).foldl
    (fun counts e => counts.addTo e.1.2.2.2 e.2.length) ∅

/-- The first bucket at which the running count reaches `target`. -/
def reaches (target : ℚ) : ℕ → List (ℕ × ℕ) → Option ℕ
  | _, [] => none
  | cum, (b, n) :: rest =>
      if target ≤ ((cum + n : ℕ) : ℚ) then some b else reaches target (cum + n) rest

/-- `_resolve_unknown_out_bucket`. -/
def resolveUnknownOutBucket (m : TimeoutModel) (ep : String) (pri : ℤ) : ℕ :=
  let tier := m.outCounts ep (some pri)
  let counts := if tier.entries = [] then m.outCounts ep none else tier
  if counts.entries = [] then outEdges.length / 2
  else
    let target : ℚ := (counts.sum fun _ n => n : ℕ) * 95 / 100
    let sorted := counts.entries.mergeSort fun x y => x.1 ≤ y.1
    (reaches target 0 sorted).getD ((sorted.map Prod.fst).getLastD 0)

/-- The recommendation as the monotonicity guard lifts it, and the cell it is lifted from. -/
structure Lift where
  recommended : ℚ
  source : Option (ℕ × ℕ) := none

/-- The cells no larger than `(inB, outB)`, in the order of the loops. -/
def lattice (inB outB : ℕ) : List (ℕ × ℕ) :=
  (List.range (inB + 1)).flatMap fun i => (List.range (outB + 1)).map fun o => (i, o)

/-- The guard, for one cell. -/
def liftFrom (cand : ℕ × ℕ → ℚ) (l : Lift) (cell : ℕ × ℕ) : Lift :=
  if l.recommended < cand cell then ⟨cand cell, some cell⟩ else l

/-- `advise`'s answer. -/
structure TimeoutAdvice where
  minMs : ℚ
  medianMs : ℚ
  p95Ms : ℚ
  recommendedMs : ℚ
  recommendedTimeoutS : ℤ
  sampleCount : ℕ
  source : String
  outBucketUnknownResolvedTo : Option ℕ
  monotonicLiftFromOutBucket : Option ℕ
  monotonicLiftFromInBucket : Option ℕ
  decodeFloorAppliedMs : Option ℚ
  surge : Option ℚ := none
  sizeStretch : Option ℚ := none
  ceilingS : Option ℚ := none

/-- `advise`. -/
def advise (m : TimeoutModel) (endpoint : String) (priority estIn estOut : ℤ) : TimeoutAdvice :=
  let ep := m.normalize endpoint
  let inB := bucket estIn inEdges
  let outB :=
    if estOut ≤ 0 then m.resolveUnknownOutBucket ep priority else bucket estOut outEdges
  let at_ (cell : ℕ × ℕ) := m.adviseAt ep priority cell.1 cell.2 (m.floorMs ep)
  let own := at_ (inB, outB)
  let lifted := ((lattice inB outB).filter (· ≠ (inB, outB))).foldl
    (liftFrom fun cell => (at_ cell).recommended) { recommended := own.recommended }
  let decodeFloor := m.decodeFloorMs ep estOut
  let recommended := if lifted.recommended < decodeFloor then decodeFloor else lifted.recommended
  { minMs := roundTo 1 own.minMs
    medianMs := roundTo 1 own.medianMs
    p95Ms := roundTo 1 own.p95Ms
    recommendedMs := roundTo 1 recommended
    recommendedTimeoutS := ⌈recommended / 1000⌉
    sampleCount := own.sampleCount
    source := own.source
    outBucketUnknownResolvedTo := if estOut ≤ 0 then some outB else none
    monotonicLiftFromOutBucket := (lifted.source.map Prod.snd).filter (· < outB)
    monotonicLiftFromInBucket := (lifted.source.map Prod.fst).filter (· < inB)
    decodeFloorAppliedMs :=
      if lifted.recommended < decodeFloor then some (roundTo 1 decodeFloor) else none }

end TimeoutModel

/-! ### Load, size and ceiling -/

/-- `resolve_ceiling_s`; `override` is what the catalog declares for the class. -/
def resolveCeilingS (override : Option ℚ) (interactive : Bool)
    (floorS interactiveS backgroundS : ℚ) : ℚ :=
  let ceiling :=
    match override with
    | some declared =>
        if 0 < declared then declared else if interactive then interactiveS else backgroundS
    | none => if interactive then interactiveS else backgroundS
  max ceiling floorS

/-- `surge_factor`. -/
def surgeFactor (inFlight queued : ℕ) (maxSlots : ℤ) (kLoad surgeMax : ℚ) : ℚ :=
  if maxSlots ≤ 0 then 1
  else
    let excess := max 0 (((inFlight : ℚ) + queued - maxSlots) / maxSlots)
    1 + kLoad * min excess surgeMax

/-- What is used of `math.log`: `unit` is the logarithm of `_SIZE_STRETCH_UNIT_RATIO`. -/
structure Logarithm where
  log : ℚ → ℚ
  unit : ℚ
  mono : ∀ x y, 1 ≤ x → x ≤ y → log x ≤ log y
  nonneg : ∀ x, 1 ≤ x → 0 ≤ log x
  unit_pos : 0 < unit

/-- `size_stretch`. -/
def sizeStretch (l : Logarithm) (estIn : ℤ) (kSize sizeMax : ℚ) : ℚ :=
  if estIn ≤ 16384 then 1
  else
    let linear := min (((estIn : ℚ) - 16384) / 16384) sizeMax
    let units := l.log ((estIn : ℚ) / 16384) / l.unit
    let superlinear := min units sizeMax ^ 2
    1 + kSize * max linear superlinear

/-- The load of an endpoint, of `endpoint_snapshot`. -/
structure EndpointLoad where
  maxSlots : ℤ
  inFlight : ℕ
  queued : ℕ

/-- The knobs of the uplift. -/
structure TimeoutPolicy where
  surgeK : ℚ := 1 / 2
  surgeMax : ℚ := 3
  sizeK : ℚ := 1 / 2
  sizeMax : ℚ := 4
  ceilingInteractiveS : ℚ := 600
  ceilingBackgroundS : ℚ := 1800
  /-- `timeout_ceilings`, by class. -/
  roleCeilings : Dict String ℚ := ∅

/-- The effective milliseconds of `apply_load_and_ceiling`. -/
def applyLoadAndCeiling (l : Logarithm) (p : TimeoutPolicy) (recommendedMs : ℚ)
    (load : EndpointLoad) (estIn : ℤ) (ceilingMs : ℚ) : ℚ :=
  let surge := surgeFactor load.inFlight load.queued load.maxSlots p.surgeK p.surgeMax
  let stretch := sizeStretch l estIn p.sizeK p.sizeMax
  min (recommendedMs * surge * stretch) ceilingMs

namespace TimeoutModel

/-- The ceiling `effective_timeout_advice` resolves. -/
def ceilingS (m : TimeoutModel) (p : TimeoutPolicy) (endpoint : String) (priority estOut : ℤ) :
    ℚ :=
  resolveCeilingS (p.roleCeilings.get? (m.normalize endpoint)) (priority ≤ 2)
    (max (m.floorMs endpoint / 1000) (m.decodeFloorMs endpoint estOut / 1000))
    p.ceilingInteractiveS p.ceilingBackgroundS

/-- `effective_timeout_advice`. -/
def effectiveTimeoutAdvice (l : Logarithm) (m : TimeoutModel) (p : TimeoutPolicy)
    (load : EndpointLoad) (endpoint : String) (priority estIn estOut : ℤ) : TimeoutAdvice :=
  let advice := m.advise endpoint priority estIn estOut
  let ceiling := m.ceilingS p endpoint priority estOut
  let effectiveMs := applyLoadAndCeiling l p advice.recommendedMs load estIn (ceiling * 1000)
  { advice with
    recommendedMs := roundTo 1 effectiveMs
    recommendedTimeoutS := ⌈effectiveMs / 1000⌉
    surge :=
      some (roundTo 3 (surgeFactor load.inFlight load.queued load.maxSlots p.surgeK p.surgeMax))
    sizeStretch := some (roundTo 3 (sizeStretch l estIn p.sizeK p.sizeMax))
    ceilingS := some (roundTo 1 ceiling) }

/-- The calls that write to the model. -/
inductive Op where
  | record (endpoint : String) (priority inputTokens outputTokens : ℤ) (endToEndMs : ℚ)
      (status : String) (now : ℚ)
  | prune (now : ℚ)

def step (m : TimeoutModel) : Op → TimeoutModel
  | .record endpoint priority inputTokens outputTokens endToEndMs status now =>
      m.record endpoint priority inputTokens outputTokens endToEndMs status now
  | .prune now => m.prune now

end TimeoutModel

end Roadstead
