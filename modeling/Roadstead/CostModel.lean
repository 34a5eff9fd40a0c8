import Mathlib.Data.Nat.Sqrt
import Mathlib.Data.Rat.Floor
import Mathlib.Algebra.Field.Rat
import Mathlib.Algebra.Order.Ring.Rat
import Roadstead.Lib.Dict

/-!
# The cost model

`cost_model.py`: what a request is expected to cost in slot-seconds, how the
estimate is calibrated from completions, and the context-fit predicate.

The scheduler reads a payload in two ways only, through `estimate_input_tokens`
and through the key `max_tokens`; `Payload` carries those two readings, the two keys
that admission and the response cache look at, and the rest as text.

The arithmetic is exact: no result is rounded, overflows or underflows.  The default curve as
doubles have it is in `CostModel.Faults`, the estimate of a payload as JSON, with what it raises,
in `CostModel.Untyped`, and what the scheduler does when it raises in `Scheduler.Raising`.
-/

namespace Roadstead

/-- A `max_tokens` that is a finite number.  JSON integers and booleans are Python `int`s, every
other finite JSON number is a `float`.  For `null`, a text or an infinity, which no gate refuses
either, see `CostModel.Untyped`. -/
inductive MaxTokens where
  | int (n : ℤ)
  | float (q : ℚ)
  deriving DecidableEq

/-- The number itself. -/
def MaxTokens.toRat : MaxTokens → ℚ
  | int n => n
  | float q => q

/-- A request payload, as far as scheduling reads it. -/
structure Payload where
  /-- `estimate_input_tokens(payload)`. -/
  inputTokens : ℕ := 1
  /-- `payload.get("max_tokens")`. -/
  maxTokens : Option MaxTokens := none
  /-- `payload.get("temperature")`. -/
  temperature : Option ℚ := none
  /-- `bool(payload.get("stream"))`. -/
  stream : Bool := false
  /-- Everything else, as text. -/
  rest : String := ""
  deriving DecidableEq

/-- `payload.get("max_tokens", 256)`. -/
def Payload.maxOutput (p : Payload) : ℚ := (p.maxTokens.map MaxTokens.toRat).getD 256

/-! ### Context fit -/

/-- `context_fit(payload, payload_type, ctx_limit).fits`: only chat completions
are gated, and a limit that is not positive means "not known" and admits. -/
def contextFit (p : Payload) (payloadType : String) (ctxLimit : ℤ) : Bool :=
  if payloadType ≠ "chat_completion" ∨ ctxLimit ≤ 0 then true
  else
    let estOut : ℤ :=
      match p.maxTokens with
      | some (.int n) => if 0 < n then n else 0
      | _ => 0
    decide ((p.inputTokens : ℤ) + estOut ≤ ctxLimit)

/-! ### Moving averages -/

/-- Exponentially weighted moving average with variance.  In doubles the variance of counts near
`10 ^ 200` is infinite, and `int(p95)` raises; here it is the number. -/
structure EWMATracker where
  alpha : ℚ := 1 / 10
  value : ℚ := 0
  variance : ℚ := 0
  sampleCount : ℕ := 0
  deriving DecidableEq

namespace EWMATracker

def update (t : EWMATracker) (sample : ℚ) : EWMATracker :=
  if t.sampleCount = 0 then
    { t with value := sample, variance := 0, sampleCount := t.sampleCount + 1 }
  else
    let delta := sample - t.value
    { t with
      value := t.value + t.alpha * delta
      variance := (1 - t.alpha) * (t.variance + t.alpha * delta * delta)
      sampleCount := t.sampleCount + 1 }

/-- `int(p95)`, where `p95 = value + 1.645 * sqrt(max(0, variance))`.  With the
common denominator `d` of `value` and of `1.645² * variance`, the sum is
`(a + sqrt m) / d` for integers `a` and `m`, and the integer square root of `m`
(rounded up when the sum is negative) gives the truncation. -/
def intP95 (t : EWMATracker) : ℤ :=
  let y : ℚ := (1645 / 1000) ^ 2 * max 0 t.variance
  let d : ℕ := t.value.den * y.den
  let a : ℤ := t.value.num * y.den
  let m : ℕ := y.num.toNat * y.den * (t.value.den * t.value.den)
  let root : ℤ := m.sqrt
  let rootUp : ℤ := if m.sqrt * m.sqrt = m then root else root + 1
  if 0 ≤ a + root then (a + root) / d else -((-a - rootUp) / d)

end EWMATracker

/-! ### One endpoint -/

/-- Cost parameters of one endpoint class. -/
structure EndpointCostModel where
  endpoint : String
  maxSlots : ℤ
  prefillK : ℚ := 4 / 10000
  decodeTps : List ℚ := []
  outputLengthEwma : Dict String EWMATracker := ∅
  prefillEwma : EWMATracker := { alpha := 5 / 100 }
  decodeTpsEwma : Dict ℤ EWMATracker := ∅
  deriving DecidableEq

namespace EndpointCostModel

/-- `estimate_cost_ss`. -/
def estimateCostSs (m : EndpointCostModel) (inputTokens : ℕ) (maxOutputTokens : ℚ)
    (callSite : String) (currentOccupancy : ℕ) : ℚ :=
  let prefillS := m.prefillK * inputTokens
  let estOutput : ℚ :=
    match m.outputLengthEwma.get? callSite with
    | some ewma =>
        if 5 ≤ ewma.sampleCount then max 1 (min maxOutputTokens ewma.intP95)
        else maxOutputTokens
    | none => maxOutputTokens
  if m.decodeTps = [] ∨ m.maxSlots ≤ 0 then prefillS + estOutput / 40
  else
    let occ : ℤ := min (max 1 ((currentOccupancy : ℤ) + 1)) m.maxSlots
    let tps :=
      if occ ≤ m.decodeTps.length then m.decodeTps.getD (occ - 1).toNat 0
      else m.decodeTps.getLastD 0
    let decodeS := if 0 < tps then estOutput / tps else 30
    prefillS + decodeS

/-- The calibration of `decode_tps` at the observed occupancy. -/
def calibrateDecode (m : EndpointCostModel) (observedTps : ℚ) (occ : ℤ) : EndpointCostModel :=
  let tracker := ((m.decodeTpsEwma.get? occ).getD {}).update observedTps
  { m with
    decodeTpsEwma := m.decodeTpsEwma.set occ tracker
    decodeTps :=
      if 3 ≤ tracker.sampleCount ∧ occ ≤ m.decodeTps.length then
        m.decodeTps.set (occ - 1).toNat tracker.value
      else m.decodeTps }

/-- The calibration of `prefill_k` from the time decoding does not explain. -/
def calibratePrefill (m : EndpointCostModel) (inputTokens outputTokens : ℤ)
    (durationS estDecode : ℚ) (occupancyDuring : ℤ) : EndpointCostModel :=
  let occIdx := min (max occupancyDuring 1) m.maxSlots
  let tpsAtOcc :=
    if occIdx ≤ m.decodeTps.length then m.decodeTps.getD (occIdx - 1).toNat 40 else 40
  let impliedDecode := if 0 < tpsAtOcc then outputTokens / tpsAtOcc else estDecode
  let impliedK := max 0 (durationS - impliedDecode) / inputTokens
  if 0 < impliedK then
    let tracker := m.prefillEwma.update impliedK
    { m with
      prefillEwma := tracker
      prefillK := if 10 ≤ tracker.sampleCount then tracker.value else m.prefillK }
  else m

/-- `update_from_completion`. -/
def updateFromCompletion (m : EndpointCostModel) (callSite : String)
    (inputTokens outputTokens : ℤ) (durationS : ℚ) (occupancyDuring : ℤ) :
    EndpointCostModel :=
  if durationS ≤ 0 ∨ outputTokens ≤ 0 then m
  else
    let tracker := ((m.outputLengthEwma.get? callSite).getD {}).update outputTokens
    let m := { m with outputLengthEwma := m.outputLengthEwma.set callSite tracker }
    if m.maxSlots < 1 ∨ m.decodeTps = [] then m
    else
      let estDecode := max (1 / 100) (durationS - m.prefillK * inputTokens)
      let m :=
        if 1 ≤ occupancyDuring then
          m.calibrateDecode (outputTokens / estDecode) (min occupancyDuring m.maxSlots)
        else m
      if 100 < inputTokens then
        m.calibratePrefill inputTokens outputTokens durationS estDecode occupancyDuring
      else m

end EndpointCostModel

/-! ### The fleet -/

/-- `CostModel`: one model per registered endpoint. -/
structure CostModel where
  models : Dict String EndpointCostModel := ∅
  deriving DecidableEq

namespace CostModel

/-- `estimate_cost`: an endpoint nobody registered costs its output at 40 tokens
a second. -/
def estimateCost (c : CostModel) (endpoint : String) (inputTokens : ℕ)
    (maxOutputTokens : ℚ) (callSite : String) (currentOccupancy : ℕ) : ℚ :=
  match c.models.get? endpoint with
  | none => maxOutputTokens / 40
  | some model => model.estimateCostSs inputTokens maxOutputTokens callSite currentOccupancy

/-- `record_completion`. -/
def recordCompletion (c : CostModel) (endpoint callSite : String)
    (inputTokens outputTokens : ℤ) (durationS : ℚ) (occupancyDuring : ℤ) : CostModel :=
  match c.models.get? endpoint with
  | none => c
  | some model =>
      { models := c.models.set endpoint
          (model.updateFromCompletion callSite inputTokens outputTokens durationS
            occupancyDuring) }

end CostModel

end Roadstead
