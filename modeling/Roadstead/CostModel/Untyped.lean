import Roadstead.CostModel.Faults
import Roadstead.Lib.Json
import Roadstead.Scheduler

/-!
# The estimate of an untyped payload

`Payload` holds numbers where the scheduler reads numbers.  What a caller sends is JSON, and
`handle_submit` looks only at the shape of `messages` before `Scheduler.enqueue` reads it: here
are `estimate_input_tokens`, `context_fit`, `estimate_cost` and the reading half of `enqueue`
on JSON, with the exceptions Python raises.

The lengths of serialized values and the reading of a number from text are parameters
(`Builtins`).  An integer has to fit into a double before it is divided; the arithmetic on
doubles is exact.  The grammar gate and the corrections between the gates and `enqueue` rewrite
the payload into another payload, so they are left out, and so is the limit of the interpreter's
stack.
-/

namespace Roadstead

open Json (Fields Flt)

/-- The exceptions in question. -/
inductive Raised where
  | typeError
  | valueError
  | overflowError
  deriving DecidableEq

/-- What is used of the standard library. -/
structure Builtins where
  /-- `len(json.dumps(value))`. -/
  dumps : Json → ℕ
  /-- `len(str(value))`, of a value that is no string. -/
  str : Json → ℕ
  /-- `float(text)`, or `none` where it raises. -/
  float : String → Option Flt

/-! ### Characters -/

/-- `_NON_TEXT_PART_TYPES`. -/
def nonTextPartTypes : List String :=
  ["image", "image_url", "input_audio", "audio", "video", "file", "document"]

/-- Whether a value can be looked up in a set. -/
def hashable : Json → Bool
  | .arr _ => false
  | .obj _ => false
  | _ => true

/-- Whether a value is a `dict`. -/
def isObject (value : Json) : Bool := value.asObj?.isSome

/-- What `_content_chars` takes a part of a list for. -/
inductive PartKind where
  | text (s : String)
  | toolUse
  | toolResult
  | other (ptype : Json)

def partKind (part : Fields) : PartKind :=
  match part.get "text" with
  | .str s => .text s
  | _ =>
      let ptype := part.get "type"
      if ptype = .str "tool_use" then .toolUse
      else if ptype = .str "tool_result" then .toolResult
      else .other ptype

section Characters

variable (b : Builtins)

/-- `len(str(value))`. -/
def strLength : Json → ℕ
  | .str s => s.length
  | value => b.str value

/-- `_json_chars`; what was read from JSON can be serialized. -/
def jsonChars : Json → ℕ
  | .null => 0
  | .str s => s.length
  | value => b.dumps value

mutual

/-- `_content_chars`. -/
def contentChars : Json → Except Raised ℕ
  | .str s => .ok s.length
  | .obj fields => .ok (jsonChars b (.obj fields))
  | .arr parts => partsChars parts
  | _ => .ok 0

def partsChars : List Json → Except Raised ℕ
  | [] => .ok 0
  | part :: parts => do
      let chars ← partChars part
      let rest ← partsChars parts
      return chars + rest

/-- The body of the loop in `_content_chars`. -/
def partChars : Json → Except Raised ℕ
  | .str s => .ok s.length
  | .obj part =>
      match partKind part with
      | .text s => .ok s.length
      | .toolUse =>
          let name := Fields.get part "name"
          .ok (strLength b (if name.truthy then name else .str "") +
            jsonChars b (Fields.get part "input"))
      | .toolResult => resultChars part
      | .other ptype =>
          -- `ptype in _NON_TEXT_PART_TYPES` hashes it first.
          if hashable ptype = false then .error .typeError
          else if ptype.asStr?.any (· ∈ nonTextPartTypes) then .ok 0
          else .ok (jsonChars b (.obj part))
  | _ => .ok 0

/-- `_content_chars(part.get("content"))`. -/
def resultChars : List (String × Json) → Except Raised ℕ
  | [] => .ok 0
  | (key, value) :: fields => if key = "content" then contentChars value else resultChars fields

end

/-- The name and the arguments of a call. -/
def functionChars (fn : Fields) : ℕ :=
  let name := fn.get "name"
  strLength b (if name.truthy then name else .str "") + jsonChars b (fn.get "arguments")

def toolCallChars : Json → ℕ
  | .obj call => functionChars b ((Fields.get call "function").asObj?.getD [])
  | _ => 0

/-- The body of the loop over the messages. -/
def messageChars : Json → Except Raised ℕ
  | .str s => .ok s.length
  | .obj msg => do
      let content ← contentChars b (Fields.get msg "content")
      let calls := ((Fields.get msg "tool_calls").asArr?.getD []).map (toolCallChars b)
      let legacy := (Fields.get msg "function_call").asObj?.map (functionChars b)
      return content + calls.sum + legacy.getD 0
  | _ => .ok 0

def messagesChars : List Json → Except Raised ℕ
  | [] => .ok 0
  | msg :: msgs => do
      let chars ← messageChars b msg
      let rest ← messagesChars msgs
      return chars + rest

/-- `for msg in payload.get("messages") or []`. -/
def messageItems : Json → Except Raised (List Json)
  | .arr items => .ok items
  | .str s => .ok (s.toList.map fun c => .str (.singleton c))
  | .obj fields => .ok (fields.map fun field => .str field.1)
  | value => if value.truthy then .error .typeError else .ok []

def systemPartChars : Json → ℕ
  | .obj part => strLength b ((Fields.get? part "text").getD (.str ""))
  | .str s => s.length
  | _ => 0

def systemChars : Json → ℕ
  | .str s => s.length
  | .arr parts => (parts.map (systemPartChars b)).sum
  | _ => 0

/-- `estimate_input_tokens`. -/
def estimateInputTokens (payload : Fields) : Except Raised ℕ := do
  let items ← messageItems (payload.get "messages")
  let messages ← messagesChars b items
  let tools := payload.get "tools"
  let fixed := systemChars b (payload.get "system") + if tools.truthy then jsonChars b tools else 0
  return max 1 ((fixed + messages) / 4)

/-! ### The gates -/

/-- What `context_fit` answers. -/
structure ContextFit where
  fits : Bool
  estIn : ℕ
  estOut : ℤ
  limit : ℤ
  deriving DecidableEq

/-- `mt if isinstance(mt, int) and mt > 0 else 0`; a boolean is an integer. -/
def positiveInt : Json → ℤ
  | .bool true => 1
  | .int n => max 0 n
  | _ => 0

/-- `context_fit`. -/
def contextFitOf (payload : Fields) (payloadType : String) (ctxLimit : ℤ) :
    Except Raised ContextFit :=
  if payloadType ≠ "chat_completion" ∨ ctxLimit ≤ 0 then
    .ok { fits := true, estIn := 0, estOut := 0, limit := ctxLimit }
  else do
    let estOut := positiveInt (payload.get "max_tokens")
    let estIn ← estimateInputTokens b payload
    return { fits := estIn + estOut ≤ ctxLimit
             estIn := estIn
             estOut := estOut
             limit := ctxLimit }

/-- `messages` is missing, null, or a list of objects. -/
def messagesOk (payload : Fields) : Bool :=
  match payload.get "messages" with
  | .null => true
  | .arr items => items.all isObject
  | _ => false

/-- The gates of `handle_submit` that look at the payload: whether it goes on to `enqueue`. -/
def passesGates (enforce : Bool) (payloadType : String) (ctxLimit : ℤ) (payload : Fields) :
    Except Raised Bool :=
  if payloadType ≠ "chat_completion" then .ok true
  else if messagesOk payload = false then .ok false
  else do
    let fit ← contextFitOf b payload payloadType ctxLimit
    return fit.fits || !enforce

end Characters

/-! ### Numbers -/

namespace Untyped

/-- The sum of a double and a number. -/
def add (q : ℚ) : Flt → Flt
  | .finite x => .finite (q + x)
  | x => x

/-- A double divided by a positive number. -/
def dividedBy (rate : ℚ) : Flt → Flt
  | .finite x => .finite (x / rate)
  | x => x

/-- `bound <= x`. -/
def atLeast (bound : ℚ) : Flt → Bool
  | .finite x => bound ≤ x
  | .infinite negative => !negative
  | .nan => false

/-- Whether a value is an `int`, a `bool` or a `float`. -/
def isNumber : Json → Bool
  | .bool _ => true
  | .int _ => true
  | .float _ => true
  | _ => false

/-- From here on an integer rounds to more than the largest double. -/
def overflows : ℤ := 2 ^ 1024 - 2 ^ 970

/-- The double a number is turned into before it is divided. -/
def toDouble : Json → Except Raised Flt
  | .bool b => .ok (.finite (if b then 1 else 0))
  | .int n => if |n| < overflows then .ok (.finite n) else .error .overflowError
  | .float x => .ok x
  | _ => .error .typeError

/-- `float(value)`. -/
def floatOf (b : Builtins) : Json → Except Raised Flt
  | .str text =>
      match b.float text with
      | some x => .ok x
      | none => .error .valueError
  | value => toDouble value

/-- `max(1, min(value, p95))`; a comparison with NaN is false, so that `min` answers NaN and
`max` answers one. -/
def clamped (value : Json) (p95 : ℤ) : Except Raised ℚ :=
  match value with
  | .bool b => .ok (max 1 (min (if b then 1 else 0) p95))
  | .int n => .ok (max 1 (min n p95))
  | .float (.finite q) => .ok (max 1 (min q p95))
  | .float (.infinite negative) => .ok (if negative then 1 else max 1 p95)
  | .float .nan => .ok 1
  | _ => .error .typeError

end Untyped

/-! ### The estimate -/

open Untyped

namespace EndpointCostModel

/-- The average that stands in for `max_tokens`, once it has five samples. -/
def seasoned (m : EndpointCostModel) (callSite : String) : Option EWMATracker :=
  (m.outputLengthEwma.get? callSite).filter fun ewma => 5 ≤ ewma.sampleCount

/-- `est_output` of `estimate_cost_ss`. -/
def outputOf (m : EndpointCostModel) (maxOutput : Json) (callSite : String) :
    Except Raised Json :=
  match m.seasoned callSite with
  | some ewma => do
      let estOutput ← clamped maxOutput ewma.intP95
      return .float (.finite estOutput)
  | none => .ok maxOutput

/-- The entry of the curve for the occupancy this request would bring. -/
def curveRate (m : EndpointCostModel) (currentOccupancy : ℕ) : ℚ :=
  let occ : ℤ := min (max 1 ((currentOccupancy : ℤ) + 1)) m.maxSlots
  if occ ≤ m.decodeTps.length then m.decodeTps.getD (occ - 1).toNat 0
  else m.decodeTps.getLastD 0

/-- `estimate_cost_ss`. -/
def estimateOf (m : EndpointCostModel) (inputTokens : ℕ) (maxOutput : Json) (callSite : String)
    (currentOccupancy : ℕ) : Except Raised Flt := do
  let prefillS := m.prefillK * inputTokens
  let estOutput ← m.outputOf maxOutput callSite
  if m.decodeTps = [] ∨ m.maxSlots ≤ 0 then
    let output ← toDouble estOutput
    return add prefillS (dividedBy 40 output)
  else
    let tps := m.curveRate currentOccupancy
    if 0 < tps then
      let output ← toDouble estOutput
      return add prefillS (dividedBy tps output)
    else return .finite (prefillS + 30)

end EndpointCostModel

/-- `estimate_cost`. -/
def CostModel.estimateOf (b : Builtins) (c : CostModel) (endpoint : String) (inputTokens : ℕ)
    (maxOutput : Json) (callSite : String) (currentOccupancy : ℕ) : Except Raised Flt :=
  match c.models.get? endpoint with
  | none => do
      let output ← floatOf b maxOutput
      return dividedBy 40 output
  | some model => model.estimateOf inputTokens maxOutput callSite currentOccupancy

/-- What `enqueue` writes on the request. -/
structure Estimates where
  estInputTokens : ℕ
  estimatedCostSs : Flt
  deriving DecidableEq

/-- `payload.get("max_tokens", 256)`. -/
def maxOutputOf (payload : Fields) : Json := (payload.get? "max_tokens").getD (.int 256)

/-- The half of `Scheduler.enqueue` that reads the payload; what it does before and after, and
cannot fail at, is `Scheduler.enqueue`. -/
def Scheduler.estimates (b : Builtins) (s : Scheduler) (endpoint callSite : String)
    (payload : Fields) : Except Raised Estimates := do
  let inputTokens ← estimateInputTokens b payload
  let cost ← s.cost.estimateOf b endpoint inputTokens (maxOutputOf payload) callSite
    (s.activeOf endpoint).size
  return { estInputTokens := inputTokens, estimatedCostSs := cost }

end Roadstead
