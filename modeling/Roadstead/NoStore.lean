import Mathlib.Data.List.Dedup
import Mathlib.Data.List.Sort
import Roadstead.Egress
import Roadstead.Gateway
import Roadstead.Replay

/-!
# Requests whose content is not stored

`no_store.py`, and every place where a request reaches a store: the restart queue, the completion
rows, the response cache, the reasoning replay, the keep-alive tracker and the memos of grammars.

A request is taken apart into the calls that its handlers make, each a `Step` with what the call
reads from outside; a `System` feeds it any of them, in any order, with those of other requests
between.  The handlers make them in one order only, so that a run of the source is a run here.

A column of text that holds JSON is the value.  The database is open, and every write is applied.
Counters and log lines are left out.
-/

namespace Roadstead.NoStore

open Json (Fields)
open Watched (usageOf)
open Egress (Ask Helpers Replies Result Setting)

/-! ### Sizes -/

/-- The bytes of a character in the text of `json.dumps`, which is ASCII. -/
def escapedSize (c : Char) : ℕ :=
  if c ∈ ['"', '\\', '\n', '\r', '\t', '\x08', '\x0c'] then 2
  else if 0x20 ≤ c.toNat ∧ c.toNat ≤ 0x7e then 1
  else if c.toNat ≤ 0xffff then 6
  else 12

def textSize (s : String) : ℕ := 2 + (s.toList.map escapedSize).sum

mutual

/-- `_size`, with the length of the `repr` of a float. -/
def size (floats : ℚ → ℕ) : Json → ℕ
  | .null => 4
  | .bool true => 4
  | .bool false => 5
  | .int n => (toString n).length
  | .float (.finite x) => floats x
  | .float (.infinite false) => 8
  | .float (.infinite true) => 9
  | .float .nan => 3
  | .str s => textSize s
  | .arr items => max 2 (1 + sizeItems floats items)
  | .obj fields => max 2 (1 + sizeFields floats fields)

/-- Each item with the comma or the bracket after it. -/
def sizeItems (floats : ℚ → ℕ) : List Json → ℕ
  | [] => 0
  | item :: items => size floats item + 1 + sizeItems floats items

def sizeFields (floats : ℚ → ℕ) : List (String × Json) → ℕ
  | [] => 0
  | (key, value) :: fields => textSize key + 1 + size floats value + 1 + sizeFields floats fields

end

/-! ### What is still recorded -/

/-- A pattern `^[...]{1,most}$`, where `$` lets a last line feed pass. -/
def patternOk (allowed : List Char) (most : ℕ) (s : String) : Bool :=
  let text := s.toList
  let text := if text.getLast? = some '\n' then text.dropLast else text
  decide (text ≠ [] ∧ text.length ≤ most) && text.all fun c => c.isAlphanum || c ∈ allowed

/-- `_clean_name`. -/
def cleanName : Json → String
  | .str s => if patternOk ['_', '.', ':', '-'] 64 s then s else "other"
  | _ => "other"

/-- The clean name under `function.name`, where there is a name. -/
def calledName (item : Json) : Option String :=
  match (item.get "function").get "name" with
  | .null => none
  | name => some (cleanName name)

/-- `_names`, before they are sorted. -/
def names (items : Json) : List String := (items.asArr?.getD []).filterMap calledName

/-- `sorted(set(names))[:_MAX_NAMES]`. -/
def sortedNames (names : List String) : List String := ((names.dedup).insertionSort (· ≤ ·)).take 64

/-- The key that a role is counted under; a value without a hash raises. -/
def roleKey : Json → Except Unit String
  | .str s => .ok (if s ∈ ["system", "developer", "user", "assistant", "tool", "function"] then s else "other")
  | .arr _ => .error ()
  | .obj _ => .error ()
  | _ => .ok "other"

/-- The keys of the roles, one for each message. -/
def roleKeys (payload : Fields) : Option (List (Except Unit String)) :=
  (payload.get "messages").asArr?.map fun messages => messages.map fun m => roleKey (m.get "role")

/-- The counts of the roles. -/
def tally (keys : List String) : Fields :=
  keys.foldl
    (fun roles key =>
      match Fields.get roles key with
      | .int n => Fields.set roles key (.int (n + 1))
      | _ => Fields.set roles key (.int 1)) []

/-- `input_count`. -/
def inputCount (payload : Fields) : Option ℕ :=
  ((payload.get "texts").asArr?.or (payload.get "input").asArr?).map List.length

def nameList (names : List String) : Json := .arr (names.map Json.str)

/-- The half of `content_summary` that is about the payload. -/
def payloadSummary (floats : ℚ → ℕ) (payload : Fields) : Except Unit Fields := do
  let messages ←
    match roleKeys payload with
    | some keys => do
        let counted ← keys.mapM id
        Except.ok [("message_count", Json.int keys.length), ("roles", .obj (tally counted))]
    | none => .ok []
  let tools := sortedNames (names (payload.get "tools"))
  .ok ([("payload_bytes", .int (size floats (.obj payload)))] ++ messages ++
    (if tools = [] then [] else [("tools_declared", nameList tools)]) ++
    ((inputCount payload).map fun n => ("input_count", Json.int n)).toList)

/-- What is said about the model that served. -/
def provenance (response : Fields) (key : String) : Option (String × Json) :=
  match response.get key with
  | .str s => if patternOk ['_', '.', ':', '/', '@', '+', '-'] 128 s then some (key, .str s) else none
  | _ => none

/-- The names of the tool calls, choice by choice. -/
def calledNames (response : Fields) : Option (List (List String)) :=
  (response.get "choices").asArr?.map fun choices =>
    choices.map fun ch => names ((ch.get "message").get "tool_calls")

/-- The half of `content_summary` that is about the response. -/
def responseSummary (floats : ℚ → ℕ) (response : Fields) : Fields :=
  (provenance response "model").toList ++ (provenance response "model_source").toList ++
    match calledNames response with
    | some choices =>
        let called := sortedNames (choices.flatMap sortedNames)
        [("response_bytes", .int (size floats (.obj response))), ("choice_count", .int choices.length)] ++
          if called = [] then [] else [("tool_calls", nameList called)]
    | none => []

/-- `content_summary`. -/
def contentSummary (floats : ℚ → ℕ) (payload response : Option Fields) : Except Unit Fields := do
  let asked ← payload.elim (.ok []) (payloadSummary floats)
  .ok ([("v", .int 1)] ++ asked ++ response.elim [] (responseSummary floats))

/-! ### Completion rows -/

/-- The arguments of `persist_complete`. -/
structure Completed where
  requestId : String
  agentId : String
  endpoint : String
  callSite : String
  priority : ℤ
  inputTokens : ℤ
  outputTokens : ℤ
  durationS : ℚ
  queueWaitMs : ℚ
  status : String
  payload : Option Fields
  response : Option Fields
  sessionId : SessionId := .other false
  turnId : Option String := none
  callerId : Option String := none
  finishReason : Option String := none
  kind : String := "llm"
  cachedTokens : Option ℤ := none
  keyId : Option String := none
  noStore : String
  deriving DecidableEq

/-- A row of `proxy_completions`. -/
structure CompletionRow extends Completed where
  completedAt : ℚ
  contentMeta : Option Fields
  deriving DecidableEq

/-- The arguments with the content dropped. -/
def Completed.bare (c : Completed) : Completed := { c with payload := none, response := none }

/-- The row of a call that ended at `wall`; an empty mapping is stored as NULL. -/
def Completed.row (floats : ℚ → ℕ) (wall : ℚ) (c : Completed) : Except Unit CompletionRow :=
  if c.noStore = "honoured" then
    (contentSummary floats c.payload c.response).map fun summary =>
      { c.bare with completedAt := wall, contentMeta := some summary }
  else
    .ok { c with
      payload := c.payload.filter (· ≠ [])
      response := c.response.filter (· ≠ [])
      completedAt := wall
      contentMeta := none }

/-! ### Requests and stores -/

/-- A `QueuedRequest` with its payload in full. -/
structure Request where
  /-- All but the payload. -/
  head : QueuedRequest
  payload : Fields
  /-- `asserted_by_key_id`, if it is not empty. -/
  keyId : Option String := none
  jsonObjectStripped : Bool := false
  forcedToolSchema : Option Fields := none
  forcedToolName : String := ""
  thinking : Option (List String) := none

/-- What the stores use of other code; `κ` is the type of replay keys, `τ` that of the tracker. -/
structure Fittings (κ τ : Type) where
  codec : Codec
  /-- The payload as the scheduler, the queue and the response cache read it. -/
  read : Fields → Payload
  /-- A body as the response cache holds it. -/
  cached : Fields → BackendResponse
  /-- The length of the `repr` of a float. -/
  floats : ℚ → ℕ
  /-- The endpoint is configured. -/
  configured : String → Bool
  /-- `replay_reasoning_history` of the endpoint. -/
  optedIn : String → Bool
  digest : Replay.Digest κ
  bounds : Replay.Bounds
  grammar : GrammarAuthority
  guards : Helpers
  /-- `observe_completion`: endpoint, call site, payload, status, input and cached tokens, moment. -/
  observe : τ → String → String → Fields → String → ℤ → Option ℤ → ℚ → τ

/-- The six stores. -/
structure Stores (κ τ : Type) where
  wal : PersistentQueue
  completions : Dict String CompletionRow
  cache : DeterministicCache
  replay : Replay.Cache κ
  keepalive : τ
  grammars : GrammarMemo

namespace Request

variable {κ τ : Type} (r : Request)

/-- `engaged`. -/
def engaged : Bool := r.head.noStore

def isChat : Bool := decide (r.head.payloadType = "chat_completion")

/-- The request as the queue and the response cache see it. -/
def queued (f : Fittings κ τ) : QueuedRequest := { r.head with payload := f.read r.payload }

/-- The request as the guards of a reply see it. -/
def ask : Ask where
  chat := r.isChat
  endpoint := r.head.endpoint
  payload := r.payload
  jsonObjectStripped := r.jsonObjectStripped
  forcedToolSchema := r.forcedToolSchema
  forcedToolName := r.forcedToolName
  thinking := r.thinking

/-- What the replay hooks ask of the request. -/
def gate (f : Fittings κ τ) : Replay.Gate where
  chat := r.isChat
  noStore := r.engaged
  optedIn := f.optedIn r.head.endpoint

end Request

/-- The end of a call, as `record_completion` is told of it. -/
structure Outcome where
  durationS : ℚ
  queueWaitMs : ℚ
  inputTokens : ℤ
  outputTokens : ℤ
  status : String
  body : Option Fields
  finishReason : Option String := none
  cachedTokens : Option ℤ := none
  /-- `time.monotonic()`. -/
  now : ℚ
  /-- `time.time()`. -/
  wall : ℚ

/-- A reply to a call that is made besides the first. -/
structure Answer where
  body : Fields
  inputTokens : ℤ
  outputTokens : ℤ
  durationS : ℚ
  finishReason : Option String := none
  cachedTokens : Option ℤ := none

/-- `_PAYLOAD_KIND`. -/
def payloadKind (payloadType : String) : String :=
  if payloadType = "chat_completion" then "chat"
  else if payloadType = "embedding" then "embed"
  else if payloadType = "rerank" then "rerank"
  else "llm"

namespace Request

variable (r : Request)

/-- The row of `record_completion`. -/
def ended (o : Outcome) : Completed where
  requestId := r.head.requestId
  agentId := r.head.agentId
  endpoint := r.head.endpoint
  callSite := r.head.callSite
  priority := r.head.priority.value
  inputTokens := o.inputTokens
  outputTokens := o.outputTokens
  durationS := o.durationS
  queueWaitMs := o.queueWaitMs
  status := o.status
  payload := if r.isChat || r.engaged then some r.payload else none
  response := o.body
  sessionId := r.head.sessionId
  turnId := r.head.turnId
  callerId := r.head.callerId
  finishReason := o.finishReason
  kind := payloadKind r.head.payloadType
  cachedTokens := o.cachedTokens
  keyId := r.keyId
  noStore := r.head.noStoreOutcome

/-- The row that a correction puts in the place of the first. -/
def corrected (body : Fields) (inputTokens outputTokens : ℤ) (durationS : ℚ) (finishReason : Option String) :
    Completed where
  requestId := r.head.requestId
  agentId := r.head.agentId
  endpoint := r.head.endpoint
  callSite := r.head.callSite
  priority := r.head.priority.value
  inputTokens := inputTokens
  outputTokens := outputTokens
  durationS := durationS
  queueWaitMs := 0
  status := "ok"
  payload := some r.payload
  response := some body
  sessionId := r.head.sessionId
  turnId := r.head.turnId
  callerId := r.head.callerId
  finishReason := finishReason
  noStore := r.head.noStoreOutcome

/-- The row of `execute_shadow`. -/
def shadowed (queueWaitMs : ℚ) (a : Answer) : Completed where
  requestId := "shadow-" ++ r.head.requestId
  agentId := r.head.agentId
  endpoint := r.head.endpoint
  callSite := r.head.callSite
  priority := r.head.priority.value
  inputTokens := a.inputTokens
  outputTokens := a.outputTokens
  durationS := a.durationS
  queueWaitMs := queueWaitMs
  status := "ok"
  payload := some r.payload
  response := some a.body
  cachedTokens := a.cachedTokens
  noStore := r.head.noStoreOutcome

end Request

/-! ### The calls -/

namespace Stores

variable {κ τ : Type} [DecidableEq κ] (f : Fittings κ τ) (st : Stores κ τ)

/-- `persist_complete`; nothing is written where the summary raises. -/
def persistComplete (wall : ℚ) (c : Completed) : Stores κ τ :=
  match c.row f.floats wall with
  | .ok row =>
      { st with
        wal := st.wal.persistComplete c.requestId
        completions := st.completions.set c.requestId row }
  | .error _ => st

/-- `observe_completion`, where `record_completion` calls it. -/
def observed (r : Request) (o : Outcome) : Stores κ τ :=
  if (r.isChat && !r.engaged && f.configured r.head.endpoint) = true then
    { st with
      keepalive :=
        f.observe st.keepalive r.head.endpoint r.head.callSite r.payload o.status o.inputTokens
          o.cachedTokens o.now }
  else st

/-- `record_completion`. -/
def recordCompletion (r : Request) (o : Outcome) : Stores κ τ :=
  (st.observed f r o).persistComplete f o.wall (r.ended o)

/-- `execute_shadow`, for a shadow that answers. -/
def executeShadow (r : Request) (queueWaitMs : ℚ) (a : Answer) (wall : ℚ) : Stores κ τ :=
  if r.engaged then st else st.persistComplete f wall (r.shadowed queueWaitMs a)

/-- `_persist_corrected`; a count that is no number is swallowed. -/
def persistCorrected (r : Request) (body : Fields) (wall : ℚ) : Stores κ τ :=
  match Egress.intOf ((usageOf body).get "prompt_tokens"),
      Egress.intOf ((usageOf body).get "completion_tokens") with
  | .ok inputTokens, .ok outputTokens =>
      st.persistComplete f wall (r.corrected body inputTokens outputTokens 0 none)
  | _, _ => st

/-- The row of a clean re-dispatch. -/
def persistRecovered (r : Request) (a : Answer) (wall : ℚ) : Stores κ τ :=
  st.persistComplete f wall
    (r.corrected a.body a.inputTokens a.outputTokens a.durationS a.finishReason)

end Stores

/-- A request that the proxy works on. -/
structure Live where
  req : Request
  result : Option Result := none
  /-- `cache_key`. -/
  cacheKey : Option CacheKey := none

/-- What the corrections before a request is queued leave of it. -/
structure Corrections where
  payload : Fields
  jsonObjectStripped : Bool
  forcedToolSchema : Option Fields
  forcedToolName : String
  thinking : Option (List String)

/-- A call of a handler, with what it reads from outside. -/
inductive Step where
  /-- `process_grammar`. -/
  | grammar
  /-- The look into the response cache. -/
  | lookup (now : ℚ)
  /-- `apply_reasoning_replay_restore`. -/
  | restore (now : ℚ)
  /-- The corrections from the thinking switch on. -/
  | corrections (c : Corrections)
  /-- Failover to another endpoint. -/
  | rerouted (endpoint : String)
  | enqueue (wall : ℚ)
  | dispatch
  | expire
  /-- The future of the request gets its result. -/
  | replied (result : Result)
  /-- `record_completion`. -/
  | completed (o : Outcome)
  /-- `execute_shadow`. -/
  | shadow (queueWaitMs : ℚ) (a : Answer) (wall : ℚ)
  /-- The two finalisers. -/
  | finalize
  /-- `maybe_correct_degenerate`. -/
  | redispatch (s : Setting) (answers : ℕ → Option Answer) (wall : ℚ)
  /-- `enforce_toolcall_truncation`. -/
  | toolCalls (s : Setting)
  /-- `maybe_repair_schema`. -/
  | repair (s : Setting) (retry : Option Fields) (wall : ℚ)
  /-- `enforce_structured_validity`. -/
  | validity (s : Setting)
  /-- `store_reasoning_replay`, of a body or of a stream. -/
  | remember (now : ℚ) (content toolCalls reasoning : Json)
  /-- The put into the response cache. -/
  | put (now : ℚ)

/-- The first answer with a clean body. -/
def firstCleanAnswer (h : Helpers) : List (Option Answer) → Option Answer
  | [] => none
  | none :: answers => firstCleanAnswer h answers
  | some a :: answers =>
      match Egress.isClean h a.body with
      | .ok true => some a
      | .ok false => firstCleanAnswer h answers
      | .error _ => none

/-- The replies of the re-dispatches. -/
def repliesOf (answers : ℕ → Option Answer) : Replies where
  redispatch := fun i => (answers i).map Answer.body
  retry := none

/-- The answer that `maybe_correct_degenerate` puts in the place of a loop. -/
def recovered (h : Helpers) (s : Setting) (answers : ℕ → Option Answer) (req : Ask) (result : Result) :
    Option Answer :=
  match result.response with
  | some body =>
      if s.degenerationGuard = false ∨ result.status ≠ .ok ∨ req.chat = false ∨
          Egress.loops h body = false ∨ s.degenerationShadow = true ∨ Egress.capped body = true ∨
          s.configured = false ∨ s.degenFree = false then none
      else firstCleanAnswer h (((List.range 2).take s.degenTries).map answers)
  | none => none

/-- Whether `maybe_repair_schema` repaired the body, and whether it took the retry's. -/
def mended (repair : Result → Result) (result : Result) : Bool × Bool :=
  let after := repair { result with schemaRepaired := false, schemaRetried := false }
  (after.schemaRepaired, after.schemaRetried)

/-- The body that `maybe_repair_schema` persists. -/
def rewritten (repair : Result → Result) (result : Result) : Option Fields :=
  if (mended repair result).1 || (mended repair result).2 then (repair result).response else none

/-- The result goes into the response cache. -/
def cacheable (result : Result) : Bool :=
  decide (result.status = .ok) && !result.degenerateUnrecovered && !result.schemaUnrecoverable &&
    !result.response.any Egress.capped

namespace Live

variable {κ τ : Type} [DecidableEq κ] (f : Fittings κ τ) (st : Stores κ τ) (l : Live)

def withPayload (payload : Fields) : Live := { l with req := { l.req with payload := payload } }

def correctedBy (c : Corrections) : Live :=
  { l with
    req := { l.req with
      payload := c.payload
      jsonObjectStripped := c.jsonObjectStripped
      forcedToolSchema := c.forcedToolSchema
      forcedToolName := c.forcedToolName
      thinking := c.thinking } }

def reroutedTo (endpoint : String) : Live :=
  { l with req := { l.req with head := { l.req.head with endpoint := endpoint } } }

/-- The result as a guard leaves it. -/
def guarded (guard : Result → Result) : Live := { l with result := l.result.map guard }

/-- What a step does to the stores and to the request. -/
def step : Step → Stores κ τ × Live
  | .grammar =>
      if l.req.isChat then
        let processed := processGrammar f.grammar l.req.engaged st.grammars l.req.payload
        -- a request whose grammar is refused goes no further
        ({ st with grammars := processed.1 }, l.withPayload (processed.2.toOption.getD l.req.payload))
      else (st, l)
  | .lookup now =>
      let key := DeterministicCache.keyOf (l.req.queued f)
      ({ st with cache := (st.cache.lookup key now).2 }, { l with cacheKey := key })
  | .restore now =>
      match l.req.payload.get "messages" with
      | .arr messages =>
          let restored :=
            Replay.restore f.digest (l.req.gate f) now (l.req.payload.get "system") st.replay messages
          ({ st with replay := restored.1 },
            l.withPayload (l.req.payload.set "messages" (.arr restored.2)))
      | _ => (st, l)
  | .corrections c => (st, l.correctedBy c)
  | .rerouted endpoint => (st, l.reroutedTo endpoint)
  | .enqueue wall => ({ st with wal := st.wal.persistEnqueue f.codec (l.req.queued f) wall }, l)
  | .dispatch => ({ st with wal := st.wal.persistDispatch l.req.head.requestId }, l)
  | .expire => ({ st with wal := st.wal.persistExpire l.req.head.requestId }, l)
  | .replied result => (st, { l with result := some result })
  | .completed o => (st.recordCompletion f l.req o, l)
  | .shadow queueWaitMs a wall => (st.executeShadow f l.req queueWaitMs a wall, l)
  | .finalize =>
      (st, l.guarded fun result =>
        Egress.finalizeThinking f.guards l.req.ask (Egress.finalizeForcedToolSchema f.guards l.req.ask result))
  | .redispatch s answers wall =>
      ((l.result.bind (recovered f.guards s answers l.req.ask)).elim st fun a =>
          st.persistRecovered f l.req a wall,
        l.guarded (Egress.maybeCorrectDegenerate f.guards s (repliesOf answers) l.req.ask))
  | .toolCalls s => (st, l.guarded (Egress.enforceToolcallTruncation s l.req.ask))
  | .repair s retry wall =>
      let repaired :=
        Egress.maybeRepairSchema f.guards s { redispatch := fun _ => none, retry := retry } l.req.ask
      ((l.result.bind (rewritten repaired)).elim st fun body =>
          st.persistCorrected f l.req body wall,
        l.guarded repaired)
  | .validity s => (st, l.guarded (Egress.enforceStructuredValidity f.guards s l.req.ask))
  | .remember now content toolCalls reasoning =>
      match l.req.payload.get "messages" with
      | .arr messages =>
          ({ st with
            replay :=
              (Replay.store f.digest f.bounds (l.req.gate f) now (l.req.payload.get "system") st.replay
                messages content toolCalls reasoning).1 }, l)
      | _ => (st, l)
  | .put now =>
      match l.cacheKey, l.result with
      | some key, some result =>
          (if cacheable result then
              { st with
                cache := st.cache.put key (f.cached (result.response.getD [])) l.req.head.ref now }
            else st, l)
      | _, _ => (st, l)

end Live

/-! ### The system -/

/-- The stores, and the requests that are worked on, by identity. -/
structure System (κ τ : Type) where
  stores : Stores κ τ
  live : Dict ℕ Live := ∅

inductive Event (κ τ : Type) where
  /-- A request comes in. -/
  | arrive (ref : ℕ) (req : Request)
  | step (ref : ℕ) (s : Step)
  /-- Whatever else happens to the stores. -/
  | elsewhere (change : Stores κ τ → Stores κ τ)

namespace System

variable {κ τ : Type} [DecidableEq κ] (f : Fittings κ τ) (sys : System κ τ)

def step : Event κ τ → System κ τ
  | .arrive ref req => { sys with live := sys.live.set ref { req := req } }
  | .step ref s =>
      match sys.live.get? ref with
      | some l => { stores := (l.step f sys.stores s).1, live := sys.live.set ref (l.step f sys.stores s).2 }
      | none => sys
  | .elsewhere change => { sys with stores := change sys.stores }

def run (events : List (Event κ τ)) : System κ τ := Runs.run (System.step f) sys events

end System

end Roadstead.NoStore
