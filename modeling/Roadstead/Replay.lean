import Mathlib.Data.List.Sort
import Roadstead.Lib.Dict
import Roadstead.Lib.Json.Canonical
import Roadstead.Lib.Json.Scan
import Roadstead.Lib.Text
import Roadstead.Sanitizer

/-!
# Reasoning replay

`reasoning_replay.py`, the two hooks of `Correction` (`apply_reasoning_replay_restore`,
`store_reasoning_replay`) and what `execute_streaming` accumulates of a stream for them.  The
definitions follow the source; nothing is proved here.

`json.dumps` of a value and the SHA-256 of that text are the two functions of a `Digest`.  A
request reads the clock once for all its lookups.  The counters and tallies are left out.
-/

namespace Roadstead.Replay

open Json (Fields)

/-! ### The key of a turn -/

/-- What is made of a value whose fields are sorted. -/
structure Digest (κ : Type) where
  /-- `json.dumps`. -/
  dumps : Json → String
  /-- The digest of that text. -/
  sha256 : Json → κ

/-- `_canonical`. -/
def Digest.canonical {κ : Type} (digest : Digest κ) (value : Json) : String :=
  digest.dumps value.canonical

/-- `_normalize_message`. -/
def normalizeMessage : Json → Json
  | .obj m => .obj (m.filter fun field => field.1 ∉ ["reasoning", "reasoning_content"])
  | m => m

/-- The arguments of a call, parsed where they can be. -/
def normalizeArguments : Json → Json
  | .str args =>
      (Json.loads false args.toList).getD (.str (String.ofList (Text.strip args.toList)))
  | args => args

/-- One call of `_normalize_tool_calls`. -/
def normalizeToolCall {κ : Type} (digest : Digest κ) (tc : Json) : Json :=
  match tc.get "function" with
  | .obj fn => .arr [Fields.get fn "name", normalizeArguments (Fields.get fn "arguments")]
  | _ => .str (digest.canonical tc)

/-- `_normalize_tool_calls`. -/
def normalizeToolCalls {κ : Type} (digest : Digest κ) : Json → Json
  | .arr [] => .null
  | .arr tcs => .arr (tcs.map (normalizeToolCall digest))
  | _ => .null

/-- `content.strip() if isinstance(content, str) else ""`. -/
def trimmedContent (content : Json) : String :=
  String.ofList (Text.strip (content.asStr?.getD "").toList)

/-- What `replay_key` is the digest of. -/
def keyed {κ : Type} (digest : Digest κ) (messages : List Json) (system content toolCalls : Json) :
    Json :=
  .obj ([("messages", .arr (messages.map normalizeMessage)),
      ("content", .str (trimmedContent content)),
      ("tool_calls", normalizeToolCalls digest toolCalls)] ++
    if system = .null then [] else [("system", system)])

/-- `replay_key`. -/
def replayKey {κ : Type} (digest : Digest κ) (messages : List Json)
    (system content toolCalls : Json) : κ :=
  digest.sha256 (keyed digest messages system content toolCalls).canonical

/-! ### The calls of a stream -/

/-- An entry of `acc`. -/
structure CallEntry where
  id : Json := .str ""
  type : Json := .str "function"
  name : String := ""
  arguments : String := ""

/-- `d.get("index", 0)`, zero if it is no integer; a Boolean is one. -/
def deltaIndex (d : Fields) : ℤ :=
  match (d.get? "index").getD (.int 0) with
  | .int n => n
  | .bool b => if b then 1 else 0
  | _ => 0

/-- An entry with one more fragment. -/
def CallEntry.add (entry : CallEntry) (d : Fields) : CallEntry where
  id := if (d.get "id").truthy then d.get "id" else entry.id
  type := if (d.get "type").truthy then d.get "type" else entry.type
  name := entry.name ++ ((d.get "function").get "name").asStr?.getD ""
  arguments := entry.arguments ++ ((d.get "function").get "arguments").asStr?.getD ""

/-- One turn of the loop of `accumulate_tool_call_deltas`. -/
def accumulateDelta (acc : Dict ℤ CallEntry) : Json → Dict ℤ CallEntry
  | .obj d => acc.set (deltaIndex d) (((acc.get? (deltaIndex d)).getD {}).add d)
  | _ => acc

/-- `accumulate_tool_call_deltas`. -/
def accumulateToolCallDeltas (acc : Dict ℤ CallEntry) : Json → Dict ℤ CallEntry
  | .arr deltas => deltas.foldl accumulateDelta acc
  | _ => acc

/-- An entry as a value. -/
def CallEntry.json (entry : CallEntry) : Json :=
  .obj [("id", entry.id), ("type", entry.type),
    ("function", .obj [("name", .str entry.name), ("arguments", .str entry.arguments)])]

/-- `[acc[i] for i in sorted(acc)]`, or nothing if there are none. -/
def callList (acc : Dict ℤ CallEntry) : Json :=
  if acc.keys = [] then .null
  else .arr ((acc.keys.insertionSort (· ≤ ·)).map fun i => ((acc.get? i).getD {}).json)

/-- What a reader of a stream keeps of a turn. -/
structure Reading where
  content : String := ""
  reasoning : String := ""
  calls : Dict ℤ CallEntry := ∅

/-- The delta of the first choice. -/
def firstDelta (chunk : Json) : Json :=
  match chunk.get "choices" with
  | .arr (ch :: _) => ch.get "delta"
  | _ => .null

/-- A chunk read: text, reasoning under either name, and fragments of calls. -/
def Reading.add (reading : Reading) (chunk : Json) : Reading :=
  let delta := firstDelta chunk
  let reasoning :=
    match delta.get "reasoning" with
    | .str text => text
    | _ => (delta.get "reasoning_content").asStr?.getD ""
  { content := reading.content ++ (delta.get "content").asStr?.getD ""
    reasoning := reading.reasoning ++ reasoning
    calls := accumulateToolCallDeltas reading.calls (delta.get "tool_calls") }

/-- A whole stream read. -/
def readStream (chunks : List Json) : Reading := chunks.foldl Reading.add {}

/-- Whether a chunk has text and a `finish_reason` in one choice. -/
def coalesced (ch : Json) : Bool :=
  decide (ch.get "finish_reason" ≠ .null) && ((ch.get "delta").get "content").truthy

/-- A choice of the first half of a split chunk. -/
def headChoice : Json → Json
  | .obj ch => .obj (Fields.set ch "finish_reason" .null)
  | ch => ch

/-- A choice of the second half. -/
def tailChoice : Json → Json
  | .obj ch => .obj (Fields.set ch "delta" (.obj []))
  | ch => ch

/-- `_split_coalesced_finish_chunk`. -/
def splitCoalescedFinishChunk : Json → Option (Json × Json)
  | .obj chunk =>
      match Fields.get chunk "choices" with
      | .arr chs =>
          if chs.all (fun ch => ch.asObj?.isSome) && chs.any coalesced then
            some (.obj (Fields.set chunk "choices" (.arr (chs.map headChoice))),
              .obj (Fields.erase (Fields.set chunk "choices" (.arr (chs.map tailChoice))) "usage"))
          else none
      | _ => none
  | _ => none

/-! ### The store -/

structure Entry where
  reasoning : String
  expiresAt : ℚ
  size : ℕ

/-- The bounds of the store. -/
structure Bounds where
  maxEntries : ℕ
  maxBytes : ℕ
  ttl : ℚ

/-- `ReasoningReplayStore`: the entries, least recently used first. -/
abbrev Cache (κ : Type) := List (κ × Entry)

section Store

variable {κ : Type} [DecidableEq κ]

/-- `_total_bytes`. -/
def totalBytes (cache : Cache κ) : ℕ := (cache.map fun e => e.2.size).sum

def find? (cache : Cache κ) (key : κ) : Option Entry :=
  (cache.find? fun e => e.1 = key).map Prod.snd

def remove (cache : Cache κ) (key : κ) : Cache κ := cache.filter fun e => e.1 ≠ key

/-- `_evict`: what is left, and the keys that went. -/
def evict (bounds : Bounds) : Cache κ → Cache κ × List κ
  | [] => ([], [])
  | e :: cache =>
      if bounds.maxEntries < (e :: cache).length ∨ bounds.maxBytes < totalBytes (e :: cache) then
        ((evict bounds cache).1, e.1 :: (evict bounds cache).2)
      else (e :: cache, [])

/-- `put`: the cache, and the keys that were evicted. -/
def put (bounds : Bounds) (now : ℚ) (cache : Cache κ) (key : κ) (reasoning : String) :
    Cache κ × List κ :=
  if reasoning = "" ∨ bounds.maxBytes < reasoning.utf8ByteSize then (cache, [])
  else
    let entry : Entry := ⟨reasoning, now + bounds.ttl, reasoning.utf8ByteSize⟩
    evict bounds (remove cache key ++ [(key, entry)])

/-- `get`. -/
def get (now : ℚ) (cache : Cache κ) (key : κ) : Cache κ × Option String :=
  match find? cache key with
  | none => (cache, none)
  | some entry =>
      if entry.expiresAt < now then (remove cache key, none)
      else (remove cache key ++ [(key, entry)], some entry.reasoning)

/-! ### The two hooks -/

/-- What both hooks ask before anything else. -/
structure Gate where
  /-- `payload_type == "chat_completion"`. -/
  chat : Bool
  /-- `engaged(req)`. -/
  noStore : Bool
  /-- `replay_reasoning_history` of the endpoint. -/
  optedIn : Bool

def Gate.open (gate : Gate) : Bool := gate.chat && !gate.noStore && gate.optedIn

/-- An assistant message that came without its reasoning. -/
def wantsReasoning : Json → Bool
  | .obj m => decide (Fields.get m "role" = .str "assistant") &&
      !((Fields.get m "reasoning").truthy || (Fields.get m "reasoning_content").truthy)
  | _ => false

/-- A message of the history, with the messages before it. -/
def restoreMessage (digest : Digest κ) (now : ℚ) (system : Json) (cache : Cache κ)
    (before : List Json) (m : Json) : Cache κ × Json :=
  match m with
  | .obj fields =>
      if wantsReasoning m then
        let found := get now cache
          (replayKey digest before system (Fields.get fields "content") (Fields.get fields "tool_calls"))
        (found.1, match found.2 with
          | some reasoning => .obj (Fields.set fields "reasoning_content" (.str reasoning))
          | none => m)
      else (cache, m)
  | _ => (cache, m)

/-- The loop over the history. -/
def restoreFrom (digest : Digest κ) (now : ℚ) (system : Json) :
    Cache κ → List Json → List Json → Cache κ × List Json
  | cache, _, [] => (cache, [])
  | cache, before, m :: messages =>
      let first := restoreMessage digest now system cache before m
      let rest := restoreFrom digest now system first.1 (before ++ [m]) messages
      (rest.1, first.2 :: rest.2)

/-- `apply_reasoning_replay_restore`: the messages of the payload. -/
def restore (digest : Digest κ) (gate : Gate) (now : ℚ) (system : Json) (cache : Cache κ)
    (messages : List Json) : Cache κ × List Json :=
  if gate.open then restoreFrom digest now system cache [] messages else (cache, messages)

/-- `store_reasoning_replay`: the cache, and the keys that were evicted. -/
def store (digest : Digest κ) (bounds : Bounds) (gate : Gate) (now : ℚ) (system : Json)
    (cache : Cache κ) (messages : List Json) (content toolCalls reasoning : Json) :
    Cache κ × List κ :=
  match reasoning with
  | .str text =>
      if gate.open && decide (Text.strip text.toList ≠ []) then
        put bounds now cache (replayKey digest messages system content toolCalls) text
      else (cache, [])
  | _ => (cache, [])

end Store

end Roadstead.Replay
