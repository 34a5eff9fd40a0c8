import Roadstead.Lib.Json
import Roadstead.Lib.Recency
import Roadstead.Lib.Run

/-!
# The prefix keep-alive

`prefix_keepalive.py`: the `PrefixKeepaliveTracker`, which keeps for each endpoint the prefixes that its
callers sent and counts the uncached prompt tokens that each of them has seen go by.

A prefix is an object that the buckets refer to and that a touch holds on to, also after the bucket
has given it up.  The objects stand in a heap, by the number under which they were made.
-/

namespace Roadstead.PrefixKeepalive

/-! ### The skeleton of a prefix -/

/-- `_leading_system_messages`. -/
def leadingSystemMessages (messages : Json) : List Json :=
  (messages.asArr?.getD []).takeWhile fun m => decide (m.get "role" = .str "system")

/-- What a request renders before its own turns; null is `None`. -/
structure Skeleton where
  systemMessages : List Json
  topLevelSystem : Json
  tools : Json
  toolChoice : Json
  model : Json
  chatTemplateKwargs : Json
  deriving DecidableEq

/-- A value that counts as true, null otherwise. -/
def orNull (j : Json) : Json := if j.truthy then j else .null

/-- `derive_skeleton`. -/
def deriveSkeleton (payload : Json) : Option Skeleton :=
  let systemMessages := leadingSystemMessages (payload.get "messages")
  let tools := Json.arr ((payload.get "tools").asArr?.getD [])
  if payload.asObj?.isNone then none
  -- a system prompt inside `extra_body` is not rendered as the two others are
  else if ((payload.get "extra_body").get "system").truthy then none
  else if systemMessages.isEmpty && !(payload.get "system").truthy && !tools.truthy then none
  else some {
    systemMessages := systemMessages
    topLevelSystem := orNull (payload.get "system")
    tools := orNull tools
    toolChoice := payload.get "tool_choice"
    model := orNull (payload.get "model")
    chatTemplateKwargs := orNull (.obj ((payload.get "chat_template_kwargs").asObj?.getD [])) }

/-! ### The tracker -/

/-- `TrackedPrefix`. -/
structure TrackedPrefix (κ : Type) where
  key : κ
  skeleton : Skeleton
  callSite : String
  lastRealSeen : ℚ
  approxTokens : ℤ := 0
  tokensSinceTouch : ℤ := 0
  touchInFlight : Bool := false

/-- `_EndpointStats`. -/
structure EndpointStats where
  sent : ℕ := 0
  hit : ℕ := 0
  missed : ℕ := 0
  skipped : ℕ := 0

/-- The `prefix_keepalive_*` fields of an `EndpointConfig`. -/
structure Policy where
  callSites : List String := []
  triggerTokens : ℤ := 0
  idleS : ℤ := 0
  maxPrefixes : ℤ := 0

/-- What stays as it is: `fnmatch.fnmatch`, `skeleton_key` and the policies of the endpoints. -/
structure Settings (κ : Type) where
  fnmatch : String → String → Bool
  skeletonKey : Skeleton → κ
  policy : String → Policy

/-- `PrefixKeepaliveTracker`, and the objects.  Beside each object stands the endpoint that it was
made for, which no operation reads. -/
structure PrefixKeepaliveTracker (κ : Type) where
  heap : List (String × TrackedPrefix κ) := []
  byEndpoint : Dict String (Dict κ ℕ) := ∅
  stats : Dict String EndpointStats := ∅

/-- The arguments of `observe_completion`. -/
structure Completion where
  epName : String
  callSite : String
  payload : Json
  status : String
  inputTokens : Option ℤ
  cachedTokens : Option ℤ
  now : ℚ

inductive TouchResult where
  | hit
  | missed
  | skipped
  deriving DecidableEq

/-- A call of the tracker.  A touch names its prefix by the number of the object. -/
inductive Event where
  | observeCompletion (c : Completion)
  | recordDispatch (entry : ℕ)
  | recordResult (epName : String) (entry : Option ℕ) (result : TouchResult)

/-- `enabled`. -/
def Policy.enabled (p : Policy) : Bool := !p.callSites.isEmpty && decide (0 < p.triggerTokens)

/-- The uncached prompt tokens of a completion, if both counts are known. -/
def Completion.uncached? (c : Completion) : Option ℤ :=
  c.inputTokens.bind fun input => c.cachedTokens.map fun cached => input - cached

variable {κ : Type} [DecidableEq κ]

namespace PrefixKeepaliveTracker

/-- The bucket of an endpoint. -/
def bucket (s : PrefixKeepaliveTracker κ) (epName : String) : Dict κ ℕ :=
  (s.byEndpoint.get? epName).getD ∅

/-- A real completion refreshes its prefix. -/
def refresh (c : Completion) (entry : TrackedPrefix κ) : TrackedPrefix κ :=
  { entry with
    lastRealSeen := c.now
    tokensSinceTouch := 0
    approxTokens := (c.inputTokens.filter fun input => decide (input ≠ 0)).getD entry.approxTokens }

/-- `_evict`. -/
def evict (bucket : Dict κ ℕ) (maxPrefixes : ℤ) : Dict κ ℕ :=
  if maxPrefixes ≤ 0 then bucket else bucket.popFirst (bucket.size - maxPrefixes.toNat)

/-- The loop of `observe_completion`: the tokens go to every prefix but the one that was refreshed. -/
def advance (uncached : ℤ) (matchedKey : Option κ) (heap : List (String × TrackedPrefix κ))
    (entries : List (κ × ℕ)) : List (String × TrackedPrefix κ) :=
  entries.foldl (fun heap e =>
    if matchedKey = some e.1 then heap
    else heap.modify e.2 fun o =>
      (o.1, { o.2 with tokensSinceTouch := o.2.tokensSinceTouch + uncached })) heap

section Operations

variable (settings : Settings κ)

/-- `matches`. -/
def «matches» (p : Policy) (callSite : String) : Bool := p.callSites.any (settings.fnmatch callSite)

/-- The skeleton that a completion refreshes. -/
def skeleton? (c : Completion) : Option Skeleton :=
  if c.status = "ok" && «matches» settings (settings.policy c.epName) c.callSite then deriveSkeleton c.payload
  else none

/-- The key of the prefix that a completion refreshes. -/
def matchedKey (c : Completion) : Option κ := (skeleton? settings c).map settings.skeletonKey

/-- The bucket and the heap after a completion has refreshed or made its prefix. -/
def capture (c : Completion) (bucket : Dict κ ℕ) (heap : List (String × TrackedPrefix κ)) :
    Dict κ ℕ × List (String × TrackedPrefix κ) :=
  match skeleton? settings c with
  | some skeleton =>
      let key := settings.skeletonKey skeleton
      match bucket.get? key with
      | some entry => (bucket.moveToEnd key, heap.modify entry fun o => (o.1, refresh c o.2))
      | none =>
          let entry : TrackedPrefix κ :=
            { key := key, skeleton := skeleton, callSite := c.callSite, lastRealSeen := c.now }
          ((evict (bucket.set key heap.length) (settings.policy c.epName).maxPrefixes).moveToEnd key,
            heap ++ [(c.epName, refresh c entry)])
  | none => (bucket, heap)

/-- The heap after the uncached tokens of a completion, if any, have gone to the others. -/
def account (c : Completion) (bucket : Dict κ ℕ) (heap : List (String × TrackedPrefix κ)) :
    List (String × TrackedPrefix κ) :=
  match c.uncached? with
  | some uncached =>
      if uncached ≤ 0 then heap else advance uncached (matchedKey settings c) heap bucket.entries
  | none => heap

/-- `observe_completion`. -/
def observeCompletion (s : PrefixKeepaliveTracker κ) (c : Completion) : PrefixKeepaliveTracker κ :=
  if !(settings.policy c.epName).enabled then s
  else
    let captured := capture settings c (s.bucket c.epName) s.heap
    { s with
      byEndpoint := s.byEndpoint.set c.epName captured.1
      heap := account settings c captured.1 captured.2 }

/-- `record_dispatch`. -/
def recordDispatch (s : PrefixKeepaliveTracker κ) (entry : ℕ) : PrefixKeepaliveTracker κ :=
  { s with heap := s.heap.modify entry fun o =>
      (o.1, { o.2 with touchInFlight := true, tokensSinceTouch := 0 }) }

def record (stats : EndpointStats) : TouchResult → EndpointStats
  | .hit => { stats with sent := stats.sent + 1, hit := stats.hit + 1 }
  | .missed => { stats with sent := stats.sent + 1, missed := stats.missed + 1 }
  | .skipped => { stats with skipped := stats.skipped + 1 }

/-- `record_result`. -/
def recordResult (s : PrefixKeepaliveTracker κ) (epName : String) (entry : Option ℕ)
    (result : TouchResult) : PrefixKeepaliveTracker κ :=
  { s with
    heap := match entry with
      | some entry => s.heap.modify entry fun o => (o.1, { o.2 with touchInFlight := false })
      | none => s.heap
    stats := s.stats.set epName (record ((s.stats.get? epName).getD {}) result) }

def step (s : PrefixKeepaliveTracker κ) : Event → PrefixKeepaliveTracker κ
  | .observeCompletion c => observeCompletion settings s c
  | .recordDispatch entry => s.recordDispatch entry
  | .recordResult epName entry result => s.recordResult epName entry result

end Operations

/-! ### Touches -/

/-- `due_for_touch`: the numbers of the objects. -/
def dueForTouch (s : PrefixKeepaliveTracker κ) (epName : String) (p : Policy) (now : ℚ) : List ℕ :=
  if p.triggerTokens ≤ 0 then []
  else (s.bucket epName).values.filter fun entry => (s.heap[entry]?).any fun o =>
    !o.2.touchInFlight && decide (p.triggerTokens ≤ o.2.tokensSinceTouch) &&
      !(decide (0 < p.idleS) && decide ((p.idleS : ℚ) < now - o.2.lastRealSeen))

end PrefixKeepaliveTracker

end Roadstead.PrefixKeepalive
