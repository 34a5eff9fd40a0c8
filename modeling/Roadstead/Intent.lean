import Mathlib.Algebra.Order.Ring.Rat
import Mathlib.Data.List.Lex
import Mathlib.Data.Prod.Lex
import Mathlib.Order.WithBot
import Roadstead.Lib.Dict
import Roadstead.Lib.Json
import Roadstead.Lib.Ranking
import Roadstead.Lib.Text

/-!
# Intents

`intent.py`: what a caller asks for (`parse_intent`), and which endpoint serves it (`resolve`).  The
definitions follow the source; nothing is proved here.

`str`, `repr` and `int` of Python are parameters where a value is no string.  The fields of a profile
and of an endpoint that only the listing of the models shows are left out, and so is the text that
explains a refusal.
-/

namespace Roadstead

open Json (Fields)

/-- `KNOWN_CAPABILITIES`. -/
def knownCapabilities : Finset String :=
  {"vision", "reasoning", "streaming", "tool_calling", "structured_output"}

/-- `KNOWN_KINDS`. -/
def knownKinds : Finset String := {"chat", "embed", "rerank"}

/-- `PREFERENCES`. -/
def preferences : Finset String := {"balanced", "latency", "capacity", "context", "cost"}

/-- `DEFAULT_PREFERENCE`. -/
def defaultPreference : String := "balanced"

/-! ### Profiles -/

/-- `Profile`. -/
structure Profile where
  name : String
  kind : String := "chat"
  requires : Finset String := ∅
  prefer : String := defaultPreference
  deriving DecidableEq

/-- `BUILTIN_PROFILES`. -/
def builtinProfiles : Dict String Profile where
  entries := [{ name := "fast-chat", prefer := "latency" : Profile }, { name := "chat" },
    { name := "reasoning", requires := {"reasoning"} }, { name := "vision", requires := {"vision"} },
    { name := "tools", requires := {"tool_calling"} },
    { name := "structured", requires := {"structured_output"} },
    { name := "long-context", prefer := "context" }, { name := "embed", kind := "embed" },
    { name := "rerank", kind := "rerank" }].map fun p => (p.name, p)
  nodup := by decide

/-! ### The request -/

/-- `Intent`. -/
structure Intent where
  /-- The pinned endpoint, as the catalog names it. -/
  pin : String := ""
  pinAsWritten : String := ""
  profile : String := ""
  requires : Finset String := ∅
  kind : String := "chat"
  minContext : ℕ := 0
  prefer : String := defaultPreference
  exclude : Finset String := ∅
  /-- Each exclusion as the catalog names it, and as it was written. -/
  excludePairs : List (String × String) := []
  deriving DecidableEq

/-- Why `int` raises. -/
inductive IntFault where
  /-- A `TypeError` or a `ValueError`. -/
  | unreadable
  /-- An `OverflowError`, of an infinite number. -/
  | overflow
  deriving DecidableEq

/-- What is used of Python. -/
structure Printers where
  /-- `str`, of a value that is no string. -/
  str : Json → String
  repr : Json → String
  int : Json → Except IntFault ℤ

inductive IntentFault where
  /-- `IntentError`. -/
  | intentError (message : String)
  | overflowError
  deriving DecidableEq

namespace Intent

section Parse

variable (py : Printers)

/-- `str(value).strip()`. -/
def stripped : Json → String
  | .str s => .ofList (Text.strip s.toList)
  | value => .ofList (Text.strip (py.str value).toList)

/-- `str(body.get(key) or "").strip()`. -/
def bodyWord (body : Fields) (key : String) : String :=
  if (Fields.get body key).truthy then stripped py (Fields.get body key) else ""

/-- The `repr` of a list of strings. -/
def reprNames (names : List String) : String := py.repr (.arr (names.map .str))

/-- `sorted`. -/
def sortedSet (names : Finset String) : List String := Text.sorted names

/-- A list of names, or one name. -/
def nameList (message : String) : Json → Except IntentFault (List Json)
  | .null => .ok []
  | .str s => .ok [.str s]
  | .arr items => .ok items
  | _ => .error (.intentError message)

/-- `resolve_profile`. -/
def resolveProfile (table : Dict String Profile) (name : String) : Except IntentFault Profile :=
  match table.get? name with
  | some profile => .ok profile
  | none =>
      .error (.intentError ("unknown intent " ++ py.repr (.str name) ++ " — known intents: " ++
        reprNames py (table.keys.insertionSort (· ≤ ·))))

/-- One turn of the loop that reads `requires`. -/
def requireCap (requires : Finset String) (cap : Json) : Except IntentFault (Finset String) :=
  let name := stripped py cap
  if name ∈ knownCapabilities then .ok (insert name requires)
  else
    .error (.intentError ("unknown capability " ++ py.repr (.str name) ++ " — known capabilities: " ++
      reprNames py (sortedSet knownCapabilities)))

/-- `min_context`. -/
def parseMinContext (raw : Json) : Except IntentFault ℕ :=
  match if raw.truthy then py.int raw else .ok 0 with
  | .error .unreadable =>
      .error (.intentError ("`min_context` must be an integer number of tokens, got " ++ py.repr raw))
  | .error .overflow => .error .overflowError
  | .ok n =>
      if n < 0 then .error (.intentError "`min_context` must not be negative") else .ok n.toNat

/-- `a or b`. -/
def orElse (a b : String) : String := if a ≠ "" then a else b

/-- Raise an `IntentError`. -/
def refuse (wrong : Prop) [Decidable wrong] (message : String) : Except IntentFault Unit :=
  if wrong then .error (.intentError message) else .ok ()

/-- The profile that is named, if one is. -/
def namedProfile (table : Dict String Profile) (name : String) : Except IntentFault (Option Profile) :=
  if name = "" then .ok none else (resolveProfile py table name).map some

/-- `parse_intent`. -/
def parseIntent (table : Dict String Profile) (normalize : String → String) (body : Fields) :
    Except IntentFault Intent := do
  let rawPin := bodyWord py body "model"
  let pin := if rawPin = "" then "" else normalize rawPin
  let profileName := bodyWord py body "intent"
  let rawExclude ← nameList
    "`exclude` must be a list of endpoint names, e.g. [\"tier2\", \"some-alias\"]"
    (Fields.get body "exclude")
  let excludedAsWritten := (rawExclude.map (stripped py)).filter fun name => name ≠ ""
  let excludePairs := excludedAsWritten.map fun name => (normalize name, name)
  let exclude := (excludePairs.map Prod.fst).toFinset
  refuse (pin = "" ∧ profileName = "" ∧ Fields.get body "requires" = .null ∧ exclude = ∅)
    ("a request must declare an intent — send `intent` (a capability profile: " ++
      reprNames py (table.keys.insertionSort (· ≤ ·)) ++ "), `model` (a specific endpoint), " ++
      "`requires` (a list of capabilities), or `exclude` (endpoints it must not use)")
  refuse (pin ≠ "" ∧ pin ∈ exclude)
    ("`model` and `exclude` name the same endpoint (" ++ py.repr (.str rawPin) ++ " resolves to " ++
      py.repr (.str pin) ++ ") — a request cannot both require and refuse it")
  let profile ← namedProfile py table profileName
  let kind := orElse (bodyWord py body "kind") ((profile.map Profile.kind).getD "")
  let prefer := orElse (bodyWord py body "prefer") ((profile.map Profile.prefer).getD "")
  let rawRequires ← nameList
    "`requires` must be a list of capability names, e.g. [\"vision\", \"tool_calling\"]"
    (Fields.get body "requires")
  let requires ← rawRequires.foldlM (requireCap py) ((profile.map Profile.requires).getD ∅)
  let kind := orElse kind "chat"
  refuse (kind ∉ knownKinds)
    ("unknown kind " ++ py.repr (.str kind) ++ " — known kinds: " ++
      reprNames py (sortedSet knownKinds))
  let prefer := orElse prefer defaultPreference
  refuse (prefer ∉ preferences)
    ("unknown preference " ++ py.repr (.str prefer) ++ " — known preferences: " ++
      reprNames py (sortedSet preferences))
  let minContext ← parseMinContext py (Fields.get body "min_context")
  return {
    pin := pin, pinAsWritten := rawPin, profile := (profile.map Profile.name).getD ""
    requires := requires, kind := kind, minContext := minContext, prefer := prefer
    exclude := exclude, excludePairs := excludePairs }

end Parse

end Intent

/-! ### The endpoints -/

/-- `ModelFacts`: what an endpoint is, and what it is like now. -/
structure ModelFacts where
  endpoint : String
  kind : String := "chat"
  /-- 0 where it is not known. -/
  context : ℕ := 0
  capabilities : Finset String := ∅
  routed : Bool := true
  healthy : Bool := true
  maxSlots : ℕ := 0
  inFlight : ℕ := 0
  /-- 0 where there are no samples. -/
  typicalMs : ℚ := 0
  inputUsdPerMtok : ℚ := 0
  outputUsdPerMtok : ℚ := 0
  /-- The price means an invoice. -/
  realCost : Bool := false
  deriving DecidableEq

namespace ModelFacts

/-- `free_slots`. -/
def freeSlots (f : ModelFacts) : ℕ := f.maxSlots - f.inFlight

/-- `latency_key`: what is not known comes last. -/
def latencyKey (f : ModelFacts) : WithTop ℚ := if 0 < f.typicalMs then f.typicalMs else ⊤

/-- `price_key`. -/
def priceKey (f : ModelFacts) : ℚ := f.inputUsdPerMtok + f.outputUsdPerMtok

end ModelFacts

/-! ### The answer -/

namespace Intent

/-- The reasons of a rejection. -/
inductive RejectReason where
  | notRouted
  | wrongKind
  | missingCapability
  | contextTooSmall
  | excluded
  | unknownEndpoint
  deriving DecidableEq

/-- `Rejection`. -/
structure Rejection where
  endpoint : String
  reason : RejectReason
  detail : String := ""
  deriving DecidableEq

/-- `Resolution`. -/
structure Resolution where
  intent : Intent
  endpoint : Option String := none
  /-- The best first. -/
  ranked : List String := []
  rejected : List Rejection := []
  unmatchedExclusions : List String := []
  deriving DecidableEq

/-- `_preference_key`: the numbers that are compared, one after the other. -/
def preferenceKey (prefer : String) (f : ModelFacts) : List (WithTop ℚ) :=
  let number (x : ℚ) : WithTop ℚ := x
  if prefer = "latency" then [f.latencyKey, number (-f.freeSlots)]
  else if prefer = "capacity" then [number (-f.freeSlots), f.latencyKey]
  else if prefer = "context" then [number (-f.context), f.latencyKey]
  else if prefer = "cost" then [number f.priceKey, f.latencyKey]
  else [number (if 0 < f.freeSlots then 0 else 1), f.latencyKey, number (-f.freeSlots)]

/-- The key of `sorted` in `resolve`. -/
def sortKey (prefer : String) (f : ModelFacts) : ℕ ×ₗ ℕ ×ₗ List (WithTop ℚ) ×ₗ String :=
  toLex (if f.realCost then 1 else 0, toLex (if f.healthy then 0 else 1,
    toLex (preferenceKey prefer f, f.endpoint)))

/-- The capabilities that are asked for and not declared. -/
def missing (intent : Intent) (f : ModelFacts) : List String :=
  sortedSet (intent.requires \ f.capabilities)

/-- One turn of the loop of `resolve`: why the endpoint is rejected, if it is. -/
def rejection (py : Printers) (intent : Intent) (f : ModelFacts) : Option Rejection :=
  if f.endpoint ∈ intent.exclude then
    some { endpoint := f.endpoint, reason := .excluded, detail := "excluded by the request" }
  else if !f.routed then
    some { endpoint := f.endpoint, reason := .notRouted, detail := "endpoint is not routed" }
  else if f.kind ≠ intent.kind then
    some
      { endpoint := f.endpoint, reason := .wrongKind
        detail := "kind is " ++ py.repr (.str f.kind) ++ ", not " ++ py.repr (.str intent.kind) }
  else if missing intent f ≠ [] then
    some
      { endpoint := f.endpoint, reason := .missingCapability
        detail := "does not declare " ++ ", ".intercalate (missing intent f) }
  else if intent.minContext ≠ 0 ∧ f.context ≠ 0 ∧ f.context < intent.minContext then
    some
      { endpoint := f.endpoint, reason := .contextTooSmall
        detail := "context " ++ toString f.context ++ " < required " ++ toString intent.minContext }
  else none

/-- The endpoints that are considered: a pin leaves one name. -/
def candidates (pin : String) (facts : List ModelFacts) : List ModelFacts :=
  if pin = "" then facts else facts.filter fun f => f.endpoint = pin

/-- `resolve`. -/
def resolve (py : Printers) (intent : Intent) (facts : List ModelFacts) : Resolution :=
  let pin := String.ofList (Text.strip intent.pin.toList)
  let present := facts.map ModelFacts.endpoint
  let unmatched := (intent.excludePairs.filter fun pair => pair.1 ∉ present).map Prod.snd
  if unmatched ≠ [] then
    { intent := intent, unmatchedExclusions := unmatched
      rejected := unmatched.map fun name =>
        { endpoint := name, reason := .unknownEndpoint, detail := "no such endpoint to exclude" } }
  else if pin ≠ "" ∧ candidates pin facts = [] then
    { intent := intent
      rejected := [{ endpoint := if intent.pinAsWritten ≠ "" then intent.pinAsWritten else pin
                     reason := .unknownEndpoint, detail := "no such endpoint" }] }
  else
    let eligible := (candidates pin facts).filter fun f => (rejection py intent f).isNone
    let rejected := (candidates pin facts).filterMap (rejection py intent)
    let ranked := (Ranking.ranked (sortKey intent.prefer) eligible).map ModelFacts.endpoint
    { intent := intent, endpoint := ranked.head?, ranked := ranked, rejected := rejected }

end Intent

end Roadstead
