import Roadstead.Lib.Dict
import Roadstead.Lib.Json
import Roadstead.Lib.Text

/-!
# The catalog of models

The parts of `model_catalog.py` that give a name its endpoint class and an endpoint its
configuration, with `build_endpoint` of `management.py`.  The definitions
follow the source; nothing is proved here.

A catalog is what `load_catalog` has parsed: every endpoint stands under its name, in the order of the
file.  The keys of a mapping are strings.  Notices and log lines are left out, and so are the fields of
an entry that nothing below reads.
-/

namespace Roadstead.ModelCatalog

open Json (Fields)

/-- `str.strip`. -/
def strip (text : String) : String := .ofList (Text.strip text.toList)

/-- How to reach a backend. -/
structure ProviderEntry where
  engine : String := ""
  host : String := ""
  port : ℤ := 0
  baseUrl : String := ""
  apiKeyEnv : String := ""

inductive EndpointStatus where
  | active
  | onDemand
  | planned
  | retired
  /-- Any other word. -/
  | other (word : String)
  deriving DecidableEq

/-- A unit of capacity. -/
structure EndpointEntry where
  /-- The endpoint class. -/
  name : String
  provider : String := ""
  kind : Json := .str "chat"
  status : EndpointStatus := .active
  role : String
  aliases : List String := []
  model : String := ""
  contextPerSlot : ℤ := 0
  slots : ℤ := 0
  failoverTo : String := ""
  spillTo : String := ""
  capabilities : Fields := []
  policy : Fields := []

def EndpointEntry.routed (e : EndpointEntry) : Bool :=
  decide (e.status = .active ∨ e.status = .onDemand)

structure Catalog where
  providers : Dict String ProviderEntry := ∅
  endpoints : Dict String EndpointEntry
  hosts : Dict String String := ∅
  named : ∀ e ∈ endpoints.entries, e.2.name = e.1

namespace Catalog

/-- One more stanza of the file. -/
def add (cat : Catalog) (e : EndpointEntry) : Catalog where
  providers := cat.providers
  endpoints := cat.endpoints.set e.name e
  hosts := cat.hosts
  named := by
    intro entry mem
    rw [Dict.mem_entries_iff, Dict.get?_set] at mem
    split at mem
    · next same => exact Option.some.inj mem ▸ same.symm
    · exact cat.named entry (Dict.mem_entries_iff.mpr mem)

/-- The endpoints of a file. -/
def ofEntries (es : List EndpointEntry) : Catalog := es.foldl add ⟨∅, ∅, ∅, nofun⟩

/-- `endpoints.values()`. -/
def entries (cat : Catalog) : List EndpointEntry := cat.endpoints.values

def routed (cat : Catalog) : List EndpointEntry := cat.entries.filter EndpointEntry.routed

def provider (cat : Catalog) (name : String) : Option ProviderEntry := cat.providers.get? (strip name)

/-! ### Names -/

/-- `_by_name`, as `load_catalog` fills it: the aliases, then the roles, then the classes. -/
def byName (cat : Catalog) : Dict String String :=
  let claimed := cat.entries.foldl
    (fun names e => e.aliases.foldl (fun names a => names.setDefault a e.name) names) ∅
  let withRoles := cat.entries.foldl (fun names e => names.set e.role e.name) claimed
  cat.entries.foldl (fun names e => names.set e.name e.name) withRoles

/-- `build_role_to_class`. -/
def buildRoleToClass (cat : Catalog) : Dict String String :=
  let out := cat.entries.foldl
    (fun out e => e.aliases.foldl (fun out a => out.set a e.name) out) ∅
  cat.entries.foldl (fun out e => (out.set e.role e.name).set e.name e.name) out

end Catalog

/-! ### The configuration of an endpoint -/

/-- The adapters that `providers` registers, in this order. -/
inductive Engine where
  | llamacpp
  | vllm
  | openrouter
  deriving DecidableEq

/-- The `name` of its descriptor. -/
def Engine.name : Engine → String
  | llamacpp => "llama.cpp"
  | vllm => "vllm"
  | openrouter => "openrouter"

def Engine.publishesServedModelId (engine : Engine) : Bool := decide (engine ≠ openrouter)

def Engine.reasoningIsSwitchable (engine : Engine) : Bool := decide (engine ≠ llamacpp)

/-- `provider_for_engine`.  No other character becomes one of these names in lower case. -/
def providerForEngine (engine : String) : Engine :=
  let key := (Text.strip engine.toList).map Char.toLower
  let known := [Engine.llamacpp, .vllm, .openrouter]
  ((known.find? fun engine => decide (key = engine.name.toList)).or
    (known.find? fun engine => engine.name.toList.isPrefixOf key)).getD .llamacpp

/-- The value of a keyword argument: one of the file, or a collection that the builder makes. -/
inductive Value where
  | raw (value : Json)
  | tuple (names : List String)
  | frozenset (names : Finset String)
  deriving DecidableEq

def policyPassthrough : List String :=
  ["background_floor_pct", "fast_path_reserve_slots", "dispatch_concurrency_cap", "slot_affinity",
    "skip_discovery", "min_expected_slots", "documented_max_num_seqs", "disable_any_whitespace",
    "forced_reasoning_budget", "input_usd_per_mtok", "output_usd_per_mtok", "thinking_budget_ratio",
    "thinking_temperature", "thinking_top_p", "reasoning_budget_tokens", "reasoning_effort",
    "thinking_reasoning_budget", "thinking_effort", "reasoning_effort_map", "reasoning_loop_window_chars",
    "reasoning_loop_min_chars", "reasoning_loop_max_distinct_ratio", "reasoning_loop_check_every_chars",
    "structured_blank_run_abort_chars", "readiness_critical", "failover_dwell_s", "goodput_min_running",
    "goodput_sustain_evaluations", "goodput_max_iteration_rate", "goodput_max_generation_tps",
    "goodput_max_prefill_tps", "goodput_recovery_evaluations", "goodput_max_hold_s",
    "goodput_busy_probe_url", "goodput_busy_probe_metric", "goodput_busy_min", "replay_reasoning_history",
    "repair_close_only_reasoning", "answer_now_reasoning_budget", "prefix_keepalive_trigger_tokens",
    "prefix_keepalive_idle_s", "prefix_keepalive_max_prefixes", "residency_tenant"]

/-- The strings of a list that are not blank. -/
def words (items : List Json) : List String :=
  (items.filterMap Json.asStr?).filter fun word => decide (strip word ≠ "")

/-- The arguments that say how a backend is reached. -/
def connection (cat : Catalog) (p : ProviderEntry) (kw : Dict String Value) : Dict String Value :=
  let kw :=
    if p.baseUrl ≠ "" then kw.set "base_url" (.raw (.str p.baseUrl))
    else (kw.set "host" (.raw (.str ((cat.hosts.get? p.host).getD p.host)))).set "port" (.raw (.int p.port))
  let kw := if p.apiKeyEnv ≠ "" then kw.set "api_key_env" (.raw (.str p.apiKeyEnv)) else kw
  if providerForEngine p.engine ≠ .llamacpp then kw.set "backend_engine" (.raw (.str p.engine)) else kw

/-- The arguments that come from the capabilities. -/
def capabilityKwargs (e : EndpointEntry) (engine : Engine) (kw : Dict String Value) : Dict String Value :=
  let kw := kw.set "kind" (.raw e.kind)
  let kw := kw.set "capabilities"
    (.frozenset ((e.capabilities.filter fun field => field.2.truthy).map Prod.fst).toFinset)
  let kw :=
    if (Fields.get e.capabilities "reasoning").truthy && !engine.reasoningIsSwitchable then
      kw.set "forces_reasoning" (.raw (.bool true))
    else kw
  if (Fields.get e.capabilities "vision").truthy then kw.set "vision" (.raw (.bool true)) else kw

/-- One key that is copied through. -/
def passThrough (pol : Fields) (kw : Dict String Value) (src : String) : Dict String Value :=
  match Fields.get? pol src with
  | some value => kw.set src (.raw value)
  | none => kw

def fingerprintKwarg (pol : Fields) (kw : Dict String Value) : Dict String Value :=
  match Fields.get pol "model_fingerprint" with
  | .str fp => if strip fp ≠ "" then kw.set "model_fingerprint" (.raw (.str (strip fp))) else kw
  | _ => kw

/-- An empty list is a declaration, a list of junk is none. -/
def thinkingKwarg (pol : Fields) (kw : Dict String Value) : Dict String Value :=
  match Fields.get pol "thinking_kwargs" with
  | .arr items =>
      let kw := kw.set "thinking_kwargs" (.tuple (words items))
      if items = [] then kw.set "no_thinking_switch" (.raw (.bool true)) else kw
  | .str key => if strip key ≠ "" then kw.set "thinking_kwargs" (.tuple [strip key]) else kw
  | _ => kw

def keepaliveKwarg (pol : Fields) (kw : Dict String Value) : Dict String Value :=
  match Fields.get pol "prefix_keepalive_call_sites" with
  | .arr items => kw.set "prefix_keepalive_call_sites" (.tuple (words items))
  | .str site => if strip site ≠ "" then kw.set "prefix_keepalive_call_sites" (.tuple [strip site]) else kw
  | _ => kw

/-- The arguments that come from the policy. -/
def policyKwargs (pol : Fields) (kw : Dict String Value) : Dict String Value :=
  keepaliveKwarg pol (thinkingKwarg pol (fingerprintKwarg pol (policyPassthrough.foldl (passThrough pol) kw)))

/-- The first loop of `build_endpoint_kwargs`, for one entry. -/
def entryKwargs (cat : Catalog) (e : EndpointEntry) : Dict String Value :=
  let p := (cat.provider e.provider).getD {}
  let engine := providerForEngine p.engine
  let kw := (((Dict.set ∅ "endpoint_class" (.raw (.str e.name))).set "role" (.raw (.str e.role))).set
    "max_slots" (.raw (.int e.slots))).set "context_per_slot" (.raw (.int e.contextPerSlot))
  let kw := connection cat p kw
  let kw :=
    if e.model ≠ "" ∧ engine.publishesServedModelId = false then
      kw.set "served_model_id" (.raw (.str e.model))
    else kw
  let kw := if e.status = .onDemand then kw.set "on_demand" (.raw (.bool true)) else kw
  policyKwargs e.policy (capabilityKwargs e engine kw)

/-- The second loop and the third: a target that is built itself is written under the key. -/
def armTarget (key : String) (target : EndpointEntry → String)
    (out : Dict String (Dict String Value)) (e : EndpointEntry) : Dict String (Dict String Value) :=
  if target e = "" ∨ out.contains e.name = false ∨ target e = e.name then out
  else if out.contains (target e) then out.modify e.name fun kw => kw.set key (.raw (.str (target e)))
  else out

/-- `build_endpoint_kwargs`. -/
def buildEndpointKwargs (cat : Catalog) (entries : Option (List EndpointEntry)) :
    Dict String (Dict String Value) :=
  let out := (entries.getD cat.routed).foldl (fun out e => out.set e.name (entryKwargs cat e)) ∅
  let out := cat.routed.foldl (armTarget "failover_to" EndpointEntry.failoverTo) out
  cat.routed.foldl (armTarget "spill_to" EndpointEntry.spillTo) out

/-- What `EndpointConfig` has where no argument is given. -/
def endpointDefaults : List (String × Value) :=
  [("max_slots", .raw (.int 0)), ("context_per_slot", .raw (.int 0)),
    ("min_expected_slots", .raw (.int 1)), ("documented_max_num_seqs", .raw (.int 0)),
    ("disable_any_whitespace", .raw (.bool false)), ("structured_blank_run_abort_chars", .raw (.int 0)),
    ("thinking_budget_ratio", .raw (.float (.finite 0))),
    ("thinking_temperature", .raw (.float (.finite (-1)))),
    ("thinking_top_p", .raw (.float (.finite (-1)))), ("reasoning_loop_window_chars", .raw (.int 0)),
    ("reasoning_loop_min_chars", .raw (.int 0)),
    ("reasoning_loop_max_distinct_ratio", .raw (.float (.finite 0))),
    ("reasoning_loop_check_every_chars", .raw (.int 0)), ("reasoning_budget_tokens", .raw (.int 0)),
    ("reasoning_effort", .raw (.str "")), ("thinking_reasoning_budget", .raw (.int 0)),
    ("thinking_kwargs", .tuple []), ("no_thinking_switch", .raw (.bool false)),
    ("repair_close_only_reasoning", .raw (.bool false)),
    ("answer_now_reasoning_budget", .raw (.bool false)), ("thinking_effort", .raw (.str "")),
    ("reasoning_effort_map", .raw (.obj [])), ("replay_reasoning_history", .raw (.bool false)),
    ("prefix_keepalive_call_sites", .tuple []), ("prefix_keepalive_trigger_tokens", .raw (.int 0)),
    ("prefix_keepalive_idle_s", .raw (.int 0)), ("prefix_keepalive_max_prefixes", .raw (.int 0)),
    ("model_fingerprint", .raw (.str "")), ("discovered_model_fingerprint", .raw (.str "")),
    ("not_implemented", .frozenset ∅), ("thinking_canary_state", .raw (.str "")),
    ("thinking_canary_checked_at", .raw (.float (.finite 0))), ("failover_to", .raw (.str "")),
    ("goodput_min_running", .raw (.int 0)), ("goodput_sustain_evaluations", .raw (.int 0)),
    ("goodput_max_iteration_rate", .raw (.float (.finite 0))),
    ("goodput_max_generation_tps", .raw (.float (.finite 0))),
    ("goodput_max_prefill_tps", .raw (.float (.finite 0))),
    ("goodput_recovery_evaluations", .raw (.int 0)), ("goodput_max_hold_s", .raw (.float (.finite 0))),
    ("goodput_busy_probe_url", .raw (.str "")), ("goodput_busy_probe_metric", .raw (.str "")),
    ("goodput_busy_min", .raw (.float (.finite 0))), ("failover_dwell_s", .raw (.float (.finite 120))),
    ("spill_to", .raw (.str "")), ("input_usd_per_mtok", .raw .null), ("output_usd_per_mtok", .raw .null),
    ("background_floor_pct", .raw (.float (.finite (1 / 5)))), ("fast_path_reserve_slots", .raw (.int 0)),
    ("dispatch_concurrency_cap", .raw (.int 0)), ("host", .raw (.str "")), ("port", .raw (.int 0)),
    ("base_url", .raw (.str "")), ("api_key_env", .raw (.str "")), ("served_model_id", .raw (.str "")),
    ("shadow_host", .raw (.str "")), ("shadow_port", .raw (.int 0)),
    ("backend_engine", .raw (.str "llama.cpp")), ("forces_reasoning", .raw (.bool false)),
    ("forced_reasoning_budget", .raw (.int 0)), ("vision", .raw (.bool false)),
    ("kind", .raw (.str "chat")), ("capabilities", .frozenset ∅), ("on_demand", .raw (.bool false)),
    ("dispatcher_capability", .raw (.str "")), ("residency_tenant", .raw (.str "")),
    ("slot_affinity", .raw (.bool false)), ("skip_discovery", .raw (.bool false)),
    ("readiness_critical", .raw (.bool false))]

/-- A field of `EndpointConfig(**kw)`. -/
def endpointConfig (kw : Dict String Value) (field : String) : Option Value :=
  (kw.get? field).or (endpointDefaults.lookup field)

/-- `build_endpoint`; `none` is its `KeyError`. -/
def buildEndpoint (name : String) (cat : Catalog) : Option (String → Option Value) :=
  match cat.endpoints.get? name with
  | none => none
  | some entry => ((buildEndpointKwargs cat (some [entry])).get? name).map endpointConfig

end Roadstead.ModelCatalog
