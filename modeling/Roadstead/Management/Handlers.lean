import Roadstead.AgentBudget
import Roadstead.Management
import Roadstead.ModelCatalog

/-!
# The writes of the admin plane

The handlers of `management.py` that write: keys, the quota of a caller, the status of an endpoint and the stanzas
of the catalog, with `_commit_catalog`, `reconcile_endpoints` and `install_endpoint`.  The definitions follow
the source; nothing is proved here.

An answer is the state after the request and the HTTP status; an exception is a 500.  A validated body
is the outcome of its validator, with finite numbers.  What `load_catalog` makes of the file under a
fragment is a function of `Env`, for the file can change between two requests.  The texts of the answers, log lines
and the file of the overlay are left out, and of an audit record all but its action and target.
-/

namespace Roadstead.Management

open Roadstead.Identity
open Roadstead.ModelCatalog (Catalog EndpointEntry Engine Value providerForEngine buildEndpoint policyPassthrough)
open Json (Fields)

/-! ### What a write can change -/

inductive CatalogSection where
  | providers
  | endpoints
  deriving DecidableEq

/-- A runtime fragment of the catalog: the stanzas of each section, where `none` is a tombstone. -/
structure Fragment where
  providers : Dict String (Option Fields) := ∅
  endpoints : Dict String (Option Fields) := ∅

namespace Fragment

def stanzas (f : Fragment) : CatalogSection → Dict String (Option Fields)
  | .providers => f.providers
  | .endpoints => f.endpoints

def setStanza (f : Fragment) (name : String) (stanza : Option Fields) : CatalogSection → Fragment
  | .providers => { f with providers := f.providers.set name stanza }
  | .endpoints => { f with endpoints := f.endpoints.set name stanza }

/-- The candidate of `_commit_catalog`. -/
def candidate (f : Fragment) (sec : CatalogSection) (name : String) (fields : Option Fields) (replace : Bool) :
    Fragment :=
  match fields with
  | none => f.setStanza name none sec
  | some fields =>
      if replace then f.setStanza name (some fields) sec
      else
        match (f.stanzas sec).get? name with
        | some (some current) => f.setStanza name (some (current.update fields)) sec
        | _ => f.setStanza name (some fields) sec

end Fragment

/-- The fields of `AgentQuotaConfig` that a PATCH can edit. -/
structure AgentQuota extends AgentQuotaConfig where
  defaultPriority : LLMPriority := .p1TurnSupport
  dailySpendUsd : Option ℚ := none
  requestsPerMinute : Option ℚ := none

/-- A body that `validate_quota_patch` accepted: the fields that it names. -/
structure QuotaPatch where
  weight : Option ℚ := none
  maxBalanceSs : Option ℚ := none
  defaultPriority : Option LLMPriority := none
  degradeOk : Option Bool := none
  spillOk : Option Bool := none
  dailySpendUsd : Option (Option ℚ) := none
  requestsPerMinute : Option (Option ℚ) := none

namespace QuotaPatch

/-- The `setattr` loop. -/
def edit (fields : QuotaPatch) (cfg : AgentQuota) : AgentQuota where
  agentId := cfg.agentId
  weight := fields.weight.getD cfg.weight
  maxBalanceSs := fields.maxBalanceSs.getD cfg.maxBalanceSs
  spillOk := fields.spillOk.getD cfg.spillOk
  degradeOk := fields.degradeOk.getD cfg.degradeOk
  defaultPriority := fields.defaultPriority.getD cfg.defaultPriority
  dailySpendUsd := fields.dailySpendUsd.getD cfg.dailySpendUsd
  requestsPerMinute := fields.requestsPerMinute.getD cfg.requestsPerMinute

/-- `dict.update`. -/
def update (old fields : QuotaPatch) : QuotaPatch where
  weight := fields.weight.or old.weight
  maxBalanceSs := fields.maxBalanceSs.or old.maxBalanceSs
  defaultPriority := fields.defaultPriority.or old.defaultPriority
  degradeOk := fields.degradeOk.or old.degradeOk
  spillOk := fields.spillOk.or old.spillOk
  dailySpendUsd := fields.dailySpendUsd.or old.dailySpendUsd
  requestsPerMinute := fields.requestsPerMinute.or old.requestsPerMinute

end QuotaPatch

structure AdminOverlay where
  keys : KeyOverlay := {}
  agents : Dict String QuotaPatch := ∅
  catalog : Fragment := {}
  /-- The action and the target of each record. -/
  audit : List (String × String) := []
  auditDropped : ℕ := 0

namespace AdminOverlay

def auditMax : ℕ := 500

/-- `record`. -/
def record (action target : String) (o : AdminOverlay) : AdminOverlay :=
  let audit := o.audit ++ [(action, target)]
  let dropped := audit.length - auditMax
  { o with audit := audit.drop dropped, auditDropped := o.auditDropped + dropped }

/-- `set_agent`. -/
def setAgent (agentId : String) (fields : QuotaPatch) (o : AdminOverlay) : AdminOverlay :=
  { o with agents := o.agents.set agentId (((o.agents.get? agentId).getD {}).update fields) }

end AdminOverlay

/-- `EndpointConfig`: the value of each field. -/
abbrev EndpointConfig := String → Option Value

/-- What a write can change. -/
structure Managed where
  /-- `config.endpoints`: the routing table. -/
  endpoints : Dict String EndpointConfig := ∅
  /-- `model_catalog._runtime_overlay`. -/
  runtimeOverlay : Fragment := {}
  overlay : AdminOverlay := {}
  keys : KeyRegistry := {}
  /-- `config.agents`. -/
  agents : Dict String AgentQuota := ∅
  budgets : BudgetManager := {}

namespace Managed

variable (m : Managed)

def plane : KeyPlane := ⟨m.keys, m.overlay.keys⟩

def withPlane (p : KeyPlane) : Managed :=
  { m with keys := p.registry, overlay := { m.overlay with keys := p.overlay } }

def record (action target : String) : Managed := { m with overlay := m.overlay.record action target }

/-- `remove_endpoint`. -/
def removeEndpoint (name : String) : Managed := { m with endpoints := m.endpoints.erase name }

end Managed

/-- A config notice. -/
structure Notice where
  subject : String
  problem : String
  deriving DecidableEq

def maxConfigNotices : ℕ := 256

/-- `config_notice`, for each of `new`: only the last ones are retained. -/
def report (notices new : List Notice) : List Notice :=
  (notices ++ new).drop ((notices ++ new).length - maxConfigNotices)

/-- A catalog that is loaded.  The coercion takes the `provider` of an endpoint and the `api_key_env` of a provider
as they are; the catalog has the text of a value of another type. -/
structure Loaded where
  catalog : Catalog
  /-- The endpoints with a `provider` that cannot be hashed, or with a provider whose `api_key_env` is not text. -/
  untyped : List String := []
  /-- The endpoints with a provider whose `engine` is not text, or whose `host` cannot be hashed. -/
  unreached : List String := []
  /-- The routed endpoints with a target that cannot be hashed. -/
  untargeted : List String := []

/-- The state of the process: what a write can change, the cached catalog and the notices. -/
structure Admin where
  managed : Managed
  cache : Option Loaded := none
  notices : List Notice := []

/-- What a handler finds around it. -/
structure Env where
  helpers : Helpers
  /-- `load_catalog` of the file under a fragment: its notices, and the catalog unless it raises. -/
  load : Fragment → List Notice × Option Loaded
  environ : String → Option String
  /-- The requests in flight on an endpoint. -/
  inFlight : String → ℕ
  /-- `str` of a value that is not text. -/
  str : Json → String
  /-- `_gate`. -/
  denied : Option Denial := none
  /-- The secret that is generated. -/
  fresh : String
  now : ℚ
  later : ℚ

/-! ### The routing table and the catalog -/

variable (env : Env)

/-- `load_catalog` without a candidate. -/
def Admin.loadCatalog (a : Admin) : Admin × Option Loaded :=
  match a.cache with
  | some loaded => (a, some loaded)
  | none =>
      let (new, found) := env.load a.managed.runtimeOverlay
      ({ a with cache := found, notices := report a.notices new }, found)

/-- `endpoint_credential_gap`; `none` where it raises. -/
def endpointCredentialGap (name : String) (loaded : Loaded) : Option (Option String) :=
  match loaded.catalog.endpoints.get? name with
  | none => some none
  | some entry =>
      if name ∈ loaded.untyped then none
      else
        let provider := loaded.catalog.providers.get? entry.provider
        let envVar := (provider.map fun p => ModelCatalog.strip p.apiKeyEnv).getD ""
        some (if envVar ≠ "" ∧ (env.environ envVar).getD "" = "" then some envVar else none)

def policyHandled : List String := ["model_fingerprint", "thinking_kwargs", "prefix_keepalive_call_sites"]

/-- The notice of `build_endpoint_kwargs` about an entry. -/
def policyNotices (e : EndpointEntry) : List Notice :=
  if (e.policy.filter fun field => decide (field.1 ∉ policyPassthrough ++ policyHandled)) ≠ [] then
    [⟨"endpoints." ++ e.name ++ ".policy", "unknown_key"⟩]
  else []

/-- The notices of `build_endpoint`. -/
def buildNotices (name : String) (cat : Catalog) : List Notice :=
  ((cat.endpoints.get? name).map policyNotices).getD []

/-- `build_endpoint_kwargs` of some endpoints: its notices, and whether it returns.  One that cannot be reached
raises where it is built, and a target is looked up when all are built. -/
def Loaded.build (loaded : Loaded) (names : List String) : List Notice × Bool :=
  let reached := names.takeWhile fun n => decide (n ∉ loaded.unreached)
  (reached.flatMap fun n => buildNotices n loaded.catalog,
    decide (reached.length = names.length) && names.all fun n => decide (n ∉ loaded.untargeted))

/-- `install_endpoint`, of an endpoint that can be built. -/
def Admin.installEndpoint (a : Admin) (name : String) (cat : Catalog) : Admin :=
  match buildEndpoint name cat with
  | some ep =>
      { a with
        managed := { a.managed with endpoints := a.managed.endpoints.set name ep }
        notices := report a.notices (buildNotices name cat) }
  | none => a

def isRouted (cat : Catalog) (name : String) : Bool := cat.routed.any fun e => decide (e.name = name)

/-- One name of `reconcile_endpoints`: the table and the notices so far, or the notices where it raises.  A commit
has built the endpoint before. -/
def reconcileEndpoint (loaded : Loaded) (rebuild : List String)
    (done : Dict String EndpointConfig × List Notice) (name : String) :
    Except (List Notice) (Dict String EndpointConfig × List Notice) :=
  if isRouted loaded.catalog name = false then .ok (done.1.erase name, done.2)
  else
    match endpointCredentialGap env name loaded with
    | none => .error done.2
    | some (some _) => .ok (done.1.erase name, done.2)
    | some none =>
        if done.1.contains name = false ∨ name ∈ rebuild then
          match buildEndpoint name loaded.catalog with
          | some ep => .ok (done.1.set name ep, done.2 ++ buildNotices name loaded.catalog)
          | none => .error done.2
        else .ok done

/-- `reconcile_endpoints`: the new table, which takes the place of the old one at the end. -/
def reconcileEndpoints (loaded : Loaded) (names rebuild : List String) (table : Dict String EndpointConfig) :
    Except (List Notice) (Dict String EndpointConfig × List Notice) :=
  (names.mergeSort fun x y => decide (x ≤ y)).foldlM (reconcileEndpoint env loaded rebuild) (table, [])

/-- The endpoints that a stanza is about. -/
def affected (cat : Catalog) (sec : CatalogSection) (name : String) : List String :=
  match sec with
  | .endpoints => [name]
  | .providers => (cat.entries.filter fun e => decide (e.provider = name)).map EndpointEntry.name

/-- Those of them that the catalog has. -/
def entriesOf (cat : Catalog) (sec : CatalogSection) (name : String) : List String :=
  (affected cat sec name).filter cat.endpoints.contains

def sectionName : CatalogSection → String
  | .providers => "providers"
  | .endpoints => "endpoints"

/-- What `_commit_catalog` does before it installs: the candidate is loaded and built, and it is given
unless that raises or a notice is about the stanza. -/
def Admin.weigh (a : Admin) (sec : CatalogSection) (name : String) (candidate : Fragment) :
    Admin × Option Loaded :=
  match env.load candidate with
  | (new, none) => ({ a with notices := report a.notices new }, none)
  | (new, some loaded) =>
      let (built, builds) := loaded.build (entriesOf loaded.catalog sec name)
      let notices := report a.notices (new ++ built)
      let pre := sectionName sec ++ "." ++ name
      let complaints :=
        (notices.drop a.notices.length).filter fun n => pre.toList.isPrefixOf n.subject.toList
      ({ a with notices := notices }, if builds = true ∧ complaints = [] then some loaded else none)

/-- The overlay and the runtime fragment of a commit; a tombstone takes its endpoint out of the table. -/
def Managed.install (m : Managed) (sec : CatalogSection) (name : String) (fields : Option Fields)
    (candidate : Fragment) : Managed :=
  let m := { m with overlay := { m.overlay with catalog := candidate }, runtimeOverlay := candidate }
  if fields.isNone = true ∧ sec = .endpoints then m.removeEndpoint name else m

/-- `_commit_catalog`. -/
def Admin.commitCatalog (a : Admin) (sec : CatalogSection) (name : String) (fields : Option Fields)
    (replace : Bool) (action : String) : Admin × ℕ :=
  let candidate := a.managed.overlay.catalog.candidate sec name fields replace
  match a.weigh env sec name candidate with
  | (a, none) => (a, 400)
  | (a, some loaded) =>
      let a := { a with managed := a.managed.install sec name fields candidate, cache := none }
      let touched := affected loaded.catalog sec name
      match reconcileEndpoints env loaded touched touched a.managed.endpoints with
      | .error new => ({ a with notices := report a.notices new }, 500)
      | .ok (table, new) =>
          ({ a with
              managed := { a.managed with endpoints := table }.record action name
              notices := report a.notices new }, 200)

/-! ### Keys and quotas -/

/-- A body that is not JSON, one that its validator refuses, or what it makes of it. -/
inductive Body (α : Type) where
  | notJson
  | invalid
  | valid (spec : α)

variable (a : Admin)

/-- `handle_admin_keys`: POST. -/
def handleAdminKeys (body : Body KeyCreate) : Admin × ℕ :=
  match env.denied with
  | some denial => (a, denial.status)
  | none =>
      match body with
      | .notJson => (a, 400)
      | .invalid => (a, 400)
      | .valid spec =>
          match a.managed.plane.enrol env.helpers spec env.fresh env.now with
          | none => (a, 409)
          | some (p, id) => ({ a with managed := (a.managed.withPlane p).record "key.enrol" id }, 201)

/-- `handle_admin_key`: DELETE. -/
def handleAdminKey (keyId : String) : Admin × ℕ :=
  match env.denied with
  | some denial => (a, denial.status)
  | none =>
      match a.managed.plane.revoke keyId with
      | none => (a, 404)
      | some p => ({ a with managed := (a.managed.withPlane p).record "key.revoke" keyId }, 200)

/-- An empty body is the common case of a rotation. -/
def Body.rotation : Body KeyRotate → Option KeyRotate
  | .notJson => some {}
  | .invalid => none
  | .valid spec => some spec

/-- `iso_time` does not raise: `time.gmtime` has an `OverflowError`, which is not caught, where the instant is not
one of a signed 64-bit `time_t`. -/
def printable (epoch : ℚ) : Bool := decide (-2 ^ 63 ≤ ⌊epoch⌋ ∧ ⌊epoch⌋ < 2 ^ 63)

/-- The overlap is cut to the predecessor's own expiry, which is printed then. -/
def cutShort (row : Principal × Credential) (spec : KeyRotate) : Option ℚ :=
  let overlap := spec.overlapS.getD 0
  row.2.expiresAt.filter fun expiresAt => decide (0 < overlap ∧ expiresAt < env.later + overlap)

/-- The successor of a key that expires has no expiry; the one of the key is printed then. -/
def unlimited (row : Principal × Credential) (spec : KeyRotate) : Option ℚ :=
  row.2.expiresAt.filter fun _ => decide (spec.expiresInS = none)

/-- `handle_admin_key_rotate`. -/
def handleAdminKeyRotate (keyId : String) (body : Body KeyRotate) : Admin × ℕ :=
  match env.denied with
  | some denial => (a, denial.status)
  | none =>
      match snapshotRow a.managed.keys keyId with
      | none => (a, 404)
      | some row =>
          match body.rotation with
          | none => (a, 400)
          | some spec =>
              match a.managed.plane.enrolSpec env.helpers (spec.spec keyId env.fresh env.now row) env.fresh env.now with
              | none => (a, 409)
              | some (p, _) =>
                  if (cutShort env row spec).all printable = false then ({ a with managed := a.managed.withPlane p }, 500)
                  else
                    let p := p.retire keyId row (spec.overlapS.getD 0) env.later
                    let a := { a with managed := (a.managed.withPlane p).record "key.rotate" keyId }
                    if (unlimited row spec).all printable = false then (a, 500) else (a, 201)

/-- `handle_admin_caller`: PATCH. -/
def handleAdminCaller (agentId : String) (body : Body QuotaPatch) : Admin × ℕ :=
  match env.denied with
  | some denial => (a, denial.status)
  | none =>
      match body with
      | .notJson => (a, 400)
      | .invalid => (a, 400)
      | .valid fields =>
          let m := a.managed
          let cfg := (m.agents.get? agentId).getD { agentId := agentId }
          let budgets :=
            if fields.weight.isSome ∨ fields.maxBalanceSs.isSome then
              m.budgets.reweight agentId fields.weight fields.maxBalanceSs
            else m.budgets
          let m := { m with
            agents := m.agents.set agentId (fields.edit cfg)
            budgets := budgets
            overlay := m.overlay.setAgent agentId fields }
          ({ a with managed := m.record "caller.quota" agentId }, 200)

/-! ### The status of an endpoint -/

/-- The word of a status body, if it is one of the two. -/
def statusWord (body : Option Json) : Option String :=
  match body with
  | some (.obj fields) =>
      if (fields.any fun field => decide (field.1 ≠ "status")) = true then none
      else
        match Fields.get fields "status" with
        | .str status => if status = "active" ∨ status = "planned" then some status else none
        | _ => none
  | _ => none

/-- `handle_admin_endpoint_status` up to where it changes the routing table: an error, or the status and the
catalog. -/
def statusTarget (name : String) (body : Option Json) : Admin × Except ℕ (String × Catalog) :=
  match statusWord body with
  | none => (a, .error 400)
  | some status =>
      match a.loadCatalog env with
      | (a, none) => (a, .error 500)
      | (a, some loaded) =>
          if loaded.catalog.endpoints.contains name = false then (a, .error 404)
          else if status = "active" then
            match endpointCredentialGap env name loaded with
            | none => (a, .error 500)
            | some (some _) => (a, .error 400)
            | some none =>
                match loaded.build [name] with
                | (_, true) => (a, .ok (status, loaded.catalog))
                | (built, false) => ({ a with notices := report a.notices built }, .error 500)
          else if env.inFlight name ≠ 0 then (a, .error 400)
          else (a, .ok (status, loaded.catalog))

/-- The routing table of `handle_admin_endpoint_status`, before it commits. -/
def Admin.place (a : Admin) (name status : String) (cat : Catalog) : Admin :=
  if status = "active" then a.installEndpoint name cat else { a with managed := a.managed.removeEndpoint name }

/-- `handle_admin_endpoint_status`. -/
def handleAdminEndpointStatus (name : String) (body : Option Json) : Admin × ℕ :=
  match env.denied with
  | some denial => (a, denial.status)
  | none =>
      match statusTarget env a name body with
      | (a, .error status) => (a, status)
      | (a, .ok (status, cat)) =>
          (a.place name status cat).commitCatalog env .endpoints name (some [("status", .str status)]) false
            "endpoint.status"

/-! ### The stanzas of the catalog -/

inductive CatalogMethod where
  | put
  | patch
  | delete
  deriving DecidableEq

/-- A regular expression of one character and at most `more` others, up to the end or a last line break. -/
def wordMatches (first rest : Char → Bool) (more : ℕ) (text : List Char) : Bool :=
  match if text.getLast? = some '\n' then text.dropLast else text with
  | [] => false
  | c :: cs => first c && cs.all rest && decide (cs.length ≤ more)

def asciiAlnum (c : Char) : Bool := c.isAlphanum

/-- `_CATALOG_NAME`. -/
def catalogName (name : String) : Bool :=
  wordMatches asciiAlnum (fun c => asciiAlnum c || c == '.' || c == '_' || c == '-') 63 name.toList

/-- `_ENV_VAR_NAME`. -/
def envVarName (name : String) : Bool :=
  wordMatches (fun c => c.isAlpha || c == '_') (fun c => asciiAlnum c || c == '_') 127 name.toList

def reservedEnvPrefixes : List String := ["ROADSTEAD_", "LLM_PROXY_"]

def allowedFields : CatalogSection → List String
  | .providers => ["engine", "host", "port", "base_url", "api_key_env", "notes"]
  | .endpoints =>
      ["provider", "kind", "status", "model", "role", "aliases", "slots", "context_per_slot", "timeout_floor_s",
        "timeout_ceiling_s", "stream_hard_cap_s", "capabilities", "failover_to", "spill_to", "degrade_ok", "spill_ok",
        "policy", "notes"]

/-- `str(value or "").strip()`. -/
def textOf (value : Json) : String :=
  match value with
  | .str text => ModelCatalog.strip text
  | value => if value.truthy then ModelCatalog.strip (env.str value) else ""

def knownEngines : List String := [Engine.llamacpp, .vllm, .openrouter].map Engine.name

/-- `_provider_address_refusal`: the stanza cannot reach anything. -/
def providerAddressRefused (cat : Catalog) (name : String) (body : Fields) (method : CatalogMethod) : Bool :=
  let existing := cat.providers.get? name
  let engine :=
    if (body.get "engine").truthy then textOf env (body.get "engine")
    else ModelCatalog.strip ((existing.map ModelCatalog.ProviderEntry.engine).getD "")
  if engine = "" ∨ String.ofList (lower engine.toList) ∉ knownEngines then true
  else
    let before : Fields :=
      match method, existing with
      | .put, _ => []
      | _, none => [("host", .str ""), ("port", .int 0), ("base_url", .str ""), ("api_key_env", .str "")]
      | _, some p =>
          [("host", .str p.host), ("port", .int p.port), ("base_url", .str p.baseUrl),
            ("api_key_env", .str p.apiKeyEnv)]
    let merged := before.update (body.erase "engine")
    let remote := decide (providerForEngine engine = .openrouter)
    let baseless := decide (textOf env (merged.get "base_url") = "")
    if remote && baseless then true
    else if !remote && baseless &&
        (decide (textOf env (merged.get "host") = "") || !(merged.get "port").truthy) then true
    else remote && decide (textOf env (merged.get "api_key_env") = "")

/-- The body of a stanza is refused before the catalog is looked at. -/
def stanzaRefused (sec : CatalogSection) (body : Fields) : Bool :=
  let envVar := textOf env (body.get "api_key_env")
  body.any (fun field => decide (field.1 ∉ allowedFields sec)) || body.has "api_key" || body.has "key" ||
    (decide (envVar ≠ "") && !envVarName envVar) ||
    reservedEnvPrefixes.any fun pre => pre.toList.isPrefixOf (env.helpers.upper envVar).toList

/-- `_may_delete`: an error, if it refuses. -/
def mayDelete (sec : CatalogSection) (name : String) : Admin × Option ℕ :=
  match sec with
  | .endpoints => (a, if env.inFlight name ≠ 0 then some 400 else none)
  | .providers =>
      match a.loadCatalog env with
      | (a, none) => (a, some 500)
      | (a, some loaded) => (a, if affected loaded.catalog .providers name ≠ [] then some 400 else none)

/-- `_provider_address_refusal` of the catalog in force: an error, if it refuses. -/
def addressRefusal (sec : CatalogSection) (name : String) (body : Fields) (method : CatalogMethod) :
    Admin × Option ℕ :=
  match sec with
  | .endpoints => (a, none)
  | .providers =>
      match a.loadCatalog env with
      | (a, none) => (a, some 500)
      | (a, some loaded) =>
          (a, if providerAddressRefused env loaded.catalog name body method then some 400 else none)

/-- `handle_admin_catalog_entry` up to its commit: an error, or the stanza. -/
def entryTarget (sec : CatalogSection) (name : String) (method : CatalogMethod) (body : Option Json) :
    Admin × Except ℕ (Option Fields) :=
  if catalogName name = false then (a, .error 400)
  else if method = .delete then
    match mayDelete env a sec name with
    | (a, some status) => (a, .error status)
    | (a, none) => (a, .ok none)
  else
    match body with
    | some (.obj fields) =>
        if stanzaRefused env sec fields then (a, .error 400)
        else
          match addressRefusal env a sec name fields method with
          | (a, some status) => (a, .error status)
          | (a, none) => (a, .ok (some fields))
    | _ => (a, .error 400)

def entryAction (sec : CatalogSection) (method : CatalogMethod) : String :=
  (if sec = .providers then "provider." else "endpoint.") ++
    match method with
    | .put => "replace"
    | .patch => "edit"
    | .delete => "delete"

/-- `handle_admin_catalog_entry`. -/
def handleAdminCatalogEntry (sec : CatalogSection) (name : String) (method : CatalogMethod) (body : Option Json) :
    Admin × ℕ :=
  match env.denied with
  | some denial => (a, denial.status)
  | none =>
      match entryTarget env a sec name method body with
      | (a, .error status) => (a, status)
      | (a, .ok fields) =>
          a.commitCatalog env sec name fields (decide (method = .put)) (entryAction sec method)

/-! ### Requests -/

inductive Request where
  | enrol (body : Body KeyCreate)
  | rotate (keyId : String) (body : Body KeyRotate)
  | revoke (keyId : String)
  | caller (agentId : String) (body : Body QuotaPatch)
  | endpointStatus (name : String) (body : Option Json)
  | catalogEntry (sec : CatalogSection) (name : String) (method : CatalogMethod) (body : Option Json)

def Admin.answer : Request → Admin × ℕ
  | .enrol body => handleAdminKeys env a body
  | .rotate keyId body => handleAdminKeyRotate env a keyId body
  | .revoke keyId => handleAdminKey env a keyId
  | .caller agentId body => handleAdminCaller env a agentId body
  | .endpointStatus name body => handleAdminEndpointStatus env a name body
  | .catalogEntry sec name method body => handleAdminCatalogEntry env a sec name method body

end Roadstead.Management
