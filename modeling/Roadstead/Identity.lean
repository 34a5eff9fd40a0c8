import Roadstead.Config
import Roadstead.Lib.Text

/-!
# Who a request is from

`identity.py`: the principal, the key registry, the address of a client, `resolve`, `delegate` and the
gates of the admin plane, with the parts of `acl.py` that they ask.  The definitions follow the source;
nothing is proved here.

A denial is the error of an `Except`, and a resolution has a principal otherwise.  SHA-256, base64,
the parser and the printer of addresses, `str.upper`, `repr` and the rendering of an instant are functions of
`Helpers`.  Log lines and the tally of placeholders are left out.
-/

namespace Roadstead.Identity

/-! ### Addresses -/

/-- An address of `ipaddress`. -/
structure Address where
  v6 : Bool
  value : ℕ
  scope : String := ""
  deriving DecidableEq

/-- A network, `strict=False`.  The scope id of an IPv6 one is left out: `in` does not read it. -/
structure Network where
  v6 : Bool
  value : ℕ
  prefixlen : ℕ
  deriving DecidableEq

/-- `addr in net`. -/
def Network.holds (net : Network) (addr : Address) : Bool :=
  let rest := (if net.v6 then 128 else 32) - net.prefixlen
  decide (addr.v6 = net.v6 ∧ addr.value / 2 ^ rest = net.value / 2 ^ rest)

/-- What the source uses of the standard library. -/
structure Helpers where
  /-- The hexadecimal SHA-256 digest of a text. -/
  digest : String → String
  /-- `b64decode(blob, validate=True).decode("utf-8")`. -/
  decode : String → Option String
  /-- `ipaddress.ip_address`. -/
  ipAddress : String → Option Address
  /-- `ipaddress.ip_network` with `strict=False`. -/
  ipNetwork : String → Option Network
  /-- `str` of an address. -/
  showAddress : Address → String
  upper : String → String
  repr : String → String
  /-- `iso_time`. -/
  isoTime : Option ℚ → String

/-- `str.strip`. -/
def strip (text : String) : String := .ofList (Text.strip text.toList)

/-- `str.lower`, for a comparison with ASCII text without a `k`. -/
def lower (text : List Char) : List Char := text.map Char.toLower

/-- A request. -/
structure Request where
  /-- `_header`: the value of a header, or the empty string. -/
  header : String → String
  /-- The far end of the socket. -/
  client : Option String
  method : Option String := none

def unknownAddress : String := "unknown"

/-- `remote_ip`. -/
def remoteIp (request : Request) : String :=
  match request.client with
  | some host => if host ≠ "" then host else unknownAddress
  | none => unknownAddress

/-- `TrustedProxies.trusts`. -/
def trusts (h : Helpers) (trusted : List Network) (address : String) : Bool :=
  if trusted = [] ∨ address = "" then false
  else (h.ipAddress address).any fun addr => trusted.any fun net => net.holds addr

structure ClientAddress where
  ip : String
  forwarded : Bool := false
  deriving DecidableEq

/-- The text of a hop without its brackets and port; `none` where the bracket is not closed. -/
def bareHop (text : List Char) : Option (List Char) :=
  match text with
  | '[' :: rest => if ']' ∈ rest then some (rest.takeWhile fun c => decide (c ≠ ']')) else none
  | text => if text.count ':' = 1 then some (text.takeWhile fun c => decide (c ≠ ':')) else some text

/-- `_forwarded_hop`. -/
def forwardedHop (h : Helpers) (raw : List Char) : Option String :=
  ((bareHop (Text.strip raw)).bind fun text => h.ipAddress (.ofList text)).map h.showAddress

def maxForwardedHops : ℕ := 32

/-- The elements of `X-Forwarded-For` that are not blank. -/
def forwardedChain (value : String) : List (List Char) :=
  (value.toList.splitOn ',').filter fun part => decide (Text.strip part ≠ [])

/-- The walk of `client_address` over a chain, from its right end; `hop` is the last hop that was trusted. -/
def walk (h : Helpers) (trusted : List Network) (hop : String) : List (List Char) → String
  | [] => hop
  | raw :: rest =>
      match forwardedHop h raw with
      | none => unknownAddress
      | some hop => if trusts h trusted hop then walk h trusted hop rest else hop

/-- `client_address`. -/
def clientAddress (h : Helpers) (trusted : List Network) (request : Request) : ClientAddress :=
  let peer := remoteIp request
  if trusted = [] ∨ trusts h trusted peer = false then { ip := peer }
  else
    let chain := forwardedChain (request.header "X-Forwarded-For")
    if chain = [] then { ip := peer, forwarded := true }
    else if maxForwardedHops < chain.length then { ip := unknownAddress, forwarded := true }
    else { ip := walk h trusted "None" chain.reverse, forwarded := true }

/-! ### The address map -/

/-- `_Registration`. -/
structure Registration where
  agentId : String
  priority : LLMPriority
  minTimeoutS : Option ℚ := none
  priorityDeclared : Bool := false

/-- `IPIdentityMap`. -/
structure IPIdentityMap where
  exact : Dict String Registration := ∅
  subnets : List (Network × Registration) := []
  operatorAdminNets : List Network := []

namespace IPIdentityMap

def loopbackNets : List Network := [⟨false, 127 * 2 ^ 24, 8⟩, ⟨true, 1, 128⟩]

def dockerNets : List Network := [⟨false, 172 * 2 ^ 24 + 16 * 2 ^ 16, 12⟩]

def internalNets : List Network :=
  [⟨false, 127 * 2 ^ 24, 8⟩, ⟨false, 172 * 2 ^ 24 + 16 * 2 ^ 16, 12⟩, ⟨true, 1, 128⟩]

/-- `_reach_nets`, as `_rebuild_reach` leaves it. -/
def reachNets (acl : IPIdentityMap) : List Network :=
  loopbackNets ++
    if acl.operatorAdminNets ≠ [] then acl.operatorAdminNets.filter fun net => decide (net ∉ loopbackNets)
    else dockerNets

/-- `_lookup`. -/
def lookup (h : Helpers) (acl : IPIdentityMap) (remoteIp : String) : Option Registration :=
  match acl.exact.get? remoteIp with
  | some reg => some reg
  | none =>
      match h.ipAddress remoteIp with
      | none => none
      | some addr =>
          if internalNets.any fun net => net.holds addr then
            some { agentId := "internal", priority := .p1TurnSupport }
          else (acl.subnets.find? fun entry => entry.1.holds addr).map Prod.snd

/-- `may_reach_admin`. -/
def mayReachAdmin (h : Helpers) (acl : IPIdentityMap) (remoteIp : String) (trustBuiltinNets : Bool) : Bool :=
  (h.ipAddress remoteIp).any fun addr =>
    (if trustBuiltinNets then acl.reachNets else acl.operatorAdminNets ++ loopbackNets).any
      fun net => net.holds addr

end IPIdentityMap

/-! ### Principals and keys -/

inductive Source where
  | apiKey
  | ip
  deriving DecidableEq

/-- A resolved caller.  No record sets `admin` and `calls_push` together: `register` refuses it. -/
structure Principal where
  agentId : String
  priority : LLMPriority := .p3Ingestion
  priorityDeclared : Bool := false
  minTimeoutS : Option ℚ := none
  admin : Bool := false
  adminReadonly : Bool := false
  callsPush : Bool := false
  source : Source := .ip
  keyId : Option String := none
  mayAssert : Finset String := ∅
  separate : ¬(callsPush = true ∧ admin = true)
  deriving DecidableEq

/-- A caller that may neither push calls nor administer. -/
theorem Principal.separate_of_plain : ¬(false = true ∧ false = true) := by
  simp

/-- `sorted(principal.may_assert)`. -/
def Principal.permitted (principal : Principal) : List String := Text.sorted principal.mayAssert

def Principal.mayAdminWrite (principal : Principal) : Bool := principal.admin && !principal.adminReadonly

/-- Facts about a credential. -/
structure Credential where
  source : String := ""
  createdAt : ℚ := 0
  expiresAt : Option ℚ := none
  bind : List String := []
  deriving DecidableEq

structure KeyRegistry where
  byDigest : Dict String Principal := ∅
  credential : Dict String Credential := ∅
  bootstrap : Finset String := ∅

structure KeyLookup where
  principal : Option Principal := none
  expiredAt : Option ℚ := none
  keyId : Option String := none
  bind : List String := []

/-- The arguments of `register`. -/
structure KeySpec where
  agentId : String
  secret : Option String := none
  keySha256 : Option String := none
  priority : LLMPriority := .p3Ingestion
  priorityDeclared : Bool := false
  minTimeoutS : Option ℚ := none
  admin : Bool := false
  adminReadonly : Bool := false
  callsPush : Bool := false
  expiresAt : Option ℚ := none
  bind : List String := []
  mayAssert : List String := []
  keyId : Option String := none
  source : String := "file"
  bootstrap : Bool := false

namespace KeySpec

/-- The digest of a registration, where one and only one of its two forms is given and usable. -/
def digest (h : Helpers) (spec : KeySpec) : Option String :=
  if decide ((spec.secret.getD "") ≠ "") = decide ((spec.keySha256.getD "") ≠ "") then none
  else
    match spec.secret with
    | some secret => some (h.digest secret)
    | none =>
        let digest := lower (Text.strip (spec.keySha256.getD "").toList)
        if digest.length ≠ 64 ∨ digest.any (fun c => decide (c ∉ "0123456789abcdef".toList)) = true then none
        else some (.ofList digest)

def label (spec : KeySpec) (digest : String) : String :=
  match spec.keyId with
  | some id => if id ≠ "" then id else .ofList (digest.toList.take 8)
  | none => .ofList (digest.toList.take 8)

def assertable (spec : KeySpec) : Finset String :=
  ((spec.mayAssert.map strip).filter fun name => decide (name ≠ "")).toFinset

/-- The principal that a registration confers. -/
def principal (spec : KeySpec) (label : String) (separate : ¬(spec.callsPush = true ∧ spec.admin = true)) :
    Principal where
  agentId := spec.agentId
  priority := spec.priority
  priorityDeclared := spec.priorityDeclared
  minTimeoutS := spec.minTimeoutS
  admin := spec.admin
  adminReadonly := spec.adminReadonly
  callsPush := spec.callsPush
  source := .apiKey
  keyId := some label
  mayAssert := spec.assertable
  separate := separate

end KeySpec

namespace KeyRegistry

def isBootstrap (h : Helpers) (keys : KeyRegistry) (secret : String) : Bool :=
  decide (h.digest secret ∈ keys.bootstrap)

/-- An operator key exists. -/
def configured (keys : KeyRegistry) : Bool :=
  keys.byDigest.keys.any fun digest => decide (digest ∉ keys.bootstrap)

/-- `register`: the registry after it, and the label of the key unless it is refused. -/
def register (h : Helpers) (now : ℚ) (spec : KeySpec) (keys : KeyRegistry) : KeyRegistry × Option String :=
  match spec.digest h with
  | none => (keys, none)
  | some digest =>
      if spec.agentId = "" then (keys, none)
      else if separate : spec.callsPush = true ∧ spec.admin = true then (keys, none)
      else if keys.byDigest.contains digest then (keys, none)
      else
        let label := spec.label digest
        ({ byDigest := keys.byDigest.set digest (spec.principal label separate)
           credential := keys.credential.set digest
            { source := spec.source, createdAt := now, expiresAt := spec.expiresAt, bind := spec.bind }
           bootstrap := if spec.bootstrap then insert digest keys.bootstrap else keys.bootstrap }, some label)

/-- The first key with a label. -/
def labelled (keys : KeyRegistry) (keyId : String) : Option (String × Principal) :=
  keys.byDigest.entries.find? fun entry => decide (entry.2.keyId = some keyId)

/-- `revoke`. -/
def revoke (keyId : String) (keys : KeyRegistry) : KeyRegistry × Bool :=
  match keys.labelled keyId with
  | some (digest, _) =>
      ({ keys with byDigest := keys.byDigest.erase digest, credential := keys.credential.erase digest }, true)
  | none => (keys, false)

/-- `set_expiry`. -/
def setExpiry (keyId : String) (expiresAt : Option ℚ) (keys : KeyRegistry) : KeyRegistry × Bool :=
  match keys.labelled keyId with
  | some (digest, _) =>
      ({ keys with
          credential := keys.credential.set digest
            { (keys.credential.get? digest).getD {} with expiresAt := expiresAt } }, true)
  | none => (keys, false)

/-- `is_expired`. -/
def isExpired (now : ℚ) (keys : KeyRegistry) (digest : String) : Bool :=
  ((keys.credential.get? digest).bind Credential.expiresAt).any fun expiresAt => decide (expiresAt ≤ now)

/-- `lookup`. -/
def lookup (h : Helpers) (now : ℚ) (keys : KeyRegistry) (presented : String) : KeyLookup :=
  if presented = "" then {}
  else
    let digest := h.digest presented
    match keys.byDigest.get? digest with
    | none => {}
    | some principal =>
        if keys.isExpired now digest then
          { expiredAt := (keys.credential.get? digest).bind Credential.expiresAt, keyId := principal.keyId }
        else
          { principal := some principal
            keyId := principal.keyId
            bind := ((keys.credential.get? digest).map Credential.bind).getD [] }

end KeyRegistry

/-! ### What a request presents -/

def bearerPrefix : List Char := "bearer ".toList

def basicPrefix : List Char := "basic ".toList

/-- A header starts with a prefix, in any case; what follows it, stripped. -/
def after? (head text : List Char) : Option (List Char) :=
  if head.isPrefixOf (lower text) then some (Text.strip (text.drop head.length)) else none

/-- `_basic_password`. -/
def basicPassword (h : Helpers) (blob : List Char) : String :=
  match h.decode (.ofList blob) with
  | none => ""
  | some decoded =>
      match decoded.toList.dropWhile fun c => decide (c ≠ ':') with
      | _ :: password => .ofList (Text.strip password)
      | [] => ""

def authorization (request : Request) : List Char := Text.strip (request.header "Authorization").toList

/-- `presented_bearer`. -/
def presentedBearer (request : Request) : String :=
  .ofList ((after? bearerPrefix (authorization request)).getD [])

/-- `presented_key`. -/
def presentedKey (h : Helpers) (request : Request) : String :=
  match after? bearerPrefix (authorization request) with
  | some token => .ofList token
  | none =>
      match after? basicPrefix (authorization request) with
      | some blob => basicPassword h blob
      | none => strip (request.header "X-API-Key")

/-! ### The resolver -/

structure Denial where
  code : String
  status : ℕ
  message : String
  deriving DecidableEq

structure IdentityResolver where
  acl : IPIdentityMap
  keys : KeyRegistry
  proxies : List Network := []
  /-- The declared placeholder bearers. -/
  placeholders : List String := []
  requireKey : Bool := false

/-- `_address_in_any`. -/
def addressInAny (h : Helpers) (ip : String) (cidrs : List String) : Bool :=
  (h.ipAddress ip).any fun addr => cidrs.any fun raw => (h.ipNetwork raw).any fun net => net.holds addr

def safeMethods : List String := ["GET", "HEAD", "OPTIONS"]

/-- `str(request.method or "GET").upper()`. -/
def methodOf (h : Helpers) (request : Request) : String :=
  let method := request.method.getD "GET"
  h.upper (if method ≠ "" then method else "GET")

namespace IdentityResolver

variable (h : Helpers) (now : ℚ) (r : IdentityResolver) (request : Request)

def clientAddress : ClientAddress := Identity.clientAddress h r.proxies request

/-- `BearerPlaceholders.declares`. -/
def declares (token : String) : Bool := decide (token ≠ "" ∧ token ∈ r.placeholders)

/-- The key that `resolve` looks at: a declared placeholder is none. -/
def effectiveKey : String :=
  let key := presentedKey h request
  if key ≠ "" ∧ r.declares (presentedBearer request) = true then strip (request.header "X-API-Key") else key

/-- `_binding_denial`. -/
def bindingDenial (found : KeyLookup) : Option Denial :=
  if found.bind = [] then none
  else
    let address := r.clientAddress h request
    if addressInAny h address.ip found.bind then none
    else
      some
        { code := "invalid_api_key"
          status := 401
          message := "API key " ++ h.repr (found.keyId.getD "None") ++ " is bound to " ++
            ", ".intercalate found.bind ++ " and was presented from " ++ address.ip ++
            if address.forwarded then
              " (a FORWARDED address — the binding is only as trustworthy as ROADSTEAD_TRUSTED_PROXIES)"
            else "" }

def expiredDenial (found : KeyLookup) : Denial where
  code := "invalid_api_key"
  status := 401
  message := "expired API key — credential " ++ h.repr (found.keyId.getD "None") ++ " expired at " ++
    h.isoTime found.expiredAt ++ " and is no longer accepted. It is NOT ignored in favour of the source " ++
    "address; rotate it (POST /rs/v1/admin/keys/" ++ found.keyId.getD "None" ++
    "/rotate) or enrol a successor"

def unregisteredDenial : Denial where
  code := "invalid_api_key"
  status := 401
  message := "invalid API key — the presented credential is not registered; it is NOT ignored in favour of " ++
    "the source address, so remove the header to be identified by address instead"

def requiredDenial : Denial where
  code := "invalid_api_key"
  status := 401
  message := "an API key is required — present it as 'Authorization: Bearer <key>' or 'X-API-Key: <key>'"

/-- What `resolve` answers to a key that it looks at. -/
def resolveKey (key : String) : Except Denial Principal :=
  let found := r.keys.lookup h now key
  match found.principal with
  | some principal => ((r.bindingDenial h request found).elim (.ok principal) .error)
  | none => .error (if found.expiredAt.isSome then expiredDenial h found else unregisteredDenial)

/-- What `resolve` answers to a request without a key. -/
def resolveAddress : Except Denial Principal :=
  let ip := (r.clientAddress h request).ip
  match r.acl.lookup h ip with
  | none => .error { code := "access_denied", status := 403, message := "access denied for " ++ ip }
  | some reg =>
      .ok
        { agentId := reg.agentId
          priority := reg.priority
          priorityDeclared := reg.priorityDeclared
          minTimeoutS := reg.minTimeoutS
          separate := Principal.separate_of_plain }

/-- `resolve`. -/
def resolve : Except Denial Principal :=
  let key := r.effectiveKey h request
  if key ≠ "" ∧ (r.keys.configured || r.keys.isBootstrap h key) = true then r.resolveKey h now request key
  else if r.requireKey then .error requiredDenial
  else r.resolveAddress h request

end IdentityResolver

/-- `delegate`, of a declared value as `str(declared or "")` gives it. -/
def delegate (h : Helpers) (principal : Principal) (declared : String) : Except Denial Principal :=
  let name := strip declared
  if name = "" ∨ name = principal.agentId then .ok principal
  else if principal.mayAssert = ∅ then .ok principal
  else if name ∉ principal.mayAssert then
    .error
      { code := "access_denied"
        status := 403
        message := "this credential may not act as " ++ h.repr name ++ " — it is permitted [" ++
          ", ".intercalate (principal.permitted.map h.repr) ++ "]. The agent_id is the " ++
          "fair-share key, the quota holder and the budget holder, so acting as another caller is a " ++
          "grant its operator makes, not one it takes." }
  else .ok { principal with agentId := name }

/-! ### The gates of the admin plane -/

namespace IdentityResolver

variable (h : Helpers) (now : ℚ) (r : IdentityResolver) (request : Request)

/-- `_admin_reach_denial`. -/
def adminReachDenial : Option Denial :=
  let address := r.clientAddress h request
  if r.acl.mayReachAdmin h address.ip (!address.forwarded) then none
  else
    some
      { code := "access_denied"
        status := 403
        message := "the admin plane is not reachable from " ++ address.ip ++ ". This is a NETWORK refusal " ++
          "and no credential answers it: add the address to ROADSTEAD_ADMIN_NETS, which names who may " ++
          "reach the plane rather than who is an admin" }

/-- `_csrf_denial`. -/
def csrfDenial : Option Denial :=
  let contentType := request.header "Content-Type"
  let mediaType := lower (Text.strip (contentType.toList.takeWhile fun c => decide (c ≠ ';')))
  if mediaType ≠ "application/json".toList then
    some
      { code := "invalid_request_error"
        status := 415
        message := "this route mutates state and requires 'Content-Type: application/json'; got " ++
          h.repr (if contentType ≠ "" then contentType else "(none)") ++ ". A cross-site form cannot send " ++
          "that media type without a CORS preflight, which is exactly what this refusal defends" }
  else if lower (Text.strip (request.header "Sec-Fetch-Site").toList) = "cross-site".toList then
    some
      { code := "access_denied"
        status := 403
        message := "this route mutates state and refuses a request the browser itself labelled " ++
          "'Sec-Fetch-Site: cross-site'" }
  else if (after? basicPrefix (authorization request)).isSome ∧
      strip (request.header "X-Roadstead-Request") ≠ "1" then
    some
      { code := "access_denied"
        status := 403
        message := "a Basic-authenticated mutation requires 'X-Roadstead-Request: 1'. A browser attaches a " ++
          "cached Basic credential to any request on its own; this header is what a page's own fetch() " ++
          "sends and a forged cross-site submission cannot. A Bearer or X-API-Key credential does not " ++
          "need it" }
  else none

/-- `admin_denial`. -/
def adminDenial : Option Denial :=
  match r.adminReachDenial h request with
  | some network => some network
  | none =>
      match r.resolve h now request with
      | .error denial => some denial
      | .ok principal =>
          let method := methodOf h request
          if principal.admin = false then
            some
              { code := "access_denied"
                status := 403
                message := "access denied for " ++ (r.clientAddress h request).ip }
          else if method ∈ safeMethods then none
          else if principal.mayAdminWrite = false then
            some
              { code := "access_denied"
                status := 403
                message := "this credential has read-only admin scope: " ++ method ++ " is a mutation and is " ++
                  "refused, while every GET on this surface is allowed. The scope is a NARROWING written " ++
                  "on the identity itself — widening it means issuing a different credential, not " ++
                  "changing an address allowlist" }
          else csrfDenial h request

/-- `calls_push_denial`; the admin gate that it hands over to reads the clock again. -/
def callsPushDenial (later : ℚ) : Option Denial :=
  match r.adminReachDenial h request with
  | some network => some network
  | none =>
      match r.resolve h now request with
      | .error _ => r.adminDenial h later request
      | .ok principal =>
          if principal.admin = true ∨ principal.callsPush = false then r.adminDenial h later request
          else if methodOf h request ≠ "POST" then
            some
              { code := "access_denied"
                status := 403
                message := "this credential has the call-ingest scope, which permits POST /v1/calls/log only; " ++
                  methodOf h request ++ " is refused" }
          else csrfDenial h request

end IdentityResolver

end Roadstead.Identity
