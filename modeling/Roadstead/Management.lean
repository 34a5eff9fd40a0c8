import Roadstead.Identity

/-!
# The admin plane over keys

The parts of `management.py` that enrol, rotate and revoke a credential, and the sections of the
`AdminOverlay` that record it; `apply` layers them over the registry of the declared keys.

A body here is a validated one, with its numbers finite.  The audit trail, the responses and the
warnings are left out.
-/

namespace Roadstead.Management

open Roadstead.Identity

/-! ### The overlay -/

/-- A record of `AdminOverlay.keys`, without what `apply` does not read. -/
structure KeyRecord where
  id : String
  agentId : String
  keySha256 : String
  priority : LLMPriority
  minTimeoutS : Option ℚ
  admin : Bool
  adminReadonly : Bool
  callsPush : Bool
  expiresAt : Option ℚ
  bind : List String
  mayAssert : List String
  deriving DecidableEq

/-- The arguments with which `apply` registers a record. -/
def KeyRecord.spec (r : KeyRecord) : KeySpec where
  agentId := r.agentId
  keySha256 := if r.keySha256 ≠ "" then some r.keySha256 else none
  priority := r.priority
  minTimeoutS := r.minTimeoutS
  admin := r.admin
  adminReadonly := r.adminReadonly
  callsPush := r.callsPush
  expiresAt := r.expiresAt
  bind := r.bind
  mayAssert := r.mayAssert
  keyId := if r.id ≠ "" then some r.id else none
  source := "runtime"

/-- The sections of an `AdminOverlay` that are about keys. -/
structure KeyOverlay where
  keys : List KeyRecord := []
  revoked : List String := []
  retired : Dict String ℚ := ∅

namespace KeyOverlay

/-- `add_key`. -/
def addKey (record : KeyRecord) (o : KeyOverlay) : KeyOverlay where
  keys := o.keys ++ [record]
  retired := o.retired.erase record.id
  revoked := o.revoked.filter fun id => decide (id ≠ record.id)

/-- The first entry with an id gets an expiry. -/
def expireFirst (keyId : String) (expiresAt : ℚ) : List KeyRecord → List KeyRecord
  | [] => []
  | r :: rest =>
      if r.id = keyId then { r with expiresAt := some expiresAt } :: rest
      else r :: expireFirst keyId expiresAt rest

/-- `expire_key`. -/
def expireKey (keyId : String) (expiresAt : ℚ) (o : KeyOverlay) : KeyOverlay :=
  if o.keys.any fun r => decide (r.id = keyId) then { o with keys := expireFirst keyId expiresAt o.keys }
  else { o with retired := o.retired.set keyId expiresAt }

/-- `revoke_key`. -/
def revokeKey (keyId : String) (o : KeyOverlay) : KeyOverlay where
  keys := o.keys.filter fun r => decide (r.id ≠ keyId)
  retired := o.retired.erase keyId
  revoked := if keyId ∈ o.revoked then o.revoked else o.revoked ++ [keyId]

/-- `apply`, of the keys: enrol, then retire, then revoke. -/
def apply (h : Helpers) (now : ℚ) (o : KeyOverlay) (registry : KeyRegistry) : KeyRegistry :=
  let enrolled := o.keys.foldl (fun keys r => (keys.register h now r.spec).1) registry
  let retired := o.retired.entries.foldl (fun keys entry => (keys.setExpiry entry.1 (some entry.2)).1) enrolled
  o.revoked.foldl (fun keys id => (keys.revoke id).1) retired

end KeyOverlay

/-! ### The handlers -/

/-- What the handlers of keys change. -/
structure KeyPlane where
  registry : KeyRegistry
  overlay : KeyOverlay := {}

/-- A body that `validate_key_create` accepted. -/
structure KeyCreate where
  agentId : String
  priority : Option LLMPriority := none
  minTimeoutS : Option ℚ := none
  admin : Bool := false
  adminReadonly : Bool := false
  callsPush : Bool := false
  expiresInS : Option ℚ := none
  bind : List String := []
  mayAssert : List String := []
  id : Option String := none
  keySha256 : Option String := none

/-- A body that `validate_key_rotate` accepted. -/
structure KeyRotate where
  id : Option String := none
  keySha256 : Option String := none
  overlapS : Option ℚ := none
  expiresInS : Option ℚ := none

/-- A registration and the record of it.  The secret is generated where no digest is given. -/
def recordOf (h : Helpers) (spec : KeySpec) (fresh id : String) : KeyRecord where
  id := id
  agentId := spec.agentId
  keySha256 := spec.keySha256.getD (h.digest fresh)
  priority := spec.priority
  minTimeoutS := spec.minTimeoutS
  admin := spec.admin
  adminReadonly := spec.adminReadonly
  callsPush := spec.callsPush
  expiresAt := spec.expiresAt
  bind := spec.bind
  mayAssert := spec.mayAssert

/-- The registration of an enrolment. -/
def KeyCreate.spec (body : KeyCreate) (fresh : String) (now : ℚ) : KeySpec where
  agentId := body.agentId
  secret := if body.keySha256 = none then some fresh else none
  keySha256 := body.keySha256
  priority := body.priority.getD .p3Ingestion
  minTimeoutS := body.minTimeoutS
  admin := body.admin
  adminReadonly := body.adminReadonly
  callsPush := body.callsPush
  expiresAt := body.expiresInS.map fun life => now + life
  bind := body.bind
  mayAssert := body.mayAssert
  keyId := body.id
  source := "runtime"

/-- The row of `snapshot`, in the order of agents, with an id. -/
def snapshotRow (keys : KeyRegistry) (keyId : String) : Option (Principal × Credential) :=
  (((keys.byDigest.entries.filter fun entry => decide (entry.2.keyId = some keyId)).mergeSort
    fun a b => decide (a.2.agentId ≤ b.2.agentId)).head?).map fun entry =>
      (entry.2, (keys.credential.get? entry.1).getD {})

/-- The registration of a successor: the policy of a row. -/
def KeyRotate.spec (body : KeyRotate) (keyId fresh : String) (now : ℚ) (row : Principal × Credential) :
    KeySpec where
  agentId := row.1.agentId
  secret := if body.keySha256 = none then some fresh else none
  keySha256 := body.keySha256
  priority := row.1.priority
  minTimeoutS := row.1.minTimeoutS
  admin := row.1.admin
  adminReadonly := row.1.adminReadonly
  callsPush := row.1.callsPush
  expiresAt := body.expiresInS.map fun life => now + life
  bind := row.2.bind
  mayAssert := row.1.permitted
  keyId := some ((body.id.filter fun id => decide (id ≠ "")).getD (keyId ++ "-r" ++ toString ⌊now⌋))
  source := "runtime"

namespace KeyPlane

variable (h : Helpers) (p : KeyPlane)

/-- A registration that is recorded, with the new id; `none` where it is refused. -/
def enrolSpec (spec : KeySpec) (fresh : String) (now : ℚ) : Option (KeyPlane × String) :=
  match p.registry.register h now spec with
  | (registry, some id) => some (⟨registry, p.overlay.addKey (recordOf h spec fresh id)⟩, id)
  | (_, none) => none

/-- `handle_admin_keys`. -/
def enrol (body : KeyCreate) (fresh : String) (now : ℚ) : Option (KeyPlane × String) :=
  p.enrolSpec h (body.spec fresh now) fresh now

/-- When the predecessor retires: an overlap never lengthens its life. -/
def retiresAt (row : Principal × Credential) (overlap later : ℚ) : ℚ :=
  match row.2.expiresAt with
  | some expiresAt => if expiresAt < later + overlap then expiresAt else later + overlap
  | none => later + overlap

/-- The end of the predecessor of a rotation. -/
def retire (keyId : String) (row : Principal × Credential) (overlap later : ℚ) : KeyPlane :=
  if 0 < overlap then
    ⟨(p.registry.setExpiry keyId (some (retiresAt row overlap later))).1,
      p.overlay.expireKey keyId (retiresAt row overlap later)⟩
  else ⟨(p.registry.revoke keyId).1, p.overlay.revokeKey keyId⟩

/-- `handle_admin_key_rotate`; `later` is the clock when the overlap is taken. -/
def rotate (keyId : String) (body : KeyRotate) (fresh : String) (now later : ℚ) : Option (KeyPlane × String) :=
  match snapshotRow p.registry keyId with
  | none => none
  | some row =>
      match p.enrolSpec h (body.spec keyId fresh now row) fresh now with
      | none => none
      | some (q, id) => some (q.retire keyId row (body.overlapS.getD 0) later, id)

/-- `handle_admin_key`: DELETE. -/
def revoke (keyId : String) : Option KeyPlane :=
  match p.registry.revoke keyId with
  | (registry, true) => some ⟨registry, p.overlay.revokeKey keyId⟩
  | (_, false) => none

end KeyPlane

end Roadstead.Management
