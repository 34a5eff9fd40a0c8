import Roadstead.Identity.Revoked

/-!
# Narrowing a key

Two registries that differ in one record answer every request alike, but for one that presents the secret
of the record.  `resolve_weaker` reduces what `resolve` accepts to that record: if each principal that the
second record confers stands in a relation to one that the first confers, so do the answers.

The gates are monotone in that relation.  The ingest gate goes on to the admin gate on a refusal, so a
narrowed key takes another branch there; it is the same gate in the end, since no key has both the
`admin` and the `calls_push` flag (`callsPushDenial_eq_none_iff`).
-/

namespace Roadstead.Identity

/-- The second principal is the first one with fewer privileges.  An empty `may_assert` is no restriction to
nothing: such a key ignores what a request declares. -/
structure Principal.Narrows (p p' : Principal) : Prop where
  agentId : p'.agentId = p.agentId
  priority : p'.priority = p.priority
  priorityDeclared : p'.priorityDeclared = p.priorityDeclared
  minTimeoutS : p'.minTimeoutS = p.minTimeoutS
  callsPush : p'.callsPush = p.callsPush
  source : p'.source = p.source
  keyId : p'.keyId = p.keyId
  admin : p'.admin = true → p.admin = true
  readonly : p.adminReadonly = true → p'.adminReadonly = true
  assert : p'.mayAssert ⊆ p.mayAssert
  emptied : p'.mayAssert = ∅ → p.mayAssert = ∅

/-- The second credential can be used when and where the first can. -/
structure Credential.Narrows (c c' : Credential) : Prop where
  expiry : ∀ expiresAt, c.expiresAt = some expiresAt → ∃ earlier ≤ expiresAt, c'.expiresAt = some earlier
  bind : c.bind = [] ∨ c'.bind ≠ [] ∧ c'.bind ⊆ c.bind

/-- Two registries differ in one record, and its principals and credentials stand in two relations. -/
def OneRecord (R : Principal → Principal → Prop) (S : Credential → Credential → Prop) (keys keys' : KeyRegistry) :
    Prop :=
  keys'.bootstrap = keys.bootstrap ∧ ∃ digest p p' c c',
    keys.byDigest.get? digest = some p ∧ keys'.byDigest.get? digest = some p' ∧ R p p' ∧
    keys.credential.get? digest = some c ∧ keys'.credential.get? digest = some c' ∧ S c c' ∧
    ∀ other, other ≠ digest → keys'.byDigest.get? other = keys.byDigest.get? other ∧
      keys'.credential.get? other = keys.credential.get? other

/-- A registry with one narrowed record. -/
def Narrowed : KeyRegistry → KeyRegistry → Prop := OneRecord Principal.Narrows Credential.Narrows

/-- The second principal is the first one with `calls_push`, and no admin. -/
def Principal.Pushes (p p' : Principal) : Prop :=
  p.admin = false ∧ p' = { p with callsPush := true, admin := false, separate := by simp }

/-- A registry with one record that was given `calls_push`. -/
def PushAdded : KeyRegistry → KeyRegistry → Prop := OneRecord Principal.Pushes Eq

/-- A resolver with another registry. -/
def IdentityResolver.holding (r : IdentityResolver) (keys : KeyRegistry) : IdentityResolver := { r with keys := keys }

theorem Principal.Narrows.refl (p : Principal) : p.Narrows p :=
  ⟨rfl, rfl, rfl, rfl, rfl, rfl, rfl, id, id, subset_rfl, id⟩

theorem Credential.Narrows.refl (c : Credential) : c.Narrows c := by
  refine ⟨fun expiresAt expires => ⟨expiresAt, le_rfl, expires⟩, ?_⟩
  by_cases unbound : c.bind = []
  · exact .inl unbound
  · exact .inr ⟨unbound, List.Subset.refl _⟩

theorem Principal.Narrows.mayAdminWrite {p p' : Principal} (narrows : p.Narrows p')
    (may : p'.mayAdminWrite = true) : p.mayAdminWrite = true := by
  rw [Principal.mayAdminWrite, Bool.and_eq_true, Bool.not_eq_true'] at may ⊢
  refine ⟨narrows.admin may.1, Bool.eq_false_iff.mpr fun readonly => ?_⟩
  rw [narrows.readonly readonly] at may
  cases may.2

/-! ### What `resolve` accepts -/

section Resolve

variable {h : Helpers} {now : ℚ} {r : IdentityResolver} {request : Request}

/-- The keys are in play for the key of a request. -/
def InPlay (h : Helpers) (r : IdentityResolver) (request : Request) : Prop :=
  r.effectiveKey h request ≠ "" ∧
    (r.keys.configured || r.keys.isBootstrap h (r.effectiveKey h request)) = true

theorem resolveKey_eq_ok_iff {k : String} (ne : k ≠ "") {principal : Principal} :
    r.resolveKey h now request k = .ok principal ↔ Confers h now r request k principal := by
  constructor
  · intro accepted
    rcases @resolveKey_answers h now r request k ne with
      ⟨principal', ok, confers⟩ | ⟨denial, denied, -⟩
    · rw [accepted] at ok
      cases ok
      exact confers
    · rw [accepted] at denied
      cases denied
  · intro confers
    have current := KeyRegistry.isExpired_eq_false_iff.mpr confers.unexpired
    have found : r.keys.lookup h now k =
        { principal := some principal
          keyId := principal.keyId
          bind := ((r.keys.credential.get? (h.digest k)).map Credential.bind).getD [] } := by
      simp only [KeyRegistry.lookup, if_neg ne, confers.registered, current, Bool.false_eq_true, if_false]
    have free : r.bindingDenial h request (r.keys.lookup h now k) = none := by
      rw [bindingDenial_eq_none_iff, found]
      cases there : r.keys.credential.get? (h.digest k) with
      | none => exact .inl rfl
      | some credential => exact confers.inside credential there
    rw [IdentityResolver.resolveKey, free, found]
    rfl

theorem resolve_eq_ok_iff {principal : Principal} :
    r.resolve h now request = .ok principal ↔
      InPlay h r request ∧ Confers h now r request (r.effectiveKey h request) principal ∨
      ¬InPlay h r request ∧ r.requireKey = false ∧ r.resolveAddress h request = .ok principal := by
  by_cases play : InPlay h r request
  · have looked : r.resolve h now request = r.resolveKey h now request (r.effectiveKey h request) := if_pos play
    rw [looked, resolveKey_eq_ok_iff play.1]
    simp only [play, true_and, not_true_eq_false, false_and, or_false]
  · have ignored : r.resolve h now request =
        if r.requireKey then .error IdentityResolver.requiredDenial else r.resolveAddress h request := if_neg play
    rw [ignored]
    cases required : r.requireKey <;> simp [play]

/-- The principal of a request does not depend on the clock. -/
theorem resolve_clock {later : ℚ} {p q : Principal} (ok : r.resolve h now request = .ok p)
    (ok' : r.resolve h later request = .ok q) : p = q := by
  rcases resolve_eq_ok_iff.mp ok with ⟨play, confers⟩ | ⟨out, -, address⟩ <;>
    rcases resolve_eq_ok_iff.mp ok' with ⟨play', confers'⟩ | ⟨out', -, address'⟩
  · exact Option.some.inj (confers.registered.symm.trans confers'.registered)
  · exact absurd play out'
  · exact absurd play' out
  · exact Except.ok.inj (address.symm.trans address')

end Resolve

section Registries

variable {R : Principal → Principal → Prop} {S : Credential → Credential → Prop} {keys keys' : KeyRegistry}
  {h : Helpers} {now : ℚ} {r : IdentityResolver} {request : Request}

theorem OneRecord.mono {R' : Principal → Principal → Prop} {S' : Credential → Credential → Prop}
    (one : OneRecord R S keys keys') (wider : ∀ p p', R p p' → R' p p') (wider' : ∀ c c', S c c' → S' c c') :
    OneRecord R' S' keys keys' := by
  obtain ⟨bootstrap, digest, p, p', c, c', had, has, related, hadC, hasC, usable, others⟩ := one
  exact ⟨bootstrap, digest, p, p', c, c', had, has, wider p p' related, hadC, hasC, wider' c c' usable, others⟩

theorem OneRecord.configured (one : OneRecord R S keys keys') : keys'.configured = keys.configured := by
  obtain ⟨bootstrap, digest, p, p', c, c', had, has, -, -, -, -, others⟩ := one
  have same : ∀ d, d ∈ keys'.byDigest.keys ↔ d ∈ keys.byDigest.keys := by
    intro d
    rw [Dict.mem_keys_iff, Dict.mem_keys_iff]
    by_cases this : d = digest
    · subst this
      rw [had, has]
      simp
    · rw [(others d this).1]
  rw [Bool.eq_iff_iff, KeyRegistry.configured, KeyRegistry.configured, List.any_eq_true, List.any_eq_true]
  simp only [same, bootstrap]

theorem OneRecord.inPlay (one : OneRecord R S keys keys') :
    InPlay h (r.holding keys') request ↔ InPlay h (r.holding keys) request := by
  have boot : ∀ k, (keys'.isBootstrap h k : Bool) = keys.isBootstrap h k := by
    intro k
    rw [KeyRegistry.isBootstrap, KeyRegistry.isBootstrap, one.1]
  have config := one.configured
  unfold InPlay
  rw [show (r.holding keys').effectiveKey h request = (r.holding keys).effectiveKey h request from rfl,
    show (r.holding keys').keys.configured = (r.holding keys).keys.configured from config,
    show (r.holding keys').keys.isBootstrap h _ = (r.holding keys).keys.isBootstrap h _ from boot _]

theorem addressInAny_mono {ip : String} {nets nets' : List String} (sub : nets' ⊆ nets)
    (inside : addressInAny h ip nets' = true) : addressInAny h ip nets = true := by
  rw [addressInAny, Option.any_eq_true] at inside ⊢
  obtain ⟨addr, parsed, held⟩ := inside
  refine ⟨addr, parsed, ?_⟩
  rw [List.any_eq_true] at held ⊢
  obtain ⟨raw, mem, held⟩ := held
  exact ⟨raw, sub mem, held⟩

/-- What the second registry confers on a secret the first one does, for a principal in the relation of the
record. -/
theorem OneRecord.confers (one : OneRecord R Credential.Narrows keys keys') (refl : ∀ p, R p p)
    {k : String} {q' : Principal}
    (conferred : Confers h now (r.holding keys') request k q') :
    ∃ q, Confers h now (r.holding keys) request k q ∧ R q q' := by
  obtain ⟨-, digest, p, p', c, c', had, has, related, hadC, hasC, narrows, others⟩ := one
  obtain ⟨registered, unexpired, inside⟩ := conferred
  change keys'.byDigest.get? (h.digest k) = some q' at registered
  change ∀ expiresAt, (keys'.credential.get? (h.digest k)).bind Credential.expiresAt = some expiresAt →
    now < expiresAt at unexpired
  change ∀ credential, keys'.credential.get? (h.digest k) = some credential → credential.bind = [] ∨
    addressInAny h (r.clientAddress h request).ip credential.bind = true at inside
  by_cases this : h.digest k = digest
  · rw [this] at registered unexpired inside
    obtain rfl : p' = q' := Option.some.inj (has.symm.trans registered)
    refine ⟨p, ⟨this ▸ had, fun expiresAt expires => ?_, fun credential there => ?_⟩, related⟩
    · change (keys.credential.get? (h.digest k)).bind Credential.expiresAt = some expiresAt at expires
      rw [this, hadC] at expires
      obtain ⟨earlier, le, expires'⟩ := narrows.expiry expiresAt expires
      exact lt_of_lt_of_le (unexpired earlier (by rw [hasC]; exact expires')) le
    · change keys.credential.get? (h.digest k) = some credential at there
      rw [this, hadC] at there
      cases there
      rcases narrows.bind with unbound | ⟨bound, sub⟩
      · exact .inl unbound
      · exact .inr (addressInAny_mono sub ((inside c' hasC).resolve_left bound))
  · obtain ⟨same, sameC⟩ := others _ this
    rw [same] at registered
    rw [sameC] at unexpired inside
    exact ⟨q', ⟨registered, unexpired, inside⟩, refl q'⟩

/-- What `resolve` accepts under the second registry it accepts under the first. -/
theorem resolve_weaker (one : OneRecord R Credential.Narrows keys keys') (refl : ∀ p, R p p) {q' : Principal}
    (accepted : (r.holding keys').resolve h now request = .ok q') :
    ∃ q, (r.holding keys).resolve h now request = .ok q ∧ R q q' := by
  rcases resolve_eq_ok_iff.mp accepted with ⟨play, conferred⟩ | ⟨out, free, address⟩
  · obtain ⟨q, confers, related⟩ := one.confers refl conferred
    exact ⟨q, resolve_eq_ok_iff.mpr (.inl ⟨one.inPlay.mp play, confers⟩), related⟩
  · exact ⟨q', resolve_eq_ok_iff.mpr (.inr ⟨fun play => out (one.inPlay.mpr play), free, address⟩), refl q'⟩

end Registries

/-! ### The gates -/

section Gates

variable {h : Helpers} {now : ℚ} {r : IdentityResolver} {request : Request}

theorem delegate_narrows {p p' q' : Principal} (narrows : p.Narrows p') {declared : String}
    (accepted : delegate h p' declared = .ok q') : ∃ q, delegate h p declared = .ok q ∧ q.Narrows q' := by
  by_cases itself : strip declared = "" ∨ strip declared = p.agentId
  · have own : delegate h p declared = .ok p := if_pos itself
    have own' : delegate h p' declared = .ok p' := if_pos (narrows.agentId ▸ itself)
    cases accepted.symm.trans own'
    exact ⟨p, own, narrows⟩
  have itself' : ¬(strip declared = "" ∨ strip declared = p'.agentId) := narrows.agentId ▸ itself
  by_cases empty : p'.mayAssert = ∅
  · have own : delegate h p declared = .ok p := (if_neg itself).trans (if_pos (narrows.emptied empty))
    have own' : delegate h p' declared = .ok p' := (if_neg itself').trans (if_pos empty)
    cases accepted.symm.trans own'
    exact ⟨p, own, narrows⟩
  have some_name : p.mayAssert ≠ ∅ := by
    intro none_there
    exact empty (Finset.subset_empty.mp (none_there ▸ narrows.assert))
  by_cases permitted : strip declared ∈ p'.mayAssert
  · have acts : delegate h p declared = .ok { p with agentId := strip declared } :=
      (if_neg itself).trans ((if_neg some_name).trans (if_neg (not_not.mpr (narrows.assert permitted))))
    have acts' : delegate h p' declared = .ok { p' with agentId := strip declared } :=
      (if_neg itself').trans ((if_neg empty).trans (if_neg (not_not.mpr permitted)))
    cases accepted.symm.trans acts'
    exact ⟨_, acts, { narrows with agentId := rfl }⟩
  · have refused : ∃ denial, delegate h p' declared = .error denial :=
      ⟨_, (if_neg itself').trans ((if_neg empty).trans (if_pos permitted))⟩
    obtain ⟨denial, refused⟩ := refused
    cases accepted.symm.trans refused

/-- Who passes the admin gate. -/
theorem adminDenial_eq_none_iff :
    r.adminDenial h now request = none ↔
      r.adminReachDenial h request = none ∧ ∃ principal, r.resolve h now request = .ok principal ∧
        principal.admin = true ∧ (methodOf h request ∈ safeMethods ∨
          principal.mayAdminWrite = true ∧ IdentityResolver.csrfDenial h request = none) := by
  unfold IdentityResolver.adminDenial
  cases reach : r.adminReachDenial h request with
  | some network => simp
  | none =>
      cases who : r.resolve h now request with
      | error denial => simp
      | ok principal =>
          cases admin : principal.admin with
          | false => simp [admin]
          | true =>
              by_cases safe : methodOf h request ∈ safeMethods
              · simp [admin, safe]
              · cases write : principal.mayAdminWrite <;> simp [admin, safe, write]

/-- Who passes the ingest gate.  No key that does so for its scope is one of an admin. -/
theorem callsPushDenial_eq_none_iff {later : ℚ} :
    r.callsPushDenial h now request later = none ↔
      r.adminReachDenial h request = none ∧
        ((∃ principal, r.resolve h now request = .ok principal ∧ principal.callsPush = true ∧
            methodOf h request = "POST" ∧ IdentityResolver.csrfDenial h request = none) ∨
          r.adminDenial h later request = none) := by
  unfold IdentityResolver.callsPushDenial
  cases reach : r.adminReachDenial h request with
  | some network => simp
  | none =>
      cases who : r.resolve h now request with
      | error denial => simp
      | ok principal =>
          by_cases gated : principal.admin = true ∨ principal.callsPush = false
          · have no_scope : ¬(principal.callsPush = true ∧ methodOf h request = "POST" ∧
                IdentityResolver.csrfDenial h request = none) := by
              rintro ⟨pushes, -⟩
              rcases gated with admin | none_there
              · exact principal.separate ⟨pushes, admin⟩
              · rw [pushes] at none_there
                cases none_there
            simp only [if_pos gated, Except.ok.injEq, true_and, exists_eq_left', no_scope, false_or]
          · obtain ⟨plain, pushes⟩ := not_or.mp gated
            have no_admin : r.adminDenial h later request ≠ none := by
              intro passes
              obtain ⟨-, other, who', admin, -⟩ := adminDenial_eq_none_iff.mp passes
              exact plain (resolve_clock who who' ▸ admin)
            rw [Bool.not_eq_false] at pushes
            by_cases post : methodOf h request = "POST"
            · simp [plain, post, pushes, no_admin]
            · simp [gated, post, no_admin]

/-- The admin gate is monotone in what `resolve` confers. -/
theorem adminDenial_weaker {r' : IdentityResolver} (acl : r'.acl = r.acl) (proxies : r'.proxies = r.proxies)
    (weaker : ∀ q', r'.resolve h now request = .ok q' → ∃ q, r.resolve h now request = .ok q ∧
      (q'.admin = true → q.admin = true) ∧ (q'.mayAdminWrite = true → q.mayAdminWrite = true))
    (passes : r'.adminDenial h now request = none) : r.adminDenial h now request = none := by
  obtain ⟨reach, q', who, admin, may⟩ := adminDenial_eq_none_iff.mp passes
  obtain ⟨q, who', admin', may'⟩ := weaker q' who
  refine adminDenial_eq_none_iff.mpr ⟨?_, q, who', admin' admin, ?_⟩
  · rw [IdentityResolver.adminReachDenial, IdentityResolver.clientAddress, acl, proxies] at reach
    exact reach
  · exact may.imp_right fun both => ⟨may' both.1, both.2⟩

end Gates

/-- **Narrowing a key is monotone.**  What `resolve`, `delegate` and the two gates accept with a narrowed record
they accept with the record as it was, for the same agent and with no smaller privileges; a
`calls_push` that is added to a key without admin opens the admin gate to no request. -/
theorem narrowing_is_monotone (h : Helpers) (r : IdentityResolver) (keys keys' : KeyRegistry) (now later : ℚ)
    (request : Request) :
    (Narrowed keys keys' →
      (∀ p', (r.holding keys').resolve h now request = .ok p' →
        ∃ p, (r.holding keys).resolve h now request = .ok p ∧ p.Narrows p' ∧
          ∀ declared q', delegate h p' declared = .ok q' → ∃ q, delegate h p declared = .ok q ∧ q.Narrows q') ∧
      ((r.holding keys').adminDenial h now request = none → (r.holding keys).adminDenial h now request = none) ∧
      ((r.holding keys').callsPushDenial h now request later = none →
        (r.holding keys).callsPushDenial h now request later = none)) ∧
    (PushAdded keys keys' →
      (r.holding keys').adminDenial h now request = none → (r.holding keys).adminDenial h now request = none) := by
  constructor
  · intro narrowed
    have weaker : ∀ clock q', (r.holding keys').resolve h clock request = .ok q' →
        ∃ q, (r.holding keys).resolve h clock request = .ok q ∧ q.Narrows q' := fun clock q' accepted =>
      resolve_weaker narrowed Principal.Narrows.refl accepted
    have gate : ∀ clock, (r.holding keys').adminDenial h clock request = none →
        (r.holding keys).adminDenial h clock request = none := by
      intro clock
      refine adminDenial_weaker rfl rfl fun q' accepted => ?_
      obtain ⟨q, who, narrows⟩ := weaker clock q' accepted
      exact ⟨q, who, narrows.admin, narrows.mayAdminWrite⟩
    refine ⟨fun p' accepted => ?_, gate now, fun passes => ?_⟩
    · obtain ⟨p, who, narrows⟩ := weaker now p' accepted
      exact ⟨p, who, narrows, fun declared q' => delegate_narrows narrows⟩
    · obtain ⟨reach, ⟨q', who, pushes, post⟩ | admin⟩ := callsPushDenial_eq_none_iff.mp passes
      · obtain ⟨q, who', narrows⟩ := weaker now q' who
        exact callsPushDenial_eq_none_iff.mpr ⟨reach, .inl ⟨q, who', narrows.callsPush ▸ pushes, post⟩⟩
      · exact callsPushDenial_eq_none_iff.mpr ⟨reach, .inr (gate later admin)⟩
  · intro added
    have wider : OneRecord (fun p p' => (p'.admin = true → p.admin = true) ∧
        (p'.mayAdminWrite = true → p.mayAdminWrite = true)) Credential.Narrows keys keys' := by
      refine added.mono (fun p p' pushes => ?_) (fun c c' same => same ▸ Credential.Narrows.refl c)
      obtain ⟨plain, rfl⟩ := pushes
      simp [Principal.mayAdminWrite]
    refine adminDenial_weaker rfl rfl fun q' accepted => ?_
    obtain ⟨q, who, privileges⟩ := resolve_weaker wider (fun p => ⟨id, id⟩) accepted
    exact ⟨q, who, privileges⟩

/-- A registry of one key. -/
def oneKey (p : Principal) (bind : List String) : KeyRegistry where
  byDigest := (∅ : Dict String Principal).set "d" p
  credential := (∅ : Dict String Credential).set "d" { bind := bind }

theorem oneRecord_oneKey {R : Principal → Principal → Prop} {S : Credential → Credential → Prop} {p p' : Principal}
    {bind bind' : List String} (related : R p p') (usable : S { bind := bind } { bind := bind' }) :
    OneRecord R S (oneKey p bind) (oneKey p' bind') := by
  refine ⟨rfl, "d", p, p', _, _, Dict.get?_set_self _ _ _, Dict.get?_set_self _ _ _, related,
    Dict.get?_set_self _ _ _, Dict.get?_set_self _ _ _, usable, fun other ne => ⟨?_, ?_⟩⟩ <;>
    rw [oneKey, oneKey, Dict.get?_set_of_ne _ ne, Dict.get?_set_of_ne _ ne]

def opsAdmin (readonly : Bool) : Principal where
  agentId := "ops"
  admin := true
  adminReadonly := readonly
  source := .apiKey
  keyId := some "ops"
  separate := by simp

def oneDigest : Helpers := { plainHelpers with digest := fun _ => "d" }

theorem narrowing_is_monotone_readonly :
    (plainResolver.holding (oneKey (opsAdmin false) [])).adminDenial oneDigest 0
        (fromLoopback "Bearer rs-alpha" "") = none ∧
    ((plainResolver.holding (oneKey { (enrolled "a") with callsPush := true, separate := by decide } [])).adminDenial
        oneDigest 0 (fromLoopback "Bearer rs-alpha" "") = none →
      (plainResolver.holding (oneKey (enrolled "a") [])).adminDenial oneDigest 0
        (fromLoopback "Bearer rs-alpha" "") = none) := by
  constructor
  · refine ((narrowing_is_monotone oneDigest plainResolver (oneKey (opsAdmin false) [])
      (oneKey (opsAdmin true) ["127.0.0.1"]) 0 0 (fromLoopback "Bearer rs-alpha" "")).1 ?_).2.1 (by decide)
    have usable : Credential.Narrows { bind := [] } { bind := ["127.0.0.1"] } :=
      ⟨fun _ expires => (by cases expires), .inl rfl⟩
    refine oneRecord_oneKey ?_ usable
    exact { Principal.Narrows.refl (opsAdmin false) with readonly := fun _ => rfl }
  · refine (narrowing_is_monotone oneDigest plainResolver (oneKey (enrolled "a") [])
      (oneKey { (enrolled "a") with callsPush := true, separate := by decide } []) 0 0
      (fromLoopback "Bearer rs-alpha" "")).2 ?_
    exact oneRecord_oneKey ⟨rfl, rfl⟩ rfl

end Roadstead.Identity
