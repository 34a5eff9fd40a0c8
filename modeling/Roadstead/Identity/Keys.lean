import Roadstead.Identity.Forwarded
import Roadstead.Lib.Run

/-!
# Credentials over a history of the registry

`credential` is what a request presents besides a declared placeholder, by the carriers in their order.
`resolve` looks at it but for one kind of request: a Basic header without a password hides the
`X-API-Key` that is sent with it (`hidden`).

A `Ledger` is a registry with the digests whose last registration was that of a bootstrap key.  The
registry keeps every digest that was ever one: where such a secret is enrolled as an operator key after
its revocation, an operator key is there that `configured` does not count, and then a presented
credential may be ignored.  `resolve_never_trades_iff` is exact about both.
-/

namespace Roadstead.Identity

/-! ### What a request presents -/

/-- The last character of a stripped text is no white space. -/
theorem strip_getLast (text : List Char) (ne : Text.strip text ≠ []) :
    Text.isSpace ((Text.strip text).getLast ne) = false :=
  Bool.eq_false_iff.mpr (List.rdropWhile_last_not Text.isSpace (Text.lstrip text) ne)

theorem eq_space_of_toLower {c : Char} (same : c.toLower = ' ') : c = ' ' := by
  unfold Char.toLower at same
  split at same
  · next upper =>
      exfalso
      have value := congrArg (fun c => c.val.toNat) same
      obtain ⟨low, high⟩ := upper
      simp only [UInt32.toNat_add] at value
      have low' : 65 ≤ c.val.toNat := UInt32.le_iff_toNat_le.mp low
      have high' : c.val.toNat ≤ 90 := UInt32.le_iff_toNat_le.mp high
      have d : ('a'.val - 'A'.val).toNat = 32 := by decide
      have e : ' '.val.toNat = 32 := by decide
      rw [d, e] at value
      omega
  · exact same

/-- Something follows a prefix that ends in a space, if the text is stripped. -/
theorem after?_ne_nil {head raw token : List Char}
    (found : after? (head ++ [' ']) (Text.strip raw) = some token) : token ≠ [] := by
  rintro rfl
  obtain ⟨starts, blank⟩ : (head ++ [' ']).isPrefixOf (lower (Text.strip raw)) = true ∧
      Text.strip ((Text.strip raw).drop (head ++ [' ']).length) = [] := by
    unfold after? at found
    split at found
    · next starts => exact ⟨starts, Option.some.inj found⟩
    · cases found
  obtain ⟨rest, split⟩ := List.isPrefixOf_iff_prefix.mp starts
  -- The text around the space of the prefix.
  obtain ⟨before, c, behind, text, length, same⟩ : ∃ before c behind, Text.strip raw = before ++ c :: behind ∧
      before.length = head.length ∧ c.toLower = ' ' := by
    rw [lower, List.append_assoc, List.singleton_append] at split
    obtain ⟨before, tail, text, first, last⟩ := List.map_eq_append_iff.mp split.symm
    obtain ⟨c, behind, rfl, space, -⟩ := List.map_eq_cons_iff.mp last
    exact ⟨before, c, behind, text, by rw [← first, List.length_map], space⟩
  have all_space : ∀ d ∈ c :: behind, Text.isSpace d = true := by
    rw [text, List.length_append, ← length] at blank
    intro d mem
    rcases List.mem_cons.mp mem with rfl | later
    · rw [eq_space_of_toLower same]
      decide
    · refine Text.strip_eq_nil_iff.mp blank d ?_
      simpa using later
  have ne : Text.strip raw ≠ [] := by
    rw [text]
    exact List.append_ne_nil_of_right_ne_nil _ (List.cons_ne_nil _ _)
  have last := strip_getLast raw ne
  have there : (Text.strip raw).getLast ne ∈ c :: behind := by
    have eq : (Text.strip raw).getLast ne = (c :: behind).getLast (List.cons_ne_nil _ _) := by
      simp only [text, List.getLast_append_of_ne_nil _ (List.cons_ne_nil c behind)]
    rw [eq]
    exact List.getLast_mem _
  rw [all_space _ there] at last
  cases last

/-- A header has one scheme. -/
theorem not_basic_of_bearer {text token : List Char} (found : after? bearerPrefix text = some token) :
    after? basicPrefix text = none := by
  unfold after? at found ⊢
  split at found
  case isFalse => cases found
  next bearer =>
    rw [if_neg]
    intro basic
    obtain ⟨rest, eq⟩ := List.isPrefixOf_iff_prefix.mp bearer
    obtain ⟨rest', eq'⟩ := List.isPrefixOf_iff_prefix.mp basic
    -- the second letters differ
    have e : (bearerPrefix ++ rest)[1]? = some 'e' := rfl
    have a : (basicPrefix ++ rest')[1]? = some 'a' := rfl
    rw [eq, ← eq', a] at e
    cases e

/-- The password of a Basic header, or the empty string. -/
def presentedBasic (h : Helpers) (request : Request) : String :=
  (after? basicPrefix (authorization request)).elim "" (basicPassword h)

/-- The `X-API-Key`, or the empty string. -/
def presentedApiKey (request : Request) : String := strip (request.header "X-API-Key")

/-- The credential of a request, a declared placeholder discounted. -/
def IdentityResolver.credential (h : Helpers) (r : IdentityResolver) (request : Request) : Option String :=
  let bearer := presentedBearer request
  [if r.declares bearer then "" else bearer, presentedBasic h request, presentedApiKey request].find?
    fun key => decide (key ≠ "")

/-- A Basic header without a password hides an `X-API-Key`. -/
def hidden (h : Helpers) (request : Request) : Prop :=
  (after? basicPrefix (authorization request)).isSome = true ∧ presentedBasic h request = "" ∧
    presentedApiKey request ≠ ""

theorem ofList_ne_empty {text : List Char} (ne : text ≠ []) : String.ofList text ≠ "" := by
  intro empty
  exact ne (by simpa using congrArg String.toList empty)

theorem find?_last (key : String) :
    ([key].find? fun key => decide (key ≠ "")).getD "" = key := by
  by_cases empty : key = ""
  · subst empty
    rfl
  · rw [List.find?_cons_of_pos (by simpa using empty), Option.getD_some]

/-- An empty key is passed over. -/
theorem find?_empty_cons (keys : List String) :
    (("" :: keys).find? fun key => decide (key ≠ "")) = keys.find? fun key => decide (key ≠ "") :=
  List.find?_cons_of_neg (by simp)

section Credential

variable {h : Helpers} {r : IdentityResolver} {request : Request}

theorem IdentityResolver.credential_ne_empty {k : String} (found : r.credential h request = some k) : k ≠ "" := by
  have kept := List.find?_some found
  exact of_decide_eq_true kept

/-- `resolve` looks at the credential of a request, if it is not hidden. -/
theorem effectiveKey_of_seen (seen : ¬hidden h request) :
    r.effectiveKey h request = (r.credential h request).getD "" := by
  cases bearer : after? bearerPrefix (authorization request) with
  | some token =>
      have token_ne : String.ofList token ≠ "" := ofList_ne_empty (@after?_ne_nil "bearer".toList _ _ bearer)
      have no_basic : presentedBasic h request = "" := by
        rw [presentedBasic, not_basic_of_bearer bearer, Option.elim_none]
      have presented : presentedKey h request = .ofList token := by rw [presentedKey, bearer]
      have carried : presentedBearer request = .ofList token := by rw [presentedBearer, bearer, Option.getD_some]
      rw [IdentityResolver.effectiveKey, IdentityResolver.credential, presented, carried, no_basic]
      by_cases placeholder : r.declares (.ofList token) = true
      · rw [if_pos ⟨token_ne, placeholder⟩, if_pos placeholder, find?_empty_cons, find?_empty_cons,
          find?_last]
        rfl
      · rw [if_neg fun both => placeholder both.2, if_neg placeholder,
          List.find?_cons_of_pos (by simpa using token_ne), Option.getD_some]
  | none =>
      have no_bearer : presentedBearer request = "" := by rw [presentedBearer, bearer]; rfl
      have undeclared : r.declares "" = false := by simp [IdentityResolver.declares]
      have looked : r.effectiveKey h request = presentedKey h request := by
        rw [IdentityResolver.effectiveKey, no_bearer, undeclared]
        exact if_neg fun both => Bool.false_ne_true both.2
      have searched : r.credential h request =
          [presentedBasic h request, presentedApiKey request].find? fun key => decide (key ≠ "") := by
        rw [IdentityResolver.credential, no_bearer, undeclared]
        rfl
      rw [looked, searched]
      cases basic : after? basicPrefix (authorization request) with
      | none =>
          have empty : presentedBasic h request = "" := by rw [presentedBasic, basic, Option.elim_none]
          rw [empty, presentedKey, bearer, basic, find?_empty_cons, find?_last]
          rfl
      | some blob =>
          have password : presentedKey h request = presentedBasic h request := by
            rw [presentedKey, bearer, basic, presentedBasic, basic, Option.elim_some]
          rw [password]
          by_cases empty : presentedBasic h request = ""
          · have no_key : presentedApiKey request = "" := by
              by_contra key
              exact seen ⟨by rw [basic, Option.isSome_some], empty, key⟩
            rw [empty, no_key]
            rfl
          · rw [List.find?_cons_of_pos (by simpa using empty), Option.getD_some]

/-- Where a credential is hidden, `resolve` looks at none. -/
theorem effectiveKey_of_hidden (hides : hidden h request) : r.effectiveKey h request = "" := by
  obtain ⟨basic, empty, -⟩ := hides
  obtain ⟨blob, basic⟩ := Option.isSome_iff_exists.mp basic
  have no_bearer : after? bearerPrefix (authorization request) = none := by
    cases bearer : after? bearerPrefix (authorization request) with
    | none => rfl
    | some token =>
        rw [not_basic_of_bearer bearer] at basic
        cases basic
  have password : presentedKey h request = presentedBasic h request := by
    rw [presentedKey, no_bearer, basic, presentedBasic, basic, Option.elim_some]
  rw [IdentityResolver.effectiveKey, password, empty]
  exact if_neg fun both => both.1 rfl

end Credential

/-! ### A history of the registry -/

/-- What `register` does: nothing, or one new key. -/
theorem KeyRegistry.register_cases (h : Helpers) (now : ℚ) (spec : KeySpec) (keys : KeyRegistry) :
    keys.register h now spec = (keys, none) ∨
      ∃ digest separate, spec.digest h = some digest ∧ keys.byDigest.get? digest = none ∧
        keys.register h now spec =
          ({ byDigest := keys.byDigest.set digest (spec.principal (spec.label digest) separate)
             credential := keys.credential.set digest
              { source := spec.source, createdAt := now, expiresAt := spec.expiresAt, bind := spec.bind }
             bootstrap := if spec.bootstrap then insert digest keys.bootstrap else keys.bootstrap },
            some (spec.label digest)) := by
  cases found : spec.digest h with
  | none => exact .inl (by rw [register, found])
  | some digest =>
      by_cases anonymous : spec.agentId = ""
      · exact .inl (by simp only [register, found, anonymous, if_true])
      by_cases separate : spec.callsPush = true ∧ spec.admin = true
      · exact .inl (by simp only [register, found, if_neg anonymous, dif_pos separate])
      by_cases taken : keys.byDigest.contains digest = true
      · exact .inl (by simp only [register, found, if_neg anonymous, dif_neg separate, if_pos taken])
      refine .inr ⟨digest, separate, rfl, ?_, ?_⟩
      · rw [Dict.get?_eq_none_iff, ← Dict.contains_iff]
        exact taken
      · simp only [register, found, if_neg anonymous, dif_neg separate, if_neg taken]

/-- A key that is found by its label has it. -/
theorem KeyRegistry.labelled_spec {keys : KeyRegistry} {keyId digest : String} {principal : Principal}
    (found : keys.labelled keyId = some (digest, principal)) :
    keys.byDigest.get? digest = some principal ∧ principal.keyId = some keyId := by
  refine ⟨Dict.mem_entries_iff.mp (List.mem_of_find?_eq_some found), ?_⟩
  have label := List.find?_some found
  exact of_decide_eq_true label

/-- An operation on the registry. -/
inductive KeyOp where
  | register (spec : KeySpec) (now : ℚ)
  | revoke (keyId : String)
  | setExpiry (keyId : String) (expiresAt : Option ℚ)

/-- A registry, with the digests whose last registration was that of a bootstrap key. -/
structure Ledger where
  keys : KeyRegistry := {}
  minted : Finset String := ∅

namespace Ledger

/-- `minted` after a registration that was not refused. -/
def mint (h : Helpers) (spec : KeySpec) (minted : Finset String) : Finset String :=
  (spec.digest h).elim minted fun digest => if spec.bootstrap then insert digest minted else minted.erase digest

def step (h : Helpers) (l : Ledger) : KeyOp → Ledger
  | .register spec now =>
      let (keys, label) := l.keys.register h now spec
      { keys := keys, minted := if label.isSome then mint h spec l.minted else l.minted }
  | .revoke keyId => { l with keys := (l.keys.revoke keyId).1 }
  | .setExpiry keyId expiresAt => { l with keys := (l.keys.setExpiry keyId expiresAt).1 }

def run (h : Helpers) (ops : List KeyOp) : Ledger := Runs.run (step h) {} ops

/-- Some registered key is an operator's. -/
def operatorKey (l : Ledger) : Prop := ∃ digest ∈ l.keys.byDigest.keys, digest ∉ l.minted

/-- Every registered principal is one of a key. -/
def FromKeys (l : Ledger) : Prop :=
  ∀ digest principal, l.keys.byDigest.get? digest = some principal → principal.source = .apiKey

/-- An operation registers a key for a digest. -/
def Registers (h : Helpers) (l : Ledger) (digest : String) : KeyOp → Prop
  | .register spec now => spec.digest h = some digest ∧ (l.keys.register h now spec).2.isSome = true
  | _ => False

/-- After a step a digest has no key, the one that it had, or the one that the step registers for it. -/
theorem get?_step (h : Helpers) (l : Ledger) (op : KeyOp) (digest : String) :
    (l.step h op).keys.byDigest.get? digest = none ∨
      (l.step h op).keys.byDigest.get? digest = l.keys.byDigest.get? digest ∨
      l.Registers h digest op ∧ ∃ principal : Principal, principal.source = .apiKey ∧
        (l.step h op).keys.byDigest.get? digest = some principal := by
  cases op with
  | register spec now =>
      rcases l.keys.register_cases h now spec with refused | ⟨new, separate, parsed, -, registered⟩
      · exact .inr (.inl (by simp only [step, refused]))
      · have accepted : (l.keys.register h now spec).2.isSome = true := by rw [registered, Option.isSome_some]
        simp only [step, registered]
        by_cases same : digest = new
        · subst same
          exact .inr (.inr ⟨⟨parsed, accepted⟩, _, rfl, Dict.get?_set_self _ _ _⟩)
        · exact .inr (.inl (Dict.get?_set_of_ne _ same _))
  | revoke keyId =>
      cases found : l.keys.labelled keyId with
      | none => exact .inr (.inl (by simp only [step, KeyRegistry.revoke, found]))
      | some entry =>
          simp only [step, KeyRegistry.revoke, found]
          by_cases same : digest = entry.1
          · subst same
            exact .inl (Dict.get?_erase_self _ _)
          · exact .inr (.inl (Dict.get?_erase_of_ne _ same))
  | setExpiry keyId expiresAt =>
      refine .inr (.inl ?_)
      cases found : l.keys.labelled keyId with
      | none | some entry => simp only [step, KeyRegistry.setExpiry, found]

theorem fromKeys_step {h : Helpers} {l : Ledger} (keyed : l.FromKeys) (op : KeyOp) :
    (l.step h op).FromKeys := by
  intro digest principal there
  rcases l.get?_step h op digest with gone | same | ⟨-, registered, from_key, new⟩
  · rw [gone] at there
    cases there
  · exact keyed digest principal (same ▸ there)
  · rw [new] at there
    cases there
    exact from_key

theorem fromKeys_run (h : Helpers) (ops : List KeyOp) : (run h ops).FromKeys :=
  Runs.run_forall FromKeys (fun _ op keyed => fromKeys_step keyed op) (fun _ _ there => by cases there) ops

/-- A resolver with the keys of a ledger and some address map. -/
def under (l : Ledger) (r : IdentityResolver) (acl : IPIdentityMap) : IdentityResolver :=
  { r with keys := l.keys, acl := acl }

end Ledger

/-! ### Never traded for an address -/

/-- The principal is the one registered for a secret, unexpired and presented from where it is bound to. -/
structure Confers (h : Helpers) (now : ℚ) (r : IdentityResolver) (request : Request) (k : String)
    (principal : Principal) : Prop where
  registered : r.keys.byDigest.get? (h.digest k) = some principal
  unexpired : ∀ expiresAt,
    (r.keys.credential.get? (h.digest k)).bind Credential.expiresAt = some expiresAt → now < expiresAt
  inside : ∀ credential, r.keys.credential.get? (h.digest k) = some credential → credential.bind = [] ∨
    addressInAny h (r.clientAddress h request).ip credential.bind = true

/-- What `resolve` may answer to a credential. -/
def Answers (h : Helpers) (now : ℚ) (r : IdentityResolver) (request : Request) (k : String)
    (answer : Except Denial Principal) : Prop :=
  (∃ principal, answer = .ok principal ∧ Confers h now r request k principal) ∨
    ∃ denial, answer = .error denial ∧ denial.status = 401

section Resolve

variable {h : Helpers} {now : ℚ} {r : IdentityResolver} {request : Request}

theorem bindingDenial_status {found : KeyLookup} {denial : Denial}
    (denied : r.bindingDenial h request found = some denial) : denial.status = 401 := by
  unfold IdentityResolver.bindingDenial at denied
  split at denied
  · cases denied
  · dsimp only at denied
    split at denied
    · cases denied
    · cases denied
      rfl

/-- Without a denial the address is in the networks of the key. -/
theorem bindingDenial_eq_none_iff {found : KeyLookup} :
    r.bindingDenial h request found = none ↔
      found.bind = [] ∨ addressInAny h (r.clientAddress h request).ip found.bind = true := by
  unfold IdentityResolver.bindingDenial
  by_cases unbound : found.bind = []
  · simp only [unbound, if_true, true_or]
  · by_cases inside : addressInAny h (r.clientAddress h request).ip found.bind = true
    · simp only [if_neg unbound, inside, if_true, or_true]
    · simp [unbound, inside]

theorem KeyRegistry.isExpired_eq_false_iff {keys : KeyRegistry} {digest : String} :
    keys.isExpired now digest = false ↔
      ∀ expiresAt, (keys.credential.get? digest).bind Credential.expiresAt = some expiresAt → now < expiresAt := by
  rw [isExpired, Option.any_eq_false]
  simp only [decide_eq_false_iff_not, not_le]

theorem resolveKey_answers {k : String} (ne : k ≠ "") :
    Answers h now r request k (r.resolveKey h now request k) := by
  rw [IdentityResolver.resolveKey]
  cases known : r.keys.byDigest.get? (h.digest k) with
  | none =>
      refine .inr ⟨IdentityResolver.unregisteredDenial, ?_, rfl⟩
      simp only [KeyRegistry.lookup, if_neg ne, known, Option.isSome_none, Bool.false_eq_true, if_false]
  | some principal =>
      cases expired : r.keys.isExpired now (h.digest k) with
      | true =>
          simp only [KeyRegistry.lookup, if_neg ne, known, expired, if_true]
          refine .inr ⟨_, rfl, ?_⟩
          split <;> rfl
      | false =>
          have found : r.keys.lookup h now k =
              { principal := some principal
                keyId := principal.keyId
                bind := ((r.keys.credential.get? (h.digest k)).map Credential.bind).getD [] } := by
            simp only [KeyRegistry.lookup, if_neg ne, known, expired, Bool.false_eq_true, if_false]
          rw [found]
          dsimp only
          cases bound : r.bindingDenial h request _ with
          | some denial => exact .inr ⟨denial, rfl, bindingDenial_status bound⟩
          | none =>
              refine .inl ⟨principal, rfl, known, KeyRegistry.isExpired_eq_false_iff.mp expired, ?_⟩
              intro credential there
              have inside := bindingDenial_eq_none_iff.mp bound
              simpa only [there, Option.map_some, Option.getD_some] using inside

/-- An address decides where no key is looked up and none is required. -/
theorem resolveAddress_source {principal : Principal} (found : r.resolveAddress h request = .ok principal) :
    principal.source = .ip := by
  unfold IdentityResolver.resolveAddress at found
  dsimp only at found
  split at found
  · cases found
  · cases found
    rfl

/-- Some address map accepts an address. -/
theorem exists_resolveAddress (h : Helpers) (r : IdentityResolver) (request : Request) :
    ∃ acl principal, IdentityResolver.resolveAddress h { r with acl := acl } request = .ok principal := by
  have accepts : ∀ (ip : String) (reg : Registration),
      IPIdentityMap.lookup h { exact := (∅ : Dict String Registration).set ip reg } ip = some reg := by
    intro ip reg
    rw [IPIdentityMap.lookup, Dict.get?_set_self]
  let reg : Registration := { agentId := "", priority := .p3Ingestion }
  refine ⟨{ exact := (∅ : Dict String Registration).set (r.clientAddress h request).ip reg }, ?_⟩
  unfold IdentityResolver.resolveAddress
  dsimp only
  split
  · next refused => exact absurd (refused.symm.trans (accepts _ _)) (by simp)
  · exact ⟨_, rfl⟩

/-- The credential of a request is looked up: it is not hidden, and the keys are in play for it. -/
def LookedUp (h : Helpers) (r : IdentityResolver) (request : Request) (k : String) : Prop :=
  ¬hidden h request ∧ (r.keys.configured = true ∨ r.keys.isBootstrap h k = true)

/-- A credential that is looked up decides the answer. -/
theorem resolve_of_lookedUp {k : String} (presented : r.credential h request = some k)
    (looked : LookedUp h r request k) : r.resolve h now request = r.resolveKey h now request k := by
  have key : r.effectiveKey h request = k := by
    rw [effectiveKey_of_seen looked.1, presented, Option.getD_some]
  rw [IdentityResolver.resolve, key]
  exact if_pos ⟨IdentityResolver.credential_ne_empty presented, by rw [Bool.or_eq_true]; exact looked.2⟩

/-- One that is not looked up is ignored. -/
theorem resolve_of_not_lookedUp {k : String} (presented : r.credential h request = some k)
    (ignored : ¬LookedUp h r request k) :
    r.resolve h now request =
      if r.requireKey then .error IdentityResolver.requiredDenial else r.resolveAddress h request := by
  rw [IdentityResolver.resolve]
  refine if_neg ?_
  rintro ⟨ne, play⟩
  by_cases hides : hidden h request
  · exact ne (effectiveKey_of_hidden hides)
  · rw [effectiveKey_of_seen hides, presented, Option.getD_some, Bool.or_eq_true] at play
    exact ignored ⟨hides, play⟩

/-- Under some address map it is traded for an address, unless a key is required. -/
theorem exists_traded {k : String} (l : Ledger) (presented : r.credential h request = some k)
    (ignored : ¬LookedUp h (l.under r r.acl) request k) (free : ¬r.requireKey = true) :
    ∃ acl principal, (l.under r acl).resolve h now request = .ok principal ∧ principal.source = .ip := by
  obtain ⟨acl, principal, accepted⟩ := exists_resolveAddress h { r with keys := l.keys } request
  refine ⟨acl, principal, ?_, resolveAddress_source accepted⟩
  rw [@resolve_of_not_lookedUp h now (l.under r acl) request k presented ignored]
  exact (if_neg free).trans accepted

end Resolve

/-- A presented credential is not traded for an address: an address decides only where none was presented,
or where the registry has no operator key and the presented one is no bootstrap key; else the answer
is the same for every address map. -/
def NeverTraded (h : Helpers) (now : ℚ) (l : Ledger) (r : IdentityResolver) (request : Request) : Prop :=
  (∀ acl principal, (l.under r acl).resolve h now request = .ok principal → principal.source = .ip →
    ∀ k, r.credential h request = some k → ¬l.operatorKey ∧ h.digest k ∉ l.minted) ∧
  ∀ k, r.credential h request = some k → l.operatorKey ∨ h.digest k ∈ l.minted →
    ∃ answer, (∀ acl, (l.under r acl).resolve h now request = answer) ∧
      Answers h now (l.under r r.acl) request k answer

/-- **When a credential is never traded for an address.**  After every history of the registry, exactly if a
credential that has to count is looked up, or a key is required of everyone. -/
theorem resolve_never_trades_iff (h : Helpers) (ops : List KeyOp) (now : ℚ) (r : IdentityResolver)
    (request : Request) :
    NeverTraded h now (Ledger.run h ops) r request ↔
      ∀ k, r.credential h request = some k →
        (Ledger.run h ops).operatorKey ∨ h.digest k ∈ (Ledger.run h ops).minted →
        r.requireKey = true ∨ ¬hidden h request ∧
          ((Ledger.run h ops).keys.configured = true ∨ (Ledger.run h ops).keys.isBootstrap h k = true) := by
  have keyed := Ledger.fromKeys_run h ops
  generalize Ledger.run h ops = l at keyed ⊢
  constructor
  · intro never k presented counts
    by_contra unmet
    obtain ⟨free, ignored⟩ := not_or.mp unmet
    obtain ⟨acl, principal, traded, by_address⟩ := exists_traded l presented ignored free
    obtain ⟨none_there, not_minted⟩ := never.1 acl principal traded by_address k presented
    exact counts.elim none_there not_minted
  · intro met
    have answered : ∀ k, r.credential h request = some k → l.operatorKey ∨ h.digest k ∈ l.minted →
        ∃ answer, (∀ acl, (l.under r acl).resolve h now request = answer) ∧
          Answers h now (l.under r r.acl) request k answer := by
      intro k presented counts
      by_cases looked : LookedUp h (l.under r r.acl) request k
      · exact ⟨_, fun acl => resolve_of_lookedUp (r := l.under r acl) presented looked,
          resolveKey_answers (IdentityResolver.credential_ne_empty presented)⟩
      · have required : r.requireKey = true := (met k presented counts).resolve_right looked
        refine ⟨.error IdentityResolver.requiredDenial, fun acl => ?_, .inr ⟨_, rfl, rfl⟩⟩
        rw [resolve_of_not_lookedUp (r := l.under r acl) presented looked]
        exact if_pos required
    refine ⟨fun acl principal accepted by_address k presented => ?_, answered⟩
    by_contra counts
    have counts' : l.operatorKey ∨ h.digest k ∈ l.minted := by
      rw [not_and_or, not_not, not_not] at counts
      exact counts
    obtain ⟨answer, same, given⟩ := answered k presented counts'
    rcases given with ⟨principal', rfl, confers⟩ | ⟨denial, rfl, -⟩
    · rw [same acl] at accepted
      cases accepted
      rw [keyed _ _ confers.registered] at by_address
      cases by_address
    · rw [same acl] at accepted
      cases accepted

/-- A request from loopback with an `Authorization` and an `X-API-Key`. -/
def fromLoopback (authorization apiKey : String) : Request where
  header name := if name = "Authorization" then authorization else if name = "X-API-Key" then apiKey else ""
  client := some "127.0.0.1"

def plainResolver : IdentityResolver where
  acl := {}
  keys := {}

/-- The secret of a revoked bootstrap key is enrolled as an operator key. -/
def reenrolled : List KeyOp :=
  [.register { agentId := "setup", secret := some "rs-alpha", keyId := some "boot", admin := true, bootstrap := true } 0,
    .revoke "boot", .register { agentId := "ops", secret := some "rs-alpha", keyId := some "ops" } 1]

def internal : Principal where
  agentId := "internal"
  priority := .p1TurnSupport
  separate := Principal.separate_of_plain

/-- An unknown key beside an operator key that was a bootstrap key once, and a key beside a Basic header that
cannot be decoded: both are traded for the address. -/
theorem resolve_trades :
    ¬NeverTraded plainHelpers 2 (.run plainHelpers reenrolled) plainResolver (fromLoopback "Bearer rs-beta" "") ∧
    ¬NeverTraded plainHelpers 2 (.run plainHelpers (reenrolled.drop 2)) plainResolver
      (fromLoopback "Basic ?" "rs-alpha") := by
  constructor
  · intro never
    refine (never.1 {} internal (by decide) rfl "rs-beta" (by decide)).1 ?_
    exact ⟨plainHelpers.digest "rs-alpha", by decide, by decide⟩
  · intro never
    refine (never.1 {} internal (by decide) rfl "rs-alpha" (by decide)).1 ?_
    exact ⟨plainHelpers.digest "rs-alpha", by decide, by decide⟩

end Roadstead.Identity
