import Roadstead.Identity.Keys

/-!
# A revoked key stays dead

`revoke` removes the first registered key with a label, so a second one with the label outlives it.  A
digest without a key keeps none until an operation registers it (`Ledger.get?_run_eq_none`), and then a
request with its secret is denied wherever the secret is looked up: `revoked_stays_dead`.
-/

namespace Roadstead.Identity

namespace Ledger

variable {h : Helpers}

/-- The ledger after more operations. -/
def after (h : Helpers) (l : Ledger) (ops : List KeyOp) : Ledger := Runs.run (step h) l ops

/-- No operation registers a key for a digest. -/
def Silent (h : Helpers) (digest : String) (l : Ledger) (ops : List KeyOp) : Prop :=
  Runs.Along (step h) (fun l op => ¬l.Registers h digest op) l ops

theorem get?_step_eq_none {l : Ledger} {op : KeyOp} {digest : String}
    (gone : l.keys.byDigest.get? digest = none) (silent : ¬l.Registers h digest op) :
    (l.step h op).keys.byDigest.get? digest = none := by
  rcases l.get?_step h op digest with none_there | same | ⟨registers, -⟩
  · exact none_there
  · rw [same, gone]
  · exact absurd registers silent

theorem get?_run_eq_none {l : Ledger} {ops : List KeyOp} {digest : String}
    (gone : l.keys.byDigest.get? digest = none) (silent : l.Silent h digest ops) :
    (l.after h ops).keys.byDigest.get? digest = none :=
  Runs.run_invariant (fun l => l.keys.byDigest.get? digest = none) (fun _ _ => get?_step_eq_none) gone silent

/-- A revocation leaves a digest without a key, if it had none or the first one with the label, and only then. -/
theorem get?_revoke_eq_none_iff {l : Ledger} {keyId digest : String} :
    (l.step h (.revoke keyId)).keys.byDigest.get? digest = none ↔
      ∀ principal, l.keys.byDigest.get? digest = some principal →
        l.keys.labelled keyId = some (digest, principal) := by
  constructor
  · intro gone principal had
    cases found : l.keys.labelled keyId with
    | none =>
        simp only [step, KeyRegistry.revoke, found, had] at gone
        cases gone
    | some entry =>
        obtain ⟨other, principal'⟩ := entry
        have there := (KeyRegistry.labelled_spec found).1
        simp only [step, KeyRegistry.revoke, found] at gone
        by_cases same : digest = other
        · subst same
          rw [had] at there
          cases there
          rfl
        · rw [Dict.get?_erase_of_ne _ same, had] at gone
          cases gone
  · intro first
    cases had : l.keys.byDigest.get? digest with
    | some principal =>
        simp only [step, KeyRegistry.revoke, first principal had]
        exact Dict.get?_erase_self _ _
    | none => exact get?_step_eq_none had (fun registers => registers)

end Ledger

/-- A request is denied, whatever the address map. -/
def Denied (h : Helpers) (now : ℚ) (l : Ledger) (r : IdentityResolver) (request : Request) : Prop :=
  ∃ denial, denial.status = 401 ∧ ∀ acl, (l.under r acl).resolve h now request = .error denial

theorem lookup_of_none {h : Helpers} {now : ℚ} {keys : KeyRegistry} {secret : String} (ne : secret ≠ "")
    (gone : keys.byDigest.get? (h.digest secret) = none) : keys.lookup h now secret = {} := by
  simp only [KeyRegistry.lookup, if_neg ne, gone]

/-- A secret without a key is denied, if it is looked up or a key is required of everyone. -/
theorem denied_iff {h : Helpers} {now : ℚ} {l : Ledger} {r : IdentityResolver} {request : Request} {secret : String}
    (gone : l.keys.byDigest.get? (h.digest secret) = none) (presented : r.credential h request = some secret) :
    Denied h now l r request ↔ r.requireKey = true ∨ LookedUp h (l.under r r.acl) request secret := by
  constructor
  · rintro ⟨denial, -, denied⟩
    by_contra unmet
    obtain ⟨free, ignored⟩ := not_or.mp unmet
    obtain ⟨acl, principal, traded, -⟩ := exists_traded l presented ignored free
    rw [denied acl] at traded
    cases traded
  · intro met
    by_cases looked : LookedUp h (l.under r r.acl) request secret
    · refine ⟨IdentityResolver.unregisteredDenial, rfl, fun acl => ?_⟩
      rw [@resolve_of_lookedUp h now (l.under r acl) request secret presented looked]
      have unknown : (l.under r acl).keys.lookup h now secret = {} :=
        lookup_of_none (IdentityResolver.credential_ne_empty presented) gone
      rw [IdentityResolver.resolveKey, unknown]
      rfl
    · refine ⟨IdentityResolver.requiredDenial, rfl, fun acl => ?_⟩
      rw [@resolve_of_not_lookedUp h now (l.under r acl) request secret presented looked]
      exact if_pos (met.resolve_right looked)

/-- **A revoked key stays dead.**  A secret whose key is the first one with the label, or that has none, has none
after a revocation until it is registered again; then a request that presents it is denied, exactly if
it has to present a key or its credential is looked up. -/
theorem revoked_stays_dead (h : Helpers) (before ops : List KeyOp) (keyId secret : String)
    (first : ∀ principal, (Ledger.run h before).keys.byDigest.get? (h.digest secret) = some principal →
      (Ledger.run h before).keys.labelled keyId = some (h.digest secret, principal))
    (silent : ((Ledger.run h before).step h (.revoke keyId)).Silent h (h.digest secret) ops)
    (now : ℚ) (r : IdentityResolver) (request : Request) (presented : r.credential h request = some secret) :
    Denied h now (Ledger.run h (before ++ .revoke keyId :: ops)) r request ↔
      r.requireKey = true ∨ ¬hidden h request ∧
        ((Ledger.run h (before ++ .revoke keyId :: ops)).keys.configured = true ∨
          (Ledger.run h (before ++ .revoke keyId :: ops)).keys.isBootstrap h secret = true) := by
  have gone : (Ledger.run h (before ++ .revoke keyId :: ops)).keys.byDigest.get? (h.digest secret) = none := by
    rw [Ledger.run, Runs.run_append, Runs.run_cons]
    exact Ledger.get?_run_eq_none (Ledger.get?_revoke_eq_none_iff.mpr first) silent
  exact denied_iff gone presented

def enrol (secret label : String) : KeyOp := .register { agentId := "ops", secret := some secret, keyId := some label } 0

/-- The principal of an enrolled secret. -/
def enrolled (label : String) : Principal :=
  { agentId := "ops", source := .apiKey, keyId := some label, separate := Principal.separate_of_plain }

theorem revoked_stays_dead_beta :
    Denied plainHelpers 1 (.run plainHelpers ([enrol "rs-alpha" "a", enrol "rs-beta" "b"] ++ .revoke "b" :: []))
        plainResolver (fromLoopback "Bearer rs-beta" "") ↔
      plainResolver.requireKey = true ∨ ¬hidden plainHelpers (fromLoopback "Bearer rs-beta" "") ∧
        ((Ledger.run plainHelpers ([enrol "rs-alpha" "a", enrol "rs-beta" "b"] ++ .revoke "b" :: [])).keys.configured =
            true ∨
          (Ledger.run plainHelpers ([enrol "rs-alpha" "a", enrol "rs-beta" "b"] ++ .revoke "b" :: [])).keys.isBootstrap
            plainHelpers "rs-beta" = true) := by
  refine revoked_stays_dead plainHelpers [enrol "rs-alpha" "a", enrol "rs-beta" "b"] [] "b" "rs-beta" ?_ trivial 1
    plainResolver (fromLoopback "Bearer rs-beta" "") (by decide +kernel)
  intro principal had
  have known : (Ledger.run plainHelpers [enrol "rs-alpha" "a", enrol "rs-beta" "b"]).keys.byDigest.get?
      (plainHelpers.digest "rs-beta") = some (enrolled "b") := by decide +kernel
  cases had.symm.trans known
  decide +kernel

/-- After a revocation that returned `True` an operator key is left, and a revoked secret is accepted. -/
def Outlives (before : List KeyOp) (keyId : String) (request : Request) (principal : Principal) : Prop :=
  let l := Ledger.run plainHelpers (before ++ [.revoke keyId])
  ((Ledger.run plainHelpers before).keys.revoke keyId).2 = true ∧ l.operatorKey ∧
    (l.under plainResolver {}).resolve plainHelpers 1 request = .ok principal

/-- A second key with the label resolves; a revoked secret falls back to the address where `configured` misses the
operator key, and where it is hidden. -/
theorem revoked_key_answers :
    Outlives [enrol "rs-alpha" "ops", enrol "rs-beta" "ops"] "ops" (fromLoopback "Bearer rs-beta" "")
      (enrolled "ops") ∧
    Outlives (reenrolled ++ [enrol "rs-beta" "b"]) "b" (fromLoopback "Bearer rs-beta" "") internal ∧
    Outlives [enrol "rs-alpha" "a", enrol "rs-beta" "b"] "b" (fromLoopback "Basic ?" "rs-beta") internal :=
  ⟨⟨by decide, ⟨plainHelpers.digest "rs-beta", by decide, by decide⟩, by decide⟩,
    ⟨by decide, ⟨plainHelpers.digest "rs-alpha", by decide, by decide⟩, by decide⟩,
    ⟨by decide, ⟨plainHelpers.digest "rs-alpha", by decide, by decide⟩, by decide⟩⟩

end Roadstead.Identity
