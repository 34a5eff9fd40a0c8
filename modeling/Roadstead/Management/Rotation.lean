import Roadstead.Management.Facts
import Roadstead.Management.Handlers

/-!
# A rotation inherits the policy

The successor of a rotation is registered from the row of its predecessor in `snapshot`, argument by
argument.  The row has `priority_declared`, and the call of `register` does not pass it on: the
successor of a key that named its band declares none, and is served in the band of its agent.
Everything else is inherited, the predecessor ends as it should, and no other key is touched, whichever
id the successor gets, its predecessor's own included (`rotation_inherits_iff`).

A registry is one that `register`, `revoke` and `set_expiry` made, so what a key may assert is
stripped text (`Stripped`), and the round trip over the row leaves it as it is.
-/

namespace Roadstead.Management

open Roadstead.Identity

/-! ### The property -/

/-- No presentation of the key under `d` is resolved once its overlap or its own life is over. -/
def Stops (h : Helpers) (before after : KeyRegistry) (d : String) (overlap later : ℚ) : Prop :=
  ∀ clock presented, h.digest presented = d →
    overlap ≤ 0 ∨ later + overlap ≤ clock ∨
      (∃ expiresAt ∈ (before.credential.get? d).bind Credential.expiresAt, expiresAt ≤ clock) →
    (after.lookup h clock presented).principal = none

/-- One key is new, and has the policy and the binding of the key under `d`; that key stops, and the others
are as they were. -/
def Inherits (h : Helpers) (before after : KeyRegistry) (d : String) (p : Principal)
    (overlap later : ℚ) : Prop :=
  ∃ d' p', before.byDigest.get? d' = none ∧ after.byDigest.get? d' = some p' ∧
    p' = { p with keyId := p'.keyId } ∧
    ((after.credential.get? d').map Credential.bind).getD [] =
      ((before.credential.get? d).map Credential.bind).getD [] ∧
    Stops h before after d overlap later ∧
    ∀ other, other ≠ d → other ≠ d' → after.byDigest.get? other = before.byDigest.get? other ∧
      after.credential.get? other = before.credential.get? other

/-! ### What a registry holds -/

/-- The principal is one that a registration confers. -/
structure Stripped (p : Principal) : Prop where
  source : p.source = .apiKey
  mayAssert : ∀ name ∈ p.mayAssert, strip name = name ∧ name ≠ ""

theorem strip_again (text : String) : strip (strip text) = strip text := by
  unfold strip
  rw [String.toList_ofList, Text.strip_strip]

theorem stripped_principal (spec : KeySpec) (label : String)
    (separate : ¬(spec.callsPush = true ∧ spec.admin = true)) : Stripped (spec.principal label separate) where
  source := rfl
  mayAssert name mem := by
    have listed : name ∈ (spec.mayAssert.map strip).filter fun name => decide (name ≠ "") :=
      List.mem_toFinset.mp mem
    obtain ⟨there, nonempty⟩ := List.mem_filter.mp listed
    obtain ⟨text, -, rfl⟩ := List.mem_map.mp there
    exact ⟨strip_again text, of_decide_eq_true nonempty⟩

def AllStripped (l : Ledger) : Prop :=
  ∀ d p, l.keys.byDigest.get? d = some p → Stripped p

theorem allStripped_step {h : Helpers} {l : Ledger} (stripped : AllStripped l) (op : KeyOp) :
    AllStripped (l.step h op) := by
  intro d p there
  cases op with
  | register spec now =>
      rcases l.keys.register_cases h now spec with refused | ⟨new, separate, -, -, registered⟩
      · simp only [Ledger.step, refused] at there
        exact stripped d p there
      · simp only [Ledger.step, registered] at there
        rw [Dict.get?_set] at there
        split at there
        · obtain rfl := Option.some.inj there
          exact stripped_principal spec _ separate
        · exact stripped d p there
  | revoke keyId =>
      cases found : l.keys.labelled keyId with
      | none =>
          simp only [Ledger.step, KeyRegistry.revoke, found] at there
          exact stripped d p there
      | some entry =>
          simp only [Ledger.step, KeyRegistry.revoke, found] at there
          exact stripped d p (Dict.get?_of_get?_erase there)
  | setExpiry keyId expiresAt =>
      cases found : l.keys.labelled keyId with
      | none | some entry =>
          simp only [Ledger.step, KeyRegistry.setExpiry, found] at there
          exact stripped d p there

theorem allStripped_run (h : Helpers) (ops : List KeyOp) : AllStripped (Ledger.run h ops) :=
  Runs.run_forall AllStripped (fun _ op stripped => allStripped_step stripped op)
    (fun _ _ there => by cases there) ops

/-- Where no two keys have the same id, each id is that of one key. -/
theorem alone_of_nodup {keys : KeyRegistry} (distinct : (keys.byDigest.values.map Principal.keyId).Nodup)
    (id : String) : Alone keys id := by
  rw [Dict.values, List.map_map] at distinct
  intro d d' f f' known known' label label'
  have same := List.inj_on_of_nodup_map distinct
    (Dict.mem_entries_iff.mpr (get?_of_fact known)) (Dict.mem_entries_iff.mpr (get?_of_fact known'))
    (show f.principal.keyId = f'.principal.keyId from label.trans label'.symm)
  exact congrArg Prod.fst same

/-! ### The row and the successor -/

section Rotation

variable {h : Helpers} {keys : KeyRegistry} {keyId d : String} {p : Principal}

/-- The row of a key whose id nobody else has. -/
theorem snapshotRow_eq (alone : Alone keys keyId) (known : keys.byDigest.get? d = some p)
    (label : p.keyId = some keyId) :
    snapshotRow keys keyId = some (p, (keys.credential.get? d).getD {}) := by
  have same : (keys.byDigest.entries.filter fun entry => decide (entry.2.keyId = some keyId)) =
      keys.byDigest.entries.filter fun entry => decide (entry.1 = d) := by
    refine List.filter_congr fun entry mem => ?_
    have there := Dict.mem_entries_iff.mp (show (entry.1, entry.2) ∈ keys.byDigest.entries from mem)
    rw [decide_eq_decide]
    constructor
    · intro label'
      obtain ⟨f, fact_d, principal⟩ := fact_of_get? known
      obtain ⟨f', fact_d', principal'⟩ := fact_of_get? there
      exact alone entry.1 d f' f fact_d' fact_d (by rw [Fact.Labelled, principal', label'])
        (by rw [Fact.Labelled, principal, label])
    · rintro rfl
      obtain rfl := Option.some.inj (known.symm.trans there)
      exact label
  rw [snapshotRow, same, Dict.entries_filter_key, known, Option.map_some, Option.toList_some,
    List.mergeSort_singleton]
  rfl

/-- What a key may assert survives the row. -/
theorem assertable_permitted (stripped : Stripped p) {spec : KeySpec}
    (inherited : spec.mayAssert = p.permitted) : spec.assertable = p.mayAssert := by
  have listed : ∀ name ∈ p.permitted, strip name = name ∧ name ≠ "" := fun name mem =>
    stripped.mayAssert name ((Finset.mem_sort _).mp mem)
  have kept : (p.permitted.map strip).filter (fun name => decide (name ≠ "")) = p.permitted := by
    rw [List.map_congr_left fun name mem => (listed name mem).1, List.map_id']
    exact List.filter_eq_self.mpr fun name mem => decide_eq_true (listed name mem).2
  rw [KeySpec.assertable, inherited, kept]
  exact Finset.sort_toFinset _ _

/-- The successor has the policy of its predecessor, and declares no priority. -/
theorem successor_eq (stripped : Stripped p) (body : KeyRotate) (fresh : String) (now : ℚ)
    (credential : Credential) (label : String)
    (separate : ¬((body.spec keyId fresh now (p, credential)).callsPush = true ∧
      (body.spec keyId fresh now (p, credential)).admin = true)) :
    (body.spec keyId fresh now (p, credential)).principal label separate =
      { p with keyId := some label, priorityDeclared := false } := by
  have assertable : (body.spec keyId fresh now (p, credential)).assertable = p.mayAssert :=
    assertable_permitted stripped rfl
  have source := stripped.source
  obtain ⟨_, _, _, _, _, _, _, _, _, _, _⟩ := p
  rw [KeySpec.principal, Principal.mk.injEq]
  exact ⟨rfl, rfl, rfl, rfl, rfl, rfl, rfl, source.symm, rfl, assertable⟩

/-- An overlap never lengthens a life. -/
theorem retiresAt_le (row : Principal × Credential) (overlap later : ℚ) :
    KeyPlane.retiresAt row overlap later ≤ later + overlap ∧
      ∀ expiresAt ∈ row.2.expiresAt, KeyPlane.retiresAt row overlap later ≤ expiresAt := by
  unfold KeyPlane.retiresAt
  cases row.2.expiresAt with
  | none => exact ⟨le_rfl, nofun⟩
  | some own =>
      by_cases early : own < later + overlap
      · refine ⟨by simpa only [if_pos early] using early.le, fun expiresAt mem => ?_⟩
        obtain rfl := Option.mem_some_iff.mp mem
        simp only [if_pos early, le_refl]
      · refine ⟨by simp only [if_neg early, le_refl], fun expiresAt mem => ?_⟩
        obtain rfl := Option.mem_some_iff.mp mem
        simpa only [if_neg early] using not_lt.mp early

/-! ### The registry after a rotation -/

/-- A key that is gone, or whose expiry has come, is not resolved. -/
theorem lookup_principal_eq_none {after : KeyRegistry} {clock : ℚ} {presented : String}
    (ended : after.byDigest.get? (h.digest presented) = none ∨
      ∃ expiresAt ∈ (after.credential.get? (h.digest presented)).bind Credential.expiresAt,
        expiresAt ≤ clock) : (after.lookup h clock presented).principal = none := by
  unfold KeyRegistry.lookup
  split
  · rfl
  · dsimp only
    rcases ended with gone | ⟨expiresAt, expiry, come⟩
    · rw [gone]
    · have expired : after.isExpired clock (h.digest presented) = true := by
        rw [KeyRegistry.isExpired, Option.mem_def.mp expiry]
        exact decide_eq_true come
      cases there : after.byDigest.get? (h.digest presented) with
      | none => rfl
      | some principal =>
          dsimp only
          rw [if_pos expired]

/-- The predecessor ends with the rotation, or is given an expiry by it. -/
theorem retire_registry {q : KeyPlane} (found : q.registry.labelled keyId = some (d, p))
    (row : Principal × Credential) (overlap later : ℚ) :
    (q.retire keyId row overlap later).registry =
      if 0 < overlap then
        { q.registry with
          credential := q.registry.credential.set d
            { (q.registry.credential.get? d).getD {} with
              expiresAt := some (KeyPlane.retiresAt row overlap later) } }
      else
        { q.registry with
          byDigest := q.registry.byDigest.erase d
          credential := q.registry.credential.erase d } := by
  unfold KeyPlane.retire
  split
  · show (q.registry.setExpiry keyId _).1 = _
    rw [KeyRegistry.setExpiry, found]
  · show (q.registry.revoke keyId).1 = _
    rw [KeyRegistry.revoke, found]

theorem retire_other {q : KeyPlane} (found : q.registry.labelled keyId = some (d, p))
    (row : Principal × Credential) (overlap later : ℚ) {other : String} (apart : other ≠ d) :
    (q.retire keyId row overlap later).registry.byDigest.get? other = q.registry.byDigest.get? other ∧
      (q.retire keyId row overlap later).registry.credential.get? other =
        q.registry.credential.get? other := by
  rw [retire_registry found]
  split
  · exact ⟨rfl, Dict.get?_set_of_ne _ apart _⟩
  · exact ⟨Dict.get?_erase_of_ne _ apart, Dict.get?_erase_of_ne _ apart⟩

theorem stops_retire {before : KeyRegistry} {q : KeyPlane}
    (found : q.registry.labelled keyId = some (d, p)) (overlap later : ℚ) :
    Stops h before (q.retire keyId (p, (before.credential.get? d).getD {}) overlap later).registry d
      overlap later := by
  intro clock presented digest ended
  refine lookup_principal_eq_none ?_
  rw [digest, retire_registry found]
  by_cases positive : 0 < overlap
  · rw [if_pos positive]
    refine .inr ⟨_, by rw [Dict.get?_set_self]; rfl, ?_⟩
    obtain ⟨window, own⟩ := retiresAt_le (p, (before.credential.get? d).getD {}) overlap later
    rcases ended with none | window_over | ⟨expiresAt, expiry, come⟩
    · exact absurd positive (not_lt.mpr none)
    · exact window.trans window_over
    · refine (own expiresAt ?_).trans come
      cases there : before.credential.get? d with
      | none =>
          rw [there] at expiry
          cases expiry
      | some credential =>
          rw [there] at expiry
          exact expiry
  · rw [if_neg positive]
    exact .inl (Dict.get?_erase_self _ _)

/-- The rotation of a key whose id nobody else has inherits the policy exactly if the key declared no
priority. -/
theorem inherits_iff {before : KeyPlane} {q : KeyPlane} {id : String} (stripped : Stripped p)
    (alone : Alone before.registry keyId) (known : before.registry.byDigest.get? d = some p)
    (label : p.keyId = some keyId) {body : KeyRotate} {fresh : String} {now : ℚ}
    (accepted : before.enrolSpec h
      (body.spec keyId fresh now (p, (before.registry.credential.get? d).getD {})) fresh now =
        some (q, id)) (overlap later : ℚ) :
    Inherits h before.registry
        (q.retire keyId (p, (before.registry.credential.get? d).getD {}) overlap later).registry d p
        overlap later ↔
      p.priorityDeclared = false := by
  obtain ⟨f, known_fact, rfl⟩ := fact_of_get? known
  have found := labelled_of_alone alone known_fact label
  have registered := (enrolSpec_cases accepted).1
  have first := labelled_register registered found
  obtain ⟨d', separate, -, unknown, -, added, bound⟩ := register_eq_some registered
  have apart : d' ≠ d := by
    rintro rfl
    rw [known] at unknown
    cases unknown
  rw [successor_eq stripped] at added
  have others : ∀ other, other ≠ d → other ≠ d' →
      (q.retire keyId (f.principal, (before.registry.credential.get? d).getD {}) overlap
          later).registry.byDigest.get? other = before.registry.byDigest.get? other ∧
        (q.retire keyId (f.principal, (before.registry.credential.get? d).getD {}) overlap
          later).registry.credential.get? other = before.registry.credential.get? other := by
    intro other ne ne'
    obtain ⟨digests, credentials⟩ := retire_other first
      (f.principal, (before.registry.credential.get? d).getD {}) overlap later ne
    rw [digests, credentials, added, bound]
    exact ⟨Dict.get?_set_of_ne _ ne' _, Dict.get?_set_of_ne _ ne' _⟩
  obtain ⟨digests, credentials⟩ := retire_other first
    (f.principal, (before.registry.credential.get? d).getD {}) overlap later apart
  rw [added, Dict.get?_set_self] at digests
  rw [bound, Dict.get?_set_self] at credentials
  constructor
  · rintro ⟨e, p', new, there, policy, -⟩
    obtain rfl : e = d' := by
      by_contra ne'
      have ne : e ≠ d := by
        rintro rfl
        rw [known] at new
        cases new
      rw [(others e ne ne').1, new] at there
      cases there
    rw [digests] at there
    obtain rfl := Option.some.inj there
    exact (congrArg Principal.priorityDeclared policy).symm
  · intro undeclared
    refine ⟨d', _, unknown, digests, ?_, ?_, stops_retire first overlap later, others⟩
    · rw [← undeclared]
    · rw [credentials]
      cases before.registry.credential.get? d <;> rfl

end Rotation

/-- Every accepted rotation of a registered key, in a registry whose key ids are distinct: the successor
inherits the policy, the predecessor ends and the other keys stay exactly if the predecessor declared no
priority. -/
theorem rotation_inherits_iff (env : Env) (a b : Admin) (ops : List KeyOp)
    (reached : a.managed.keys = (Ledger.run env.helpers ops).keys)
    (distinct : (a.managed.keys.byDigest.values.map Principal.keyId).Nodup) (keyId d : String) (p : Principal)
    (known : a.managed.keys.byDigest.get? d = some p) (label : p.keyId = some keyId)
    (body : Body KeyRotate) (admitted : env.denied = none)
    (accepted : handleAdminKeyRotate env a keyId body = (b, 201)) :
    Inherits env.helpers a.managed.keys b.managed.keys d p
        ((body.rotation.bind KeyRotate.overlapS).getD 0) env.later ↔
      p.priorityDeclared = false := by
  have stripped : Stripped p := allStripped_run env.helpers ops d p (reached ▸ known)
  have alone := alone_of_nodup distinct keyId
  have row := snapshotRow_eq alone known label
  unfold handleAdminKeyRotate at accepted
  rw [admitted, row] at accepted
  dsimp only at accepted
  cases rotation : body.rotation with
  | none =>
      rw [rotation] at accepted
      cases congrArg Prod.snd accepted
  | some spec =>
      rw [rotation] at accepted
      dsimp only at accepted
      cases enrolled : a.managed.plane.enrolSpec env.helpers
          (spec.spec keyId env.fresh env.now (p, (a.managed.keys.credential.get? d).getD {})) env.fresh
          env.now with
      | none =>
          rw [enrolled] at accepted
          cases congrArg Prod.snd accepted
      | some enrolment =>
          obtain ⟨q, id⟩ := enrolment
          rw [enrolled] at accepted
          dsimp only at accepted
          have core := @inherits_iff env.helpers keyId d p a.managed.plane q id stripped alone known label spec
            env.fresh env.now enrolled (spec.overlapS.getD 0) env.later
          split at accepted
          · cases congrArg Prod.snd accepted
          · split at accepted
            · cases congrArg Prod.snd accepted
            · obtain ⟨rfl, -⟩ := Prod.mk.inj accepted
              exact core

/-! ### A band that was declared -/

/-- The registration of a key at startup, with or without a band of its own. -/
def chatKey (declared : Bool) : KeySpec where
  agentId := "chat"
  secret := some "rs-alpha"
  keyId := some "chat-key"
  priorityDeclared := declared
  mayAssert := ["app", " tool "]
  minTimeoutS := some 90

/-- The process after the registration. -/
def withChatKey (declared : Bool) : Admin where
  managed := { keys := (Ledger.run plainHelpers [.register (chatKey declared) 0]).keys }

/-- The environment of a rotation. -/
def rotationEnv : Env where
  helpers := plainHelpers
  load _ := ([], none)
  environ _ := none
  inFlight _ := 0
  str _ := ""
  fresh := "rs-beta"
  now := 1000
  later := 1000

/-- The principal of the key. -/
def chatPrincipal (declared : Bool) : Principal :=
  (chatKey declared).principal "chat-key" (by simp [chatKey])

theorem rotation_inherits_undeclared :
    Inherits plainHelpers (withChatKey false).managed.keys
        (handleAdminKeyRotate rotationEnv (withChatKey false) "chat-key" .notJson).1.managed.keys
        (plainHelpers.digest "rs-alpha") (chatPrincipal false) 0 1000 ↔
      (chatPrincipal false).priorityDeclared = false :=
  rotation_inherits_iff rotationEnv (withChatKey false) _ [.register (chatKey false) 0] rfl (by decide)
    "chat-key" (plainHelpers.digest "rs-alpha") (chatPrincipal false) (by decide) rfl .notJson rfl
    (Prod.ext rfl (by decide +kernel))

/-- The successor of a key with a band of its own has none, and is served in the band of its agent. -/
theorem declared_band_is_dropped :
    (handleAdminKeyRotate rotationEnv (withChatKey true) "chat-key" .notJson).2 = 201 ∧
      ¬Inherits plainHelpers (withChatKey true).managed.keys
        (handleAdminKeyRotate rotationEnv (withChatKey true) "chat-key" .notJson).1.managed.keys
        (plainHelpers.digest "rs-alpha") (chatPrincipal true) 0 1000 := by
  refine ⟨by decide +kernel, ?_⟩
  rintro ⟨d', p', new, there, policy, -⟩
  have band : ∀ entry ∈ (handleAdminKeyRotate rotationEnv (withChatKey true) "chat-key"
      .notJson).1.managed.keys.byDigest.entries, entry.2.priorityDeclared = false := by decide +kernel
  have dropped := band _ (Dict.mem_entries_iff.mpr there)
  rw [policy] at dropped
  cases dropped

end Roadstead.Management
