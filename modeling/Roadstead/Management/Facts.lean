import Roadstead.Identity.Keys
import Roadstead.Management

/-!
# What a lookup reads of the keys

What `lookup` reads of a registry is, for each digest, one `Fact`.  Each operation is one update of the facts,
where a label is that of one key at most (`fact_revoke`, `fact_setExpiry`); the three loops of
`apply` are folds of them.
-/

namespace Roadstead.Management

open Roadstead.Identity

/-! ### Facts -/

/-- What `lookup` reads of a registered digest. -/
structure Fact where
  principal : Principal
  expiresAt : Option ℚ
  bind : List String

def fact (keys : KeyRegistry) (digest : String) : Option Fact :=
  (keys.byDigest.get? digest).map fun principal =>
    { principal := principal
      expiresAt := (keys.credential.get? digest).bind Credential.expiresAt
      bind := ((keys.credential.get? digest).map Credential.bind).getD [] }

/-- The label of a fact. -/
def Fact.Labelled (f : Fact) (id : String) : Prop := f.principal.keyId = some id

instance (f : Fact) (id : String) : Decidable (f.Labelled id) := inferInstanceAs (Decidable (_ = _))

/-- A label is that of one key at most. -/
def Alone (keys : KeyRegistry) (id : String) : Prop :=
  ∀ d d' f f', fact keys d = some f → fact keys d' = some f' → f.Labelled id → f'.Labelled id → d = d'

section Facts

variable {keys keys' : KeyRegistry}

theorem fact_eq_none_iff {d : String} : fact keys d = none ↔ keys.byDigest.get? d = none := by
  rw [fact, Option.map_eq_none_iff]

theorem fact_of_get? {d : String} {principal : Principal} (there : keys.byDigest.get? d = some principal) :
    ∃ f, fact keys d = some f ∧ f.principal = principal := by
  rw [fact, there]
  exact ⟨_, rfl, rfl⟩

theorem get?_of_fact {d : String} {f : Fact} (known : fact keys d = some f) :
    keys.byDigest.get? d = some f.principal := by
  obtain ⟨principal, there, rfl⟩ := Option.map_eq_some_iff.mp known
  exact there

theorem lookup_eq (h : Helpers) (now : ℚ) (keys : KeyRegistry) (presented : String) :
    keys.lookup h now presented =
      if presented = "" then {}
      else
        (fact keys (h.digest presented)).elim {} fun f =>
          if f.expiresAt.any fun expiresAt => decide (expiresAt ≤ now) then
            { expiredAt := f.expiresAt, keyId := f.principal.keyId }
          else { principal := some f.principal, keyId := f.principal.keyId, bind := f.bind } := by
  unfold KeyRegistry.lookup fact KeyRegistry.isExpired
  split
  · rfl
  · cases known : keys.byDigest.get? (h.digest presented) with
    | none => simp only [known, Option.map_none, Option.elim_none]
    | some principal => simp only [known, Option.map_some, Option.elim_some]

/-- An accepted registration is one new key. -/
theorem register_eq_some {h : Helpers} {now : ℚ} {spec : KeySpec} {label : String}
    (accepted : keys.register h now spec = (keys', some label)) :
    ∃ digest separate, spec.digest h = some digest ∧ keys.byDigest.get? digest = none ∧
      label = spec.label digest ∧
      keys'.byDigest = keys.byDigest.set digest (spec.principal label separate) ∧
      keys'.credential = keys.credential.set digest
        { source := spec.source, createdAt := now, expiresAt := spec.expiresAt, bind := spec.bind } := by
  rcases keys.register_cases h now spec with refused | ⟨digest, separate, parsed, unknown, registered⟩
  · rw [refused] at accepted
    cases accepted
  · rw [registered] at accepted
    cases accepted
    exact ⟨digest, separate, parsed, unknown, rfl, rfl, rfl⟩

/-- What an accepted registration adds. -/
theorem fact_register {h : Helpers} {now : ℚ} {spec : KeySpec} {label : String}
    (accepted : keys.register h now spec = (keys', some label)) :
    spec.agentId ≠ "" ∧ ∃ digest separate, spec.digest h = some digest ∧ label = spec.label digest ∧
      fact keys digest = none ∧
      fact keys' digest = some ⟨spec.principal label separate, spec.expiresAt, spec.bind⟩ ∧
      ∀ other, other ≠ digest → fact keys' other = fact keys other := by
  have named : spec.agentId ≠ "" := by
    intro anonymous
    unfold KeyRegistry.register at accepted
    split at accepted
    · cases accepted
    · rw [if_pos anonymous] at accepted
      cases accepted
  obtain ⟨digest, separate, parsed, unknown, label_eq, digests, credentials⟩ := register_eq_some accepted
  refine ⟨named, digest, separate, parsed, label_eq, fact_eq_none_iff.mpr unknown, ?_, fun other ne => ?_⟩
  · simp only [fact, digests, credentials, Dict.get?_set_self, Option.map_some, Option.bind_some, Option.getD_some]
  · simp only [fact, digests, credentials, Dict.get?_set_of_ne _ ne]

/-- The key that has a label, if one has it. -/
theorem labelled_of_alone {id d : String} {f : Fact} (alone : Alone keys id) (known : fact keys d = some f)
    (label : f.Labelled id) : keys.labelled id = some (d, f.principal) := by
  have there := get?_of_fact known
  cases found : keys.labelled id with
  | none =>
      rw [KeyRegistry.labelled, List.find?_eq_none] at found
      exact absurd (decide_eq_true label) (found _ (Dict.mem_entries_iff.mpr there))
  | some entry =>
      obtain ⟨d', principal⟩ := entry
      obtain ⟨there', label'⟩ := KeyRegistry.labelled_spec found
      obtain ⟨f', known', same⟩ := fact_of_get? there'
      obtain rfl : d = d' := alone d d' f f' known known' label (by rw [Fact.Labelled, same]; exact label')
      rw [there] at there'
      cases there'
      rfl

/-- No key has a label. -/
theorem labelled_eq_none {id : String} (nobody : ∀ d f, fact keys d = some f → ¬f.Labelled id) :
    keys.labelled id = none := by
  rw [KeyRegistry.labelled, List.find?_eq_none]
  rintro ⟨d, principal⟩ mem label
  obtain ⟨f, known, same⟩ := fact_of_get? (Dict.mem_entries_iff.mp mem)
  refine nobody d f known ?_
  rw [Fact.Labelled, same]
  exact of_decide_eq_true label

/-- A key stands before one that is registered later, and is found by its label first. -/
theorem labelled_register {h : Helpers} {now : ℚ} {spec : KeySpec} {label id : String}
    (accepted : keys.register h now spec = (keys', some label)) {entry : String × Principal}
    (found : keys.labelled id = some entry) : keys'.labelled id = some entry := by
  obtain ⟨d, separate, -, unknown, -, digests, -⟩ := register_eq_some accepted
  rw [KeyRegistry.labelled] at found ⊢
  rw [digests, Dict.entries_set_of_not_mem (Dict.get?_eq_none_iff.mp unknown), List.find?_append, found]
  rfl

/-- What is done to the key that has a label is done to the facts with it: nothing where no key has
it, and nothing to the other keys. -/
theorem fact_labelled {id : String} (alone : Alone keys id) {change : Fact → Option Fact}
    (nobody : keys.labelled id = none → keys' = keys)
    (somebody : ∀ d f, fact keys d = some f → keys.labelled id = some (d, f.principal) →
      fact keys' d = change f ∧ ∀ d' ≠ d, fact keys' d' = fact keys d') (d : String) :
    fact keys' d = (fact keys d).bind fun f => if f.Labelled id then change f else some f := by
  by_cases labelled : ∃ d f, fact keys d = some f ∧ f.Labelled id
  · obtain ⟨d', f, known, label⟩ := labelled
    obtain ⟨here, others⟩ := somebody d' f known (labelled_of_alone alone known label)
    by_cases same : d = d'
    · subst same
      rw [here, known, Option.bind_some, if_pos label]
    · rw [others d same]
      cases other : fact keys d with
      | none => rfl
      | some g =>
          have unlabelled : ¬g.Labelled id := fun label' => same (alone d d' g f other known label' label)
          rw [Option.bind_some, if_neg unlabelled]
  · have none_there : ∀ d f, fact keys d = some f → ¬f.Labelled id := fun d f known label =>
      labelled ⟨d, f, known, label⟩
    rw [nobody (labelled_eq_none none_there)]
    cases known : fact keys d with
    | none => rfl
    | some f => rw [Option.bind_some, if_neg (none_there d f known)]

/-- A revocation removes the key with the label. -/
theorem fact_revoke {id : String} (alone : Alone keys id) (d : String) :
    fact (keys.revoke id).1 d = (fact keys d).filter fun f => decide ¬f.Labelled id := by
  rw [@fact_labelled keys (keys.revoke id).1 id alone fun _ => none]
  · cases fact keys d with
    | none => rfl
    | some f => by_cases label : f.Labelled id <;> simp [label, Option.filter_some]
  · intro nobody
    rw [KeyRegistry.revoke, nobody]
  · intro d' f known found
    rw [KeyRegistry.revoke, found]
    exact ⟨fact_eq_none_iff.mpr (Dict.get?_erase_self _ _), fun d same => by
      simp only [fact, Dict.get?_erase_of_ne _ same]⟩

/-- A new expiry is that of the key with the label. -/
theorem fact_setExpiry {id : String} (alone : Alone keys id) (expiresAt : Option ℚ) (d : String) :
    fact (keys.setExpiry id expiresAt).1 d =
      (fact keys d).map fun f => if f.Labelled id then { f with expiresAt := expiresAt } else f := by
  rw [@fact_labelled keys (keys.setExpiry id expiresAt).1 id alone
    fun f => some { f with expiresAt := expiresAt }]
  · cases fact keys d with
    | none => rfl
    | some f => by_cases label : f.Labelled id <;> simp [label]
  · intro nobody
    rw [KeyRegistry.setExpiry, nobody]
  · intro d' f known found
    rw [KeyRegistry.setExpiry, found]
    refine ⟨?_, fun d same => by simp only [fact, Dict.get?_set_of_ne _ same]⟩
    have there : keys.byDigest.get? d' = some f.principal := (KeyRegistry.labelled_spec found).1
    obtain ⟨principal, expiry, bind⟩ := f
    rw [fact, there] at known ⊢
    simp only [Dict.get?_set_self, Option.map_some, Option.bind_some, Option.getD_some] at known ⊢
    cases cred : keys.credential.get? d' with
    | none | some credential =>
        rw [cred] at known
        cases known
        rfl

/-- A label that is of one key stays so where no key gets it. -/
theorem alone_of_labelled {id : String} (alone : Alone keys id)
    (had : ∀ d f, fact keys' d = some f → f.Labelled id → ∃ g, fact keys d = some g ∧ g.Labelled id) :
    Alone keys' id := by
  intro d d' f f' known known' label label'
  obtain ⟨g, was, labelled⟩ := had d f known label
  obtain ⟨g', was', labelled'⟩ := had d' f' known' label'
  exact alone d d' g g' was was' labelled labelled'

theorem alone_of_principals {id : String} (alone : Alone keys id)
    (same : ∀ d f, fact keys' d = some f → ∃ g, fact keys d = some g ∧ g.principal = f.principal) :
    Alone keys' id := by
  refine alone_of_labelled alone fun d f known label => ?_
  obtain ⟨g, was, principal⟩ := same d f known
  exact ⟨g, was, by rw [Fact.Labelled, principal]; exact label⟩

end Facts

/-! ### The three loops of `apply` -/

/-- A fact with the expiry that some retirements give it. -/
def retiredAt (entries : List (String × ℚ)) (f : Fact) : Fact :=
  { f with expiresAt := (entries.find? fun entry => decide (f.Labelled entry.1)).elim f.expiresAt fun entry => some entry.2 }

theorem retiredAt_of_forall {entries : List (String × ℚ)} {f : Fact} (none_there : ∀ entry ∈ entries, ¬f.Labelled entry.1) :
    retiredAt entries f = f := by
  have nothing : (entries.find? fun entry => decide (f.Labelled entry.1)) = none := by
    rw [List.find?_eq_none]
    intro entry mem
    simpa using none_there entry mem
  rw [retiredAt, nothing]
  rfl

theorem fact_retireAll {keys : KeyRegistry} {entries : List (String × ℚ)} (distinct : (entries.map Prod.fst).Nodup)
    (alone : ∀ entry ∈ entries, Alone keys entry.1) (d : String) :
    fact (entries.foldl (fun keys entry => (keys.setExpiry entry.1 (some entry.2)).1) keys) d =
      (fact keys d).map (retiredAt entries) := by
  induction entries generalizing keys with
  | nil =>
      rw [List.foldl_nil, show retiredAt [] = id from funext fun f => retiredAt_of_forall nofun, Option.map_id_apply]
  | cons entry entries ih =>
      obtain ⟨fresh, distinct⟩ := List.nodup_cons.mp distinct
      have step := fact_setExpiry (alone entry List.mem_cons_self) (some entry.2)
      have principals : ∀ d f, fact (keys.setExpiry entry.1 (some entry.2)).1 d = some f →
          ∃ g, fact keys d = some g ∧ g.principal = f.principal := by
        intro d f known
        rw [step d] at known
        obtain ⟨g, was, rfl⟩ := Option.map_eq_some_iff.mp known
        refine ⟨g, was, ?_⟩
        split <;> rfl
      rw [List.foldl_cons, ih distinct fun later mem =>
        alone_of_principals (alone later (List.mem_cons_of_mem _ mem)) principals, step d, Option.map_map]
      refine congrArg (fun g => (fact keys d).map g) (funext fun f => ?_)
      by_cases label : f.Labelled entry.1
      · have others : ∀ later ∈ entries, ¬f.Labelled later.1 := by
          intro later mem label'
          exact fresh (List.mem_map.mpr ⟨later, mem, Option.some.inj (label'.symm.trans label)⟩)
        have rest : retiredAt entries { f with expiresAt := some entry.2 } = { f with expiresAt := some entry.2 } :=
          retiredAt_of_forall others
        have first : ((entry :: entries).find? fun entry => decide (f.Labelled entry.1)) = some entry :=
          List.find?_cons_of_pos (decide_eq_true label)
        rw [Function.comp_apply, if_pos label, rest, retiredAt, first, Option.elim_some]
      · have later : ((entry :: entries).find? fun entry => decide (f.Labelled entry.1)) =
            entries.find? fun entry => decide (f.Labelled entry.1) :=
          List.find?_cons_of_neg (by simpa using label)
        rw [Function.comp_apply, if_neg label, retiredAt, retiredAt, later]

theorem fact_revokeAll {keys : KeyRegistry} {ids : List String} (alone : ∀ id ∈ ids, Alone keys id) (d : String) :
    fact (ids.foldl (fun keys id => (keys.revoke id).1) keys) d =
      (fact keys d).filter fun f => decide (∀ id ∈ ids, ¬f.Labelled id) := by
  induction ids generalizing keys with
  | nil =>
      rw [List.foldl_nil]
      cases known : fact keys d <;> simp [Option.filter_some]
  | cons id ids ih =>
      have step := fact_revoke (alone id List.mem_cons_self)
      have principals : ∀ d f, fact (keys.revoke id).1 d = some f →
          ∃ g, fact keys d = some g ∧ g.principal = f.principal := by
        intro d f known
        rw [step d] at known
        exact ⟨f, (Option.filter_eq_some_iff.mp known).1, rfl⟩
      rw [List.foldl_cons, ih fun later mem =>
        alone_of_principals (alone later (List.mem_cons_of_mem _ mem)) principals, step d]
      cases known : fact keys d with
      | none => rfl
      | some f => by_cases label : f.Labelled id <;> simp [Option.filter_some, label]

/-- What a record is registered as. -/
def KeyRecord.fact? (r : KeyRecord) : Option Fact :=
  if separate : ¬(r.callsPush = true ∧ r.admin = true) then
    some ⟨r.spec.principal r.id separate, r.expiresAt, r.bind⟩
  else none

/-- A record that `apply` can register, for a digest. -/
structure KeyRecord.Usable (h : Helpers) (r : KeyRecord) (d : String) : Prop where
  digest : r.spec.digest h = some d
  named : r.agentId ≠ ""
  id : r.id ≠ ""
  separate : ¬(r.callsPush = true ∧ r.admin = true)

theorem fact_registerRecord {h : Helpers} {now : ℚ} {keys : KeyRegistry} {r : KeyRecord} {d : String}
    (usable : r.Usable h d) (unknown : fact keys d = none) (other : String) :
    fact (keys.register h now r.spec).1 other = if other = d then r.fact? else fact keys other := by
  have new : ¬keys.byDigest.contains d = true := by
    rw [Dict.contains_iff, ← Dict.get?_eq_none_iff]
    exact fact_eq_none_iff.mp unknown
  have label : r.spec.label d = r.id := by
    have id : r.spec.keyId = some r.id := if_pos usable.id
    rw [KeySpec.label, id]
    exact if_pos usable.id
  have registered : (keys.register h now r.spec).1 =
      { byDigest := keys.byDigest.set d (r.spec.principal r.id usable.separate)
        credential := keys.credential.set d
          { source := "runtime", createdAt := now, expiresAt := r.expiresAt, bind := r.bind }
        bootstrap := keys.bootstrap } := by
    rw [KeyRegistry.register, usable.digest]
    dsimp only
    rw [if_neg (show ¬r.spec.agentId = "" from usable.named),
      dif_neg (show ¬(r.spec.callsPush = true ∧ r.spec.admin = true) from usable.separate), if_neg new, label]
    rfl
  rw [registered, fact]
  by_cases same : other = d
  · subst same
    simp only [Dict.get?_set_self, Option.map_some, Option.bind_some, Option.getD_some, if_true, KeyRecord.fact?,
      dif_pos usable.separate]
  · simp only [Dict.get?_set_of_ne _ same, if_neg same, fact]

theorem fact_enrolAll {h : Helpers} {now : ℚ} {keys : KeyRegistry} {rs : List KeyRecord}
    (usable : ∀ r ∈ rs, ∃ d, r.Usable h d ∧ fact keys d = none)
    (distinct : rs.Pairwise fun r r' => r.spec.digest h ≠ r'.spec.digest h) :
    (∀ r ∈ rs, ∀ d, r.spec.digest h = some d →
      fact (rs.foldl (fun keys r => (keys.register h now r.spec).1) keys) d = r.fact?) ∧
    ∀ d, (∀ r ∈ rs, r.spec.digest h ≠ some d) →
      fact (rs.foldl (fun keys r => (keys.register h now r.spec).1) keys) d = fact keys d := by
  induction rs generalizing keys with
  | nil => exact ⟨fun r mem => absurd mem List.not_mem_nil, fun _ _ => rfl⟩
  | cons r rs ih =>
      obtain ⟨differs, distinct⟩ := List.pairwise_cons.mp distinct
      obtain ⟨d, this, unknown⟩ := usable r List.mem_cons_self
      have step := @fact_registerRecord h now keys r d this unknown
      have rest := @ih (keys.register h now r.spec).1 (fun later mem => by
        obtain ⟨d', that, unknown'⟩ := usable later (List.mem_cons_of_mem _ mem)
        refine ⟨d', that, ?_⟩
        rw [step d', if_neg, unknown']
        rintro rfl
        exact differs later mem (this.digest.trans that.digest.symm)) distinct
      refine ⟨fun later mem d' parsed => ?_, fun d' absent => ?_⟩
      · rcases List.mem_cons.mp mem with rfl | there
        · obtain rfl : d = d' := Option.some.inj (this.digest.symm.trans parsed)
          rw [List.foldl_cons, rest.2 d fun later mem same => differs later mem (this.digest.trans same.symm), step d,
            if_pos rfl]
        · exact rest.1 later there d' parsed
      · rw [List.foldl_cons, rest.2 d' fun later mem => absent later (List.mem_cons_of_mem _ mem), step d', if_neg]
        rintro rfl
        exact absent r List.mem_cons_self this.digest

/-- What a recorded registration does. -/
theorem enrolSpec_cases {h : Helpers} {p : KeyPlane} {spec : KeySpec} {fresh id : String} {now : ℚ} {q : KeyPlane}
    (accepted : p.enrolSpec h spec fresh now = some (q, id)) :
    p.registry.register h now spec = (q.registry, some id) ∧
      q.overlay = p.overlay.addKey (recordOf h spec fresh id) := by
  unfold KeyPlane.enrolSpec at accepted
  split at accepted
  · rename_i registry id' registered
    cases accepted
    exact ⟨registered, rfl⟩
  · cases accepted

end Roadstead.Management
