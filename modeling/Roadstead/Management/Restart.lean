import Roadstead.Identity.Forwarded
import Roadstead.Lib.Run
import Roadstead.Management.Recorded

/-!
# A restart gives back the keys

An action is `Orderly` where it does not name two keys at once.  Each orderly action keeps `Recorded`, so after a
run of them `apply` over the declared keys gives each secret what the running process gives it.
Two short runs show what is lost otherwise.
-/

namespace Roadstead.Management

open Roadstead.Identity

/-! ### Runs and restarts -/

inductive KeyAction where
  | enrol (body : KeyCreate) (fresh : String) (now : ℚ)
  | rotate (keyId : String) (body : KeyRotate) (fresh : String) (now later : ℚ)
  | revoke (keyId : String)

/-- The keys after an action; a refused one leaves them. -/
def KeyPlane.act (h : Helpers) (p : KeyPlane) : KeyAction → KeyPlane
  | .enrol body fresh now => ((p.enrol h body fresh now).map Prod.fst).getD p
  | .rotate keyId body fresh now later => ((p.rotate h keyId body fresh now later).map Prod.fst).getD p
  | .revoke keyId => (p.revoke keyId).getD p

/-- An action that names one key at a time: a label that is revoked or rotated is of one key, of the
successor neither, and a new key takes the place of no declared one. -/
def Orderly (h : Helpers) (declared : KeyRegistry) (p : KeyPlane) : KeyAction → Prop
  | .enrol body fresh now => Clear h declared p (body.spec fresh now)
  | .rotate keyId body fresh now _ =>
      Alone p.registry keyId ∧ ∀ row, snapshotRow p.registry keyId = some row →
        (body.spec keyId fresh now row).keyId ≠ some keyId ∧ Clear h declared p (body.spec keyId fresh now row)
  | .revoke keyId => Alone p.registry keyId

section Runs

variable {h : Helpers} {declared : KeyRegistry} {p : KeyPlane}

theorem recorded_retire (recorded : Recorded h declared p) {keyId : String} (alone : Alone p.registry keyId)
    (row : Principal × Credential) (overlap later : ℚ) : Recorded h declared (p.retire keyId row overlap later) := by
  unfold KeyPlane.retire
  split
  · exact recorded_expireKey recorded alone _
  · exact recorded_revokeKey recorded alone

/-- A successor with another id leaves the label of its predecessor. -/
theorem alone_enrolSpec {spec : KeySpec} {fresh id keyId successor : String} {now : ℚ} {q : KeyPlane}
    (accepted : p.enrolSpec h spec fresh now = some (q, id)) (named : spec.keyId = some successor) (ne : successor ≠ "")
    (other : successor ≠ keyId) (alone : Alone p.registry keyId) : Alone q.registry keyId := by
  obtain ⟨-, d, separate, -, label, -, new, old⟩ := fact_register (enrolSpec_cases accepted).1
  have relabelled : id = successor := by rw [label, KeySpec.label, named]; exact if_pos ne
  refine alone_of_labelled alone fun d' f known mine => ?_
  by_cases same : d' = d
  · subst same
    rw [new] at known
    cases known
    exact absurd (relabelled.symm.trans (Option.some.inj mine)) other
  · rw [old d' same] at known
    exact ⟨f, known, mine⟩

theorem successor_ne_empty (body : KeyRotate) (keyId : String) (now : ℚ) :
    (body.id.filter fun id => decide (id ≠ "")).getD (keyId ++ "-r" ++ toString ⌊now⌋) ≠ "" := by
  have generated : keyId ++ "-r" ++ toString ⌊now⌋ ≠ "" := by
    intro empty
    have nil := congrArg String.toList empty
    simp at nil
  cases body.id with
  | none => exact generated
  | some id =>
      by_cases empty : id = ""
      · rw [Option.filter_some, if_neg (by simpa using empty), Option.getD_none]
        exact generated
      · rw [Option.filter_some, if_pos (decide_eq_true empty), Option.getD_some]
        exact empty

theorem recorded_act (hex : Hex h) (recorded : Recorded h declared p) (action : KeyAction)
    (orderly : Orderly h declared p action) : Recorded h declared (p.act h action) := by
  cases action with
  | enrol body fresh now =>
      rw [KeyPlane.act, KeyPlane.enrol]
      cases accepted : p.enrolSpec h (body.spec fresh now) fresh now with
      | none => exact recorded
      | some enrolled => exact recorded_enrolSpec hex recorded ⟨rfl, rfl⟩ orderly accepted
  | rotate keyId body fresh now later =>
      obtain ⟨alone, orderly⟩ := orderly
      rw [KeyPlane.act, KeyPlane.rotate]
      cases found : snapshotRow p.registry keyId with
      | none => exact recorded
      | some row =>
          dsimp only
          cases accepted : p.enrolSpec h (body.spec keyId fresh now row) fresh now with
          | none => exact recorded
          | some enrolled =>
              obtain ⟨other, clear⟩ := orderly row found
              have successor := recorded_enrolSpec hex recorded ⟨rfl, rfl⟩ clear accepted
              have left := alone_enrolSpec accepted rfl (successor_ne_empty body keyId now)
                (fun same => other (congrArg some same)) alone
              exact recorded_retire successor left _ _ _
  | revoke keyId =>
      rw [KeyPlane.act, KeyPlane.revoke]
      have revoked := recorded_revokeKey recorded orderly
      cases found : p.registry.revoke keyId with
      | mk registry done =>
          rw [found] at revoked
          cases done with
          | false => exact recorded
          | true => exact revoked

/-- The keys that the environment and the files declare, at the time of a start. -/
def declare (h : Helpers) (clock : ℚ) (specs : List KeySpec) : KeyRegistry :=
  specs.foldl (fun keys spec => (keys.register h clock spec).1) {}

theorem fact_register_congr {keys keys' : KeyRegistry} (same : ∀ d, fact keys d = fact keys' d) (now now' : ℚ)
    (spec : KeySpec) (d : String) :
    fact (keys.register h now spec).1 d = fact (keys'.register h now' spec).1 d := by
  rw [KeyRegistry.register, KeyRegistry.register]
  cases parsed : spec.digest h with
  | none => exact same d
  | some digest =>
      dsimp only
      have known : keys.byDigest.contains digest = true ↔ keys'.byDigest.contains digest = true := by
        have both := congrArg (· = none) (same digest)
        simp only [fact_eq_none_iff, Dict.get?_eq_none_iff, eq_iff_iff] at both
        rw [Dict.contains_iff, Dict.contains_iff]
        exact not_iff_not.mp both
      by_cases anonymous : spec.agentId = ""
      · rw [if_pos anonymous, if_pos anonymous]
        exact same d
      rw [if_neg anonymous, if_neg anonymous]
      by_cases separate : spec.callsPush = true ∧ spec.admin = true
      · rw [dif_pos separate, dif_pos separate]
        exact same d
      rw [dif_neg separate, dif_neg separate]
      by_cases taken : keys.byDigest.contains digest = true
      · rw [if_pos taken, if_pos (known.mp taken)]
        exact same d
      rw [if_neg taken, if_neg fun taken' => taken (known.mpr taken')]
      by_cases here : d = digest
      · subst here
        simp only [fact, Dict.get?_set_self]
        rfl
      · have before := same d
        simp only [fact, Dict.get?_set_of_ne _ here] at before ⊢
        exact before

/-- The declared keys do not depend on the time of the start. -/
theorem fact_declare (start again : ℚ) (specs : List KeySpec) (d : String) :
    fact (declare h again specs) d = fact (declare h start specs) d := by
  have folded : ∀ keys keys' : KeyRegistry, (∀ d, fact keys d = fact keys' d) → ∀ d,
      fact (specs.foldl (fun keys spec => (keys.register h again spec).1) keys) d =
        fact (specs.foldl (fun keys spec => (keys.register h start spec).1) keys') d := by
    induction specs with
    | nil => exact fun _ _ same => same
    | cons spec specs ih =>
        intro keys keys' same
        exact ih _ _ (fact_register_congr same again start spec)
  exact folded {} {} (fun _ => rfl) d

end Runs

/-- A restart after a run resolves each secret as the running process does, at every later time. -/
def GivenBack (h : Helpers) (specs : List KeySpec) (start again now : ℚ) (actions : List KeyAction) : Prop :=
  ∀ clock secret,
    ((Runs.run (KeyPlane.act h) { registry := declare h start specs } actions).overlay.apply h now
        (declare h again specs)).lookup h clock secret =
      (Runs.run (KeyPlane.act h) { registry := declare h start specs } actions).registry.lookup h clock secret

/-- A run of orderly actions is given back. -/
theorem restart_gives_back (h : Helpers) (hex : Hex h) (specs : List KeySpec) (start again now : ℚ)
    (actions : List KeyAction)
    (orderly : Runs.Along (KeyPlane.act h) (Orderly h (declare h start specs))
      { registry := declare h start specs } actions) :
    GivenBack h specs start again now actions := by
  intro clock secret
  have recorded := Runs.run_invariant (Recorded h (declare h start specs))
    (fun _ action recorded guard => recorded_act hex recorded action guard)
    (recorded_start h (declare h start specs)) orderly
  rw [lookup_eq, lookup_eq, fact_apply recorded (fact_declare start again specs)]

/-! ### An orderly run, and disorderly ones -/

instance (keys : KeyRegistry) (id : String) : Decidable (Alone keys id) :=
  decidable_of_iff
    (∀ e ∈ keys.byDigest.entries, ∀ e' ∈ keys.byDigest.entries,
      e.2.keyId = some id → e'.2.keyId = some id → e.1 = e'.1) <| by
    constructor
    · intro one d d' f f' known known' label label'
      exact one (d, f.principal) (Dict.mem_entries_iff.mpr (get?_of_fact known)) (d', f'.principal)
        (Dict.mem_entries_iff.mpr (get?_of_fact known')) label label'
    · rintro alone ⟨d, principal⟩ mem ⟨d', principal'⟩ mem' label label'
      obtain ⟨f, known, rfl⟩ := fact_of_get? (Dict.mem_entries_iff.mp mem)
      obtain ⟨f', known', rfl⟩ := fact_of_get? (Dict.mem_entries_iff.mp mem')
      exact alone d d' f f' known known' label label'

instance (h : Helpers) (declared : KeyRegistry) (p : KeyPlane) (spec : KeySpec) : Decidable (Clear h declared p spec) :=
  decidable_of_iff
    (∀ d ∈ spec.digest h, p.registry.byDigest.get? d = none →
      declared.byDigest.get? d = none ∧ ∀ e ∈ declared.byDigest.entries, e.2.keyId = some (spec.label d) →
        spec.label d ∉ p.overlay.revoked ∧ spec.label d ∉ p.overlay.retired.keys) <| by
    constructor
    · intro clear d parsed unknown
      obtain ⟨undeclared, open_label⟩ := clear d parsed (fact_eq_none_iff.mp unknown)
      refine ⟨fact_eq_none_iff.mpr undeclared, fun d' g there label => ?_⟩
      exact open_label (d', g.principal) (Dict.mem_entries_iff.mpr (get?_of_fact there)) label
    · intro clear d parsed unknown
      obtain ⟨undeclared, open_label⟩ := clear d parsed (fact_eq_none_iff.mpr unknown)
      refine ⟨fact_eq_none_iff.mp undeclared, ?_⟩
      rintro ⟨d', principal⟩ mem label
      obtain ⟨g, there, rfl⟩ := fact_of_get? (Dict.mem_entries_iff.mp mem)
      exact open_label d' g there label

instance (h : Helpers) (declared : KeyRegistry) (p : KeyPlane) :
    ∀ action, Decidable (Orderly h declared p action)
  | .enrol body fresh now => inferInstanceAs (Decidable (Clear h declared p (body.spec fresh now)))
  | .rotate keyId body fresh now _ =>
      inferInstanceAs (Decidable (Alone p.registry keyId ∧ ∀ row ∈ snapshotRow p.registry keyId,
        (body.spec keyId fresh now row).keyId ≠ some keyId ∧ Clear h declared p (body.spec keyId fresh now row)))
  | .revoke keyId => inferInstanceAs (Decidable (Alone p.registry keyId))

/-- Every text has a hexadecimal digest. -/
def hexHelpers : Helpers :=
  { plainHelpers with
    digest := fun text =>
      if plainHelpers.digest text = "" then "e3b0c44298fc1c149afbf4c8996fb92427ae41e4649b934ca495991b7852b855"
      else plainHelpers.digest text }

theorem hex_hexHelpers : Hex hexHelpers := by
  intro text
  have cases : plainHelpers.digest text = "" ∨ text = "rs-alpha" ∨ text = "rs-beta" := by
    simp only [plainHelpers]
    split_ifs with alpha beta
    · exact .inr (.inl alpha)
    · exact .inr (.inr beta)
    · exact .inl rfl
  rcases cases with empty | rfl | rfl
  · simp only [hexHelpers, if_pos empty]
    exact ⟨by decide +kernel, List.all_iff_forall_prop.1 (by decide +kernel)⟩
  · exact ⟨by decide +kernel, List.all_iff_forall_prop.1 (by decide +kernel)⟩
  · exact ⟨by decide +kernel, List.all_iff_forall_prop.1 (by decide +kernel)⟩

def app : KeySpec := { agentId := "app", secret := some "rs-alpha", keyId := some "app", source := "env" }

/-- A rotation with an overlap, then the revocation of its successor. -/
theorem restart_gives_back_rotation :
    GivenBack hexHelpers [app] 0 100 100
      [.rotate "app" { id := some "app-2", overlapS := some 60 } "rs-beta" 10 10, .revoke "app-2"] :=
  restart_gives_back hexHelpers hex_hexHelpers [app] 0 100 100 _ (by decide +kernel)

/-- A restart revives a declared key that was revoked before its id was enrolled again, and loses a successor
that has the id of its predecessor. -/
theorem restart_revives_and_loses :
    ¬GivenBack hexHelpers [app] 0 100 100 [.revoke "app", .enrol { agentId := "app", id := some "app" } "rs-beta" 10] ∧
      ¬GivenBack hexHelpers [app] 0 100 100 [.rotate "app" { id := some "app" } "rs-beta" 10 10] := by
  constructor
  · intro same
    have revived := congrArg (fun found => found.principal.isSome) (same 200 "rs-alpha")
    revert revived
    decide
  · intro same
    have lost := congrArg (fun found => found.principal.isSome) (same 200 "rs-beta")
    revert lost
    decide +kernel

end Roadstead.Management
