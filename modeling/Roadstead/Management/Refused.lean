import Roadstead.Identity.Forwarded
import Roadstead.Lib.Run
import Roadstead.Management.Facts
import Roadstead.Management.Handlers
import Roadstead.ModelCatalog.Agreement

/-!
# A refused write changes nothing

Each handler looks before it changes anything, with three exceptions: the status of an endpoint is put into the
routing table before the commit weighs the candidate, a commit installs the candidate before it reconciles the
routing table with it, and a rotation prints an expiry after it has registered the successor.  `Spared` says
where none of them ends in an error; it is exact.
-/

namespace Roadstead.Management

open Roadstead.Identity
open Roadstead.ModelCatalog (Catalog EndpointEntry buildEndpoint buildEndpoint_routed)
open Json (Fields)

variable (env : Env) (a : Admin)

/-! ### What is looked at -/

theorem loadCatalog_managed : (a.loadCatalog env).1.managed = a.managed := by
  unfold Admin.loadCatalog
  split <;> rfl

theorem weigh_managed (sec : CatalogSection) (name : String) (candidate : Fragment) :
    (a.weigh env sec name candidate).1.managed = a.managed := by
  unfold Admin.weigh
  split <;> rfl

theorem statusTarget_managed (name : String) (body : Option Json) :
    (statusTarget env a name body).1.managed = a.managed := by
  have loaded := loadCatalog_managed env a
  unfold statusTarget
  split
  · rfl
  · cases found : a.loadCatalog env with
    | mk a' cat =>
        rw [found] at loaded
        cases cat with
        | none => exact loaded
        | some cat =>
            dsimp only
            split
            · exact loaded
            · split
              · split
                · exact loaded
                · exact loaded
                · split <;> exact loaded
              · split <;> exact loaded

theorem mayDelete_managed (sec : CatalogSection) (name : String) :
    (mayDelete env a sec name).1.managed = a.managed := by
  have loaded := loadCatalog_managed env a
  cases sec with
  | endpoints => rfl
  | providers =>
      rw [mayDelete]
      cases found : a.loadCatalog env with
      | mk a' cat =>
          rw [found] at loaded
          cases cat <;> exact loaded

theorem addressRefusal_managed (sec : CatalogSection) (name : String) (body : Fields) (method : CatalogMethod) :
    (addressRefusal env a sec name body method).1.managed = a.managed := by
  have loaded := loadCatalog_managed env a
  cases sec with
  | endpoints => rfl
  | providers =>
      rw [addressRefusal]
      cases found : a.loadCatalog env with
      | mk a' cat =>
          rw [found] at loaded
          cases cat <;> exact loaded

theorem entryTarget_managed (sec : CatalogSection) (name : String) (method : CatalogMethod) (body : Option Json) :
    (entryTarget env a sec name method body).1.managed = a.managed := by
  unfold entryTarget
  split
  · rfl
  · split
    · have looked := mayDelete_managed env a sec name
      cases checked : mayDelete env a sec name with
      | mk a' refusal =>
          rw [checked] at looked
          cases refusal <;> exact looked
    · split
      · rename_i fields
        split
        · rfl
        · have looked := addressRefusal_managed env a sec name fields method
          cases checked : addressRefusal env a sec name fields method with
          | mk a' refusal =>
              rw [checked] at looked
              cases refusal <;> exact looked
      · rfl

/-! ### The commit -/

/-- Each endpoint that a stanza is about can be looked up, if it is routed. -/
def Reconciles (loaded : Loaded) (sec : CatalogSection) (name : String) : Prop :=
  ∀ n ∈ affected loaded.catalog sec name, isRouted loaded.catalog n = true → n ∉ loaded.untyped

/-- What a commit installs is in force. -/
def Stated (m : Managed) (sec : CatalogSection) (name : String) (fields : Option Fields) (candidate : Fragment) : Prop :=
  m.overlay.catalog = candidate ∧ m.runtimeOverlay = candidate ∧
    (fields.isNone = true ∧ sec = .endpoints → name ∉ m.endpoints.keys)

section Commit

variable {env a}

/-- Whether one name of a reconciliation raises does not depend on the table. -/
theorem reconcileEndpoint_error_iff {loaded : Loaded} {rebuild : List String}
    {done : Dict String EndpointConfig × List Notice} {name : String} :
    (∃ new, reconcileEndpoint env loaded rebuild done name = .error new) ↔
      isRouted loaded.catalog name = true ∧ name ∈ loaded.untyped := by
  unfold reconcileEndpoint
  by_cases routed : isRouted loaded.catalog name = true
  · obtain ⟨e, mem, named⟩ := List.any_eq_true.mp routed
    obtain rfl := of_decide_eq_true named
    have entry := ModelCatalog.get?_of_mem_entries (List.mem_of_mem_filter mem)
    rw [if_neg (by rw [routed]; exact Bool.noConfusion), endpointCredentialGap, entry]
    by_cases untyped : e.name ∈ loaded.untyped
    · simp only [routed, untyped, and_self, iff_true]
      exact ⟨_, rfl⟩
    · simp only [routed, untyped, and_false, iff_false]
      rintro ⟨new, raised⟩
      split at raised
      · cases ‹some _ = none›
      · cases raised
      · rw [buildEndpoint_routed mem] at raised
        dsimp only at raised
        split at raised <;> cases raised
  · rw [if_pos (Bool.eq_false_iff.mpr routed)]
    refine iff_of_false ?_ fun both => routed both.1
    rintro ⟨new, raised⟩
    cases raised

theorem reconcileEndpoints_error_iff {loaded : Loaded} {names rebuild : List String}
    {table : Dict String EndpointConfig} :
    (∃ new, reconcileEndpoints env loaded names rebuild table = .error new) ↔
      ∃ n ∈ names, isRouted loaded.catalog n = true ∧ n ∈ loaded.untyped := by
  have folded : ∀ (ns : List String) (done : Dict String EndpointConfig × List Notice),
      (∃ new, ns.foldlM (reconcileEndpoint env loaded rebuild) done = .error new) ↔
        ∃ n ∈ ns, isRouted loaded.catalog n = true ∧ n ∈ loaded.untyped := by
    intro ns
    induction ns with
    | nil => exact fun done => iff_of_false nofun nofun
    | cons n ns ih =>
        intro done
        have here := @reconcileEndpoint_error_iff env loaded rebuild done n
        rw [List.foldlM_cons, List.exists_mem_cons_iff, ← here]
        cases step : reconcileEndpoint env loaded rebuild done n with
        | error new => exact iff_of_true ⟨new, rfl⟩ (.inl ⟨new, rfl⟩)
        | ok done' =>
            refine (ih done').trans ⟨.inr, fun either => either.resolve_left ?_⟩
            rintro ⟨new, raised⟩
            cases raised
  unfold reconcileEndpoints
  rw [folded]
  simp only [List.mem_mergeSort]

theorem install_eq_self_iff {m : Managed} {sec : CatalogSection} {name : String} {fields : Option Fields}
    {candidate : Fragment} : m.install sec name fields candidate = m ↔ Stated m sec name fields candidate := by
  unfold Managed.install Stated
  constructor
  · intro same
    refine ⟨?_, ?_, fun gone => ?_⟩
    · rw [← same]
      dsimp only
      split <;> rfl
    · rw [← same]
      dsimp only
      split <;> rfl
    · rw [if_pos gone] at same
      exact Dict.erase_eq_self_iff.mp (congrArg Managed.endpoints same)
  · rintro ⟨same, stated, absent⟩
    have unchanged : { m with overlay := { m.overlay with catalog := candidate }, runtimeOverlay := candidate } = m := by
      obtain ⟨endpoints, runtime, ⟨keys, quotas, catalog, audit, dropped⟩, registry, agents, budgets⟩ := m
      dsimp only at same stated
      subst same
      subst stated
      rfl
    rw [unchanged]
    split
    · rename_i gone
      rw [Managed.removeEndpoint, Dict.erase_of_not_mem (absent gone)]
    · rfl

/-- A commit refuses the candidate, or reconciles the table with it, or raises after it has installed it. -/
theorem commitCatalog_cases (env : Env) (a : Admin) (sec : CatalogSection) (name : String) (fields : Option Fields)
    (replace : Bool) (action : String) :
    ((a.weigh env sec name (a.managed.overlay.catalog.candidate sec name fields replace)).2 = none ∧
        (a.commitCatalog env sec name fields replace action).1.managed = a.managed ∧
        (a.commitCatalog env sec name fields replace action).2 = 400) ∨
      ∃ loaded,
        (a.weigh env sec name (a.managed.overlay.catalog.candidate sec name fields replace)).2 = some loaded ∧
        ((Reconciles loaded sec name ∧ (a.commitCatalog env sec name fields replace action).2 = 200) ∨
          (¬Reconciles loaded sec name ∧
            (a.commitCatalog env sec name fields replace action).1.managed =
              a.managed.install sec name fields (a.managed.overlay.catalog.candidate sec name fields replace) ∧
            (a.commitCatalog env sec name fields replace action).2 = 500)) := by
  have same := weigh_managed env a sec name (a.managed.overlay.catalog.candidate sec name fields replace)
  rw [Admin.commitCatalog]
  cases weighed : a.weigh env sec name (a.managed.overlay.catalog.candidate sec name fields replace) with
  | mk b found =>
      rw [weighed] at same
      cases found with
      | none => exact .inl ⟨rfl, same, rfl⟩
      | some loaded =>
          refine .inr ⟨loaded, rfl, ?_⟩
          dsimp only at same ⊢
          have raises := @reconcileEndpoints_error_iff env loaded (affected loaded.catalog sec name)
            (affected loaded.catalog sec name)
            (b.managed.install sec name fields
              (a.managed.overlay.catalog.candidate sec name fields replace)).endpoints
          cases reconciled : reconcileEndpoints env loaded (affected loaded.catalog sec name)
              (affected loaded.catalog sec name)
              (b.managed.install sec name fields
                (a.managed.overlay.catalog.candidate sec name fields replace)).endpoints with
          | error new =>
              obtain ⟨n, mem, routed, untyped⟩ := raises.mp ⟨new, reconciled⟩
              exact .inr ⟨fun reconciles => reconciles n mem routed untyped, by rw [same], rfl⟩
          | ok done =>
              refine .inl ⟨fun n mem routed untyped => ?_, rfl⟩
              obtain ⟨new, raised⟩ := raises.mpr ⟨n, mem, routed, untyped⟩
              rw [reconciled] at raised
              cases raised

end Commit

/-! ### One handler after the other -/

/-- An answer that is an error leaves everything that a write can change. -/
def Kept (a : Admin) (answer : Admin × ℕ) : Prop := 400 ≤ answer.2 → answer.1.managed = a.managed

/-- A commit that ends with an error is one of what is in force; `inForce` says so of what was changed before it. -/
def Settled (env : Env) (b : Admin) (sec : CatalogSection) (name : String) (fields : Option Fields) (replace : Bool)
    (inForce : Prop) : Prop :=
  ((b.weigh env sec name (b.managed.overlay.catalog.candidate sec name fields replace)).2 = none → inForce) ∧
    ∀ loaded, (b.weigh env sec name (b.managed.overlay.catalog.candidate sec name fields replace)).2 = some loaded →
      Reconciles loaded sec name ∨
        inForce ∧ Stated b.managed sec name fields (b.managed.overlay.catalog.candidate sec name fields replace)

variable {env a}

theorem kept_of_same {answer : Admin × ℕ} (same : answer.1.managed = a.managed) : Kept a answer := fun _ => same

theorem kept_of_success {answer : Admin × ℕ} {status : ℕ} (code : answer.2 = status) (success : status < 400) :
    Kept a answer := fun refused => absurd success (not_lt.mpr (code ▸ refused))

theorem kept_keys (body : Body KeyCreate) : Kept a (handleAdminKeys env a body) := by
  unfold handleAdminKeys
  cases env.denied with
  | some denial => exact kept_of_same rfl
  | none =>
      cases body with
      | notJson | invalid => exact kept_of_same rfl
      | valid spec =>
          dsimp only
          cases a.managed.plane.enrol env.helpers spec env.fresh env.now with
          | none => exact kept_of_same rfl
          | some enrolled => exact kept_of_success rfl (by decide : 201 < 400)

theorem kept_key (keyId : String) : Kept a (handleAdminKey env a keyId) := by
  unfold handleAdminKey
  cases env.denied with
  | some denial => exact kept_of_same rfl
  | none =>
      cases a.managed.plane.revoke keyId with
      | none => exact kept_of_same rfl
      | some p => exact kept_of_success rfl (by decide : 200 < 400)

theorem kept_caller (agentId : String) (body : Body QuotaPatch) : Kept a (handleAdminCaller env a agentId body) := by
  unfold handleAdminCaller
  cases env.denied with
  | some denial => exact kept_of_same rfl
  | none =>
      cases body with
      | notJson | invalid => exact kept_of_same rfl
      | valid fields => exact kept_of_success rfl (by decide : 200 < 400)

/-- A commit after a change before it: the two together are no change where each is none. -/
theorem kept_commit_iff {b : Admin} {sec : CatalogSection} {name : String} {fields : Option Fields} {replace : Bool}
    {action : String} {inForce : Prop} (before : b.managed = a.managed ↔ inForce)
    (together : b.managed.install sec name fields (b.managed.overlay.catalog.candidate sec name fields replace) =
        a.managed ↔
      inForce ∧ Stated b.managed sec name fields (b.managed.overlay.catalog.candidate sec name fields replace)) :
    Kept a (b.commitCatalog env sec name fields replace action) ↔ Settled env b sec name fields replace inForce := by
  unfold Settled
  rcases commitCatalog_cases env b sec name fields replace action with
    ⟨refused, unchanged, code⟩ | ⟨loaded, accepted, ⟨reconciles, success⟩ | ⟨raises, installed, code⟩⟩
  · constructor
    · intro kept
      exact ⟨fun _ => before.mp (unchanged.symm.trans (kept (code ▸ le_rfl))), fun loaded accepted => by
        rw [refused] at accepted
        cases accepted⟩
    · exact fun settled => kept_of_same (unchanged.trans (before.mpr (settled.1 refused)))
  · refine ⟨fun _ => ⟨fun refused => ?_, fun loaded' accepted' => ?_⟩, fun _ => kept_of_success success (by decide)⟩
    · rw [accepted] at refused
      cases refused
    · rw [accepted] at accepted'
      cases accepted'
      exact .inl reconciles
  · constructor
    · intro kept
      refine ⟨fun refused => ?_, fun loaded' accepted' => ?_⟩
      · rw [accepted] at refused
        cases refused
      · rw [accepted] at accepted'
        cases accepted'
        exact .inr (together.mp (installed.symm.trans (kept (by rw [code]; decide))))
    · intro settled
      exact kept_of_same (installed.trans (together.mpr ((settled.2 loaded accepted).resolve_left raises)))

theorem kept_catalogEntry_iff (sec : CatalogSection) (name : String) (method : CatalogMethod) (body : Option Json) :
    Kept a (handleAdminCatalogEntry env a sec name method body) ↔
      (env.denied = none → ∀ fields, (entryTarget env a sec name method body).2 = .ok fields →
        Settled env (entryTarget env a sec name method body).1 sec name fields (decide (method = .put)) True) := by
  have looked := entryTarget_managed env a sec name method body
  unfold handleAdminCatalogEntry
  cases env.denied with
  | some denial => exact ⟨fun _ => nofun, fun _ => kept_of_same rfl⟩
  | none =>
      cases target : entryTarget env a sec name method body with
      | mk b found =>
          rw [target] at looked
          cases found with
          | error status => exact ⟨fun _ _ _ => nofun, fun _ => kept_of_same looked⟩
          | ok fields =>
              have commit := @kept_commit_iff env a b sec name fields (decide (method = .put))
                (entryAction sec method) True (iff_of_true looked trivial)
                (by rw [← looked, install_eq_self_iff, true_and])
              constructor
              · intro kept _ fields' same
                cases same
                exact commit.mp kept
              · exact fun spared => commit.mpr (spared rfl fields rfl)

/-! ### The status of an endpoint -/

/-- The routing table is already as a status asks. -/
def InForce (m : Managed) (name status : String) (cat : Catalog) : Prop :=
  if status = "active" then ∀ ep, buildEndpoint name cat = some ep → m.endpoints.get? name = some ep
  else name ∉ m.endpoints.keys

/-- A status changes the routing table only. -/
theorem place_managed (a : Admin) (name status : String) (cat : Catalog) :
    (a.place name status cat).managed = { a.managed with endpoints := (a.place name status cat).managed.endpoints } := by
  unfold Admin.place Admin.installEndpoint
  split
  · split <;> rfl
  · rfl

/-- The table is changed unless it is as asked. -/
theorem place_endpoints_iff (a : Admin) (name status : String) (cat : Catalog) :
    (a.place name status cat).managed.endpoints = a.managed.endpoints ↔ InForce a.managed name status cat := by
  unfold Admin.place InForce
  split
  · unfold Admin.installEndpoint
    cases built : buildEndpoint name cat with
    | none => exact ⟨fun _ => nofun, fun _ => rfl⟩
    | some ep =>
        dsimp only
        refine Dict.set_eq_self_iff.trans ⟨fun there ep' new => ?_, fun there => there ep rfl⟩
        obtain rfl := Option.some.inj new
        exact there
  · exact Dict.erase_eq_self_iff

theorem place_managed_iff (a : Admin) (name status : String) (cat : Catalog) :
    (a.place name status cat).managed = a.managed ↔ InForce a.managed name status cat := by
  rw [← place_endpoints_iff]
  refine ⟨congrArg Managed.endpoints, fun same => ?_⟩
  rw [place_managed, same]

theorem kept_endpointStatus_iff (name : String) (body : Option Json) :
    Kept a (handleAdminEndpointStatus env a name body) ↔
      (env.denied = none → ∀ status cat, (statusTarget env a name body).2 = .ok (status, cat) →
        Settled env ((statusTarget env a name body).1.place name status cat) .endpoints name
          (some [("status", .str status)]) false (InForce a.managed name status cat)) := by
  have looked := statusTarget_managed env a name body
  unfold handleAdminEndpointStatus
  cases env.denied with
  | some denial => exact ⟨fun _ => nofun, fun _ => kept_of_same rfl⟩
  | none =>
      cases target : statusTarget env a name body with
      | mk b found =>
          rw [target] at looked
          cases found with
          | error status => exact ⟨fun _ _ _ _ => nofun, fun _ => kept_of_same looked⟩
          | ok asked =>
              obtain ⟨status, cat⟩ := asked
              have placed := place_managed_iff b name status cat
              rw [looked] at placed
              have together {candidate : Fragment} :
                  (b.place name status cat).managed.install .endpoints name (some [("status", .str status)]) candidate =
                    a.managed ↔
                  InForce a.managed name status cat ∧
                    Stated (b.place name status cat).managed .endpoints name (some [("status", .str status)]) candidate := by
                constructor
                · intro same
                  have endpoints := congrArg Managed.endpoints same
                  have in_force := (place_endpoints_iff b name status cat).mp (endpoints.trans (looked ▸ rfl))
                  rw [looked] at in_force
                  exact ⟨in_force, install_eq_self_iff.mp (same.trans (placed.mpr in_force).symm)⟩
                · rintro ⟨in_force, stated⟩
                  exact (install_eq_self_iff.mpr stated).trans (placed.mpr in_force)
              have commit := @kept_commit_iff env a (b.place name status cat) .endpoints name
                (some [("status", .str status)]) false "endpoint.status" _ placed together
              constructor
              · intro kept _ status' cat' same
                cases same
                exact commit.mp kept
              · exact fun spared => commit.mpr (spared rfl status cat rfl)

/-! ### The rotation of a key -/

/-- The successor of a rotation is there after it, whichever way its predecessor ends. -/
theorem exists_successor {h : Helpers} {p q : KeyPlane} {spec : KeySpec} {keyId fresh id : String} {now : ℚ}
    {row : Principal × Credential} (found : snapshotRow p.registry keyId = some row)
    (accepted : p.enrolSpec h spec fresh now = some (q, id)) (overlap later : ℚ) :
    ∃ d, p.registry.byDigest.get? d = none ∧ q.registry.byDigest.get? d ≠ none ∧
      (q.retire keyId row overlap later).registry.byDigest.get? d ≠ none := by
  have registered := (enrolSpec_cases accepted).1
  obtain ⟨d, separate, -, unknown, -, digests, -⟩ := register_eq_some registered
  have present : q.registry.byDigest.get? d ≠ none := by
    rw [digests, Dict.get?_set_self]
    exact nofun
  refine ⟨d, unknown, present, ?_⟩
  unfold KeyPlane.retire
  split
  · rw [KeyRegistry.setExpiry]
    split <;> exact present
  -- The predecessor stands before its successor, so it is the one that is revoked.
  · have labelled : ∃ entry, p.registry.labelled keyId = some entry := by
      obtain ⟨e, mem, -⟩ := Option.map_eq_some_iff.mp found
      have listed := List.mem_mergeSort.mp (List.mem_of_mem_head? (Option.mem_def.mpr mem))
      obtain ⟨there, label⟩ := List.mem_filter.mp listed
      rw [← Option.isSome_iff_exists, KeyRegistry.labelled, List.find?_isSome]
      exact ⟨e, there, label⟩
    obtain ⟨entry, here⟩ := labelled
    have other : d ≠ entry.1 := by
      rintro rfl
      rw [(KeyRegistry.labelled_spec here).1] at unknown
      cases unknown
    rw [KeyRegistry.revoke, labelled_register registered here]
    dsimp only
    rw [Dict.get?_erase_of_ne _ other]
    exact present

theorem kept_keyRotate_iff (keyId : String) (body : Body KeyRotate) :
    Kept a (handleAdminKeyRotate env a keyId body) ↔
      (env.denied = none → ∀ row spec p id, snapshotRow a.managed.keys keyId = some row → body.rotation = some spec →
        a.managed.plane.enrolSpec env.helpers (spec.spec keyId env.fresh env.now row) env.fresh env.now = some (p, id) →
        (cutShort env row spec).all printable = true ∧ (unlimited row spec).all printable = true) := by
  unfold handleAdminKeyRotate
  cases env.denied with
  | some denial => exact ⟨fun _ => nofun, fun _ => kept_of_same rfl⟩
  | none =>
      cases found : snapshotRow a.managed.keys keyId with
      | none => exact ⟨fun _ _ _ _ _ _ => nofun, fun _ => kept_of_same rfl⟩
      | some row =>
          dsimp only
          cases rotation : body.rotation with
          | none => exact ⟨fun _ _ _ _ _ _ _ => nofun, fun _ => kept_of_same rfl⟩
          | some spec =>
              dsimp only
              cases accepted : a.managed.plane.enrolSpec env.helpers (spec.spec keyId env.fresh env.now row) env.fresh
                  env.now with
              | none =>
                  refine ⟨fun _ _ row' spec' p id same same' again => ?_, fun _ => kept_of_same rfl⟩
                  cases same
                  cases same'
                  rw [accepted] at again
                  cases again
              | some enrolled =>
                  obtain ⟨p, id⟩ := enrolled
                  obtain ⟨d, new, present, left⟩ := exists_successor found accepted (spec.overlapS.getD 0) env.later
                  have registers {m : Managed} (with_d : m.keys.byDigest.get? d ≠ none) : m ≠ a.managed := by
                    rintro rfl
                    exact with_d new
                  dsimp only
                  constructor
                  · intro kept _ row' spec' p' id' same same' again
                    cases same
                    cases same'
                    by_cases cut : (cutShort env row spec).all printable = false
                    · rw [if_pos cut] at kept
                      exact absurd (kept (by decide : 400 ≤ 500)) (registers present)
                    · rw [if_neg cut] at kept
                      by_cases printed : (unlimited row spec).all printable = false
                      · rw [if_pos printed] at kept
                        exact absurd (kept (by decide : 400 ≤ 500)) (registers left)
                      · exact ⟨Bool.eq_true_of_not_eq_false cut, Bool.eq_true_of_not_eq_false printed⟩
                  · intro spared
                    obtain ⟨cut, printed⟩ := spared rfl row spec p id rfl rfl accepted
                    rw [if_neg (by rw [cut]; exact Bool.noConfusion), if_neg (by rw [printed]; exact Bool.noConfusion)]
                    exact kept_of_success rfl (by decide : 201 < 400)

/-! ### Every request -/

/-- A request whose refusal changes nothing.

A rotation: the expiry of the predecessor can be printed, where it is printed.  A commit: the routed endpoints
that its stanza is about can be looked up, or what it installs is in force; where it is one of a status, and
the candidate is refused or cannot be looked up, the routing table is already as asked. -/
def Spared (env : Env) (a : Admin) : Request → Prop
  | .rotate keyId body =>
      env.denied = none → ∀ row spec p id, snapshotRow a.managed.keys keyId = some row → body.rotation = some spec →
        a.managed.plane.enrolSpec env.helpers (spec.spec keyId env.fresh env.now row) env.fresh env.now = some (p, id) →
        (cutShort env row spec).all printable = true ∧ (unlimited row spec).all printable = true
  | .endpointStatus name body =>
      env.denied = none → ∀ status cat, (statusTarget env a name body).2 = .ok (status, cat) →
        Settled env ((statusTarget env a name body).1.place name status cat) .endpoints name
          (some [("status", .str status)]) false (InForce a.managed name status cat)
  | .catalogEntry sec name method body =>
      env.denied = none → ∀ fields, (entryTarget env a sec name method body).2 = .ok fields →
        Settled env (entryTarget env a sec name method body).1 sec name fields (decide (method = .put)) True
  | _ => True

/-- The state after some requests. -/
def Admin.after (a : Admin) (before : List (Env × Request)) : Admin :=
  Runs.run (fun a asked => (a.answer asked.1 asked.2).1) a before

/-- In every state that requests lead to, a request that is answered with an error changes nothing if and only
if it is spared. -/
theorem refused_changes_nothing_iff (start : Admin) (before : List (Env × Request)) (env : Env) (request : Request) :
    (400 ≤ ((start.after before).answer env request).2 →
        ((start.after before).answer env request).1.managed = (start.after before).managed) ↔
      Spared env (start.after before) request := by
  cases request with
  | enrol body => exact iff_of_true (kept_keys body) trivial
  | rotate keyId body => exact kept_keyRotate_iff keyId body
  | revoke keyId => exact iff_of_true (kept_key keyId) trivial
  | caller agentId body => exact iff_of_true (kept_caller agentId body) trivial
  | endpointStatus name body => exact kept_endpointStatus_iff name body
  | catalogEntry sec name method body => exact kept_catalogEntry_iff sec name method body

/-! ### Refused, and changed -/

/-- A planned endpoint with a mistyped policy key. -/
def spillEntry (status : ModelCatalog.EndpointStatus) : EndpointEntry where
  name := "spill"
  provider := "spare"
  status := status
  role := "spill"
  policy := [("slot_afinity", .bool true)]

/-- The catalog of a file with this endpoint: a fragment can promote it. -/
def spillFile (f : Fragment) : List Notice × Option Loaded :=
  let status := (((f.endpoints.get? "spill").join.getD []).get? "status").getD (.str "planned")
  ([], some { catalog := {
    Catalog.ofEntries [spillEntry (if status = .str "active" then .active else .planned)] with
    providers := Dict.set ∅ "spare" { engine := "vllm", host := "192.0.2.7", port := 8000 } } })

def plainEnv : Env where
  helpers := plainHelpers
  load := spillFile
  environ _ := none
  inFlight _ := 0
  str _ := ""
  fresh := "rs-alpha"
  now := 1000
  later := 1000

def promote : Request := .endpointStatus "spill" (some (.obj [("status", .str "active")]))

/-- A key with a life of 10¹⁹ seconds, which end at no instant of the platform. -/
def enrolled : List (Env × Request) :=
  [(plainEnv, .enrol (.valid { agentId := "app", id := some "app", expiresInS := some (10 ^ 19) }))]

def successorEnv : Env := { plainEnv with fresh := "rs-beta" }

/-- A file with a routed endpoint; a fragment can give its provider a Boolean for `api_key_env`. -/
def spareFile (f : Fragment) : List Notice × Option Loaded :=
  let keyed := decide (Fields.get? ((f.providers.get? "spare").join.getD []) "api_key_env" = some (.bool true))
  ([], some {
    catalog := {
      Catalog.ofEntries [{ name := "spill", provider := "spare", role := "spill" }] with
      providers := Dict.set ∅ "spare"
        { engine := "vllm", host := "192.0.2.7", port := 8000, apiKeyEnv := if keyed then "True" else "" } }
    untyped := if keyed then ["spill"] else [] })

def spareEnv : Env := { plainEnv with load := spareFile, str := fun _ => "True" }

def keyed : Request := .catalogEntry .providers "spare" .patch (some (.obj [("api_key_env", .bool true)]))

/-- An endpoint is promoted and the candidate refused; a stanza is installed and its endpoint cannot be looked
up; a successor is registered and the expiry of its predecessor cannot be printed. -/
theorem refused_and_changed :
    ¬(400 ≤ ((Admin.after ⟨{}, none, []⟩ []).answer plainEnv promote).2 →
        ((Admin.after ⟨{}, none, []⟩ []).answer plainEnv promote).1.managed =
          (Admin.after ⟨{}, none, []⟩ []).managed) ∧
      ¬(400 ≤ ((Admin.after ⟨{}, none, []⟩ []).answer spareEnv keyed).2 →
        ((Admin.after ⟨{}, none, []⟩ []).answer spareEnv keyed).1.managed =
          (Admin.after ⟨{}, none, []⟩ []).managed) ∧
      ¬(400 ≤ ((Admin.after ⟨{}, none, []⟩ enrolled).answer successorEnv (.rotate "app" .notJson)).2 →
        ((Admin.after ⟨{}, none, []⟩ enrolled).answer successorEnv (.rotate "app" .notJson)).1.managed =
          (Admin.after ⟨{}, none, []⟩ enrolled).managed) := by
  refine ⟨fun kept => ?_, fun kept => ?_, fun kept => ?_⟩
  · have same := congrArg (fun m => m.endpoints.contains "spill") (kept (by decide))
    revert same
    decide
  · have same := congrArg (fun m => m.overlay.catalog.providers.keys) (kept (by decide +kernel))
    revert same
    decide +kernel
  · have same := congrArg (fun m => m.keys.byDigest.keys) (kept (by decide +kernel))
    revert same
    decide +kernel

end Roadstead.Management
