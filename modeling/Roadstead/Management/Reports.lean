import Roadstead.Management.Handlers
import Roadstead.ModelCatalog.Agreement

/-!
# What a catalog reports

The notices that `load_catalog` and `build_endpoint_kwargs` record about a catalog: an alias that is claimed
twice, an alias that is lost to a class or a role, a stanza of `intents` and a key of a policy that nothing
reads.  A `Report` is a notice before it is written down, with the endpoints it is about; the texts of the
details are left out.

What the reports about an endpoint say is said of the catalog by `Problem` (`exists_about_iff`).
-/

namespace Roadstead.Management

open Roadstead.ModelCatalog (Catalog EndpointEntry policyPassthrough get?_of_mem_entries get?_byName)

/-! ### Reports -/

inductive Report where
  | duplicate (a : String) (claimants : List String)
  | shadowed (endpoint : String)
  /-- A report of `_coerce_profile`. -/
  | intent (name problem : String)
  | policy (endpoint : String)
  deriving DecidableEq

/-- The subject and the problem of a report. -/
def Report.notice : Report → Notice
  | duplicate a _ => ⟨"endpoints.aliases." ++ a, "duplicate"⟩
  | shadowed endpoint => ⟨"endpoints." ++ endpoint ++ ".aliases", "shadowed"⟩
  | intent name problem => ⟨"intents." ++ name, problem⟩
  | policy endpoint => ⟨"endpoints." ++ endpoint ++ ".policy", "unknown_key"⟩

/-- The endpoints that claim each alias, in the order of the file. -/
def aliasClaims (cat : Catalog) : Dict String (List String) :=
  .gather (cat.entries.flatMap fun e => e.aliases.map fun a => (a, e.name))

def claimants (cat : Catalog) (a : String) : List String := ((aliasClaims cat).get? a).getD []

/-- The first loop of `load_catalog` that reports. -/
def duplicates (cat : Catalog) : List Report :=
  (aliasClaims cat).entries.filterMap fun claim =>
    if 1 < claim.2.length then some (.duplicate claim.1 claim.2) else none

/-- An alias of an endpoint in the second loop: one that is claimed twice has been reported. -/
def shadowedAlias (cat : Catalog) (e : EndpointEntry) (a : String) : Option Report :=
  match cat.byName.get? a with
  | none => none
  | some winner =>
      if winner = e.name then none
      else if 1 < (claimants cat a).length then none
      else some (.shadowed e.name)

def shadowedAliases (cat : Catalog) : List Report :=
  cat.entries.flatMap fun e => e.aliases.filterMap (shadowedAlias cat e)

/-- The file under a fragment, as far as `load_catalog` gets before it reports. -/
structure Parsed where
  loaded : Loaded
  /-- The names and the problems that `_build_intents` reports. -/
  intents : List (String × String) := []
  /-- `_build_intents` raises. -/
  raises : Bool := false

def Parsed.loadReports (p : Parsed) : List Report :=
  duplicates p.loaded.catalog ++ shadowedAliases p.loaded.catalog ++ p.intents.map fun i => .intent i.1 i.2

/-- `load_catalog` of a fragment over a file; the file cannot be parsed, or it is refused by a coercion,
where `file` gives nothing. -/
def loadCatalog (file : Fragment → Option Parsed) (f : Fragment) : List Notice × Option Loaded :=
  match file f with
  | none => ([], none)
  | some p => (p.loadReports.map Report.notice, if p.raises then none else some p.loaded)

/-- The handlers over this file. -/
def Env.reading (env : Env) (file : Fragment → Option Parsed) : Env := { env with load := loadCatalog file }

/-! ### The reports of a build -/

/-- A key of the policy is one that no code reads. -/
def Mistyped (e : EndpointEntry) : Prop :=
  (e.policy.filter fun field => decide (field.1 ∉ policyPassthrough ++ policyHandled)) ≠ []

instance (e : EndpointEntry) : Decidable (Mistyped e) := inferInstanceAs (Decidable (_ ≠ _))

def policyReports (e : EndpointEntry) : List Report := if Mistyped e then [.policy e.name] else []

/-- What `build_endpoint_kwargs` reports of some endpoints. -/
def Loaded.buildReports (loaded : Loaded) (names : List String) : List Report :=
  (names.takeWhile fun n => decide (n ∉ loaded.unreached)).flatMap fun n =>
    ((loaded.catalog.endpoints.get? n).map policyReports).getD []

theorem map_notice_policyReports (e : EndpointEntry) : (policyReports e).map Report.notice = policyNotices e := by
  show _ = if Mistyped e then _ else _
  rw [policyReports]
  split <;> rfl

theorem build_fst (loaded : Loaded) (names : List String) :
    (loaded.build names).1 = (loaded.buildReports names).map Report.notice := by
  rw [Loaded.build, Loaded.buildReports, List.map_flatMap]
  refine congrArg (List.flatMap · _) (funext fun n => ?_)
  unfold buildNotices
  cases loaded.catalog.endpoints.get? n with
  | none => rfl
  | some e => exact (map_notice_policyReports e).symm

/-- All that the endpoints of a stanza report, from the load on. -/
def Parsed.reports (p : Parsed) (sec : CatalogSection) (name : String) : List Report :=
  p.loadReports ++ p.loaded.buildReports (entriesOf p.loaded.catalog sec name)

/-- The load and the build of a stanza return. -/
def Parsed.returns (p : Parsed) (sec : CatalogSection) (name : String) : Bool :=
  !p.raises && (p.loaded.build (entriesOf p.loaded.catalog sec name)).2

/-! ### What a report is about -/

/-- The report is about the stanza: one of its own, or of an alias that it is one of the claimants of. -/
def Report.About (sec : CatalogSection) (name : String) : Report → Prop
  | duplicate _ claimants => sec = .endpoints ∧ name ∈ claimants
  | shadowed endpoint => sec = .endpoints ∧ endpoint = name
  | intent _ _ => False
  | policy endpoint => sec = .endpoints ∧ endpoint = name

/-- Something in the stanza of an endpoint has no effect, or is ambiguous. -/
def Problem (cat : Catalog) (name : String) : Prop :=
  ∃ e ∈ cat.entries, e.name = name ∧
    (Mistyped e ∨ ∃ a ∈ e.aliases, 1 < (claimants cat a).length ∨ cat.byName.get? a ≠ some name)

theorem claimants_eq (cat : Catalog) (a : String) :
    claimants cat a =
      ((cat.entries.flatMap fun e => e.aliases.map fun a => (a, e.name)).filter
        fun claim => decide (claim.1 = a)).map Prod.snd :=
  Dict.getD_get?_gather _ _

theorem mem_claimants_iff {cat : Catalog} {a name : String} :
    name ∈ claimants cat a ↔ ∃ e ∈ cat.entries, e.name = name ∧ a ∈ e.aliases := by
  rw [claimants_eq]
  constructor
  · intro mem
    obtain ⟨claim, listed, rfl⟩ := List.mem_map.mp mem
    obtain ⟨claimed, same⟩ := List.mem_filter.mp listed
    obtain ⟨e, there, own⟩ := List.mem_flatMap.mp claimed
    obtain ⟨a', has, rfl⟩ := List.mem_map.mp own
    exact ⟨e, there, rfl, of_decide_eq_true same ▸ has⟩
  · rintro ⟨e, there, rfl, has⟩
    refine List.mem_map.mpr ⟨(a, e.name), List.mem_filter.mpr ⟨?_, decide_eq_true rfl⟩, rfl⟩
    exact List.mem_flatMap.mpr ⟨e, there, List.mem_map.mpr ⟨a, has, rfl⟩⟩

/-- The first loop reports every alias that is claimed more than once. -/
theorem mem_duplicates_iff {cat : Catalog} {r : Report} :
    r ∈ duplicates cat ↔ ∃ a, 1 < (claimants cat a).length ∧ r = .duplicate a (claimants cat a) := by
  constructor
  · intro mem
    obtain ⟨⟨a, names⟩, there, reported⟩ := List.mem_filterMap.mp mem
    have found := Dict.mem_entries_iff.mp there
    have same : claimants cat a = names := by rw [claimants, found, Option.getD_some]
    obtain ⟨twice, report_eq⟩ := Option.ite_none_right_eq_some.mp reported
    obtain rfl := Option.some.inj report_eq
    exact ⟨a, same ▸ twice, by rw [same]⟩
  · rintro ⟨a, twice, rfl⟩
    have found : (aliasClaims cat).get? a = some (claimants cat a) := by
      unfold claimants at twice ⊢
      cases there : (aliasClaims cat).get? a with
      | none =>
          rw [there] at twice
          exact absurd twice (by decide)
      | some names => rfl
    exact List.mem_filterMap.mpr ⟨(a, claimants cat a), Dict.mem_entries_iff.mpr found, if_pos twice⟩

/-- An alias of an endpoint leads to some endpoint. -/
theorem exists_winner {cat : Catalog} {e : EndpointEntry} (mem : e ∈ cat.entries) {a : String}
    (has : a ∈ e.aliases) : ∃ winner, cat.byName.get? a = some winner := by
  have claimed : (cat.entries.findSome? (ModelCatalog.claim a)).isSome = true :=
    List.findSome?_isSome_iff.mpr ⟨e, mem, by rw [ModelCatalog.claim, if_pos has]; rfl⟩
  rw [get?_byName, ← Option.isSome_iff_exists, Option.isSome_or, Option.isSome_or, claimed, Bool.or_true,
    Bool.or_true]

theorem shadowedAlias_eq_some_iff {cat : Catalog} {e : EndpointEntry} (mem : e ∈ cat.entries) {a : String}
    (has : a ∈ e.aliases) {r : Report} :
    shadowedAlias cat e a = some r ↔
      cat.byName.get? a ≠ some e.name ∧ ¬1 < (claimants cat a).length ∧ r = .shadowed e.name := by
  obtain ⟨winner, found⟩ := exists_winner mem has
  rw [shadowedAlias, found]
  dsimp only
  split
  · next same => exact iff_of_false nofun fun both => both.1 (congrArg some same)
  · next lost =>
      split
      · next twice => exact iff_of_false nofun fun both => both.2.1 twice
      · next once =>
          refine ⟨fun reported => ⟨fun same => lost (Option.some.inj same), once, (Option.some.inj reported).symm⟩, ?_⟩
          rintro ⟨-, -, rfl⟩
          rfl

/-- The second loop reports every alias that is claimed once and leads to another endpoint. -/
theorem mem_shadowedAliases_iff {cat : Catalog} {r : Report} :
    r ∈ shadowedAliases cat ↔ ∃ e ∈ cat.entries, ∃ a ∈ e.aliases,
      cat.byName.get? a ≠ some e.name ∧ ¬1 < (claimants cat a).length ∧ r = .shadowed e.name := by
  simp only [shadowedAliases, List.mem_flatMap, List.mem_filterMap]
  constructor
  · rintro ⟨e, mem, a, has, reported⟩
    exact ⟨e, mem, a, has, (shadowedAlias_eq_some_iff mem has).mp reported⟩
  · rintro ⟨e, mem, a, has, lost⟩
    exact ⟨e, mem, a, has, (shadowedAlias_eq_some_iff mem has).mpr lost⟩

/-- A build reports every policy with a mistyped key, of those it gets to. -/
theorem mem_buildReports_iff {loaded : Loaded} {names : List String} {r : Report} :
    r ∈ loaded.buildReports names ↔
      ∃ e ∈ loaded.catalog.entries, e.name ∈ (names.takeWhile fun n => decide (n ∉ loaded.unreached)) ∧
        Mistyped e ∧ r = .policy e.name := by
  simp only [Loaded.buildReports, List.mem_flatMap]
  constructor
  · rintro ⟨n, got, mem⟩
    cases found : loaded.catalog.endpoints.get? n with
    | none =>
        rw [found] at mem
        cases mem
    | some e =>
        rw [found] at mem
        have there := Dict.mem_entries_iff.mpr found
        obtain rfl : e.name = n := loaded.catalog.named _ there
        have reported : r ∈ policyReports e := mem
        unfold policyReports at reported
        split at reported
        · next mistyped => exact ⟨e, List.mem_map.mpr ⟨_, there, rfl⟩, got, mistyped, List.mem_singleton.mp reported⟩
        · cases reported
  · rintro ⟨e, mem, got, mistyped, rfl⟩
    refine ⟨e.name, got, ?_⟩
    rw [get?_of_mem_entries mem]
    show Report.policy e.name ∈ policyReports e
    rw [policyReports, if_pos mistyped]
    exact List.mem_singleton_self _

/-! ### The reports and the catalog -/

/-- Where the build of an endpoint returns, it has got to the endpoint. -/
theorem takeWhile_of_returns {p : Parsed} {sec : CatalogSection} {name : String}
    (returns : p.returns sec name = true) :
    ((entriesOf p.loaded.catalog sec name).takeWhile fun n => decide (n ∉ p.loaded.unreached)) =
      entriesOf p.loaded.catalog sec name := by
  have built := (Bool.and_eq_true_iff.mp returns).2
  have all := of_decide_eq_true (Bool.and_eq_true_iff.mp built).1
  exact (List.takeWhile_prefix _).eq_of_length all

/-- Reports about the stanza of an endpoint say that there is a problem with it. -/
theorem exists_about_iff {p : Parsed} {name : String} (returns : p.returns .endpoints name = true) :
    (∃ r ∈ p.reports .endpoints name, r.About .endpoints name) ↔ Problem p.loaded.catalog name := by
  simp only [Parsed.reports, Parsed.loadReports, List.mem_append]
  constructor
  · rintro ⟨r, ((duplicate | shadowed) | intent) | policy, about⟩
    · obtain ⟨a, twice, rfl⟩ := mem_duplicates_iff.mp duplicate
      obtain ⟨e, mem, named, has⟩ := mem_claimants_iff.mp about.2
      exact ⟨e, mem, named, .inr ⟨a, has, .inl twice⟩⟩
    · obtain ⟨e, mem, a, has, lost, -, rfl⟩ := mem_shadowedAliases_iff.mp shadowed
      obtain ⟨-, rfl⟩ := about
      exact ⟨e, mem, rfl, .inr ⟨a, has, .inr lost⟩⟩
    · obtain ⟨i, -, rfl⟩ := List.mem_map.mp intent
      exact about.elim
    · obtain ⟨e, mem, -, mistyped, rfl⟩ := mem_buildReports_iff.mp policy
      exact ⟨e, mem, about.2, .inl mistyped⟩
  · rintro ⟨e, mem, rfl, mistyped | ⟨a, has, ambiguous⟩⟩
    · refine ⟨.policy e.name, .inr (mem_buildReports_iff.mpr ⟨e, mem, ?_, mistyped, rfl⟩), rfl, rfl⟩
      rw [takeWhile_of_returns returns]
      have there := Dict.mem_keys_iff.mpr ⟨e, get?_of_mem_entries mem⟩
      exact List.mem_filter.mpr ⟨List.mem_singleton_self _, Dict.contains_iff.mpr there⟩
    · by_cases twice : 1 < (claimants p.loaded.catalog a).length
      · exact ⟨_, .inl (.inl (.inl (mem_duplicates_iff.mpr ⟨a, twice, rfl⟩))), rfl,
          mem_claimants_iff.mpr ⟨e, mem, rfl, has⟩⟩
      · have lost := ambiguous.resolve_left twice
        exact ⟨_, .inl (.inl (.inr (mem_shadowedAliases_iff.mpr ⟨e, mem, a, has, lost, twice, rfl⟩))), rfl, rfl⟩

end Roadstead.Management
