import Roadstead.Lib.Run
import Roadstead.Lib.Window
import Roadstead.Management.Refused
import Roadstead.Management.Reports

/-!
# The verdict of a commit

A commit reads off the log of notices whether its candidate is fit: a complaint is a notice beyond the old
length of the log whose subject begins with the text of the stanza.  The log is bounded, so that a full
one shows nothing (`full_log_accepts`), and it is never emptied.  A subject can begin with the text of
the stanza and be about another endpoint, and the subject of a duplicated alias names none of its claimants.

`commit_refuses_iff` says for which candidates, and after how many notices, the verdict is that of the
candidate.
-/

namespace Roadstead.Management

open Roadstead.ModelCatalog (Catalog EndpointEntry)
open Json (Fields)

/-! ### Histories -/

inductive Event where
  /-- A notice from elsewhere. -/
  | notice (n : Notice)
  | request (env : Env) (request : Request)

def Admin.happens (a : Admin) : Event → Admin
  | .notice n => { a with notices := report a.notices [n] }
  | .request env request => (a.answer env request).1

def Admin.history (a : Admin) (events : List Event) : Admin := Runs.run Admin.happens a events

/-! ### The log -/

/-- The log has its bound, and does not get shorter. -/
def Grows (a b : Admin) : Prop :=
  a.notices.length ≤ maxConfigNotices →
    a.notices.length ≤ b.notices.length ∧ b.notices.length ≤ maxConfigNotices

theorem length_report (old new : List Notice) :
    (report old new).length = min maxConfigNotices (old.length + new.length) := by
  rw [← List.length_append]
  exact Window.length_rtake _ _

section Grows

variable {a b c : Admin}

theorem Grows.refl (a : Admin) : Grows a a := fun bound => ⟨le_rfl, bound⟩

theorem grows_of_same (same : b.notices = a.notices) : Grows a b := by
  intro bound
  rw [same]
  exact ⟨le_rfl, bound⟩

theorem Grows.trans (first : Grows a b) (second : Grows b c) : Grows a c := by
  intro bound
  obtain ⟨longer, bound'⟩ := first bound
  obtain ⟨longer', bound''⟩ := second bound'
  exact ⟨longer.trans longer', bound''⟩

theorem grows_report {m : Managed} {cache : Option Loaded} {new : List Notice} :
    Grows a ⟨m, cache, report a.notices new⟩ := by
  intro bound
  rw [length_report]
  omega

variable (a) (env : Env)

theorem grows_loadCatalog : Grows a (a.loadCatalog env).1 := by
  unfold Admin.loadCatalog
  split
  · exact .refl a
  · exact grows_report

theorem grows_weigh (sec : CatalogSection) (name : String) (candidate : Fragment) :
    Grows a (a.weigh env sec name candidate).1 := by
  unfold Admin.weigh
  split <;> exact grows_report

theorem grows_commitCatalog (sec : CatalogSection) (name : String) (fields : Option Fields) (replace : Bool)
    (action : String) : Grows a (a.commitCatalog env sec name fields replace action).1 := by
  have weighed := grows_weigh a env sec name (a.managed.overlay.catalog.candidate sec name fields replace)
  unfold Admin.commitCatalog
  dsimp only
  split
  · next found =>
      rw [found] at weighed
      exact weighed
  · next found =>
      rw [found] at weighed
      split <;> exact weighed.trans (grows_report)

theorem grows_statusTarget (name : String) (body : Option Json) : Grows a (statusTarget env a name body).1 := by
  have loaded := grows_loadCatalog a env
  unfold statusTarget
  split
  · exact .refl a
  · split
    · next found =>
        rw [found] at loaded
        exact loaded
    · next found =>
        rw [found] at loaded
        split
        · exact loaded
        · split
          · split
            · exact loaded
            · exact loaded
            · split
              · exact loaded
              · exact loaded.trans (grows_report)
          · split <;> exact loaded

theorem grows_place (name status : String) (cat : Catalog) : Grows a (a.place name status cat) := by
  unfold Admin.place Admin.installEndpoint
  split
  · split
    · exact grows_report
    · exact .refl a
  · exact .refl a

theorem grows_mayDelete (sec : CatalogSection) (name : String) : Grows a (mayDelete env a sec name).1 := by
  have loaded := grows_loadCatalog a env
  cases sec with
  | endpoints => exact .refl a
  | providers =>
      rw [mayDelete]
      cases found : a.loadCatalog env with
      | mk b cat =>
          rw [found] at loaded
          cases cat <;> exact loaded

theorem grows_addressRefusal (sec : CatalogSection) (name : String) (body : Fields) (method : CatalogMethod) :
    Grows a (addressRefusal env a sec name body method).1 := by
  have loaded := grows_loadCatalog a env
  cases sec with
  | endpoints => exact .refl a
  | providers =>
      rw [addressRefusal]
      cases found : a.loadCatalog env with
      | mk b cat =>
          rw [found] at loaded
          cases cat <;> exact loaded

theorem grows_entryTarget (sec : CatalogSection) (name : String) (method : CatalogMethod) (body : Option Json) :
    Grows a (entryTarget env a sec name method body).1 := by
  unfold entryTarget
  split
  · exact .refl a
  · split
    · have looked := grows_mayDelete a env sec name
      cases checked : mayDelete env a sec name with
      | mk b refusal =>
          rw [checked] at looked
          cases refusal <;> exact looked
    · split
      · next fields =>
          split
          · exact .refl a
          · have looked := grows_addressRefusal a env sec name fields method
            cases checked : addressRefusal env a sec name fields method with
            | mk b refusal =>
                rw [checked] at looked
                cases refusal <;> exact looked
      · exact .refl a

/-- The requests about keys and quotas report nothing. -/
theorem answer_notices (request : Request)
    (other : (∀ name body, request ≠ .endpointStatus name body) ∧
      ∀ sec name method body, request ≠ .catalogEntry sec name method body) :
    (a.answer env request).1.notices = a.notices := by
  cases request with
  | enrol body =>
      show (handleAdminKeys env a body).1.notices = _
      unfold handleAdminKeys
      repeat' split
      all_goals rfl
  | rotate keyId body =>
      show (handleAdminKeyRotate env a keyId body).1.notices = _
      unfold handleAdminKeyRotate
      repeat' split
      all_goals rfl
  | revoke keyId =>
      show (handleAdminKey env a keyId).1.notices = _
      unfold handleAdminKey
      repeat' split
      all_goals rfl
  | caller agentId body =>
      show (handleAdminCaller env a agentId body).1.notices = _
      unfold handleAdminCaller
      repeat' split
      all_goals rfl
  | endpointStatus name body => exact absurd rfl (other.1 name body)
  | catalogEntry sec name method body => exact absurd rfl (other.2 sec name method body)

/-- What one request does to the log. -/
theorem grows_answer (request : Request) : Grows a (a.answer env request).1 := by
  cases request with
  | endpointStatus name body =>
      have looked := grows_statusTarget a env name body
      show Grows a (handleAdminEndpointStatus env a name body).1
      unfold handleAdminEndpointStatus
      split
      · exact .refl a
      · cases target : statusTarget env a name body with
        | mk b found =>
            rw [target] at looked
            cases found with
            | error status => exact looked
            | ok asked => exact (looked.trans (grows_place b _ _ _)).trans (grows_commitCatalog _ env _ _ _ _ _)
  | catalogEntry sec name method body =>
      have looked := grows_entryTarget a env sec name method body
      show Grows a (handleAdminCatalogEntry env a sec name method body).1
      unfold handleAdminCatalogEntry
      split
      · exact .refl a
      · cases target : entryTarget env a sec name method body with
        | mk b found =>
            rw [target] at looked
            cases found with
            | error status => exact looked
            | ok fields => exact looked.trans (grows_commitCatalog _ env _ _ _ _ _)
  | enrol body | rotate keyId body | revoke keyId | caller agentId body =>
      exact grows_of_same (answer_notices a env _ ⟨nofun, nofun⟩)

end Grows

theorem grows_history (start : Admin) (events : List Event) : Grows start (start.history events) := by
  refine Runs.run_forall (Grows start) (fun a event grown => grown.trans ?_) (.refl start) events
  cases event with
  | notice n => exact grows_report
  | request env request => exact grows_answer a env request

/-- A full log stays full. -/
theorem retained_of_full {start : Admin} (full : start.notices.length = maxConfigNotices) (events : List Event) :
    (start.history events).notices.length = maxConfigNotices := by
  obtain ⟨longer, bound⟩ := grows_history start events full.le
  exact bound.antisymm (full ▸ longer)

/-! ### Subjects -/

/-- What `_commit_catalog` takes for a complaint about the stanza. -/
def Report.Begins (sec : CatalogSection) (name : String) (r : Report) : Prop :=
  (sectionName sec ++ "." ++ name).toList.isPrefixOf r.notice.subject.toList = true

/-- The report is of the stanza of this endpoint alone. -/
def Report.Own (name : String) : Report → Prop
  | shadowed endpoint => endpoint = name
  | policy endpoint => endpoint = name
  | _ => False

/-- The subject begins as one of the endpoint does, and is not of its stanza. -/
def Report.Namesake (name : String) (r : Report) : Prop := r.Begins .endpoints name ∧ ¬r.Own name

theorem begins_endpoints_iff {name : String} {r : Report} :
    r.Begins .endpoints name ↔ ("endpoints." ++ name).toList <+: r.notice.subject.toList := by
  have joined : sectionName .endpoints ++ "." = "endpoints." := by decide
  rw [Report.Begins, joined, List.isPrefixOf_iff_prefix]

theorem prefix_toList_append (s t : String) : s.toList <+: (s ++ t).toList := by
  rw [String.toList_append]
  exact List.prefix_append _ _

theorem begins_of_own {name : String} {r : Report} (own : r.Own name) : r.Begins .endpoints name := by
  cases r with
  | duplicate a claimants | intent name problem => exact own.elim
  | shadowed endpoint =>
      obtain rfl := own
      exact begins_endpoints_iff.mpr (prefix_toList_append _ ".aliases")
  | policy endpoint =>
      obtain rfl := own
      exact begins_endpoints_iff.mpr (prefix_toList_append _ ".policy")

theorem about_of_own {name : String} {r : Report} (own : r.Own name) : r.About .endpoints name := by
  cases r with
  | duplicate a claimants | intent name problem => exact own.elim
  | shadowed endpoint | policy endpoint => exact ⟨rfl, own⟩

theorem head?_append (s t : String) {c : Char} (first : s.toList.head? = some c) :
    (s ++ t).toList.head? = some c := by
  rw [String.toList_append, List.head?_append, first, Option.some_or]

/-- A subject is one of `endpoints`, or of `intents`. -/
theorem head?_subject (r : Report) :
    r.notice.subject.toList.head? = some 'e' ∨ r.notice.subject.toList.head? = some 'i' := by
  cases r with
  | duplicate a claimants => exact .inl (head?_append _ _ (by decide))
  | shadowed endpoint => exact .inl (head?_append _ _ (head?_append _ _ (by decide)))
  | intent name problem => exact .inr (head?_append _ _ (by decide))
  | policy endpoint => exact .inl (head?_append _ _ (head?_append _ _ (by decide)))

/-- Nothing that is reported looks like a provider. -/
theorem not_begins_providers (name : String) (r : Report) : ¬r.Begins .providers name := by
  intro begins
  rw [Report.Begins, List.isPrefixOf_iff_prefix] at begins
  obtain ⟨rest, subject⟩ := begins
  have text : (sectionName .providers ++ "." ++ name).toList.head? = some 'p' :=
    head?_append _ _ (head?_append _ _ (by decide))
  have first : r.notice.subject.toList.head? = some 'p' := by
    rw [← subject, List.head?_append, text, Option.some_or]
  rcases head?_subject r with other | other
  · rw [first] at other
    exact absurd other (by decide)
  · rw [first] at other
    exact absurd other (by decide)

theorem not_about_providers (name : String) (r : Report) : ¬r.About .providers name := by
  cases r with
  | duplicate a claimants => exact fun about => CatalogSection.noConfusion about.1
  | intent name problem => exact id
  | shadowed endpoint | policy endpoint => exact fun about => CatalogSection.noConfusion about.1

/-! ### The verdict -/

/-- The reports that there is room for, in a log with so many notices: where it fills up, the first
are missed. -/
def Parsed.seen (p : Parsed) (retained : ℕ) (sec : CatalogSection) (name : String) : List Report :=
  (p.reports sec name).drop (retained + (p.reports sec name).length - maxConfigNotices)

/-- The candidate does not load or cannot be built, or a problem about the stanza is reported. -/
def Unfit (file : Fragment → Option Parsed) (candidate : Fragment) (sec : CatalogSection) (name : String) : Prop :=
  ∀ p ∈ file candidate, p.returns sec name = true → ∃ r ∈ p.reports sec name, r.About sec name

/-- A candidate that is loaded is refused if its build raises, or a new notice that the log shows begins with
the text of the stanza. -/
theorem weigh_of_loads {env : Env} {a : Admin} {sec : CatalogSection} {name : String} {candidate : Fragment}
    {new : List Notice} {loaded : Loaded} (loads : env.load candidate = (new, some loaded)) :
    (a.weigh env sec name candidate).2 = none ↔
      ((loaded.build (entriesOf loaded.catalog sec name)).2 = true →
        ∃ n ∈ (new ++ (loaded.build (entriesOf loaded.catalog sec name)).1).drop
            (a.notices.length + (new ++ (loaded.build (entriesOf loaded.catalog sec name)).1).length - maxConfigNotices),
          (sectionName sec ++ "." ++ name).toList.isPrefixOf n.subject.toList = true) := by
  unfold Admin.weigh
  rw [loads]
  dsimp only
  rw [report, ← List.rtake, Window.drop_rtake_append, ite_eq_right_iff]
  simp only [reduceCtorEq, imp_false, not_and, List.filter_eq_nil_iff, not_forall, not_not, exists_prop]

/-- The verdict of `_commit_catalog`: a report that is seen begins with the text of the stanza. -/
theorem weigh_eq_none_iff (env : Env) (file : Fragment → Option Parsed) (a : Admin) (sec : CatalogSection)
    (name : String) (candidate : Fragment) :
    (a.weigh (env.reading file) sec name candidate).2 = none ↔
      ∀ p ∈ file candidate, p.returns sec name = true →
        ∃ r ∈ p.seen a.notices.length sec name, r.Begins sec name := by
  have loads : (env.reading file).load candidate = loadCatalog file candidate := rfl
  cases parsed : file candidate with
  | none =>
      refine iff_of_true ?_ nofun
      rw [Admin.weigh, loads, loadCatalog, parsed]
  | some p =>
      simp only [Option.mem_def, Option.some.injEq, forall_eq']
      cases raises : p.raises with
      | true =>
          refine iff_of_true ?_ fun returns => ?_
          · rw [Admin.weigh, loads, loadCatalog, parsed]
            dsimp only
            rw [raises]
            rfl
          · rw [Parsed.returns, raises] at returns
            cases returns
      | false =>
          rw [loadCatalog, parsed] at loads
          dsimp only at loads
          rw [raises, if_neg Bool.false_ne_true] at loads
          have returns : p.returns sec name = (p.loaded.build (entriesOf p.loaded.catalog sec name)).2 := by
            rw [Parsed.returns, raises, Bool.not_false, Bool.true_and]
          rw [weigh_of_loads loads, build_fst, ← List.map_append, List.length_map, ← List.map_drop, returns]
          refine imp_congr_right fun _ => ⟨?_, ?_⟩
          · rintro ⟨n, mem, begins⟩
            obtain ⟨r, there, rfl⟩ := List.mem_map.mp mem
            exact ⟨r, there, begins⟩
          · rintro ⟨r, there, begins⟩
            exact ⟨r.notice, List.mem_map_of_mem there, begins⟩

/-- With so many notices in the log, the verdict on an endpoint is that of its catalog.

A report of its own stanza is seen; or there is a problem with it, and a namesake is seen; or there is no
problem, and no namesake is seen. -/
def Judged (retained : ℕ) (p : Parsed) (name : String) : Prop :=
  (∃ r ∈ p.seen retained .endpoints name, r.Own name) ∨
    (Problem p.loaded.catalog name ∧ ∃ r ∈ p.seen retained .endpoints name, r.Namesake name) ∨
    (¬Problem p.loaded.catalog name ∧ ∀ r ∈ p.seen retained .endpoints name, ¬r.Namesake name)

theorem seen_subset (p : Parsed) (retained : ℕ) (sec : CatalogSection) (name : String) :
    p.seen retained sec name ⊆ p.reports sec name := List.drop_subset _ _

/-- What is seen decides as the reports do exactly where the verdict is that of the catalog. -/
theorem seen_iff_about_iff {p : Parsed} {name : String} (returns : p.returns .endpoints name = true)
    (retained : ℕ) :
    ((∃ r ∈ p.seen retained .endpoints name, r.Begins .endpoints name) ↔
        ∃ r ∈ p.reports .endpoints name, r.About .endpoints name) ↔
      Judged retained p name := by
  rw [exists_about_iff returns]
  unfold Judged
  by_cases own : ∃ r ∈ p.seen retained .endpoints name, r.Own name
  · obtain ⟨r, mem, of_stanza⟩ := own
    refine iff_of_true (iff_of_true ⟨r, mem, begins_of_own of_stanza⟩ ?_) (.inl ⟨r, mem, of_stanza⟩)
    exact (exists_about_iff returns).mp ⟨r, seen_subset p retained _ name mem, about_of_own of_stanza⟩
  · have namesakes : (∃ r ∈ p.seen retained .endpoints name, r.Begins .endpoints name) ↔
        ∃ r ∈ p.seen retained .endpoints name, r.Namesake name := by
      refine exists_congr fun r => and_congr_right fun mem => ?_
      exact ⟨fun begins => ⟨begins, fun of_stanza => own ⟨r, mem, of_stanza⟩⟩, And.left⟩
    have none : (∀ r ∈ p.seen retained .endpoints name, ¬r.Namesake name) ↔
        ¬∃ r ∈ p.seen retained .endpoints name, r.Namesake name := by
      simp only [not_exists, not_and]
    rw [namesakes, none, or_iff_right own]
    exact iff_comm.trans iff_iff_and_or_not_and_not

/-- A commit is refused where its candidate is not given. -/
theorem commitCatalog_refused_iff (env : Env) (a : Admin) (sec : CatalogSection) (name : String)
    (fields : Option Fields) (replace : Bool) (action : String) :
    (a.commitCatalog env sec name fields replace action).2 = 400 ↔
      (a.weigh env sec name (a.managed.overlay.catalog.candidate sec name fields replace)).2 = none := by
  rcases commitCatalog_cases env a sec name fields replace action with
    ⟨refused, -, code⟩ | ⟨loaded, accepted, ⟨-, code⟩ | ⟨-, -, code⟩⟩
  · exact iff_of_true code refused
  · rw [code, accepted]
    exact iff_of_false (by decide) nofun
  · rw [code, accepted]
    exact iff_of_false (by decide) nofun

/-- In every state of a history, a commit is refused exactly for a candidate that is unfit if and only if it
is one of a provider, or its load or its build raises, or it is judged as its catalog says. -/
theorem commit_refuses_iff (start : Admin) (events : List Event) (env : Env) (file : Fragment → Option Parsed)
    (sec : CatalogSection) (name : String) (fields : Option Fields) (replace : Bool) (action : String) :
    ((((start.history events).commitCatalog (env.reading file) sec name fields replace action).2 = 400 ↔
        Unfit file ((start.history events).managed.overlay.catalog.candidate sec name fields replace) sec name) ↔
      (sec = .endpoints →
        ∀ p ∈ file ((start.history events).managed.overlay.catalog.candidate sec name fields replace),
          p.returns .endpoints name = true → Judged (start.history events).notices.length p name)) := by
  generalize start.history events = a
  rw [commitCatalog_refused_iff, weigh_eq_none_iff, Unfit]
  cases file (a.managed.overlay.catalog.candidate sec name fields replace) with
  | none => exact iff_of_true (iff_of_true nofun nofun) fun _ => nofun
  | some p =>
      simp only [Option.mem_def, Option.some.injEq, forall_eq']
      cases sec with
      | providers =>
          refine iff_of_true (imp_congr_right fun _ => iff_of_false ?_ ?_) nofun
          · rintro ⟨r, -, begins⟩
            exact not_begins_providers name r begins
          · rintro ⟨r, -, about⟩
            exact not_about_providers name r about
      | endpoints =>
          simp only [forall_const]
          cases returns : p.returns .endpoints name with
          | false => exact iff_of_true (iff_of_true nofun nofun) nofun
          | true =>
              simp only [forall_const]
              exact seen_iff_about_iff returns _

/-- Once the log is full, every candidate that loads and can be built is accepted, whatever happens. -/
theorem full_log_accepts {start : Admin} (full : start.notices.length = maxConfigNotices) (events : List Event)
    (env : Env) {file : Fragment → Option Parsed} {sec : CatalogSection} {name : String} {fields : Option Fields}
    {replace : Bool} (action : String) {p : Parsed}
    (parsed : file ((start.history events).managed.overlay.catalog.candidate sec name fields replace) = some p)
    (returns : p.returns sec name = true) :
    ((start.history events).commitCatalog (env.reading file) sec name fields replace action).2 ≠ 400 := by
  intro refused
  rw [commitCatalog_refused_iff, weigh_eq_none_iff] at refused
  obtain ⟨r, mem, -⟩ := refused p parsed returns
  rw [Parsed.seen, retained_of_full full, Nat.add_sub_cancel_left, List.drop_length] at mem
  cases mem

/-- Beside a full log a key that nothing reads is accepted, whatever else is reported. -/
theorem full_log_accepts_mistyped :
    (((⟨{}, none, .replicate maxConfigNotices ⟨"LLM_PROXY_WORKERS", "unparseable"⟩⟩ : Admin).history
        [.notice ⟨"agents.batch", "unknown_key"⟩]).commitCatalog
      (plainEnv.reading fun _ => some
        { loaded :=
            { catalog := .ofEntries
                [{ name := "spill", role := "spill", policy := [("slot_afinity", .bool true)] }] } })
      .endpoints "spill" (some [("notes", .str "spare")]) false "endpoint.update").2 ≠ 400 :=
  full_log_accepts List.length_replicate _ _ _ rfl (by decide +kernel)

/-! ### Verdicts that are not those of the candidate -/

/-- A file with some endpoints. -/
def fileOf (entries : List EndpointEntry) : Fragment → Option Parsed :=
  fun _ => some { loaded := { catalog := Catalog.ofEntries entries } }

/-- A note is put into a stanza of an endpoint. -/
def Admin.noted (a : Admin) (entries : List EndpointEntry) (name : String) : Admin × ℕ :=
  a.commitCatalog (plainEnv.reading (fileOf entries)) .endpoints name (some [("notes", .str "spare")]) false
    "endpoint.update"

/-- An endpoint with a mistyped key in its policy. -/
def mistypedEntry : EndpointEntry := { name := "spill", role := "spill", policy := [("slot_afinity", .bool true)] }

/-- One with the class of another as its alias. -/
def shadowedEntries : List EndpointEntry :=
  [{ name := "chat", role := "chat" }, { name := "chat-2", role := "chat-2", aliases := ["chat"] }]

/-- Two that claim the same alias. -/
def sharingEntries : List EndpointEntry :=
  [{ name := "chat", role := "chat", aliases := ["small"] }, { name := "spill", role := "spill", aliases := ["small"] }]

def emptyAdmin : Admin := ⟨{}, none, []⟩

/-- A history in which the log has filled up. -/
def fullHistory : List Event := .replicate maxConfigNotices (.notice ⟨"LLM_PROXY_WORKERS", "unparseable"⟩)

/-- A mistyped key is accepted beside a full log, a namesake is refused for another's alias, and an alias that is
claimed twice is accepted. -/
theorem verdict_of_log :
    ¬(((emptyAdmin.history fullHistory).noted [mistypedEntry] "spill").2 = 400 ↔
        Unfit (fileOf [mistypedEntry])
          ((emptyAdmin.history fullHistory).managed.overlay.catalog.candidate .endpoints "spill"
            (some [("notes", .str "spare")]) false) .endpoints "spill") ∧
      ¬(((emptyAdmin.history []).noted shadowedEntries "chat").2 = 400 ↔
        Unfit (fileOf shadowedEntries)
          ((emptyAdmin.history []).managed.overlay.catalog.candidate .endpoints "chat"
            (some [("notes", .str "spare")]) false) .endpoints "chat") ∧
      ¬(((emptyAdmin.history []).noted sharingEntries "spill").2 = 400 ↔
        Unfit (fileOf sharingEntries)
          ((emptyAdmin.history []).managed.overlay.catalog.candidate .endpoints "spill"
            (some [("notes", .str "spare")]) false) .endpoints "spill") := by
  refine ⟨fun same => ?_, fun same => ?_, fun same => ?_⟩
  · refine absurd (same.mpr ?_) (by decide +kernel)
    rintro p mem -
    obtain rfl := Option.mem_some_iff.mp mem
    exact ⟨.policy "spill", by decide +kernel, rfl, rfl⟩
  · have refused := same.mp (by decide +kernel)
    obtain ⟨r, mem, about⟩ := refused _ rfl (by decide +kernel)
    have only : ∀ r ∈ (Parsed.mk { catalog := Catalog.ofEntries shadowedEntries } [] false).reports .endpoints "chat",
        r = .shadowed "chat-2" := by decide +kernel
    obtain rfl := only r mem
    exact absurd about.2 (by decide)
  · refine absurd (same.mpr ?_) (by decide +kernel)
    rintro p mem -
    obtain rfl := Option.mem_some_iff.mp mem
    exact ⟨.duplicate "small" ["chat", "spill"], by decide +kernel, rfl, by decide⟩

end Roadstead.Management
