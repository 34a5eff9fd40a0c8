import Roadstead.ModelCatalog

/-!
# Where two builders of the catalog agree

`load_catalog` and `build_role_to_class` write the same names in another order: the first lets the
first claim of an alias stand and writes all classes last, the second lets the last claim stand and
writes a role and a class in turn.  `one_resolution_iff` says for which catalogs the two maps are the
same.

`build_endpoint` builds one entry alone, so no target of it is among what is built.
`hot_build_iff` says for which endpoints that makes no difference to a restart.
-/

namespace Roadstead.ModelCatalog

open Json (Fields)

/-! ### What a name is written with -/

/-- The class that an entry gives to one of its aliases. -/
def claim (name : String) (e : EndpointEntry) : Option String := if name ∈ e.aliases then some e.name else none

/-- The class that it gives to its role. -/
def asRole (name : String) (e : EndpointEntry) : Option String := if name = e.role then some e.name else none

/-- The class that it gives to its class. -/
def asClass (name : String) (e : EndpointEntry) : Option String := if name = e.name then some e.name else none

theorem findSome?_ite {A B : Type*} [DecidableEq A] (a : A) (b : B) (as : List A) :
    (as.findSome? fun a' => if a = a' then some b else none) = if a ∈ as then some b else none := by
  induction as with
  | nil => rfl
  | cons a' as ih =>
      rw [List.findSome?_cons, ih]
      by_cases here : a = a' <;> simp [here]

theorem get?_claimFirst (names : Dict String String) (e : EndpointEntry) (name : String) :
    (e.aliases.foldl (fun names a => names.setDefault a e.name) names).get? name =
      (names.get? name).or (claim name e) := by
  rw [Dict.get?_foldl_first (fun d a => Dict.get?_setDefault d a name e.name), findSome?_ite, claim]

theorem get?_claimLast (names : Dict String String) (e : EndpointEntry) (name : String) :
    (e.aliases.foldl (fun names a => names.set a e.name) names).get? name =
      (claim name e).or (names.get? name) := by
  have writes : ∀ (d : Dict String String) (a : String),
      (d.set a e.name).get? name = (if name = a then some e.name else none).or (d.get? name) := by
    intro d a
    rw [Dict.get?_set]
    by_cases here : name = a <;> simp [here]
  rw [Dict.get?_foldl_last writes, findSome?_ite, claim]
  simp only [List.mem_reverse]

theorem get?_set_name (names : Dict String String) (key value name : String) :
    (names.set key value).get? name = (if name = key then some value else none).or (names.get? name) := by
  rw [Dict.get?_set]
  by_cases here : name = key <;> simp [here]

theorem get?_byName (cat : Catalog) (name : String) :
    cat.byName.get? name = (cat.entries.reverse.findSome? (asClass name)).or
      ((cat.entries.reverse.findSome? (asRole name)).or (cat.entries.findSome? (claim name))) := by
  rw [Catalog.byName, Dict.get?_foldl_last (fun d e => get?_set_name d e.name e.name name),
    Dict.get?_foldl_last (fun d e => get?_set_name d e.role e.name name),
    Dict.get?_foldl_first (fun d e => get?_claimFirst d e name)]
  rfl

theorem get?_buildRoleToClass (cat : Catalog) (name : String) :
    cat.buildRoleToClass.get? name =
      (cat.entries.reverse.findSome? fun e => (asClass name e).or (asRole name e)).or
        (cat.entries.reverse.findSome? (claim name)) := by
  have writes : ∀ (d : Dict String String) (e : EndpointEntry),
      ((d.set e.role e.name).set e.name e.name).get? name =
        ((asClass name e).or (asRole name e)).or (d.get? name) := by
    intro d e
    rw [get?_set_name, get?_set_name, Option.or_assoc]
    rfl
  rw [Catalog.buildRoleToClass, Dict.get?_foldl_last writes,
    Dict.get?_foldl_last (fun d e => get?_claimLast d e name)]
  simp

/-! ### Classes, roles and aliases -/

theorem map_name_entries (cat : Catalog) : cat.entries.map EndpointEntry.name = cat.endpoints.keys := by
  rw [Catalog.entries, Dict.values, Dict.keys, List.map_map]
  exact List.map_congr_left cat.named

theorem nodup_names (cat : Catalog) : (cat.entries.map EndpointEntry.name).Nodup := by
  rw [map_name_entries]
  exact cat.endpoints.nodup_keys

theorem eq_of_name {cat : Catalog} {e e' : EndpointEntry} (mem : e ∈ cat.entries) (mem' : e' ∈ cat.entries)
    (same : e.name = e'.name) : e = e' :=
  List.inj_on_of_nodup_map (nodup_names cat) mem mem' same

theorem findSome?_asClass (es : List EndpointEntry) (name : String) :
    es.findSome? (asClass name) = if name ∈ es.map EndpointEntry.name then some name else none := by
  induction es with
  | nil => rfl
  | cons e es ih =>
      rw [List.findSome?_cons, ih, asClass]
      by_cases here : name = e.name <;> simp [here]

/-- The first and the last of a list without repetitions are the same only if there is no other. -/
theorem head?_eq_getLast?_iff {A : Type*} {as : List A} (nodup : as.Nodup) :
    as.head? = as.getLast? ↔ ∀ a ∈ as, ∀ a' ∈ as, a = a' := by
  cases as with
  | nil => simp
  | cons a as =>
      rw [List.head?_cons]
      constructor
      · intro same
        cases as with
        | nil =>
            intro b mem b' mem'
            rw [List.mem_singleton.mp mem, List.mem_singleton.mp mem']
        | cons b as =>
            have last : a ∈ b :: as := by
              rw [List.getLast?_cons_cons] at same
              exact List.mem_of_getLast? same.symm
            exact absurd last (List.nodup_cons.mp nodup).1
      · intro same
        rw [List.getLast?_eq_some_getLast (List.cons_ne_nil a as)]
        exact congrArg some (same a List.mem_cons_self _ (List.getLast_mem _))

theorem filterMap_claim (es : List EndpointEntry) (name : String) :
    es.filterMap (claim name) =
      (es.filter fun e => decide (name ∈ e.aliases)).map EndpointEntry.name := by
  induction es with
  | nil => rfl
  | cons e es ih =>
      rw [List.filterMap_cons, List.filter_cons, ih, claim]
      by_cases here : name ∈ e.aliases <;> simp [here]

/-- The first claim of an alias is the last one if there is no other. -/
theorem claims_agree_iff (cat : Catalog) (name : String) :
    cat.entries.findSome? (claim name) = cat.entries.reverse.findSome? (claim name) ↔
      ∀ e ∈ cat.entries, ∀ e' ∈ cat.entries, name ∈ e.aliases → name ∈ e'.aliases → e = e' := by
  have nodup : (cat.entries.filterMap (claim name)).Nodup := by
    rw [filterMap_claim]
    exact (nodup_names cat).sublist (List.filter_sublist.map _)
  rw [← List.head?_filterMap, ← List.getLast?_filterMap, head?_eq_getLast?_iff nodup, filterMap_claim]
  constructor
  · intro one e mem e' mem' claims claims'
    refine eq_of_name mem mem' (one _ ?_ _ ?_)
    · exact List.mem_map_of_mem (List.mem_filter.mpr ⟨mem, decide_eq_true claims⟩)
    · exact List.mem_map_of_mem (List.mem_filter.mpr ⟨mem', decide_eq_true claims'⟩)
  · intro one a mem a' mem'
    obtain ⟨e, there, rfl⟩ := List.mem_map.mp mem
    obtain ⟨e', there', rfl⟩ := List.mem_map.mp mem'
    obtain ⟨mem, claims⟩ := List.mem_filter.mp there
    obtain ⟨mem', claims'⟩ := List.mem_filter.mp there'
    rw [one e mem e' mem' (of_decide_eq_true claims) (of_decide_eq_true claims')]

/-- The last class or role of a name. -/
def lastWritten (es : List EndpointEntry) (name : String) : Option String :=
  es.reverse.findSome? fun e => (asClass name e).or (asRole name e)

theorem lastWritten_cons (e : EndpointEntry) (es : List EndpointEntry) (name : String) :
    lastWritten (e :: es) name = (lastWritten es name).or ((asClass name e).or (asRole name e)) := by
  rw [lastWritten, List.reverse_cons, List.findSome?_append, lastWritten, List.findSome?_cons]
  cases written : (asClass name e).or (asRole name e) <;> simp

theorem lastWritten_eq_none_iff {es : List EndpointEntry} {name : String} :
    lastWritten es name = none ↔ ∀ e ∈ es, name ≠ e.name ∧ name ≠ e.role := by
  simp [lastWritten, asClass, asRole]

theorem mem_of_lastWritten {es : List EndpointEntry} {name cls : String}
    (written : lastWritten es name = some cls) : cls ∈ es.map EndpointEntry.name := by
  obtain ⟨e, mem, gives⟩ := List.exists_of_findSome?_eq_some written
  refine List.mem_map.mpr ⟨e, List.mem_reverse.mp mem, ?_⟩
  rcases Option.or_eq_some_iff.mp gives with cls_eq | ⟨-, role_eq⟩
  · exact Option.some.inj (Option.ite_none_right_eq_some.mp cls_eq).2
  · exact Option.some.inj (Option.ite_none_right_eq_some.mp role_eq).2

/-- Every class is written last with itself if no later entry has it as its role. -/
theorem classes_last_iff {es : List EndpointEntry} (nodup : (es.map EndpointEntry.name).Nodup) :
    (∀ e ∈ es, lastWritten es e.name = some e.name) ↔ es.Pairwise fun e later => later.role ≠ e.name := by
  induction es with
  | nil => simp
  | cons e es ih =>
      obtain ⟨fresh, nodup⟩ := List.nodup_cons.mp nodup
      rw [List.forall_mem_cons, List.pairwise_cons, ← ih nodup]
      have own : lastWritten (e :: es) e.name = some e.name ↔ ∀ later ∈ es, later.role ≠ e.name := by
        rw [lastWritten_cons]
        cases written : lastWritten es e.name with
        | none =>
            have unwritten := lastWritten_eq_none_iff.mp written
            simp only [Option.none_or, asClass, if_true, Option.some_or, true_iff]
            exact fun later mem => (unwritten later mem).2.symm
        | some cls =>
            have other : cls ≠ e.name := fun same => fresh (same ▸ mem_of_lastWritten written)
            simp only [Option.some_or, Option.some.injEq, other, false_iff]
            intro none_later
            have unwritten : lastWritten es e.name = none :=
              lastWritten_eq_none_iff.mpr fun later mem =>
                ⟨fun same => fresh (same ▸ List.mem_map_of_mem mem), (none_later later mem).symm⟩
            rw [unwritten] at written
            cases written
      refine and_congr own (forall₂_congr fun e' mem => ?_)
      rw [lastWritten_cons]
      cases written : lastWritten es e'.name with
      | none => exact absurd rfl (lastWritten_eq_none_iff.mp written e' mem).1
      | some cls => rw [Option.some_or]

/-! ### The two maps of names -/

/-- No entry has the class of an earlier one as its role, and no two claim a name that is neither a
class nor a role. -/
structure Unambiguous (cat : Catalog) : Prop where
  roles : cat.entries.Pairwise fun e later => later.role ≠ e.name
  aliases : ∀ name, (∀ e ∈ cat.entries, name ≠ e.name ∧ name ≠ e.role) →
    ∀ e ∈ cat.entries, ∀ e' ∈ cat.entries, name ∈ e.aliases → name ∈ e'.aliases → e = e'

theorem byName_class {cat : Catalog} {e : EndpointEntry} (mem : e ∈ cat.entries) :
    cat.byName.get? e.name = some e.name := by
  have listed : e.name ∈ cat.entries.reverse.map EndpointEntry.name :=
    List.mem_map_of_mem (List.mem_reverse.mpr mem)
  rw [get?_byName, findSome?_asClass, if_pos listed, Option.some_or]

/-- A name resolves to the class of an entry. -/
theorem mem_entries_of_byName {cat : Catalog} {name cls : String} (found : cat.byName.get? name = some cls) :
    ∃ e ∈ cat.entries, e.name = cls := by
  rw [get?_byName] at found
  rcases Option.or_eq_some_iff.mp found with asClass_eq | ⟨-, later⟩
  · obtain ⟨e, mem, gives⟩ := List.exists_of_findSome?_eq_some asClass_eq
    exact ⟨e, List.mem_reverse.mp mem, Option.some.inj (Option.ite_none_right_eq_some.mp gives).2⟩
  rcases Option.or_eq_some_iff.mp later with asRole_eq | ⟨-, claim_eq⟩
  · obtain ⟨e, mem, gives⟩ := List.exists_of_findSome?_eq_some asRole_eq
    exact ⟨e, List.mem_reverse.mp mem, Option.some.inj (Option.ite_none_right_eq_some.mp gives).2⟩
  · obtain ⟨e, mem, gives⟩ := List.exists_of_findSome?_eq_some claim_eq
    exact ⟨e, mem, Option.some.inj (Option.ite_none_right_eq_some.mp gives).2⟩

/-- Roles and classes are written last with the same class if no class is overwritten. -/
theorem lastWritten_eq {cat : Catalog}
    (kept : ∀ e ∈ cat.entries, lastWritten cat.entries e.name = some e.name) (name : String) :
    lastWritten cat.entries name =
      (cat.entries.reverse.findSome? (asClass name)).or (cat.entries.reverse.findSome? (asRole name)) := by
  rw [findSome?_asClass]
  by_cases isClass : name ∈ cat.entries.reverse.map EndpointEntry.name
  · obtain ⟨e, mem, rfl⟩ := List.mem_map.mp isClass
    rw [if_pos isClass, Option.some_or, kept e (List.mem_reverse.mp mem)]
  · rw [if_neg isClass, Option.none_or, lastWritten]
    have noClass : ∀ e ∈ cat.entries.reverse, (asClass name e).or (asRole name e) = asRole name e := by
      intro e mem
      have other : name ≠ e.name := fun same => isClass (same ▸ List.mem_map_of_mem mem)
      rw [asClass, if_neg other, Option.none_or]
    rw [← List.head?_filterMap, ← List.head?_filterMap, List.filterMap_congr noClass]

theorem get?_roleToClass (cat : Catalog) (name : String) :
    cat.buildRoleToClass.get? name =
      (lastWritten cat.entries name).or (cat.entries.reverse.findSome? (claim name)) :=
  get?_buildRoleToClass cat name

/-- **One resolution.**  Both maps resolve every name to the same class, every class to itself, and a
class that they resolve to no further, if and only if the catalog is unambiguous. -/
theorem one_resolution_iff (cat : Catalog) :
    ((∀ name, cat.buildRoleToClass.get? name = cat.byName.get? name) ∧
      (∀ e ∈ cat.entries, cat.buildRoleToClass.get? e.name = some e.name ∧
        cat.byName.get? e.name = some e.name) ∧
      ∀ name cls, (cat.buildRoleToClass.get? name = some cls → cat.buildRoleToClass.get? cls = some cls) ∧
        (cat.byName.get? name = some cls → cat.byName.get? cls = some cls)) ↔ Unambiguous cat := by
  constructor
  · rintro ⟨same, classes, -⟩
    have kept : ∀ e ∈ cat.entries, lastWritten cat.entries e.name = some e.name := by
      intro e mem
      have written := (classes e mem).1
      rw [get?_roleToClass] at written
      cases last : lastWritten cat.entries e.name with
      | none => exact absurd rfl (lastWritten_eq_none_iff.mp last e mem).1
      | some cls => rwa [last, Option.some_or] at written
    refine ⟨(classes_last_iff (nodup_names cat)).mp kept, fun name free => ?_⟩
    have claims := same name
    rw [get?_roleToClass, get?_byName, ← Option.or_assoc, ← lastWritten_eq kept,
      lastWritten_eq_none_iff.mpr free, Option.none_or, Option.none_or] at claims
    exact (claims_agree_iff cat name).mp claims.symm
  · intro unambiguous
    have kept := (classes_last_iff (nodup_names cat)).mpr unambiguous.roles
    have same : ∀ name, cat.buildRoleToClass.get? name = cat.byName.get? name := by
      intro name
      rw [get?_roleToClass, get?_byName, ← Option.or_assoc, ← lastWritten_eq kept]
      cases last : lastWritten cat.entries name with
      | some cls => rw [Option.some_or, Option.some_or]
      | none =>
          rw [Option.none_or, Option.none_or]
          exact ((claims_agree_iff cat name).mpr
            (unambiguous.aliases name (lastWritten_eq_none_iff.mp last))).symm
    have again : ∀ name cls, cat.byName.get? name = some cls → cat.byName.get? cls = some cls := by
      intro name cls found
      obtain ⟨e, mem, rfl⟩ := mem_entries_of_byName found
      exact byName_class mem
    refine ⟨same, fun e mem => ⟨(same _).trans (byName_class mem), byName_class mem⟩, fun name cls => ⟨?_, ?_⟩⟩
    · intro found
      rw [same] at found ⊢
      exact again name cls found
    · exact again name cls

/-- Two claims of one alias, and a class that is the role of a later entry. -/
theorem one_resolution_fails :
    ((Catalog.ofEntries [{ name := "chat", role := "chat", aliases := ["fast"] },
          { name := "draft", role := "draft", aliases := ["fast"] }]).byName.get? "fast" = some "chat" ∧
        (Catalog.ofEntries [{ name := "chat", role := "chat", aliases := ["fast"] },
          { name := "draft", role := "draft", aliases := ["fast"] }]).buildRoleToClass.get? "fast" =
          some "draft") ∧
      (Catalog.ofEntries [{ name := "chat", role := "chat" },
          { name := "draft", role := "chat" }]).byName.get? "chat" = some "chat" ∧
      (Catalog.ofEntries [{ name := "chat", role := "chat" },
          { name := "draft", role := "chat" }]).buildRoleToClass.get? "chat" = some "draft" := by
  decide

/-! ### A hot build and a restart -/

/-- The target of an entry is one to write: it is another entry, and is built. -/
def armed (built : String → Bool) (target : EndpointEntry → String) (e : EndpointEntry) : Prop :=
  target e ≠ "" ∧ target e ≠ e.name ∧ built (target e) = true

instance (built : String → Bool) (target : EndpointEntry → String) (e : EndpointEntry) :
    Decidable (armed built target e) := inferInstanceAs (Decidable (_ ∧ _ ∧ _))

/-- The arguments of an entry after its target is written. -/
def withTarget (key : String) (built : String → Bool) (target : EndpointEntry → String) (e : EndpointEntry)
    (kw : Dict String Value) : Dict String Value :=
  if armed built target e then kw.set key (.raw (.str (target e))) else kw

section Loops

variable {key : String} {target : EndpointEntry → String} {out : Dict String (Dict String Value)}

theorem armTarget_get? (e : EndpointEntry) (name : String) :
    (armTarget key target out e).get? name =
      (out.get? name).map fun kw => if name = e.name then withTarget key out.contains target e kw else kw := by
  have unchanged : ¬armed out.contains target e → (out.get? name).map (fun kw =>
      if name = e.name then withTarget key out.contains target e kw else kw) = out.get? name := by
    intro other
    simp only [withTarget, if_neg other, ite_self, Option.map_id']
  unfold armTarget
  by_cases skipped : target e = "" ∨ out.contains e.name = false ∨ target e = e.name
  · rw [if_pos skipped]
    rcases skipped with none_there | unbuilt | own
    · exact (unchanged fun arms => arms.1 none_there).symm
    · by_cases same : name = e.name
      · have absent : out.get? name = none := by
          rw [same, Dict.get?_eq_none_iff, ← Dict.contains_iff, unbuilt]
          exact Bool.false_ne_true
        rw [absent, Option.map_none]
      · simp only [if_neg same, Option.map_id']
    · exact (unchanged fun arms => arms.2.1 own).symm
  · rw [if_neg skipped]
    simp only [not_or] at skipped
    by_cases built : out.contains (target e) = true
    · rw [if_pos built, Dict.get?_modify]
      have arms : armed out.contains target e := ⟨skipped.1, skipped.2.2, built⟩
      by_cases same : name = e.name
      · simp only [same, if_true, withTarget, if_pos arms]
      · simp only [if_neg same, Option.map_id']
    · rw [if_neg built]
      exact (unchanged fun arms => built arms.2.2).symm

theorem armTarget_contains (e : EndpointEntry) : (armTarget key target out e).contains = out.contains := by
  funext name
  rw [Bool.eq_iff_iff, Dict.contains_iff, Dict.contains_iff, Dict.mem_keys_iff, Dict.mem_keys_iff]
  rw [armTarget_get?]
  cases out.get? name <;> simp

/-- A loop over entries writes the target of each of them. -/
theorem armTargets_get? {es : List EndpointEntry} (nodup : (es.map EndpointEntry.name).Nodup)
    {e : EndpointEntry} (mem : e ∈ es) (out : Dict String (Dict String Value)) :
    (es.foldl (armTarget key target) out).get? e.name =
      (out.get? e.name).map (withTarget key out.contains target e) := by
  induction es generalizing out with
  | nil => cases mem
  | cons first es ih =>
      obtain ⟨fresh, nodup⟩ := List.nodup_cons.mp nodup
      rw [List.foldl_cons]
      rcases List.mem_cons.mp mem with rfl | later
      · have rest : ∀ out : Dict String (Dict String Value),
            (es.foldl (armTarget key target) out).get? e.name = out.get? e.name := by
          intro out
          refine List.foldlRecOn es (armTarget key target) (motive := fun out' => out'.get? e.name = out.get? e.name)
            rfl fun out' same e' mem' => ?_
          have other : e.name ≠ e'.name := fun same => fresh (same ▸ List.mem_map_of_mem mem')
          rw [armTarget_get?]
          simp only [if_neg other, Option.map_id']
          exact same
        rw [rest, armTarget_get?]
        simp only [if_true]
      · have other : e.name ≠ first.name := fun same => fresh (same ▸ List.mem_map_of_mem later)
        rw [ih nodup later, armTarget_contains, armTarget_get?]
        simp only [if_neg other, Option.map_id']

theorem armTargets_contains (es : List EndpointEntry) (out : Dict String (Dict String Value)) :
    (es.foldl (armTarget key target) out).contains = out.contains :=
  List.foldlRecOn es (armTarget key target) (motive := fun out' => out'.contains = out.contains)
    rfl fun _ same e _ => (armTarget_contains e).trans same

end Loops

/-- The first loop builds every entry of its list, and nothing else. -/
theorem firstLoop (cat : Catalog) {entries : List EndpointEntry}
    (nodup : (entries.map EndpointEntry.name).Nodup) :
    (∀ e ∈ entries, (entries.foldl (fun (out : Dict String _) e => out.set e.name (entryKwargs cat e)) ∅).get? e.name =
        some (entryKwargs cat e)) ∧
      (entries.foldl (fun (out : Dict String _) e => out.set e.name (entryKwargs cat e)) ∅).contains =
        fun name => decide (name ∈ entries.map EndpointEntry.name) := by
  have written : entries.foldl (fun (out : Dict String _) e => out.set e.name (entryKwargs cat e)) ∅ =
      Dict.setAll ∅ (entries.map fun e => (e.name, entryKwargs cat e)) := by
    rw [Dict.setAll, List.foldl_map]
  have names : (entries.map fun e => (e.name, entryKwargs cat e)).map Prod.fst =
      entries.map EndpointEntry.name := by
    rw [List.map_map]
    rfl
  rw [written]
  constructor
  · intro e mem
    refine Dict.get?_setAll_of_mem (List.mem_map_of_mem mem) fun entry there same => ?_
    obtain ⟨e', mem', rfl⟩ := List.mem_map.mp there
    rw [List.inj_on_of_nodup_map nodup mem' mem same]
  · funext name
    rw [Bool.eq_iff_iff, Dict.contains_iff, decide_eq_true_iff, Dict.keys_setAll, names]
    · simp
    · rw [names]
      simpa using nodup

/-- What `build_endpoint_kwargs` has for an entry that it builds. -/
theorem get?_buildEndpointKwargs (cat : Catalog) {entries : List EndpointEntry}
    (nodup : (entries.map EndpointEntry.name).Nodup) {e : EndpointEntry} (mem : e ∈ entries)
    (routed : e ∈ cat.routed) :
    (buildEndpointKwargs cat (some entries)).get? e.name =
      some (withTarget "spill_to" (fun name => decide (name ∈ entries.map EndpointEntry.name))
        EndpointEntry.spillTo e
        (withTarget "failover_to" (fun name => decide (name ∈ entries.map EndpointEntry.name))
          EndpointEntry.failoverTo e (entryKwargs cat e))) := by
  have routed_nodup : (cat.routed.map EndpointEntry.name).Nodup :=
    (nodup_names cat).sublist (List.filter_sublist.map _)
  obtain ⟨built, contains⟩ := firstLoop cat nodup
  rw [buildEndpointKwargs, armTargets_get? routed_nodup routed, armTargets_get? routed_nodup routed,
    armTargets_contains, Option.getD_some, built e mem, contains]
  rfl

/-! ### The arguments of one entry -/

section Unwritten

variable {key : String} {kw : Dict String Value}

theorem get?_connection (other : key ∉ ["base_url", "host", "port", "api_key_env", "backend_engine"])
    (cat : Catalog) (p : ProviderEntry) : (connection cat p kw).get? key = kw.get? key := by
  simp only [List.mem_cons, not_or] at other
  obtain ⟨url, host, port, env, engine, -⟩ := other
  unfold connection
  split <;> split <;> split <;> simp only [Dict.get?_set_of_ne, ne_eq, not_false_eq_true, *]

theorem get?_capabilityKwargs (other : key ∉ ["kind", "capabilities", "forces_reasoning", "vision"])
    (e : EndpointEntry) (engine : Engine) : (capabilityKwargs e engine kw).get? key = kw.get? key := by
  simp only [List.mem_cons, not_or] at other
  obtain ⟨kind, capabilities, forces, vision, -⟩ := other
  unfold capabilityKwargs
  split <;> split <;> simp only [Dict.get?_set_of_ne, ne_eq, not_false_eq_true, *]

theorem get?_passThrough (pol : Fields) {keys : List String} (other : key ∉ keys) :
    (keys.foldl (passThrough pol) kw).get? key = kw.get? key := by
  induction keys generalizing kw with
  | nil => rfl
  | cons src keys ih =>
      obtain ⟨here, later⟩ := List.ne_and_not_mem_of_not_mem_cons other
      rw [List.foldl_cons, ih later, passThrough]
      split
      · exact Dict.get?_set_of_ne _ here _
      · rfl

theorem get?_policyKwargs (pol : Fields) (copied : key ∉ policyPassthrough)
    (other : key ∉ ["model_fingerprint", "thinking_kwargs", "no_thinking_switch",
      "prefix_keepalive_call_sites"]) : (policyKwargs pol kw).get? key = kw.get? key := by
  simp only [List.mem_cons, not_or] at other
  obtain ⟨fp, tk, switch, pk, -⟩ := other
  have fingerprint : ∀ kw, (fingerprintKwarg pol kw).get? key = kw.get? key := by
    intro kw
    unfold fingerprintKwarg
    split
    · split <;> simp only [Dict.get?_set_of_ne, ne_eq, not_false_eq_true, *]
    · rfl
  have thinking : ∀ kw, (thinkingKwarg pol kw).get? key = kw.get? key := by
    intro kw
    unfold thinkingKwarg
    split
    · simp only
      split <;> simp only [Dict.get?_set_of_ne, ne_eq, not_false_eq_true, *]
    · split <;> simp only [Dict.get?_set_of_ne, ne_eq, not_false_eq_true, *]
    · rfl
  have keepalive : ∀ kw, (keepaliveKwarg pol kw).get? key = kw.get? key := by
    intro kw
    unfold keepaliveKwarg
    split
    · exact Dict.get?_set_of_ne _ pk _
    · split <;> simp only [Dict.get?_set_of_ne, ne_eq, not_false_eq_true, *]
    · rfl
  rw [policyKwargs, keepalive, thinking, fingerprint, get?_passThrough pol copied]

/-- The builder of one entry writes no target. -/
theorem get?_entryKwargs (cat : Catalog) (e : EndpointEntry) (target : key ∈ ["failover_to", "spill_to"]) :
    (entryKwargs cat e).get? key = none := by
  have copied : ∀ key ∈ ["failover_to", "spill_to"], key ∉ policyPassthrough := by decide
  have others : ∀ key ∈ ["failover_to", "spill_to"],
      key ∉ ["model_fingerprint", "thinking_kwargs", "no_thinking_switch", "prefix_keepalive_call_sites"] ∧
        key ∉ ["kind", "capabilities", "forces_reasoning", "vision"] ∧
        key ∉ ["base_url", "host", "port", "api_key_env", "backend_engine"] ∧
        key ∉ ["endpoint_class", "role", "max_slots", "context_per_slot", "served_model_id", "on_demand"] := by
    decide
  obtain ⟨policy, capability, connected, own⟩ := others key target
  simp only [List.mem_cons, not_or] at own
  obtain ⟨cls, role, slots, context, served, demand, -⟩ := own
  simp only [entryKwargs]
  rw [get?_policyKwargs _ (copied key target) policy, get?_capabilityKwargs capability]
  split <;> split <;>
    simp only [Dict.get?_set_of_ne, get?_connection connected, ne_eq, not_false_eq_true, *] <;> rfl

end Unwritten

/-! ### What a target changes -/

/-- A target that the builder of the whole table does not write: nothing, the entry itself, or no
routed endpoint. -/
def Unarmed (cat : Catalog) (e : EndpointEntry) (target : String) : Prop :=
  target = "" ∨ target = e.name ∨ ∀ t ∈ cat.routed, t.name ≠ target

theorem unarmed_iff {cat : Catalog} {e : EndpointEntry} {target : EndpointEntry → String} :
    Unarmed cat e (target e) ↔
      ¬armed (fun name => decide (name ∈ cat.routed.map EndpointEntry.name)) target e := by
  have listed : (∀ t ∈ cat.routed, t.name ≠ target e) ↔
      ¬decide (target e ∈ cat.routed.map EndpointEntry.name) = true := by
    rw [decide_eq_true_iff, List.mem_map]
    exact ⟨fun no ⟨t, mem, same⟩ => no t mem same, fun no t mem same => no ⟨t, mem, same⟩⟩
  rw [Unarmed, listed, armed, not_and_or, not_and_or, not_not, not_not]

theorem withTarget_of_not {key : String} {built : String → Bool} {target : EndpointEntry → String}
    {e : EndpointEntry} (other : ¬armed built target e) (kw : Dict String Value) :
    withTarget key built target e kw = kw := if_neg other

/-- A target that is written is not the default. -/
theorem field_withTarget {key : String} {built : String → Bool} {target : EndpointEntry → String}
    {e : EndpointEntry} (arms : armed built target e) (kw : Dict String Value) :
    endpointConfig (withTarget key built target e kw) key ≠ some (.raw (.str "")) := by
  rw [endpointConfig, withTarget, if_pos arms, Dict.get?_set_self, Option.some_or]
  intro same
  simp only [Option.some.injEq, Value.raw.injEq, Json.str.injEq] at same
  exact arms.1 same

theorem field_withTarget_of_ne {key field : String} (other : field ≠ key) (built : String → Bool)
    (target : EndpointEntry → String) (e : EndpointEntry) (kw : Dict String Value) :
    endpointConfig (withTarget key built target e kw) field = endpointConfig kw field := by
  unfold withTarget
  split
  · rw [endpointConfig, Dict.get?_set_of_ne _ other, endpointConfig]
  · rfl

theorem get?_of_mem_entries {cat : Catalog} {e : EndpointEntry} (mem : e ∈ cat.entries) :
    cat.endpoints.get? e.name = some e := by
  obtain ⟨entry, there, rfl⟩ := List.mem_map.mp mem
  rw [cat.named entry there]
  exact Dict.mem_entries_iff.mp there

/-- Built alone, an entry has no target. -/
theorem buildEndpoint_routed {cat : Catalog} {e : EndpointEntry} (routed : e ∈ cat.routed) :
    buildEndpoint e.name cat = some (endpointConfig (entryKwargs cat e)) := by
  have alone : ∀ target : EndpointEntry → String,
      ¬armed (fun name => decide (name ∈ [e].map EndpointEntry.name)) target e := by
    rintro target ⟨-, other, listed⟩
    exact other (List.mem_singleton.mp (of_decide_eq_true listed))
  have mem : e ∈ cat.entries := List.mem_of_mem_filter routed
  simp only [buildEndpoint, get?_of_mem_entries mem]
  have nodup : ([e].map EndpointEntry.name).Nodup := List.nodup_singleton e.name
  rw [get?_buildEndpointKwargs cat nodup (List.mem_singleton.mpr rfl) routed,
    withTarget_of_not (alone _), withTarget_of_not (alone _), Option.map_some]

/-- **A hot build.**  An endpoint that the catalog routes is built at runtime as a restart builds it, in
every field, if and only if a restart writes neither its failover target nor its spill target. -/
theorem hot_build_iff (cat : Catalog) (e : EndpointEntry) (routed : e ∈ cat.routed) :
    ∃ hot kw, buildEndpoint e.name cat = some hot ∧
      (buildEndpointKwargs cat none).get? e.name = some kw ∧
      ((∀ field, hot field = endpointConfig kw field) ↔
        Unarmed cat e e.failoverTo ∧ Unarmed cat e e.spillTo) := by
  have nodup : (cat.routed.map EndpointEntry.name).Nodup :=
    (nodup_names cat).sublist (List.filter_sublist.map _)
  refine ⟨_, _, buildEndpoint_routed routed, get?_buildEndpointKwargs cat nodup routed routed, ?_⟩
  rw [@unarmed_iff cat e EndpointEntry.failoverTo, @unarmed_iff cat e EndpointEntry.spillTo]
  set built : String → Bool := fun name => decide (name ∈ cat.routed.map EndpointEntry.name)
  constructor
  · intro same
    have unwritten : ∀ key ∈ ["failover_to", "spill_to"],
        endpointConfig (entryKwargs cat e) key = some (.raw (.str "")) := by
      intro key target
      rw [endpointConfig, get?_entryKwargs cat e target, Option.none_or]
      revert key
      decide
    refine ⟨fun arms => ?_, fun arms => ?_⟩
    · have failover := same "failover_to"
      rw [unwritten _ (by decide), field_withTarget_of_ne (by decide)] at failover
      exact field_withTarget arms _ failover.symm
    · have spill := same "spill_to"
      rw [unwritten _ (by decide)] at spill
      exact field_withTarget arms _ spill.symm
  · rintro ⟨failover, spill⟩ field
    rw [withTarget_of_not failover, withTarget_of_not spill]

/-- An endpoint that fails over to another one, as it is edited at runtime. -/
def failingOver : Catalog :=
  .ofEntries [{ name := "chat", role := "chat", failoverTo := "draft" }, { name := "draft", role := "draft" }]

theorem hot_build_disarms :
    (buildEndpoint "chat" failingOver).bind (fun config => config "failover_to") = some (.raw (.str "")) ∧
      ((buildEndpointKwargs failingOver none).get? "chat").bind (fun kw => endpointConfig kw "failover_to") =
        some (.raw (.str "draft")) := by
  decide +kernel

theorem hot_build_iff_draft :
    ∃ hot kw, buildEndpoint "draft" failingOver = some hot ∧
      (buildEndpointKwargs failingOver none).get? "draft" = some kw ∧
      ((∀ field, hot field = endpointConfig kw field) ↔
        Unarmed failingOver { name := "draft", role := "draft" } "" ∧
          Unarmed failingOver { name := "draft", role := "draft" } "") :=
  hot_build_iff failingOver { name := "draft", role := "draft" }
    (List.mem_filter.mpr ⟨List.mem_cons_of_mem _ List.mem_cons_self, rfl⟩)

end Roadstead.ModelCatalog
