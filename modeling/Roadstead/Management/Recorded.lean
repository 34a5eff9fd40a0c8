import Mathlib.Data.Bool.AllAny
import Roadstead.Management.Facts

/-!
# The overlay records the registry

`Recorded` relates the registry of a running process to its overlay and the declared keys: a record for
each key that is not declared, and for each declared key what the tombstones and retirements leave of
it.  It is all that `apply` needs (`fact_apply`), and a registration, a retirement and a revocation keep it where
they do not name two keys at once.
-/

namespace Roadstead.Management

open Roadstead.Identity

/-! ### The overlay records the registry -/

/-- What the overlay leaves of a declared key. -/
def expected (o : KeyOverlay) (g : Fact) : Option Fact :=
  (some (retiredAt o.retired.entries g)).filter fun f => decide (∀ id ∈ o.revoked, ¬f.Labelled id)

/-- A registry is what its overlay and the declared keys say. -/
structure Recorded (h : Helpers) (declared : KeyRegistry) (p : KeyPlane) : Prop where
  records : ∀ r ∈ p.overlay.keys, ∃ d, r.Usable h d ∧ fact declared d = none ∧ fact p.registry d = r.fact?
  distinct : p.overlay.keys.Pairwise fun r r' => r.spec.digest h ≠ r'.spec.digest h
  known : ∀ d, (∀ r ∈ p.overlay.keys, r.spec.digest h ≠ some d) →
    fact p.registry d = (fact declared d).bind (expected p.overlay)
  alone : ∀ id, id ∈ p.overlay.revoked ∨ id ∈ p.overlay.retired.keys →
    Alone declared id ∧ ∀ r ∈ p.overlay.keys, r.id ≠ id

theorem KeyRecord.fact?_eq {h : Helpers} {r : KeyRecord} {d : String} (usable : r.Usable h d) :
    ∃ f, r.fact? = some f ∧ f.Labelled r.id :=
  ⟨_, dif_pos usable.separate, rfl⟩

theorem Fact.Labelled.unique {f : Fact} {id id' : String} (label : f.Labelled id) (label' : f.Labelled id') : id = id' :=
  Option.some.inj (label.symm.trans label')

/-- What `apply` leaves of a digest: that which the registry has. -/
theorem fact_apply {h : Helpers} {declared again : KeyRegistry} {p : KeyPlane} (recorded : Recorded h declared p)
    (same : ∀ d, fact again d = fact declared d) (now : ℚ) (d : String) :
    fact (p.overlay.apply h now again) d = fact p.registry d := by
  have usable : ∀ r ∈ p.overlay.keys, ∃ d, r.Usable h d ∧ fact again d = none := by
    intro r mem
    obtain ⟨d, usable, undeclared, -⟩ := recorded.records r mem
    exact ⟨d, usable, (same d).trans undeclared⟩
  obtain ⟨enrolled, others⟩ := @fact_enrolAll h now again p.overlay.keys usable recorded.distinct
  -- No record has a label that is revoked or retired, so such a label is that of one key.
  have alone : ∀ id, id ∈ p.overlay.revoked ∨ id ∈ p.overlay.retired.keys →
      Alone (p.overlay.keys.foldl (fun keys r => (keys.register h now r.spec).1) again) id := by
    intro id named
    obtain ⟨alone, no_record⟩ := recorded.alone id named
    have declared_fact : ∀ d f, fact (p.overlay.keys.foldl (fun keys r => (keys.register h now r.spec).1) again) d =
        some f → f.Labelled id → fact declared d = some f := by
      intro d f known label
      have absent : ∀ r ∈ p.overlay.keys, r.spec.digest h ≠ some d := by
        intro r mem parsed
        obtain ⟨d', this, -⟩ := usable r mem
        obtain ⟨g, given, label'⟩ := KeyRecord.fact?_eq this
        rw [enrolled r mem d parsed, given] at known
        cases known
        exact no_record r mem (label'.unique label)
      rw [others d absent, same d] at known
      exact known
    intro d d' f f' known known' label label'
    exact alone d d' f f' (declared_fact d f known label) (declared_fact d' f' known' label') label label'
  have retired := fact_retireAll p.overlay.retired.nodup fun entry mem =>
    alone entry.1 (.inr (List.mem_map_of_mem mem))
  have principals : ∀ d f, fact (p.overlay.retired.entries.foldl
        (fun keys entry => (keys.setExpiry entry.1 (some entry.2)).1)
        (p.overlay.keys.foldl (fun keys r => (keys.register h now r.spec).1) again)) d = some f →
      ∃ g, fact (p.overlay.keys.foldl (fun keys r => (keys.register h now r.spec).1) again) d = some g ∧
        g.principal = f.principal := by
    intro d f known
    rw [retired d] at known
    obtain ⟨g, was, rfl⟩ := Option.map_eq_some_iff.mp known
    exact ⟨g, was, rfl⟩
  rw [KeyOverlay.apply, fact_revokeAll (fun id mem => alone_of_principals (alone id (.inl mem)) principals), retired d]
  by_cases record : ∃ r ∈ p.overlay.keys, r.spec.digest h = some d
  · obtain ⟨r, mem, parsed⟩ := record
    obtain ⟨d', this, -, live⟩ := recorded.records r mem
    obtain rfl : d' = d := Option.some.inj (this.digest.symm.trans parsed)
    obtain ⟨f, given, label⟩ := KeyRecord.fact?_eq this
    have unretired : ∀ entry ∈ p.overlay.retired.entries, ¬f.Labelled entry.1 := by
      intro entry there label'
      exact (recorded.alone entry.1 (.inr (List.mem_map_of_mem there))).2 r mem (label.unique label')
    have unrevoked : ∀ id ∈ p.overlay.revoked, ¬f.Labelled id := by
      intro id there label'
      exact (recorded.alone id (.inl there)).2 r mem (label.unique label')
    rw [enrolled r mem d' parsed, live, given, Option.map_some, retiredAt_of_forall unretired, Option.filter_some,
      if_pos (by simpa using unrevoked)]
  · have absent : ∀ r ∈ p.overlay.keys, r.spec.digest h ≠ some d := fun r mem parsed => record ⟨r, mem, parsed⟩
    rw [others d absent, same d, recorded.known d absent]
    cases declared_fact : fact declared d with
    | none | some g => rfl

theorem recorded_start (h : Helpers) (declared : KeyRegistry) : Recorded h declared { registry := declared } where
  records := nofun
  distinct := List.Pairwise.nil
  known := by
    intro d _
    cases known : fact declared d with
    | none => rfl
    | some g =>
        rw [Option.bind_some, expected, show retiredAt (∅ : Dict String ℚ).entries g = g from retiredAt_of_forall nofun,
          Option.filter_some, if_pos (by simp)]
  alone := by
    rintro id (revoked | retired)
    · cases revoked
    · cases retired

section Recorded

variable {h : Helpers} {declared : KeyRegistry} {p : KeyPlane}

/-- A registered digest of a record is not declared, and the other way round. -/
theorem Recorded.absent (recorded : Recorded h declared p) {d : String} {g : Fact} (there : fact declared d = some g) :
    ∀ r ∈ p.overlay.keys, r.spec.digest h ≠ some d := by
  intro r mem parsed
  obtain ⟨d', usable, undeclared, -⟩ := recorded.records r mem
  obtain rfl : d' = d := Option.some.inj (usable.digest.symm.trans parsed)
  rw [undeclared] at there
  cases there

theorem labelled_expiresAt {expiresAt : Option ℚ} {f : Fact} {id : String} :
    Fact.Labelled { f with expiresAt := expiresAt } id ↔ f.Labelled id := Iff.rfl

theorem labelled_retiredAt {entries : List (String × ℚ)} {f : Fact} {id : String} :
    (retiredAt entries f).Labelled id ↔ f.Labelled id := Iff.rfl

/-- A label that is of one registered key is of one declared key: only a revoked one is not registered. -/
theorem Recorded.alone_declared (recorded : Recorded h declared p) {id : String} (alone : Alone p.registry id) :
    Alone declared id := by
  by_cases revoked : id ∈ p.overlay.revoked
  · exact (recorded.alone id (.inl revoked)).1
  · have registered : ∀ d f, fact declared d = some f → f.Labelled id →
        fact p.registry d = some (retiredAt p.overlay.retired.entries f) := by
      intro d f there label
      have live : ∀ other ∈ p.overlay.revoked, ¬f.Labelled other := by
        rintro other mem label'
        exact revoked (label'.unique label ▸ mem)
      rw [recorded.known d (recorded.absent there), there, Option.bind_some, expected, Option.filter_some,
        if_pos (by simpa [labelled_retiredAt] using live)]
    intro d d' f f' there there' label label'
    exact alone d d' _ _ (registered d f there label) (registered d' f' there' label') label label'

end Recorded

/-! ### Records -/

/-- Digests are hexadecimal SHA-256 ones. -/
def Hex (h : Helpers) : Prop :=
  ∀ text, (h.digest text).toList.length = 64 ∧ ∀ c ∈ (h.digest text).toList, c ∈ "0123456789abcdef".toList

theorem hexadecimal_plain {c : Char} (hex : c ∈ "0123456789abcdef".toList) :
    c.toLower = c ∧ Text.isSpace c = false := by
  have all : ∀ c ∈ "0123456789abcdef".toList, c.toLower = c ∧ Text.isSpace c = false :=
    List.all_iff_forall_prop.1 (by decide)
  exact all c hex

/-- A hexadecimal digest is read back as it is. -/
theorem digest_of_hex {h : Helpers} {spec : KeySpec} {text : String} (length : text.toList.length = 64)
    (hex : ∀ c ∈ text.toList, c ∈ "0123456789abcdef".toList) (none_given : spec.secret = none)
    (given : spec.keySha256 = some text) : spec.digest h = some text := by
  have ne : text ≠ "" := by
    rintro rfl
    cases length
  have stripped : Text.strip text.toList = text.toList := by
    have unspaced : ∀ c ∈ text.toList, ¬Text.isSpace c = true := fun c mem => by
      rw [(hexadecimal_plain (hex c mem)).2]
      exact Bool.false_ne_true
    have left : Text.lstrip text.toList = text.toList := by
      cases split : text.toList with
      | nil => rfl
      | cons c rest =>
          rw [Text.lstrip, List.dropWhile_cons_of_neg (unspaced c (by rw [split]; exact List.mem_cons_self))]
    rw [Text.strip, left, Text.rstrip, List.rdropWhile_eq_self_iff]
    exact fun ne => unspaced _ (List.getLast_mem ne)
  have lowered : lower text.toList = text.toList := by
    rw [lower]
    exact (List.map_congr_left fun c mem => (hexadecimal_plain (hex c mem)).1).trans (List.map_id _)
  have known : ¬(text.toList.any fun c => decide (c ∉ "0123456789abcdef".toList)) = true := by
    rw [List.any_eq_true]
    rintro ⟨c, mem, unknown⟩
    exact of_decide_eq_true unknown (hex c mem)
  unfold KeySpec.digest
  rw [none_given, given]
  simp only [Option.getD_none, Option.getD_some, ne_eq, not_true_eq_false, decide_false, ne, not_false_eq_true, decide_true,
    Bool.false_eq_true, if_false]
  rw [stripped, lowered, if_neg (by rintro (short | unknown); exacts [short length, known unknown]), String.ofList_toList]

/-- A registration of the admin plane. -/
structure Runtime (spec : KeySpec) (fresh : String) : Prop where
  secret : spec.secret = if spec.keySha256 = none then some fresh else none
  undeclared : spec.priorityDeclared = false

theorem digest_length {h : Helpers} (hex : Hex h) {spec : KeySpec} {d : String} (parsed : spec.digest h = some d) :
    d.toList.length = 64 := by
  unfold KeySpec.digest at parsed
  split at parsed
  · cases parsed
  · cases given : spec.secret with
    | some secret =>
        rw [given] at parsed
        cases parsed
        exact (hex secret).1
    | none =>
        rw [given] at parsed
        dsimp only at parsed
        split at parsed
        · cases parsed
        · rename_i usable
          cases parsed
          rw [String.toList_ofList]
          exact not_not.mp (not_or.mp usable).1

theorem label_ne_empty {h : Helpers} (hex : Hex h) {spec : KeySpec} {d : String} (parsed : spec.digest h = some d) :
    spec.label d ≠ "" := by
  have head : (String.ofList (d.toList.take 8)) ≠ "" := by
    refine ofList_ne_empty fun nil => ?_
    have length := congrArg List.length nil
    rw [List.length_take, digest_length hex parsed] at length
    cases length
  unfold KeySpec.label
  cases spec.keyId with
  | none => exact head
  | some id =>
      dsimp only
      split
      · assumption
      · exact head

section Records

variable {h : Helpers} {spec : KeySpec} {fresh id d : String}

/-- A record is registered under the digest of what it records. -/
theorem digest_recordOf (hex : Hex h) (runtime : Runtime spec fresh) (parsed : spec.digest h = some d) :
    (recordOf h spec fresh id).spec.digest h = some d := by
  cases given : spec.keySha256 with
  | none =>
      have secret : spec.secret = some fresh := by rw [runtime.secret, if_pos given]
      obtain rfl : h.digest fresh = d := by
        unfold KeySpec.digest at parsed
        rw [secret] at parsed
        split at parsed
        · cases parsed
        · exact Option.some.inj parsed
      have ne : h.digest fresh ≠ "" := by
        intro empty
        have length := (hex fresh).1
        rw [empty] at length
        cases length
      refine digest_of_hex (hex fresh).1 (hex fresh).2 rfl ?_
      rw [KeyRecord.spec, recordOf, given, Option.getD_none, if_pos ne]
  | some sha =>
      have secret : spec.secret = none := by
        rw [runtime.secret, if_neg]
        rw [given]
        exact nofun
      have ne : sha ≠ "" := by
        rintro rfl
        unfold KeySpec.digest at parsed
        rw [secret, given] at parsed
        cases parsed
      rw [← parsed]
      unfold KeySpec.digest
      rw [secret, given, KeyRecord.spec, recordOf, given]
      simp only [Option.getD_some, if_pos ne]

theorem usable_recordOf (hex : Hex h) (runtime : Runtime spec fresh) (parsed : spec.digest h = some d)
    (named : spec.agentId ≠ "") (separate : ¬(spec.callsPush = true ∧ spec.admin = true)) :
    (recordOf h spec fresh (spec.label d)).Usable h d where
  digest := digest_recordOf hex runtime parsed
  named := named
  id := label_ne_empty hex parsed
  separate := separate

/-- A record is registered as what it records. -/
theorem fact?_recordOf (runtime : Runtime spec fresh) (separate : ¬(spec.callsPush = true ∧ spec.admin = true)) :
    (recordOf h spec fresh id).fact? = some ⟨spec.principal id separate, spec.expiresAt, spec.bind⟩ := by
  rw [KeyRecord.fact?, dif_pos (show ¬((recordOf h spec fresh id).callsPush = true ∧
    (recordOf h spec fresh id).admin = true) from separate)]
  simp only [KeySpec.principal, KeySpec.assertable, KeyRecord.spec, recordOf, runtime.undeclared]

end Records

/-! ### What the actions keep -/

theorem retiredAt_eq (retired : Dict String ℚ) (f : Fact) :
    retiredAt retired.entries f =
      { f with expiresAt := (f.principal.keyId.bind retired.get?).elim f.expiresAt some } := by
  cases keyed : f.principal.keyId with
  | none =>
      refine (retiredAt_of_forall fun entry _ label => ?_).trans ?_
      · rw [Fact.Labelled, keyed] at label
        cases label
      · rw [Option.bind_none, Option.elim_none]
  | some id =>
      have here : (fun entry : String × ℚ => decide (f.Labelled entry.1)) = fun entry => decide (entry.1 = id) := by
        funext entry
        rw [decide_eq_decide, Fact.Labelled, keyed]
        exact ⟨fun same => (Option.some.inj same).symm, fun same => congrArg some same.symm⟩
      rw [retiredAt, here, Option.bind_some, Dict.get?]
      cases retired.entries.find? fun entry => decide (entry.1 = id) with
      | none | some entry => rfl

section Kept

variable {h : Helpers} {declared : KeyRegistry} {p : KeyPlane}

/-- A label that is neither revoked nor retired can be given again. -/
theorem expected_addKey {o : KeyOverlay} {record : KeyRecord} {g : Fact}
    (open_label : g.Labelled record.id → record.id ∉ o.revoked ∧ record.id ∉ o.retired.keys) :
    expected (o.addKey record) g = expected o g := by
  have retired : retiredAt (o.retired.erase record.id).entries g = retiredAt o.retired.entries g := by
    rw [retiredAt_eq, retiredAt_eq]
    cases keyed : g.principal.keyId with
    | none => rfl
    | some id =>
        by_cases same : id = record.id
        · subst same
          rw [Option.bind_some, Option.bind_some, Dict.get?_erase_self,
            Dict.get?_eq_none_iff.mpr (open_label keyed).2]
        · rw [Option.bind_some, Option.bind_some, Dict.get?_erase_of_ne _ same]
  have revoked : (∀ id ∈ o.revoked.filter fun id => decide (id ≠ record.id), ¬g.Labelled id) ↔
      ∀ id ∈ o.revoked, ¬g.Labelled id := by
    constructor
    · intro live id mem label
      by_cases same : id = record.id
      · subst same
        exact (open_label label).1 mem
      · exact live id (List.mem_filter.mpr ⟨mem, decide_eq_true same⟩) label
    · intro live id mem
      exact live id (List.mem_filter.mp mem).1
  rw [expected, expected, KeyOverlay.addKey, retired]
  simp only [Option.filter_some, labelled_retiredAt, revoked]

/-- A registration names no declared key: not its digest, nor an id of one that is revoked or retired. -/
def Clear (h : Helpers) (declared : KeyRegistry) (p : KeyPlane) (spec : KeySpec) : Prop :=
  ∀ d, spec.digest h = some d → fact p.registry d = none →
    fact declared d = none ∧
      ∀ d' g, fact declared d' = some g → g.Labelled (spec.label d) →
        spec.label d ∉ p.overlay.revoked ∧ spec.label d ∉ p.overlay.retired.keys

theorem recorded_enrolSpec (hex : Hex h) (recorded : Recorded h declared p) {spec : KeySpec} {fresh id : String}
    {now : ℚ} {q : KeyPlane} (runtime : Runtime spec fresh) (clear : Clear h declared p spec)
    (accepted : p.enrolSpec h spec fresh now = some (q, id)) : Recorded h declared q := by
  obtain ⟨registered, overlay⟩ := enrolSpec_cases accepted
  obtain ⟨named, d, separate, parsed, rfl, unknown, new, old⟩ := fact_register registered
  obtain ⟨undeclared, open_label⟩ := clear d parsed unknown
  have added : q.overlay.keys = p.overlay.keys ++ [recordOf h spec fresh (spec.label d)] := by rw [overlay]; rfl
  have usable := @usable_recordOf h spec fresh d hex runtime parsed named separate
  have others : ∀ r ∈ p.overlay.keys, r.spec.digest h ≠ some d := by
    intro r mem same
    obtain ⟨d', this, -, live⟩ := recorded.records r mem
    obtain rfl : d' = d := Option.some.inj (this.digest.symm.trans same)
    obtain ⟨f, given, -⟩ := KeyRecord.fact?_eq this
    rw [live, given] at unknown
    cases unknown
  constructor
  case records =>
    intro r mem
    rw [added] at mem
    rcases List.mem_append.mp mem with before | last
    · obtain ⟨d', this, that, live⟩ := recorded.records r before
      refine ⟨d', this, that, (old d' ?_).trans live⟩
      rintro rfl
      exact others r before this.digest
    · obtain rfl := List.mem_singleton.mp last
      exact ⟨d, usable, undeclared, new.trans (fact?_recordOf runtime separate).symm⟩
  case distinct =>
    rw [added, List.pairwise_append]
    refine ⟨recorded.distinct, List.pairwise_singleton _ _, fun r mem r' last same => ?_⟩
    obtain rfl := List.mem_singleton.mp last
    exact others r mem (same.trans usable.digest)
  case known =>
    intro d' absent
    rw [added] at absent
    have ne : d' ≠ d := by
      rintro rfl
      exact absent _ (List.mem_append_right _ (List.mem_singleton_self _)) usable.digest
    rw [old d' ne, recorded.known d' fun r mem => absent r (List.mem_append_left _ mem)]
    cases there : fact declared d' with
    | none => rfl
    | some g => rw [Option.bind_some, Option.bind_some, overlay, expected_addKey (open_label d' g there)]
  case alone =>
    intro other tombstone
    rw [overlay] at tombstone
    have different : other ≠ spec.label d ∧ (other ∈ p.overlay.revoked ∨ other ∈ p.overlay.retired.keys) := by
      rcases tombstone with revoked | retired
      · obtain ⟨mem, ne⟩ := List.mem_filter.mp revoked
        exact ⟨of_decide_eq_true ne, .inl mem⟩
      · obtain ⟨ne, mem⟩ := Dict.mem_keys_erase.mp retired
        exact ⟨ne, .inr mem⟩
    obtain ⟨alone, no_record⟩ := recorded.alone other different.2
    refine ⟨alone, fun r mem => ?_⟩
    rw [added] at mem
    rcases List.mem_append.mp mem with before | last
    · exact no_record r before
    · obtain rfl := List.mem_singleton.mp last
      exact different.1.symm

/-- Two records with a label that is of one registered key are the same. -/
theorem Recorded.one_record (recorded : Recorded h declared p) {keyId : String} (alone : Alone p.registry keyId) :
    p.overlay.keys.Pairwise fun r r' => ¬(r.id = keyId ∧ r'.id = keyId) := by
  refine recorded.distinct.imp_of_mem fun mem mem' differ both => ?_
  obtain ⟨d, this, -, live⟩ := recorded.records _ mem
  obtain ⟨d', that, -, live'⟩ := recorded.records _ mem'
  obtain ⟨f, given, label⟩ := KeyRecord.fact?_eq this
  obtain ⟨f', given', label'⟩ := KeyRecord.fact?_eq that
  have same := alone d d' f f' (live.trans given) (live'.trans given') (both.1 ▸ label) (both.2 ▸ label')
  exact differ (this.digest.trans (same ▸ that.digest.symm))

/-- The record of a key with a label has it. -/
theorem Recorded.label (recorded : Recorded h declared p) {r : KeyRecord} (mem : r ∈ p.overlay.keys) :
    ∃ d f, r.Usable h d ∧ fact declared d = none ∧ fact p.registry d = some f ∧ r.fact? = some f ∧
      ∀ id, f.Labelled id ↔ r.id = id := by
  obtain ⟨d, usable, undeclared, live⟩ := recorded.records r mem
  obtain ⟨f, given, label⟩ := KeyRecord.fact?_eq usable
  exact ⟨d, f, usable, undeclared, live.trans given, given, fun id => ⟨label.unique, fun same => same ▸ label⟩⟩

def KeyRecord.expire (keyId : String) (expiresAt : ℚ) (r : KeyRecord) : KeyRecord :=
  if r.id = keyId then { r with expiresAt := some expiresAt } else r

theorem expireFirst_eq_map {keyId : String} {expiresAt : ℚ} {rs : List KeyRecord}
    (one : rs.Pairwise fun r r' => ¬(r.id = keyId ∧ r'.id = keyId)) :
    KeyOverlay.expireFirst keyId expiresAt rs = rs.map (KeyRecord.expire keyId expiresAt) := by
  induction rs with
  | nil => rfl
  | cons r rs ih =>
      obtain ⟨others, one⟩ := List.pairwise_cons.mp one
      rw [KeyOverlay.expireFirst, List.map_cons]
      by_cases here : r.id = keyId
      · have rest : rs.map (KeyRecord.expire keyId expiresAt) = rs := by
          refine (List.map_congr_left fun r' mem => ?_).trans (List.map_id _)
          exact if_neg fun there => others r' mem ⟨here, there⟩
        rw [if_pos here, rest, KeyRecord.expire, if_pos here]
      · rw [if_neg here, ih one, KeyRecord.expire, if_neg here]

section Expire

variable {keyId : String} {expiresAt : ℚ} {r : KeyRecord}

theorem KeyRecord.id_expire : (r.expire keyId expiresAt).id = r.id := by
  unfold KeyRecord.expire
  split <;> rfl

theorem KeyRecord.digest_expire : (r.expire keyId expiresAt).spec.digest h = r.spec.digest h := by
  unfold KeyRecord.expire
  split <;> rfl

theorem KeyRecord.Usable.expire {d : String} (usable : r.Usable h d) : (r.expire keyId expiresAt).Usable h d := by
  unfold KeyRecord.expire
  split
  · exact ⟨usable.digest, usable.named, usable.id, usable.separate⟩
  · exact usable

theorem KeyRecord.fact?_expire :
    (r.expire keyId expiresAt).fact? =
      r.fact?.map fun f => if f.Labelled keyId then { f with expiresAt := some expiresAt } else f := by
  by_cases separate : ¬(r.callsPush = true ∧ r.admin = true)
  · rw [KeyRecord.fact?, KeyRecord.fact?, dif_pos separate, Option.map_some]
    by_cases here : r.id = keyId
    · have label : (⟨r.spec.principal r.id separate, r.expiresAt, r.bind⟩ : Fact).Labelled keyId := congrArg some here
      rw [if_pos label]
      simp only [KeyRecord.expire, if_pos here]
      exact dif_pos separate
    · have label : ¬(⟨r.spec.principal r.id separate, r.expiresAt, r.bind⟩ : Fact).Labelled keyId :=
        fun same => here (Option.some.inj same)
      rw [if_neg label]
      simp only [KeyRecord.expire, if_neg here]
      exact dif_pos separate
  · rw [KeyRecord.fact?, KeyRecord.fact?, dif_neg separate, Option.map_none]
    by_cases here : r.id = keyId
    · simp only [KeyRecord.expire, if_pos here]
      exact dif_neg separate
    · simp only [KeyRecord.expire, if_neg here]
      exact dif_neg separate

end Expire

/-- A retirement of a label that is of one key: its record has the expiry, or the label of a declared key. -/
theorem recorded_expireKey (recorded : Recorded h declared p) {keyId : String} (alone : Alone p.registry keyId)
    (expiresAt : ℚ) :
    Recorded h declared
      ⟨(p.registry.setExpiry keyId (some expiresAt)).1, p.overlay.expireKey keyId expiresAt⟩ := by
  have step := fact_setExpiry alone (some expiresAt)
  have unlabelled : ∀ d f, fact p.registry d = some f → ¬f.Labelled keyId →
      fact (p.registry.setExpiry keyId (some expiresAt)).1 d = some f := by
    intro d f known label
    rw [step d, known, Option.map_some, if_neg label]
  by_cases record : ∃ r ∈ p.overlay.keys, r.id = keyId
  · have overlay : p.overlay.expireKey keyId expiresAt =
        { p.overlay with keys := p.overlay.keys.map (KeyRecord.expire keyId expiresAt) } := by
      obtain ⟨r, mem, label⟩ := record
      rw [KeyOverlay.expireKey, if_pos (List.any_eq_true.mpr ⟨r, mem, decide_eq_true label⟩),
        expireFirst_eq_map (recorded.one_record alone)]
    rw [overlay]
    constructor
    case records =>
      intro r' mem'
      obtain ⟨r, mem, rfl⟩ := List.mem_map.mp mem'
      obtain ⟨d, usable, undeclared, live⟩ := recorded.records r mem
      exact ⟨d, usable.expire, undeclared, by rw [step d, live, KeyRecord.fact?_expire]⟩
    case distinct =>
      rw [List.pairwise_map]
      refine recorded.distinct.imp fun differ => ?_
      rw [KeyRecord.digest_expire, KeyRecord.digest_expire]
      exact differ
    case known =>
      intro d absent
      have absent' : ∀ r ∈ p.overlay.keys, r.spec.digest h ≠ some d := fun r mem same =>
        absent _ (List.mem_map_of_mem mem) (KeyRecord.digest_expire.trans same)
      refine (?_ : fact _ d = fact p.registry d).trans (recorded.known d absent')
      cases known : fact p.registry d with
      | none => rw [step d, known, Option.map_none]
      | some f =>
          refine unlabelled d f known fun label => ?_
          obtain ⟨r, mem, same⟩ := record
          obtain ⟨d', f', usable, -, live, -, label'⟩ := recorded.label mem
          obtain rfl := alone d d' f f' known live label ((label' keyId).mpr same)
          exact absent' r mem usable.digest
    case alone =>
      intro id named
      obtain ⟨one, no_record⟩ := recorded.alone id named
      refine ⟨one, fun r' mem' => ?_⟩
      obtain ⟨r, mem, rfl⟩ := List.mem_map.mp mem'
      rw [KeyRecord.id_expire]
      exact no_record r mem
  · have no_record : ∀ r ∈ p.overlay.keys, r.id ≠ keyId := fun r mem same => record ⟨r, mem, same⟩
    have overlay : p.overlay.expireKey keyId expiresAt =
        { p.overlay with retired := p.overlay.retired.set keyId expiresAt } := by
      rw [KeyOverlay.expireKey, if_neg]
      rw [List.any_eq_true]
      rintro ⟨r, mem, label⟩
      exact no_record r mem (of_decide_eq_true label)
    rw [overlay]
    constructor
    case records =>
      intro r mem
      obtain ⟨d, f, usable, undeclared, live, given, label⟩ := recorded.label mem
      exact ⟨d, usable, undeclared,
        (unlabelled d f live fun same => no_record r mem ((label keyId).mp same)).trans given.symm⟩
    case distinct => exact recorded.distinct
    case known =>
      intro d absent
      rw [step d, recorded.known d absent]
      cases there : fact declared d with
      | none => rfl
      | some g =>
          have retired : retiredAt (p.overlay.retired.set keyId expiresAt).entries g =
              if g.Labelled keyId then { retiredAt p.overlay.retired.entries g with expiresAt := some expiresAt }
              else retiredAt p.overlay.retired.entries g := by
            simp only [retiredAt_eq, Fact.Labelled]
            cases keyed : g.principal.keyId with
            | none => simp
            | some id => by_cases same : id = keyId <;> simp [Dict.get?_set, same]
          rw [Option.bind_some, Option.bind_some, expected, expected, retired]
          by_cases live : ∀ id ∈ p.overlay.revoked, ¬g.Labelled id <;> by_cases label : g.Labelled keyId <;>
            simp [Option.filter_some, live, label, labelled_retiredAt, labelled_expiresAt]
    case alone =>
      intro id named
      by_cases same : id = keyId
      · subst same
        exact ⟨recorded.alone_declared alone, no_record⟩
      · refine recorded.alone id (named.imp_right fun retired => ?_)
        rw [Dict.mem_keys_iff] at retired ⊢
        obtain ⟨v, found⟩ := retired
        exact ⟨v, (Dict.get?_set_of_ne _ same _).symm.trans found⟩

/-- A revocation of a label that is of one key. -/
theorem recorded_revokeKey (recorded : Recorded h declared p) {keyId : String} (alone : Alone p.registry keyId) :
    Recorded h declared ⟨(p.registry.revoke keyId).1, p.overlay.revokeKey keyId⟩ := by
  have step := fact_revoke alone
  have kept : ∀ r ∈ (p.overlay.revokeKey keyId).keys, r ∈ p.overlay.keys ∧ r.id ≠ keyId := by
    intro r mem
    obtain ⟨there, ne⟩ := List.mem_filter.mp mem
    exact ⟨there, of_decide_eq_true ne⟩
  have tombstones : ∀ id, id ∈ (p.overlay.revokeKey keyId).revoked ↔ id ∈ p.overlay.revoked ∨ id = keyId := by
    intro id
    by_cases already : keyId ∈ p.overlay.revoked
    · simp only [KeyOverlay.revokeKey, if_pos already]
      exact ⟨.inl, fun named => named.elim (fun mem => mem) fun same => same ▸ already⟩
    · simp only [KeyOverlay.revokeKey, if_neg already, List.mem_append, List.mem_singleton]
  constructor
  case records =>
    intro r mem
    obtain ⟨there, ne⟩ := kept r mem
    obtain ⟨d, f, usable, undeclared, live, given, label⟩ := recorded.label there
    refine ⟨d, usable, undeclared, ?_⟩
    rw [step d, live, given, Option.filter_some, if_pos (by simpa [label keyId] using ne)]
  case distinct => exact recorded.distinct.filter _
  case known =>
    intro d absent
    rw [step d]
    by_cases removed : ∃ r ∈ p.overlay.keys, r.spec.digest h = some d
    · obtain ⟨r, mem, parsed⟩ := removed
      obtain ⟨d', f, usable, undeclared, live, -, label⟩ := recorded.label mem
      obtain rfl : d' = d := Option.some.inj (usable.digest.symm.trans parsed)
      have id : r.id = keyId := by
        by_contra ne
        exact absent r (List.mem_filter.mpr ⟨mem, decide_eq_true ne⟩) parsed
      rw [live, undeclared, Option.filter_some, if_neg (by simpa using (label keyId).mpr id), Option.bind_none]
    · rw [recorded.known d fun r mem parsed => removed ⟨r, mem, parsed⟩]
      cases there : fact declared d with
      | none => rfl
      | some g =>
          rw [Option.bind_some, Option.bind_some, expected, expected]
          by_cases label : g.Labelled keyId
          · have revoked : ¬∀ id ∈ (p.overlay.revokeKey keyId).revoked, ¬g.Labelled id := fun live =>
              live keyId ((tombstones keyId).mpr (.inr rfl)) label
            simp only [Option.filter_some, labelled_retiredAt, revoked, decide_false, Bool.false_eq_true, if_false]
            split
            · simp only [Option.filter_some, labelled_retiredAt, label, not_true_eq_false, decide_false,
                Bool.false_eq_true, if_false]
            · rfl
          · have retired : retiredAt (p.overlay.revokeKey keyId).retired.entries g =
                retiredAt p.overlay.retired.entries g := by
              simp only [retiredAt_eq, KeyOverlay.revokeKey]
              cases keyed : g.principal.keyId with
              | none => rfl
              | some id =>
                  have ne : id ≠ keyId := fun same => label (keyed.trans (congrArg some same))
                  rw [Option.bind_some, Option.bind_some, Dict.get?_erase_of_ne _ ne]
            have revoked : (∀ id ∈ (p.overlay.revokeKey keyId).revoked, ¬g.Labelled id) ↔
                ∀ id ∈ p.overlay.revoked, ¬g.Labelled id := by
              constructor
              · exact fun live id mem => live id ((tombstones id).mpr (.inl mem))
              · rintro live id mem label'
                rcases (tombstones id).mp mem with before | rfl
                · exact live id before label'
                · exact label label'
            rw [retired]
            simp only [Option.filter_some, labelled_retiredAt, revoked]
            split
            · simp [Option.filter_some, labelled_retiredAt, label]
            · rfl
  case alone =>
    intro id named
    by_cases same : id = keyId
    · subst same
      exact ⟨recorded.alone_declared alone, fun r mem => (kept r mem).2⟩
    · have before : id ∈ p.overlay.revoked ∨ id ∈ p.overlay.retired.keys := by
        rcases named with revoked | retired
        · exact .inl (((tombstones id).mp revoked).resolve_right same)
        · exact .inr (Dict.mem_keys_erase.mp retired).2
      obtain ⟨one, no_record⟩ := recorded.alone id before
      exact ⟨one, fun r mem => no_record r (kept r mem).1⟩

end Kept

end Roadstead.Management
