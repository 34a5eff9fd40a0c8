import Roadstead.Intent

/-!
# Intent resolution is fair and explained

The loop of `resolve` judges each candidate on its own (`rejection_eq_none_iff`), so that those that
are left are the candidates that the intent admits, and the others are rejected, each for a reason
that applies to it.  The sort key ends with the name of the endpoint: where the names are distinct,
so are the keys, and the ranking does not depend on the order of the facts, nor on the endpoints
that a narrower intent rejects.
-/

namespace Roadstead

open Json (Fields)

namespace Intent

variable {py : Printers} {intent intent' : Intent} {facts facts' : List ModelFacts}

/-! ### What an intent admits -/

/-- The endpoint can serve the intent. -/
structure Admits (intent : Intent) (f : ModelFacts) : Prop where
  included : f.endpoint ∉ intent.exclude
  routed : f.routed = true
  kind : f.kind = intent.kind
  requires : intent.requires ⊆ f.capabilities
  context : f.context = 0 ∨ intent.minContext ≤ f.context

/-- What a reason says of an endpoint. -/
def RejectReason.Applies (intent : Intent) (f : ModelFacts) : RejectReason → Prop
  | notRouted => f.routed = false
  | wrongKind => f.kind ≠ intent.kind
  | missingCapability => ¬intent.requires ⊆ f.capabilities
  | contextTooSmall => f.context ≠ 0 ∧ f.context < intent.minContext
  | excluded => f.endpoint ∈ intent.exclude
  | unknownEndpoint => False

variable {f : ModelFacts}

theorem missing_eq_nil_iff :
    missing intent f = [] ↔ intent.requires ⊆ f.capabilities := by
  rw [missing, sortedSet, Text.sorted, ← List.length_eq_zero_iff, Finset.length_sort,
    Finset.card_eq_zero, Finset.sdiff_eq_empty_iff_subset]

/-- The judgement on a candidate: it is admitted, or rejected for a reason that applies. -/
theorem rejection_cases (py : Printers) (intent : Intent) (f : ModelFacts) :
    rejection py intent f = none ∧ Admits intent f ∨
      ∃ r, rejection py intent f = some r ∧ r.endpoint = f.endpoint ∧ r.reason.Applies intent f := by
  rw [rejection]
  by_cases excluded : f.endpoint ∈ intent.exclude
  · exact .inr ⟨_, if_pos excluded, rfl, excluded⟩
  rw [if_neg excluded]
  by_cases routed : f.routed = true
  case neg => exact .inr ⟨_, if_pos (by simpa using routed), rfl, Bool.eq_false_iff.mpr routed⟩
  rw [if_neg (by simpa using routed)]
  by_cases kind : f.kind = intent.kind
  case neg => exact .inr ⟨_, if_pos kind, rfl, kind⟩
  rw [if_neg (not_not.mpr kind)]
  by_cases requires : intent.requires ⊆ f.capabilities
  case neg => exact .inr ⟨_, if_pos (missing_eq_nil_iff.not.mpr requires), rfl, requires⟩
  rw [if_neg (not_not.mpr (missing_eq_nil_iff.mpr requires))]
  by_cases small : intent.minContext ≠ 0 ∧ f.context ≠ 0 ∧ f.context < intent.minContext
  · exact .inr ⟨_, if_pos small, rfl, small.2⟩
  · refine .inl ⟨if_neg small, excluded, routed, kind, requires, ?_⟩
    omega

theorem not_applies_of_admits (admits : Admits intent f) (reason : RejectReason) :
    ¬reason.Applies intent f := by
  cases reason with
  | notRouted => exact fun off => Bool.false_ne_true (off.symm.trans admits.routed)
  | wrongKind => exact fun wrong => wrong admits.kind
  | missingCapability => exact fun missing => missing admits.requires
  | contextTooSmall =>
      rintro ⟨known, small⟩
      rcases admits.context with unknown | fits
      · exact known unknown
      · exact absurd small (not_lt.mpr fits)
  | excluded => exact admits.included
  | unknownEndpoint => exact not_false

theorem rejection_eq_none_iff : rejection py intent f = none ↔ Admits intent f := by
  rcases rejection_cases py intent f with ⟨none, admits⟩ | ⟨r, found, -, applies⟩
  · exact iff_of_true none admits
  · refine iff_of_false (by simp [found]) fun admits => not_applies_of_admits admits r.reason applies

/-- A narrower intent: more capabilities, more exclusions, a larger context. -/
structure Narrows (intent' intent : Intent) : Prop where
  pin : intent'.pin = intent.pin
  kind : intent'.kind = intent.kind
  prefer : intent'.prefer = intent.prefer
  requires : intent.requires ⊆ intent'.requires
  exclude : intent.exclude ⊆ intent'.exclude
  minContext : intent.minContext ≤ intent'.minContext

theorem Narrows.admits (narrows : Narrows intent' intent)
    (admits : Admits intent' f) : Admits intent f where
  included mem := admits.included (narrows.exclude mem)
  routed := admits.routed
  kind := admits.kind.trans narrows.kind
  requires := narrows.requires.trans admits.requires
  context := admits.context.imp_right narrows.minContext.trans

/-! ### The answer -/

/-- The endpoint that is pinned, if one is. -/
def pinned (intent : Intent) : String := .ofList (Text.strip intent.pin.toList)

/-- The pin and the exclusions name endpoints that are there. -/
structure Present (intent : Intent) (facts : List ModelFacts) : Prop where
  pin : intent.pinned ≠ "" → intent.pinned ∈ facts.map ModelFacts.endpoint
  exclude : ∀ pair ∈ intent.excludePairs, pair.1 ∈ facts.map ModelFacts.endpoint

theorem Present.perm (present : Present intent facts) (perm : facts.Perm facts') :
    Present intent facts' where
  pin named := (perm.map _).mem_iff.mp (present.pin named)
  exclude pair mem := (perm.map _).mem_iff.mp (present.exclude pair mem)

/-- The candidates that the intent admits. -/
def eligible (py : Printers) (intent : Intent) (facts : List ModelFacts) : List ModelFacts :=
  (candidates intent.pinned facts).filter fun f => (rejection py intent f).isNone

theorem mem_candidates {pin : String} (mem : f ∈ candidates pin facts) : f ∈ facts := by
  unfold candidates at mem
  split at mem
  · exact mem
  · exact (List.mem_filter.mp mem).1

theorem candidates_sublist (pin : String) (facts : List ModelFacts) :
    (candidates pin facts).Sublist facts := by
  unfold candidates
  split
  · exact List.Sublist.refl _
  · exact List.filter_sublist

theorem candidates_perm (pin : String) (perm : facts.Perm facts') :
    (candidates pin facts).Perm (candidates pin facts') := by
  unfold candidates
  split
  · exact perm
  · exact perm.filter _

theorem mem_eligible :
    f ∈ eligible py intent facts ↔ f ∈ candidates intent.pinned facts ∧ Admits intent f := by
  rw [eligible, List.mem_filter, Option.isNone_iff_eq_none, rejection_eq_none_iff]

/-- Where the pin and the exclusions name endpoints, each candidate is judged. -/
theorem resolve_eq (present : Present intent facts) :
    (resolve py intent facts).ranked =
        (Ranking.ranked (sortKey intent.prefer) (eligible py intent facts)).map ModelFacts.endpoint ∧
      (resolve py intent facts).rejected =
        (candidates intent.pinned facts).filterMap (rejection py intent) := by
  have known : (intent.excludePairs.filter fun pair => pair.1 ∉ facts.map ModelFacts.endpoint) = [] := by
    rw [List.filter_eq_nil_iff]
    intro pair mem
    simpa using present.exclude pair mem
  have some_candidate : ¬(intent.pinned ≠ "" ∧ candidates intent.pinned facts = []) := by
    rintro ⟨named, none⟩
    obtain ⟨f, mem, name⟩ := List.mem_map.mp (present.pin named)
    rw [candidates, if_neg named, List.filter_eq_nil_iff] at none
    exact none f mem (decide_eq_true name)
  rw [resolve]
  dsimp only
  rw [known, List.map_nil, if_neg (not_not.mpr rfl), ← pinned, if_neg some_candidate]
  constructor
  · rw [eligible]
  · dsimp only

section Distinct

variable (distinct : (facts.map ModelFacts.endpoint).Nodup)

include distinct

theorem endpoint_inj {f g : ModelFacts} (mem : f ∈ facts) (mem' : g ∈ facts)
    (same : f.endpoint = g.endpoint) : f = g :=
  List.inj_on_of_nodup_map distinct mem mem' same

/-- The name is part of the key. -/
theorem sortKey_inj (prefer : String) {f g : ModelFacts} (mem : f ∈ facts) (mem' : g ∈ facts)
    (same : sortKey prefer f = sortKey prefer g) : f = g := by
  have names : f.endpoint = g.endpoint := congrArg (fun key => (ofLex (ofLex (ofLex key).2).2).2) same
  exact endpoint_inj distinct mem mem' names

theorem sortKey_inj_eligible (py : Printers) (intent : Intent) (prefer : String) :
    ∀ f ∈ eligible py intent facts, ∀ g ∈ eligible py intent facts,
      sortKey prefer f = sortKey prefer g → f = g :=
  fun _ mem _ mem' => sortKey_inj distinct prefer (mem_candidates (mem_eligible.mp mem).1)
    (mem_candidates (mem_eligible.mp mem').1)

end Distinct

/-! ### The parts of the claim -/

/-- The endpoints that a resolution gives, and those that it does not. -/
def Resolution.named (r : Resolution) : List String := r.ranked ++ r.rejected.map Rejection.endpoint

/-- Each candidate is ranked or rejected. -/
theorem named_perm (present : Present intent facts) : (resolve py intent facts).named.Perm
    ((candidates intent.pinned facts).map ModelFacts.endpoint) := by
  have resolved : (resolve py intent facts).ranked = _ ∧ (resolve py intent facts).rejected = _ :=
    resolve_eq present
  obtain ⟨ranked, rejected⟩ := resolved
  rw [Resolution.named, ranked, rejected]
  refine (((Ranking.ranked_perm _ _).map _).append_right _).trans ?_
  unfold eligible
  induction candidates intent.pinned facts with
  | nil => exact List.Perm.refl _
  | cons f fs ih =>
      rcases rejection_cases py intent f with ⟨none, -⟩ | ⟨r, found, name, -⟩
      · rw [List.filter_cons_of_pos (by simp [none]), List.filterMap_cons_none none]
        exact ih.cons f.endpoint
      · rw [List.filter_cons_of_neg (by simp [found]), List.filterMap_cons_some found, List.map_cons,
          List.map_cons, name]
        exact List.perm_middle.trans (ih.cons f.endpoint)

/-- What is rejected is a candidate that a reason applies to. -/
theorem rejected_explained (present : Present intent facts) {r : Rejection}
    (mem : r ∈ (resolve py intent facts).rejected) : ∃ f ∈ candidates intent.pinned facts,
      r.endpoint = f.endpoint ∧ r.reason.Applies intent f := by
  rw [(resolve_eq present).2, List.mem_filterMap] at mem
  obtain ⟨f, mem, found⟩ := mem
  rcases rejection_cases py intent f with ⟨none, -⟩ | ⟨r', found', name, applies⟩
  · rw [none] at found
    cases found
  · rw [found, Option.some_inj] at found'
    exact ⟨f, mem, found' ▸ name, found' ▸ applies⟩

section Distinct

variable (distinct : (facts.map ModelFacts.endpoint).Nodup) (present : Present intent facts)

include distinct present

theorem admits_of_ranked (mem : f ∈ facts)
    (ranked : f.endpoint ∈ (resolve py intent facts).ranked) : Admits intent f := by
  rw [(resolve_eq present).1, List.mem_map] at ranked
  obtain ⟨g, mem', same⟩ := ranked
  obtain ⟨candidate, admits⟩ := mem_eligible.mp (Ranking.mem_ranked.mp mem')
  exact endpoint_inj distinct (mem_candidates candidate) mem same ▸ admits

/-- Money comes first in the key. -/
theorem free_before_real {f g : ModelFacts} (mem : f ∈ facts) (mem' : g ∈ facts)
    (real : f.realCost = true) (free : g.realCost = false) :
    ¬[f.endpoint, g.endpoint].Sublist (resolve py intent facts).ranked := by
  intro before
  rw [(resolve_eq present).1, List.sublist_map_iff] at before
  obtain ⟨fs, sublist, names⟩ := before
  obtain ⟨f', rest, rfl, name, names⟩ := List.map_eq_cons_iff.mp names.symm
  obtain ⟨g', rest', rfl, name', -⟩ := List.map_eq_cons_iff.mp names
  have known {h : ModelFacts} (mem : h ∈ f' :: g' :: rest') : h ∈ facts :=
    mem_candidates (mem_eligible.mp (Ranking.mem_ranked.mp (sublist.mem mem))).1
  obtain rfl := endpoint_inj distinct (known (by simp)) mem name
  obtain rfl := endpoint_inj distinct (known (by simp)) mem' name'
  have ordered := (Ranking.ranked_pairwise (sortKey intent.prefer) _).sublist sublist
  have le := (List.pairwise_cons.mp ordered).1 g' (by simp)
  have lt : sortKey intent.prefer g' < sortKey intent.prefer f' := by
    rw [Prod.Lex.lt_iff]
    exact .inl (by simp [sortKey, real, free])
  exact absurd le (not_le.mpr lt)

theorem ranked_perm (perm : facts.Perm facts') :
    (resolve py intent facts').ranked = (resolve py intent facts).ranked := by
  rw [(resolve_eq present).1, (resolve_eq (present.perm perm)).1]
  have same : (eligible py intent facts).Perm (eligible py intent facts') :=
    (candidates_perm intent.pinned perm).filter _
  rw [Ranking.ranked_eq_of_perm (sortKey_inj_eligible distinct py intent intent.prefer) same]

/-- A narrower intent leaves the ranking as it is, less the endpoints that it rejects. -/
theorem ranked_narrows (narrows : Narrows intent' intent) (present' : Present intent' facts) :
    (resolve py intent' facts).ranked.Sublist (resolve py intent facts).ranked := by
  have same_pin : intent'.pinned = intent.pinned := by rw [pinned, narrows.pin, pinned]
  have fewer : eligible py intent' facts =
      (eligible py intent facts).filter fun f => (rejection py intent' f).isNone := by
    rw [eligible, eligible, List.filter_filter, same_pin]
    refine List.filter_congr fun f _ => ?_
    rw [Bool.eq_iff_iff, Bool.and_eq_true, Option.isNone_iff_eq_none, Option.isNone_iff_eq_none,
      rejection_eq_none_iff, rejection_eq_none_iff]
    exact ⟨fun admits => ⟨admits, narrows.admits admits⟩, And.left⟩
  rw [(resolve_eq present).1, (resolve_eq present').1, narrows.prefer, fewer,
    Ranking.ranked_filter (sortKey_inj_eligible distinct py intent intent.prefer)]
  exact List.filter_sublist.map _

end Distinct

/-- Resolution is fair and explained.  Each candidate is ranked or rejected, once; what is ranked is
admitted, and what is rejected for a reason that applies to it; what costs money comes after what
does not; the order of the facts does not matter; and a narrower intent moves endpoints from the
ranking to the rejections and leaves the others in their order. -/
theorem resolve_fair (py : Printers) (distinct : (facts.map ModelFacts.endpoint).Nodup)
    (present : Present intent facts) :
    (resolve py intent facts).named.Perm
        ((candidates intent.pinned facts).map ModelFacts.endpoint) ∧
      (resolve py intent facts).named.Nodup ∧
      (∀ f ∈ facts, f.endpoint ∈ (resolve py intent facts).ranked → Admits intent f) ∧
      (∀ r ∈ (resolve py intent facts).rejected, ∃ f ∈ candidates intent.pinned facts,
        r.endpoint = f.endpoint ∧ r.reason.Applies intent f) ∧
      (∀ f ∈ facts, ∀ g ∈ facts, f.realCost = true → g.realCost = false →
        ¬[f.endpoint, g.endpoint].Sublist (resolve py intent facts).ranked) ∧
      (∀ facts', facts.Perm facts' →
        (resolve py intent facts').ranked = (resolve py intent facts).ranked) ∧
      ∀ intent', Narrows intent' intent → Present intent' facts →
        (resolve py intent' facts).ranked.Sublist (resolve py intent facts).ranked ∧
          (resolve py intent' facts).named.Perm (resolve py intent facts).named := by
  refine ⟨named_perm present, ?_, ?_, ?_, ?_, ?_, ?_⟩
  · exact (named_perm present).nodup_iff.mpr
      (distinct.sublist ((candidates_sublist intent.pinned facts).map _))
  · exact fun f mem ranked => admits_of_ranked distinct present mem ranked
  · exact fun r mem => rejected_explained present mem
  · exact fun f mem g mem' real free => free_before_real distinct present mem mem' real free
  · exact fun facts' perm => ranked_perm distinct present perm
  · intro intent' narrows present'
    have same_pin : intent'.pinned = intent.pinned := by rw [pinned, narrows.pin, pinned]
    refine ⟨ranked_narrows distinct present narrows present', ?_⟩
    exact (same_pin ▸ named_perm present').trans (named_perm present).symm

/-- Where nothing is printed. -/
def noPrinters : Printers where
  str _ := ""
  repr _ := ""
  int _ := .ok 0

/-- A free endpoint, one that costs money, and one that cannot see. -/
def threeFacts : List ModelFacts :=
  [{ endpoint := "cloud", capabilities := {"vision"}, realCost := true, typicalMs := 10 },
    { endpoint := "local", capabilities := {"vision"}, typicalMs := 900 }, { endpoint := "text" }]

/-- Of the two that can see, the faster one comes last, for it costs money. -/
theorem resolve_fair_vision : ¬["cloud", "local"].Sublist
    (resolve noPrinters
    { requires := {"vision"}, prefer := "latency" } threeFacts).ranked := by
  have distinct : (threeFacts.map ModelFacts.endpoint).Nodup := by decide
  have present : Present { requires := {"vision"}, prefer := "latency" } threeFacts :=
    ⟨fun named => absurd rfl named, fun pair mem => absurd mem List.not_mem_nil⟩
  have before := (resolve_fair noPrinters distinct present).2.2.2.2.1
  exact before { endpoint := "cloud", capabilities := {"vision"}, realCost := true, typicalMs := 10 }
    (by simp [threeFacts]) { endpoint := "local", capabilities := {"vision"}, typicalMs := 900 }
    (by simp [threeFacts]) rfl rfl

end Intent

end Roadstead
