import Roadstead.Intent.Fair

/-!
# What a request is given is what its body asks for

`parse_intent` accepts a body that has a kind and a preference in the known words, and does not pin
what it excludes.  `ranked_serves` follows such a body through `resolve`: an endpoint in the ranking
has what the body itself names, whatever the profile adds.
-/

namespace Roadstead

open Json (Fields)

namespace Intent

variable {py : Printers} {intent : Intent} {table : Dict String Profile} {normalize : String → String}
  {body : Fields}

theorem bind_eq_ok {ε α β : Type} {x : Except ε α} {f : α → Except ε β} {b : β} :
    (x >>= f) = .ok b ↔ ∃ a, x = .ok a ∧ f a = .ok b := by
  cases x with
  | error e => exact iff_of_false (by simp [bind, Except.bind]) (by simp)
  | ok a => simp [bind, Except.bind]

theorem refuse_eq_ok {wrong : Prop} [Decidable wrong] {message : String} {u : Unit} :
    refuse wrong message = .ok u ↔ ¬wrong := by
  unfold refuse
  split
  · next bad => exact iff_of_false (by simp) (not_not.mpr bad)
  · next good => exact iff_of_true rfl good

/-! ### What is parsed -/

/-- The names that a field of the body lists, or the one that it is. -/
def listed : Json → List Json
  | .str s => [.str s]
  | .arr items => items
  | _ => []

theorem nameList_eq_ok {message : String} {value : Json} {names : List Json}
    (read : nameList message value = .ok names) : names = listed value := by
  cases value <;> cases read <;> rfl

/-- The loop over the capabilities adds each of them, and they are known ones. -/
theorem foldlM_requireCap {caps : List Json} {requires requires' : Finset String}
    (read : caps.foldlM (requireCap py) requires = .ok requires') :
    requires ⊆ requires' ∧ ∀ cap ∈ caps,
      stripped py cap ∈ requires' ∧ stripped py cap ∈ knownCapabilities := by
  induction caps generalizing requires with
  | nil =>
      cases read
      exact ⟨Finset.Subset.refl _, fun _ mem => absurd mem List.not_mem_nil⟩
  | cons cap caps ih =>
      rw [List.foldlM_cons, bind_eq_ok] at read
      obtain ⟨next, one, rest⟩ := read
      obtain ⟨lower, added⟩ := ih rest
      unfold requireCap at one
      dsimp only at one
      split at one
      · next known =>
          cases one
          refine ⟨(Finset.subset_insert _ _).trans lower, List.forall_mem_cons.mpr ⟨⟨?_, known⟩, added⟩⟩
          exact lower (Finset.mem_insert_self _ _)
      · cases one

/-- The profile that the body names. -/
def profileOf (py : Printers) (table : Dict String Profile) (body : Fields) : Option Profile :=
  if bodyWord py body "intent" = "" then none else table.get? (bodyWord py body "intent")

theorem namedProfile_eq_ok {profile : Option Profile}
    (read : namedProfile py table (bodyWord py body "intent") = .ok profile) :
    profile = profileOf py table body := by
  unfold namedProfile at read
  unfold profileOf
  split at read
  · next none =>
    cases read
    rw [if_pos none]
  · next named =>
    rw [if_neg named]
    unfold resolveProfile at read
    split at read
    · next p found =>
        cases read
        rw [found]
    · cases read

/-- An intent that has been read off a body. -/
structure ReadFrom (py : Printers) (table : Dict String Profile) (normalize : String → String)
    (body : Fields) (intent : Intent) : Prop where
  pin : intent.pin =
    if bodyWord py body "model" = "" then "" else normalize (bodyWord py body "model")
  apart : intent.pin ≠ "" → intent.pin ∉ intent.exclude
  kind : intent.kind ∈ knownKinds ∧
    (bodyWord py body "kind" ≠ "" → intent.kind = bodyWord py body "kind")
  prefer : intent.prefer ∈ preferences ∧
    (bodyWord py body "prefer" ≠ "" → intent.prefer = bodyWord py body "prefer")
  exclude : ∀ name ∈ listed (Fields.get body "exclude"), stripped py name ≠ "" →
    normalize (stripped py name) ∈ intent.exclude
  profile : ∀ p ∈ profileOf py table body, p.requires ⊆ intent.requires
  requires : ∀ cap ∈ listed (Fields.get body "requires"),
    stripped py cap ∈ intent.requires ∧ stripped py cap ∈ knownCapabilities
  minContext : (Fields.get body "min_context").truthy = true →
    py.int (Fields.get body "min_context") = .ok intent.minContext

theorem parseMinContext_eq_ok {raw : Json} {n : ℕ} (read : parseMinContext py raw = .ok n)
    (truthy : raw.truthy = true) : py.int raw = .ok n := by
  unfold parseMinContext at read
  rw [if_pos truthy] at read
  split at read
  · cases read
  · cases read
  · next value int =>
    split at read
    · cases read
    · next nonneg =>
        cases read
        rw [int, Int.toNat_of_nonneg (not_lt.mp nonneg)]

theorem orElse_of_ne {a b : String} (ne : a ≠ "") : orElse a b = a := if_pos ne

theorem readFrom_of_parse (read : parseIntent py table normalize body = .ok intent) :
    ReadFrom py table normalize body intent := by
  unfold parseIntent at read
  dsimp only at read
  obtain ⟨rawExclude, excluded, read⟩ := bind_eq_ok.mp read
  obtain ⟨-, -, read⟩ := bind_eq_ok.mp read
  obtain ⟨_, both, read⟩ := bind_eq_ok.mp read
  obtain ⟨profile, named, read⟩ := bind_eq_ok.mp read
  obtain ⟨rawRequires, listing, read⟩ := bind_eq_ok.mp read
  obtain ⟨requires, asked, read⟩ := bind_eq_ok.mp read
  obtain ⟨_, kind, read⟩ := bind_eq_ok.mp read
  obtain ⟨_, prefer, read⟩ := bind_eq_ok.mp read
  obtain ⟨minContext, context, read⟩ := bind_eq_ok.mp read
  cases read
  rw [refuse_eq_ok] at both kind prefer
  rw [nameList_eq_ok excluded] at both ⊢
  rw [nameList_eq_ok listing] at asked
  rw [namedProfile_eq_ok named] at kind prefer asked ⊢
  obtain ⟨lower, added⟩ := foldlM_requireCap asked
  constructor
  case pin => rfl
  case apart => exact not_and.mp both
  case kind =>
    refine ⟨not_not.mp kind, fun given => ?_⟩
    show orElse (orElse _ _) _ = _
    rw [orElse_of_ne given, orElse_of_ne given]
  case prefer =>
    refine ⟨not_not.mp prefer, fun given => ?_⟩
    show orElse (orElse _ _) _ = _
    rw [orElse_of_ne given, orElse_of_ne given]
  case exclude =>
    intro name mem ne
    have kept : stripped py name ∈ ((listed (Fields.get body "exclude")).map (stripped py)).filter
        fun name => name ≠ "" := List.mem_filter.mpr ⟨List.mem_map_of_mem mem, decide_eq_true ne⟩
    exact List.mem_toFinset.mpr (List.mem_map.mpr ⟨_, List.mem_map_of_mem kept, rfl⟩)
  case profile =>
    intro p mem
    rw [Option.mem_def.mp mem] at lower
    exact lower
  case requires => exact added
  case minContext => exact parseMinContext_eq_ok context

/-! ### What is given -/

/-- The endpoint has what the body asks for. -/
structure Serves (py : Printers) (table : Dict String Profile) (normalize : String → String)
    (body : Fields) (f : ModelFacts) : Prop where
  routed : f.routed = true
  kind : f.kind ∈ knownKinds ∧ (bodyWord py body "kind" ≠ "" → f.kind = bodyWord py body "kind")
  exclude : ∀ name ∈ listed (Fields.get body "exclude"), stripped py name ≠ "" →
    normalize (stripped py name) ≠ f.endpoint
  profile : ∀ p ∈ profileOf py table body, p.requires ⊆ f.capabilities
  requires : ∀ cap ∈ listed (Fields.get body "requires"), stripped py cap ∈ f.capabilities
  context : f.context = 0 ∨ ((Fields.get body "min_context").truthy = true →
    ∀ n, py.int (Fields.get body "min_context") = .ok n → n ≤ f.context)

theorem ReadFrom.serves (from_body : ReadFrom py table normalize body intent) {f : ModelFacts}
    (admits : Admits intent f) : Serves py table normalize body f where
  routed := admits.routed
  kind := admits.kind ▸ from_body.kind
  exclude name mem ne same := admits.included (same ▸ from_body.exclude name mem ne)
  profile p mem := (from_body.profile p mem).trans admits.requires
  requires cap mem := admits.requires (from_body.requires cap mem).1
  context := admits.context.imp_right fun enough truthy n int => by
    rw [from_body.minContext truthy] at int
    cases int
    exact_mod_cast enough

/-- What is ranked is a candidate that the intent admits. -/
theorem exists_of_ranked {facts : List ModelFacts} {name : String}
    (ranked : name ∈ (resolve py intent facts).ranked) :
    ∃ f ∈ facts, f.endpoint = name ∧ (pinned intent ≠ "" → name = pinned intent) ∧
      Admits intent f := by
  unfold resolve at ranked
  dsimp only at ranked
  split at ranked
  · exact absurd ranked List.not_mem_nil
  split at ranked
  · exact absurd ranked List.not_mem_nil
  dsimp only at ranked
  obtain ⟨f, mem, rfl⟩ := List.mem_map.mp ranked
  have among : f ∈ eligible py intent facts := Ranking.mem_ranked.mp mem
  obtain ⟨candidate, admits⟩ := mem_eligible.mp among
  refine ⟨f, mem_candidates candidate, rfl, fun named => ?_, admits⟩
  rw [candidates, if_neg named] at candidate
  exact of_decide_eq_true (List.mem_filter.mp candidate).2

/-- Each endpoint in the ranking for a body is one of the facts, has what the body asks for, and is
the pinned one where the body pins one. -/
theorem ranked_serves (read : parseIntent py table normalize body = .ok intent)
    {facts : List ModelFacts} {name : String} (ranked : name ∈ (resolve py intent facts).ranked) :
    ∃ f ∈ facts, f.endpoint = name ∧ Serves py table normalize body f ∧
      (pinned intent ≠ "" →
        name = .ofList (Text.strip (normalize (bodyWord py body "model")).toList)) := by
  have from_body := readFrom_of_parse read
  obtain ⟨f, mem, same, pin, admits⟩ := exists_of_ranked ranked
  refine ⟨f, mem, same, from_body.serves admits, fun named => (pin named).trans ?_⟩
  have written : bodyWord py body "model" ≠ "" := by
    intro none
    rw [pinned, from_body.pin, if_pos none] at named
    exact named rfl
  rw [pinned, from_body.pin, if_neg written]

/-- An intent that needs eyes and no cloud. -/
def visionIntent : Intent where
  profile := "vision"
  requires := {"vision"}
  exclude := {"cloud"}
  excludePairs := [("cloud", "cloud")]

/-- Of the three, one can see, is not excluded, and is ranked. -/
theorem ranked_serves_vision : ∃ f ∈ threeFacts, f.endpoint = "local" ∧
    Serves noPrinters builtinProfiles id
      [("intent", .str "vision"), ("exclude", .str " cloud ")] f := by
  have read : parseIntent noPrinters builtinProfiles id
      [("intent", .str "vision"), ("exclude", .str " cloud ")] = .ok visionIntent := by decide +kernel
  have ranked : "local" ∈ (resolve noPrinters visionIntent threeFacts).ranked := by decide +kernel
  obtain ⟨f, mem, same, serves, -⟩ := ranked_serves read ranked
  exact ⟨f, mem, same, serves⟩

end Intent

end Roadstead
