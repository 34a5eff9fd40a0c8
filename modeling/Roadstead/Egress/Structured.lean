import Roadstead.Egress

/-!
# Which requests are structured

`request_expects_json` arms the schema backstop and the validity floor, `request_is_structured` the
truncation gates, the streaming guards and the retry of faults.  The second is documented as the
wider one.  Both read the same payload, and they know the same spellings but one: `guided_json` is a
constraint to the first wherever it is an object, and to the second only in `extra_body`, and only
if it is not empty.
-/

namespace Roadstead.Egress

open Json (Fields)

variable (h : Helpers) (req : Ask)

/-- A constraint that both recognisers know, or that only the wider one knows. -/
def constrained (payload : Fields) : Bool :=
  (extractGrammar payload).isSome || (payload.get "response_format").truthy ||
    (payload.get "structured_outputs").truthy ||
    ["response_format", "structured_outputs", "guided_grammar", "guided_json", "guided_choice"].any
      fun key => ((extraBody payload).get key).truthy

/-- A `guided_json` that only the narrower recogniser takes for a constraint: an object in the
payload itself, or an empty one in `extra_body`. -/
def guidedJsonAlone (payload : Fields) : Bool :=
  ((payload.get "guided_json").asObj?).isSome ||
    decide ((extraBody payload).get "guided_json" = .obj [])

/-- The proxy took the constraint out of the payload itself. -/
def Ask.relieved (req : Ask) : Bool := req.jsonObjectStripped || req.forcedToolSchema.isSome

theorem requestIsStructured_eq :
    requestIsStructured req = (req.chat && (req.relieved || constrained req.payload)) := by
  simp only [requestIsStructured, Ask.relieved, constrained, Bool.or_assoc]

/-- A `response_format` that asks for JSON is a constraint wherever it stands. -/
theorem truthy_of_asksForJson {container : Fields} (asks : asksForJson container = true)
    (unguided : (container.get "guided_json").asObj? = none) :
    (container.get "response_format").truthy = true := by
  rw [asksForJson, unguided, Option.isSome_none, Bool.or_false] at asks
  cases format : container.get "response_format" with
  | obj rf =>
      rw [format] at asks
      cases rf with
      | nil => cases asks
      | cons field fields => rfl
  | _ =>
      rw [format] at asks
      cases asks

/-- A grammar that is stated is a constraint. -/
theorem constrained_of_statedGrammar {payload : Fields} {g : String}
    (stated : statedGrammar payload = some g) : constrained payload = true := by
  unfold statedGrammar at stated
  cases extracted : extractGrammar payload with
  | some found =>
      rw [constrained, extracted]
      rfl
  | none =>
      rw [extracted] at stated
      cases outputs : payload.get "structured_outputs" with
      | obj so =>
          rw [outputs] at stated
          cases so with
          | nil => cases stated
          | cons field fields =>
              rw [constrained, outputs]
              simp [Json.truthy]
      | _ =>
          rw [outputs] at stated
          cases stated

/-- What asks for JSON is constrained, but for the one spelling. -/
theorem constrained_or_guided {payload : Fields}
    (asks : (asksForJson payload || asksForJson (extraBody payload) ||
      (statedGrammar payload).any fun g => !(h.rootObjectKeys g).isEmpty) = true) :
    constrained payload = true ∨ guidedJsonAlone payload = true := by
  by_cases alone : guidedJsonAlone payload = true
  · exact .inr alone
  · left
    rw [guidedJsonAlone, Bool.or_eq_true, not_or] at alone
    obtain ⟨top, extra⟩ := alone
    rw [Bool.not_eq_true, Option.isSome_eq_false_iff, Option.isNone_iff_eq_none] at top
    rw [Bool.or_eq_true, Bool.or_eq_true] at asks
    rcases asks with (here | there) | grammar
    · simp [constrained, truthy_of_asksForJson here top]
    · cases guided : (extraBody payload).get "guided_json" with
      | obj schema =>
          have filled : ((extraBody payload).get "guided_json").truthy = true := by
            rw [guided] at extra ⊢
            cases schema with
            | nil => exact absurd (decide_eq_true rfl) extra
            | cons field fields => rfl
          simp [constrained, filled]
      | _ =>
          have unguided : ((extraBody payload).get "guided_json").asObj? = none := by
            rw [guided]
            rfl
          simp [constrained, truthy_of_asksForJson there unguided]
    · cases stated : statedGrammar payload with
      | none =>
          rw [stated] at grammar
          cases grammar
      | some g => exact constrained_of_statedGrammar stated

/-- Every `guided_json` of the narrower recogniser makes it expect JSON. -/
theorem requestExpectsJson_of_guided (chat : req.chat = true)
    (alone : guidedJsonAlone req.payload = true) : requestExpectsJson h req = true := by
  rw [guidedJsonAlone, Bool.or_eq_true, decide_eq_true_eq] at alone
  rcases alone with top | extra
  · have here : asksForJson req.payload = true := by rw [asksForJson, top, Bool.or_true]
    simp [requestExpectsJson, chat, here]
  · have there : asksForJson (extraBody req.payload) = true := by
      rw [asksForJson, extra]
      simp [Json.asObj?]
    simp [requestExpectsJson, chat, there]

/-- **Expecting JSON implies structured**, for every request but a chat completion whose only
constraint is a `guided_json` of the payload itself, or an empty one in `extra_body`. -/
theorem expects_structured_iff :
    (requestExpectsJson h req = true → requestIsStructured req = true) ↔
      ¬(req.chat = true ∧ req.relieved = false ∧ constrained req.payload = false ∧
        guidedJsonAlone req.payload = true) := by
  rw [requestIsStructured_eq]
  constructor
  · rintro implies ⟨chat, kept, free, alone⟩
    have structured := implies (requestExpectsJson_of_guided h req chat alone)
    rw [chat, kept, free] at structured
    cases structured
  · intro seen expects
    rw [requestExpectsJson, Bool.and_eq_true] at expects
    obtain ⟨chat, asks⟩ := expects
    rw [Bool.and_eq_true, Bool.or_eq_true]
    refine ⟨chat, ?_⟩
    by_contra open_gap
    rw [not_or, Bool.not_eq_true, Bool.not_eq_true] at open_gap
    obtain ⟨kept, free⟩ := open_gap
    rw [Bool.or_assoc, Bool.or_assoc, ← Ask.relieved, kept, Bool.false_or, ← Bool.or_assoc] at asks
    rcases constrained_or_guided h asks with constraint | alone
    · rw [free] at constraint
      cases constraint
    · exact seen ⟨chat, kept, free, alone⟩

/-- `guided_json` beside the messages: the backstop may fail the reply, and no truncation gate
covers it. -/
theorem guided_json_unstructured :
    ¬∀ (h : Helpers) (req : Ask), requestExpectsJson h req = true → requestIsStructured req = true := by
  intro implies
  let h : Helpers :=
    { dumps := fun _ => [], str := fun _ => "", repairs := fun _ => none, refuses := fun _ _ => none,
      unreadable := fun _ => false, rootObjectKeys := fun _ => [], isDegenerateText := fun _ => false }
  let req : Ask :=
    { chat := true, endpoint := "local"
      payload := [("messages", .arr []), ("guided_json", .obj [("type", .str "object")])] }
  have structured := implies h req (by decide)
  exact absurd structured (by decide)

end Roadstead.Egress
