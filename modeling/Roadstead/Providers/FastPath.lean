import Mathlib.Data.Rat.Floor
import Roadstead.Providers

/-!
# The way out before the repairs

`prepare_chat_payload` of either provider returns the payload as it is where none of its repairs is
due (`earlyReturn`), and otherwise runs all of them (`body`).  What the guard lists stands against the
repairs one by one: each that it covers leaves the payload alone (`body_of_earlyReturn`), and the one
that it does not is the cap on thinking.  The guard asks whether a cap is declared that is positive;
the repair goes on with a negative one, and then writes the cap of the ratio (`Capped`).
-/

namespace Roadstead

open Json (Fields)

/-! ### The guard and what it skips -/

namespace LlamaCpp

/-- The early return of `LlamaCppProvider.prepare_chat_payload`. -/
def earlyReturn (settings : PrepareSettings) (payload : Fields) : Bool :=
  !payload.has "system" && !payload.has "extra_body" &&
    !hasAnthropicImageBlock (payload.get "messages") && !needsAlternationFix (payload.get "messages") &&
      !needsCallerFieldStrip payload && !settings.declared

/-- The rest of the function. -/
def body (pyStr : Json → String) (settings : PrepareSettings) (payload : Fields) : Option Fields :=
  (translateImages pyStr (hasAnthropicImageBlock (payload.get "messages"))
      (inlineSystem pyStr payload)).map fun p =>
    let p := mergeExtraBody (alternate p)
    let p := stripCallerOnlyFields p
    let p := applyThinkingTokenBudget p settings.thinkingBudgetRatio reasoningBudgetField
      settings.reasoningBudgetTokens
    applyThinkingSampling p settings.thinkingTemperature settings.thinkingTopP

theorem prepareChatPayload_eq (pyStr : Json → String) (settings : PrepareSettings) (payload : Fields) :
    prepareChatPayload pyStr settings payload =
      if earlyReturn settings payload then some payload else body pyStr settings payload := rfl

end LlamaCpp

namespace VLLM

/-- The early return of `VLLMProvider.prepare_chat_payload`. -/
def earlyReturn (settings : PrepareSettings) (payload : Fields) : Bool :=
  !payload.has "system" && !payload.has "extra_body" && !payload.has "grammar" &&
    !((servedModel settings).any fun name => decide (payload.get "model" ≠ .str name)) &&
      !(!settings.thinkingKwargs.isEmpty && !hasThinkingKwarg payload) &&
        !hasAnthropicImageBlock (payload.get "messages") && !needsCallerFieldStrip payload &&
          !settings.declared

/-- The rest of the function. -/
def body (pyStr : Json → String) (settings : PrepareSettings) (payload : Fields) : Option Fields :=
  (translateImages pyStr (hasAnthropicImageBlock (payload.get "messages"))
      (inlineSystem pyStr (setModel settings payload))).map fun p =>
    let p := stripCallerOnlyFields (mergeExtraBody p)
    let p := defaultThinking settings (moveGrammar p)
    let p := applyThinkingTokenBudget p settings.thinkingBudgetRatio reasoningBudgetField
      settings.reasoningBudgetTokens
    applyThinkingSampling p settings.thinkingTemperature settings.thinkingTopP

theorem prepareChatPayload_eq (pyStr : Json → String) (settings : PrepareSettings) (payload : Fields) :
    prepareChatPayload pyStr settings payload =
      if earlyReturn settings payload then some payload else body pyStr settings payload := rfl

end VLLM

/-! ### The repairs that are not due -/

section Idle

variable {p : Fields}

theorem erase_of_not_has {key : String} (absent : p.has key = false) : p.erase key = p := by
  induction p with
  | nil => rfl
  | cons field p ih =>
      rw [Fields.has, Fields.get?_cons] at absent
      split at absent
      · cases absent
      · next other =>
          rw [Fields.erase, List.filter_cons_of_pos (by simpa using other)]
          exact congrArg _ (ih absent)

theorem get_of_not_has {key : String} (absent : p.has key = false) : p.get key = .null := by
  rw [Fields.has, Option.isSome_eq_false_iff, Option.isNone_iff_eq_none] at absent
  rw [Fields.get, absent]
  rfl

/-- Writing what is there. -/
theorem set_get {key : String} {value : Json} (there : p.get? key = some value) :
    p.set key value = p := by
  induction p with
  | nil => cases there
  | cons field p ih =>
      obtain ⟨name, value'⟩ := field
      rw [Fields.get?_cons] at there
      rw [Fields.set]
      split at there
      · next same =>
          cases there
          rw [if_pos same, ← same]
      · next other => rw [if_neg other, ih there]

theorem inlineSystem_idle (pyStr : Json → String) (system : p.has "system" = false) :
    inlineSystem pyStr p = p := by
  rw [inlineSystem, get_of_not_has system, erase_of_not_has system]
  rfl

theorem mergeExtraBody_idle (extra : p.has "extra_body" = false) : mergeExtraBody p = p := by
  rw [mergeExtraBody, get_of_not_has extra, erase_of_not_has extra]

theorem stripCallerOnlyFields_idle (strip : needsCallerFieldStrip p = false) :
    stripCallerOnlyFields p = p := by
  rw [needsCallerFieldStrip, Bool.or_eq_false_iff] at strip
  rw [stripCallerOnlyFields, erase_of_not_has strip.1]
  exact if_neg (by rw [strip.2]; exact Bool.false_ne_true)

theorem applyThinkingSampling_idle {temperature topP : ℚ} (pins : temperature < 0 ∧ topP < 0) :
    applyThinkingSampling p temperature topP = p := if_pos pins

end Idle

variable {settings : PrepareSettings}

/-- No cap and no sampling value is declared, as the guard asks. -/
theorem not_declared (none : settings.declared = false) :
    settings.thinkingBudgetRatio ≤ 0 ∧ settings.reasoningBudgetTokens ≤ 0 ∧
      settings.thinkingTemperature < 0 ∧ settings.thinkingTopP < 0 := by
  simpa [PrepareSettings.declared, and_assoc] using none

theorem LlamaCpp.body_of_earlyReturn (pyStr : Json → String)
    {payload : Fields} (early : LlamaCpp.earlyReturn settings payload = true) :
    LlamaCpp.body pyStr settings payload =
      some (applyThinkingTokenBudget payload settings.thinkingBudgetRatio
        LlamaCpp.reasoningBudgetField settings.reasoningBudgetTokens) := by
  simp only [earlyReturn, Bool.and_eq_true, Bool.not_eq_true'] at early
  obtain ⟨⟨⟨⟨⟨system, extra⟩, images⟩, alternation⟩, strip⟩, declared⟩ := early
  have pins := (not_declared declared).2.2
  have alternated : alternate payload = payload := by
    rw [alternate, alternation]
    rfl
  rw [body, images, inlineSystem_idle pyStr system]
  simp only [translateImages, Bool.false_eq_true, if_false, Option.map_some, alternated]
  rw [mergeExtraBody_idle extra, stripCallerOnlyFields_idle strip, applyThinkingSampling_idle pins]

theorem VLLM.body_of_earlyReturn (pyStr : Json → String)
    {payload : Fields} (early : VLLM.earlyReturn settings payload = true) :
    VLLM.body pyStr settings payload =
      some (applyThinkingTokenBudget payload settings.thinkingBudgetRatio
        VLLM.reasoningBudgetField settings.reasoningBudgetTokens) := by
  simp only [earlyReturn, Bool.and_eq_true, Bool.not_eq_true'] at early
  obtain ⟨⟨⟨⟨⟨⟨⟨system, extra⟩, grammar⟩, model⟩, thinking⟩, images⟩, strip⟩, declared⟩ := early
  have pins := (not_declared declared).2.2
  have modelled : setModel settings payload = payload := by
    rw [setModel]
    cases served : servedModel settings with
    | none => rfl
    | some name =>
        rw [served, Option.any_some, decide_eq_false_iff_not, not_not] at model
        refine set_get ?_
        rw [Fields.get] at model
        cases there : payload.get? "model" with
        | none =>
            rw [there] at model
            cases model
        | some value =>
            rw [there] at model
            exact congrArg some model
  have moved : moveGrammar payload = payload := by rw [moveGrammar, get_of_not_has grammar]
  have defaulted : defaultThinking settings payload = payload := by
    rw [defaultThinking, thinking]
    rfl
  rw [body, images, modelled, inlineSystem_idle pyStr system]
  simp only [translateImages, Bool.false_eq_true, if_false, Option.map_some]
  rw [mergeExtraBody_idle extra, stripCallerOnlyFields_idle strip, moved, defaulted,
    applyThinkingSampling_idle pins]

/-! ### The cap that the guard does not know -/

/-- A negative cap is declared, the payload has none, a switch is on in its template arguments, and
its `max_tokens` has room for the cap. -/
structure Capped (field : String) (settings : PrepareSettings) (payload : Fields) : Prop where
  negative : settings.reasoningBudgetTokens < 0
  absent : payload.has field = false
  on : ∃ ck, payload.get "chat_template_kwargs" = .obj ck ∧
    ((Fields.get ck "thinking").truthy || (Fields.get ck "enable_thinking").truthy) = true
  room : ∃ n, intValue? (payload.get "max_tokens") = some n ∧
    (if listItems (payload.get "tools") ≠ [] then thinkingBudgetFloor + toolTurnAnswerReserve
      else thinkingBudgetMinMaxTokens) ≤ n

theorem isSome_unless {α : Type*} (c : Prop) [Decidable c] (a : α) :
    (if c then none else some a).isSome = true ↔ ¬c := by
  split
  · next here => simp [here]
  · next other => simp [other]

/-- The cap is written where there is room. -/
theorem thinkingTokenBudget_isSome (p : Fields) {ratio : ℚ} {absolute : ℤ} (undeclared : ratio ≤ 0)
    (negative : absolute < 0) : (thinkingTokenBudget p ratio absolute).isSome = true ↔
      ∃ n, intValue? (p.get "max_tokens") = some n ∧
        (if listItems (p.get "tools") ≠ [] then thinkingBudgetFloor + toolTurnAnswerReserve
          else thinkingBudgetMinMaxTokens) ≤ n := by
  rw [thinkingTokenBudget]
  cases tokens : intValue? (p.get "max_tokens") with
  | none =>
      rw [if_neg negative.not_gt]
      simp
  | some n =>
      simp only [Option.some.injEq, exists_eq_left']
      by_cases tools : listItems (p.get "tools") ≠ []
      · rw [if_pos tools, if_pos tools, isSome_unless, thinkingBudgetFloor, toolTurnAnswerReserve]
        omega
      · rw [if_neg tools, if_neg tools, if_neg negative.not_gt, isSome_unless,
          thinkingBudgetMinMaxTokens]
        -- no share of a request is positive, so that the cap is the smallest one
        have share : 0 ≤ n → ((n : ℚ) * ratio).floor ≤ 0 := by
          intro positive
          have positive : (0 : ℚ) ≤ n := Int.cast_nonneg positive
          exact Int.floor_nonpos (mul_nonpos_of_nonneg_of_nonpos positive undeclared)
        simp only [thinkingBudgetFloor, thinkingBudgetCeiling]
        omega

/-- What the cap does to the payload where the guard lets it through. -/
theorem applyThinkingTokenBudget_idle_iff (field : String) (payload : Fields)
    (none : settings.declared = false) :
    (∀ key, (applyThinkingTokenBudget payload settings.thinkingBudgetRatio field
        settings.reasoningBudgetTokens).get? key = payload.get? key) ↔
      ¬Capped field settings payload := by
  obtain ⟨ratio, tokens, -, -⟩ := not_declared none
  constructor
  · rintro same ⟨negative, absent, ⟨ck, kwargs, on⟩, room⟩
    rw [← thinkingTokenBudget_isSome payload ratio negative, Option.isSome_iff_exists] at room
    obtain ⟨budget, written⟩ := room
    have here := same field
    rw [applyThinkingTokenBudget, if_neg (by omega), if_neg (by simp [absent]), kwargs] at here
    simp only [on, if_true, written, Fields.get?_set_self] at here
    rw [Fields.has, ← here] at absent
    cases absent
  · intro uncapped
    suffices idle : applyThinkingTokenBudget payload settings.thinkingBudgetRatio field
        settings.reasoningBudgetTokens = payload by
      rw [idle]
      exact fun _ => rfl
    by_cases zero : settings.reasoningBudgetTokens = 0
    · rw [applyThinkingTokenBudget, if_pos ⟨zero, ratio⟩]
    have negative : settings.reasoningBudgetTokens < 0 := lt_of_le_of_ne tokens zero
    rw [applyThinkingTokenBudget, if_neg fun both => zero both.1]
    split
    · rfl
    · next absent =>
        cases kwargs : payload.get "chat_template_kwargs" with
        | obj ck =>
            dsimp only
            split
            · next on =>
                cases written : thinkingTokenBudget payload settings.thinkingBudgetRatio
                  settings.reasoningBudgetTokens with
                | none => rfl
                | some budget =>
                    refine absurd ⟨negative, by simpa using absent, ⟨ck, kwargs, on⟩, ?_⟩ uncapped
                    rw [← thinkingTokenBudget_isSome payload ratio negative, written]
                    rfl
            · rfl
        | _ => rfl

/-! ### The two ways out -/

namespace LocalEngine

def earlyReturn : LocalEngine → PrepareSettings → Fields → Bool
  | llamaCpp => LlamaCpp.earlyReturn
  | vllm => VLLM.earlyReturn

/-- What `prepare_chat_payload` runs where it does not return early. -/
def body : LocalEngine → (Json → String) → PrepareSettings → Fields → Option Fields
  | llamaCpp => LlamaCpp.body
  | vllm => VLLM.body

/-- `descriptor.reasoning_budget_field`. -/
def reasoningBudgetField : LocalEngine → String
  | llamaCpp => LlamaCpp.reasoningBudgetField
  | vllm => VLLM.reasoningBudgetField

theorem prepareChatPayload_eq (engine : LocalEngine) (pyStr : Json → String) (settings : PrepareSettings)
    (payload : Fields) : engine.prepareChatPayload pyStr settings payload =
      if engine.earlyReturn settings payload then some payload
      else engine.body pyStr settings payload := by
  cases engine with
  | llamaCpp => exact LlamaCpp.prepareChatPayload_eq pyStr settings payload
  | vllm => exact VLLM.prepareChatPayload_eq pyStr settings payload

theorem body_of_earlyReturn {engine : LocalEngine} (pyStr : Json → String)
    {payload : Fields}
    (early : engine.earlyReturn settings payload = true) :
    engine.body pyStr settings payload =
      some (applyThinkingTokenBudget payload settings.thinkingBudgetRatio
        engine.reasoningBudgetField settings.reasoningBudgetTokens) := by
  cases engine with
  | llamaCpp => exact LlamaCpp.body_of_earlyReturn pyStr early
  | vllm => exact VLLM.body_of_earlyReturn pyStr early

theorem declared_of_earlyReturn {engine : LocalEngine} {payload : Fields}
    (early : engine.earlyReturn settings payload = true) : settings.declared = false := by
  cases engine with
  | llamaCpp =>
      simp only [earlyReturn, LlamaCpp.earlyReturn, Bool.and_eq_true, Bool.not_eq_true'] at early
      exact early.2
  | vllm =>
      simp only [earlyReturn, VLLM.earlyReturn, Bool.and_eq_true, Bool.not_eq_true'] at early
      exact early.2

/-- The rest of the function would have given an equal payload: the same keys, with equal values. -/
def Agrees (engine : LocalEngine) (pyStr : Json → String) (settings : PrepareSettings)
    (payload : Fields) : Prop :=
  ∃ out, engine.body pyStr settings payload = some out ∧ ∀ key, out.get? key = payload.get? key

theorem agrees_iff {engine : LocalEngine} (pyStr : Json → String)
    {payload : Fields} (early : engine.earlyReturn settings payload = true) :
    engine.Agrees pyStr settings payload ↔
      ¬Capped engine.reasoningBudgetField settings payload := by
  rw [Agrees, body_of_earlyReturn pyStr early, ← applyThinkingTokenBudget_idle_iff _ _ (declared_of_earlyReturn early)]
  simp

end LocalEngine

end Roadstead
