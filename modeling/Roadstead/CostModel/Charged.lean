import Roadstead.CostModel.Untyped

/-!
# What admission charges

When reading a payload returns, and when what it charges is not negative.

Counting raises in two places only: on `messages` that cannot be iterated, and on a content part
without text whose `type` is a list or an object, which cannot be looked up in a set
(`estimateInputTokens_ok_iff`).  `max_tokens` is divided as it came, unless the call site has
five samples, when it is compared and clamped from below (`Sound.estimateOf_ok_iff`).
-/

namespace Roadstead

open Json (Fields Flt)
open Untyped

/-! ### Counting -/

theorem exists_bind_ok {α β : Type} {x : Except Raised α} {f : α → Except Raised β}
    (total : ∀ a, ∃ c, f a = .ok c) : (∃ c, (x >>= f) = .ok c) ↔ ∃ a, x = .ok a := by
  cases x with
  | error e => exact ⟨nofun, nofun⟩
  | ok a => exact ⟨fun _ => ⟨a, rfl⟩, fun _ => total a⟩

/-- Two numbers are added when both are there. -/
theorem exists_add_ok {x y : Except Raised ℕ} :
    (∃ n, (do let a ← x; let c ← y; return a + c : Except Raised ℕ) = .ok n) ↔
      (∃ n, x = .ok n) ∧ ∃ n, y = .ok n := by
  cases x with
  | error e => exact ⟨nofun, fun h => nomatch h.1⟩
  | ok a =>
      have rest : (∃ n, (do let c ← y; return a + c : Except Raised ℕ) = .ok n) ↔
          ∃ n, y = .ok n := exists_bind_ok fun c => ⟨a + c, rfl⟩
      exact rest.trans ⟨fun h => ⟨⟨a, rfl⟩, h⟩, fun h => h.2⟩

mutual

/-- No part without text has a list or an object as its type, also inside tool results. -/
def contentCounts : Json → Bool
  | .arr parts => partsCount parts
  | _ => true

def partsCount : List Json → Bool
  | [] => true
  | part :: parts => partCounts part && partsCount parts

def partCounts : Json → Bool
  | .obj part =>
      match partKind part with
      | .toolResult => resultCounts part
      | .other ptype => hashable ptype
      | _ => true
  | _ => true

def resultCounts : List (String × Json) → Bool
  | [] => true
  | (key, value) :: fields => if key = "content" then contentCounts value else resultCounts fields

end

section Counting

variable (b : Builtins)

mutual

theorem contentChars_ok_iff : ∀ value : Json,
    (∃ n, contentChars b value = .ok n) ↔ contentCounts value = true
  | .null | .bool _ | .int _ | .float _ | .str _ | .obj _ => by simp [contentChars, contentCounts]
  | .arr parts => by simpa only [contentChars, contentCounts] using partsChars_ok_iff parts

theorem partsChars_ok_iff : ∀ parts : List Json,
    (∃ n, partsChars b parts = .ok n) ↔ partsCount parts = true
  | [] => by simp [partsChars, partsCount]
  | part :: parts => by
      rw [partsChars, partsCount, Bool.and_eq_true, exists_add_ok]
      exact and_congr (partChars_ok_iff part) (partsChars_ok_iff parts)

theorem partChars_ok_iff : ∀ part : Json,
    (∃ n, partChars b part = .ok n) ↔ partCounts part = true
  | .null | .bool _ | .int _ | .float _ | .str _ | .arr _ => by simp [partChars, partCounts]
  | .obj part => by
      rw [partChars, partCounts]
      cases partKind part with
      | text s => simp
      | toolUse => simp
      | toolResult => exact resultChars_ok_iff part
      | other ptype =>
          by_cases h : hashable ptype = false
          · simp [h]
          · simp only
            rw [if_neg h]
            refine iff_of_true ?_ (Bool.eq_true_of_not_eq_false h)
            split
            · exact ⟨0, rfl⟩
            · exact ⟨_, rfl⟩

theorem resultChars_ok_iff : ∀ fields : List (String × Json),
    (∃ n, resultChars b fields = .ok n) ↔ resultCounts fields = true
  | [] => by simp [resultChars, resultCounts]
  | (key, value) :: fields => by
      rw [resultChars, resultCounts]
      split
      · exact contentChars_ok_iff value
      · exact resultChars_ok_iff fields

end

end Counting

/-! ### The prompt -/

def messageCounts : Json → Bool
  | .obj msg => contentCounts (Fields.get msg "content")
  | _ => true

/-- The messages can be iterated, and each can be counted. -/
def countable (payload : Fields) : Bool :=
  match payload.get "messages" with
  | .arr items => items.all messageCounts
  | .str _ => true
  | .obj _ => true
  | value => !value.truthy

section Prompt

variable (b : Builtins)

theorem messageChars_ok_iff (msg : Json) :
    (∃ n, messageChars b msg = .ok n) ↔ messageCounts msg = true := by
  cases msg with
  | obj msg =>
      rw [messageChars, messageCounts, ← contentChars_ok_iff b]
      exact exists_bind_ok fun content => ⟨_, rfl⟩
  | _ => simp [messageChars, messageCounts]

theorem messagesChars_ok_iff (msgs : List Json) :
    (∃ n, messagesChars b msgs = .ok n) ↔ msgs.all messageCounts = true := by
  induction msgs with
  | nil => simp [messagesChars]
  | cons msg msgs ih =>
      rw [messagesChars, exists_add_ok, List.all_cons, Bool.and_eq_true]
      exact and_congr (messageChars_ok_iff b msg) ih

/-- The characters of a string and the keys of a mapping are texts. -/
theorem counts_texts (texts : List String) : (texts.map Json.str).all messageCounts = true := by
  simp [messageCounts]

theorem estimateInputTokens_ok_iff (payload : Fields) :
    (∃ n, estimateInputTokens b payload = .ok n) ↔ countable payload = true := by
  let rest (items : List Json) : Except Raised ℕ := messagesChars b items >>= fun messages =>
    let tools := payload.get "tools"
    let fixed :=
      systemChars b (payload.get "system") + if tools.truthy then jsonChars b tools else 0
    pure (max 1 ((fixed + messages) / 4))
  have counted (items : List Json) : (∃ n, rest items = .ok n) ↔ items.all messageCounts = true :=
    (exists_bind_ok fun _ => ⟨_, rfl⟩).trans (messagesChars_ok_iff b items)
  have scalar {value : Json}
      (items : messageItems value = if value.truthy then .error .typeError else .ok []) :
      (∃ n, (messageItems value >>= rest) = .ok n) ↔ (!value.truthy) = true := by
    rw [items]
    cases value.truthy with
    | false => exact iff_of_true ((counted []).mpr rfl) rfl
    | true => exact iff_of_false nofun nofun
  show (∃ n, (messageItems (payload.get "messages") >>= rest) = .ok n) ↔ _
  unfold countable
  cases payload.get "messages" with
  | null | bool _ | int _ | float _ => exact scalar rfl
  | arr items => exact counted items
  | str s =>
      refine iff_of_true ((counted _).mpr ?_) rfl
      simpa [Function.comp_def] using counts_texts (s.toList.map fun c => .singleton c)
  | obj fields =>
      refine iff_of_true ((counted _).mpr ?_) rfl
      simpa [Function.comp_def] using counts_texts (fields.map Prod.fst)

end Prompt

/-! ### The charge -/

namespace EndpointCostModel

/-- The rate `max_tokens` is divided by. -/
def rateAt (m : EndpointCostModel) (currentOccupancy : ℕ) : ℚ :=
  if m.decodeTps = [] ∨ m.maxSlots ≤ 0 then 40 else m.curveRate currentOccupancy

/-- A `max_tokens` the model can charge for: any number once the call site is known, and
otherwise a number of which no more is missing to zero than the prompt pays for. -/
def accepts (m : EndpointCostModel) (inputTokens : ℕ) (maxOutput : Json) (callSite : String)
    (currentOccupancy : ℕ) : Bool :=
  if (m.seasoned callSite).isSome then isNumber maxOutput
  else
    (toDouble maxOutput).toOption.any
      (atLeast (-(m.prefillK * inputTokens * m.rateAt currentOccupancy)))

variable {m : EndpointCostModel}

theorem Sound.rateAt_pos (sound : m.Sound) (currentOccupancy : ℕ) :
    0 < m.rateAt currentOccupancy := by
  unfold rateAt
  split
  · norm_num
  · rename_i curve
    rw [not_or, not_le] at curve
    unfold curveRate
    simp only
    split
    · rename_i within
      have inside : (min (max 1 ((currentOccupancy : ℤ) + 1)) m.maxSlots - 1).toNat <
          m.decodeTps.length := by omega
      rw [List.getD_eq_getElem _ _ inside]
      exact sound.decodeTps _ (List.getElem_mem inside)
    · rw [List.getLastD_eq_getLast?, List.getLast?_eq_some_getLast curve.1]
      exact sound.decodeTps _ (List.getLast_mem curve.1)

/-- With positive rates the two branches are one. -/
theorem Sound.estimateOf_eq (sound : m.Sound) (inputTokens : ℕ) (maxOutput : Json)
    (callSite : String) (currentOccupancy : ℕ) :
    m.estimateOf inputTokens maxOutput callSite currentOccupancy =
      (do
        let estOutput ← m.outputOf maxOutput callSite
        let output ← toDouble estOutput
        return add (m.prefillK * inputTokens) (dividedBy (m.rateAt currentOccupancy) output)) := by
  have positive := sound.rateAt_pos currentOccupancy
  unfold estimateOf
  unfold rateAt at positive ⊢
  by_cases flat : m.decodeTps = [] ∨ m.maxSlots ≤ 0
  · simp only [if_pos flat]
  · rw [if_neg flat] at positive
    simp only [if_neg flat, if_pos positive]

end EndpointCostModel

theorem atLeast_add_over (q : ℚ) {rate : ℚ} (positive : 0 < rate) (x : Flt) :
    atLeast 0 (add q (dividedBy rate x)) = atLeast (-(q * rate)) x := by
  cases x with
  | finite x =>
      have same : 0 ≤ q + x / rate ↔ -(q * rate) ≤ x := by
        have sum : q + x / rate = (q * rate + x) / rate := by
          rw [add_div, mul_div_cancel_right₀ _ positive.ne']
        rw [sum, le_div_iff₀ positive, zero_mul, neg_le_iff_add_nonneg']
      simp only [dividedBy, add, atLeast, same]
  | infinite negative | nan => rfl

theorem clamped_ok_iff (value : Json) (p95 : ℤ) :
    (∃ q, clamped value p95 = .ok q) ↔ isNumber value = true := by
  cases value with
  | float x => cases x <;> simp [clamped, isNumber]
  | _ => simp [clamped, isNumber]

theorem one_le_clamped {value : Json} {p95 : ℤ} {q : ℚ} (h : clamped value p95 = .ok q) :
    1 ≤ q := by
  have clamp (x : ℚ) : 1 ≤ max 1 x := le_max_left 1 x
  rcases value with _ | _ | _ | (_ | negative | _) | _ | _ | _
  case bool => exact (clamp _).trans_eq (Except.ok.inj h)
  case int => exact (clamp _).trans_eq (Except.ok.inj h)
  case float.finite => exact (clamp _).trans_eq (Except.ok.inj h)
  case float.infinite =>
    refine le_of_le_of_eq ?_ (Except.ok.inj h)
    split
    · exact le_rfl
    · exact clamp _
  case float.nan => exact (Except.ok.inj h).le
  all_goals exact nomatch h

/-- What is charged for a payload is not negative exactly when the model accepts `max_tokens`. -/
theorem EndpointCostModel.Sound.estimateOf_ok_iff {m : EndpointCostModel} (sound : m.Sound)
    (inputTokens : ℕ) (maxOutput : Json) (callSite : String) (currentOccupancy : ℕ) :
    (∃ cost, m.estimateOf inputTokens maxOutput callSite currentOccupancy = .ok cost ∧
        atLeast 0 cost = true) ↔
      m.accepts inputTokens maxOutput callSite currentOccupancy = true := by
  have positive := sound.rateAt_pos currentOccupancy
  rw [sound.estimateOf_eq]
  unfold outputOf accepts
  cases known : m.seasoned callSite with
  | some ewma =>
      simp only [Option.isSome_some, if_true]
      rw [← clamped_ok_iff maxOutput ewma.intP95]
      cases read : clamped maxOutput ewma.intP95 with
      | error e => exact iff_of_false (fun ⟨_, h, _⟩ => nomatch h) nofun
      | ok q =>
          have prompt : 0 ≤ m.prefillK * inputTokens :=
            mul_nonneg sound.prefillK (Nat.cast_nonneg _)
          have output : 0 ≤ q / m.rateAt currentOccupancy :=
            div_nonneg (zero_le_one.trans (one_le_clamped read)) positive.le
          exact iff_of_true ⟨_, rfl, decide_eq_true (add_nonneg prompt output)⟩ ⟨q, rfl⟩
  | none =>
      simp only [Option.isSome_none, Bool.false_eq_true, if_false]
      show (∃ cost, (toDouble maxOutput >>= _) = .ok cost ∧ _) ↔ _
      cases read : toDouble maxOutput with
      | error e => exact iff_of_false (fun ⟨_, h, _⟩ => nomatch h) nofun
      | ok x =>
          rw [Except.toOption, Option.any_some, ← atLeast_add_over _ positive]
          exact ⟨fun ⟨_, h, least⟩ => Except.ok.inj h ▸ least, fun least => ⟨_, rfl, least⟩⟩

namespace CostModel

/-- A `max_tokens` that is charged for; an endpoint without a model takes what `float` reads
as a number that is not negative. -/
def accepts (b : Builtins) (c : CostModel) (endpoint : String) (inputTokens : ℕ)
    (maxOutput : Json) (callSite : String) (currentOccupancy : ℕ) : Bool :=
  match c.models.get? endpoint with
  | none => (floatOf b maxOutput).toOption.any (atLeast 0)
  | some m => m.accepts inputTokens maxOutput callSite currentOccupancy

theorem Sound.estimateOf_ok_iff (b : Builtins) {c : CostModel} (sound : c.Sound)
    (endpoint : String) (inputTokens : ℕ) (maxOutput : Json) (callSite : String)
    (currentOccupancy : ℕ) :
    (∃ cost, c.estimateOf b endpoint inputTokens maxOutput callSite currentOccupancy = .ok cost ∧
        atLeast 0 cost = true) ↔
      c.accepts b endpoint inputTokens maxOutput callSite currentOccupancy = true := by
  unfold estimateOf accepts
  cases known : c.models.get? endpoint with
  | some m => exact (sound endpoint m known).estimateOf_ok_iff _ _ _ _
  | none =>
      simp only
      cases read : floatOf b maxOutput with
      | error e => exact iff_of_false (fun ⟨_, h, _⟩ => nomatch h) nofun
      | ok x =>
          have whole : atLeast 0 (dividedBy 40 x) = atLeast 0 x := by
            have := atLeast_add_over 0 (by norm_num : (0 : ℚ) < 40) x
            rw [zero_mul, neg_zero] at this
            rw [← this]
            cases x <;> simp [add, dividedBy]
          rw [Except.toOption, Option.any_some, ← whole]
          exact ⟨fun ⟨_, h, least⟩ => Except.ok.inj h ▸ least, fun least => ⟨_, rfl, least⟩⟩

end CostModel

/-! ### Admission -/

/-- The tokens that are estimated for a prompt, where the estimate returns. -/
def promptTokens (b : Builtins) (payload : Fields) : ℕ :=
  (estimateInputTokens b payload).toOption.getD 0

namespace Scheduler

/-- What the cost model says to the `max_tokens` of a payload. -/
def accepts (b : Builtins) (s : Scheduler) (endpoint callSite : String) (payload : Fields) : Bool :=
  s.cost.accepts b endpoint (promptTokens b payload) (maxOutputOf payload) callSite
    (s.activeOf endpoint).size

/-- An estimate is a count and a charge. -/
theorem estimates_ok_iff (b : Builtins) (s : Scheduler) (sound : s.cost.Sound)
    (endpoint callSite : String) (payload : Fields) :
    (∃ e, s.estimates b endpoint callSite payload = .ok e ∧
        atLeast 0 e.estimatedCostSs = true) ↔
      countable payload = true ∧ s.accepts b endpoint callSite payload = true := by
  rw [← estimateInputTokens_ok_iff b]
  unfold estimates accepts promptTokens
  cases read : estimateInputTokens b payload with
  | error e => exact iff_of_false (fun ⟨_, h, _⟩ => nomatch h) fun h => nomatch h.1
  | ok tokens =>
      simp only [Except.toOption, Option.getD_some]
      rw [← sound.estimateOf_ok_iff b]
      show (∃ e, (s.cost.estimateOf _ _ _ _ _ _ >>= _) = .ok e ∧ _) ↔ _
      cases s.cost.estimateOf b endpoint tokens (maxOutputOf payload) callSite
        (s.activeOf endpoint).size with
      | error e => exact iff_of_false (fun ⟨_, h, _⟩ => nomatch h) fun h => nomatch h.2
      | ok cost =>
          constructor
          · rintro ⟨e, h, least⟩
            obtain rfl := Except.ok.inj h
            exact ⟨⟨tokens, rfl⟩, cost, rfl, least⟩
          · rintro ⟨-, cost', h, least⟩
            obtain rfl := Except.ok.inj h
            exact ⟨_, rfl, least⟩

end Scheduler

/-- A payload that the context gate has measured can be counted. -/
theorem countable_of_gate {b : Builtins} {enforce : Bool} {ctxLimit : ℤ} {payload : Fields}
    (known : 0 < ctxLimit)
    (passes : passesGates b enforce "chat_completion" ctxLimit payload = .ok true) :
    countable payload = true := by
  rw [← estimateInputTokens_ok_iff b]
  unfold passesGates contextFitOf at passes
  have measured : ¬("chat_completion" ≠ "chat_completion" ∨ ctxLimit ≤ 0) := by
    rw [not_or, not_le]
    exact ⟨fun h => h rfl, known⟩
  rw [if_neg (fun h => h rfl), if_neg measured] at passes
  split at passes
  · exact nomatch passes
  · cases read : estimateInputTokens b payload with
    | error e =>
        rw [read] at passes
        exact nomatch passes
    | ok tokens => exact ⟨tokens, rfl⟩

/-- For a payload that has passed the gates, `enqueue` returns with a cost that is not negative
exactly when it can count the prompt and charge for `max_tokens`. -/
theorem charge_sound_iff (b : Builtins) {ops : List CostModel.Op} (legal : ∀ op ∈ ops, op.Legal)
    {s : Scheduler} (reached : ops.foldlM CostModel.step {} = .ok s.cost) {enforce : Bool}
    {payloadType : String} {ctxLimit : ℤ} {payload : Fields}
    (passes : passesGates b enforce payloadType ctxLimit payload = .ok true)
    (endpoint callSite : String) :
    (∃ e, s.estimates b endpoint callSite payload = .ok e ∧
        atLeast 0 e.estimatedCostSs = true) ↔
      (payloadType = "chat_completion" ∧ 0 < ctxLimit ∨ countable payload = true) ∧
        s.accepts b endpoint callSite payload = true := by
  have empty : CostModel.Sound {} := fun ep m known => by simp at known
  obtain ⟨c, returned, sound⟩ := empty.run legal
  obtain rfl : c = s.cost := Except.ok.inj (returned.symm.trans reached)
  rw [s.estimates_ok_iff b sound]
  refine and_congr_left fun _ => ⟨.inr, ?_⟩
  rintro (⟨rfl, known⟩ | counted)
  · exact countable_of_gate known passes
  · exact counted

/-- A greeting, with the given `max_tokens`. -/
def greeting (maxTokens : Json) : Fields :=
  [("messages", .arr [.obj [("role", .str "user"), ("content", .str "hi")]]),
    ("max_tokens", maxTokens)]

/-- A content part whose type is a list. -/
def oddPart : Fields :=
  [("messages", .arr [.obj [("role", .str "user"),
    ("content", .arr [.obj [("type", .arr [])]])]])]

/-- Nothing is serialized, and no text is read as a number. -/
def noText : Builtins := ⟨fun _ => 0, fun _ => 0, fun _ => none⟩

/-- One endpoint of two slots is registered. -/
def localOnly : Scheduler where
  queues := ∅
  active := ∅
  budgets := {}
  cost := { models := ⟨[("local", .registered "local" 2 (4 / 10000) (some [57, 50]))], by decide⟩ }

theorem charge_sound_greeting :
    (∃ e, localOnly.estimates noText "local" "chat" (greeting (.int 64)) = .ok e ∧
        atLeast 0 e.estimatedCostSs = true) ↔
      ("chat_completion" = "chat_completion" ∧ (0 : ℤ) < 8192 ∨
          countable (greeting (.int 64)) = true) ∧
        localOnly.accepts noText "local" "chat" (greeting (.int 64)) = true :=
  have legal : ∀ op ∈ [CostModel.Op.registerEndpoint "local" 2 (4 / 10000) (some [57, 50])],
      op.Legal := fun op h => List.mem_singleton.mp h ▸ ⟨by norm_num, by simp⟩
  charge_sound_iff noText legal rfl
    (by decide : passesGates noText true _ 8192 _ = .ok true) "local" "chat"

/-- Three payloads that the gates let through: `max_tokens` is null, it is negative, and a part
has a list for its type while the context is not known. -/
theorem admission_charges_wrong :
    passesGates noText true "chat_completion" 8192 (greeting .null) = .ok true ∧
      localOnly.estimates noText "local" "chat" (greeting .null) = .error .typeError ∧
      passesGates noText true "chat_completion" 8192 (greeting (.int (-4000))) = .ok true ∧
      (∃ e, localOnly.estimates noText "local" "chat" (greeting (.int (-4000))) = .ok e ∧
        atLeast 0 e.estimatedCostSs = false) ∧
      passesGates noText true "chat_completion" 0 oddPart = .ok true ∧
      localOnly.estimates noText "local" "chat" oddPart = .error .typeError := by
  let cost : ℚ := 4 / 10000 - 4000 / 57
  exact ⟨by decide, by decide, by decide,
    ⟨⟨1, .finite cost⟩, by decide +kernel, by decide +kernel⟩, by decide +kernel,
    by decide⟩

end Roadstead
