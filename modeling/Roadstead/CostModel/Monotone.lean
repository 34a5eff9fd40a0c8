import Roadstead.CostModel.Charged
import Roadstead.CostModel.Enlarged

/-!
# Estimates do not sink

The estimate of a payload is not lowered by what enlarges it (`estimateInputTokens_le`), where
both return; they do on what can be counted.  So what did not fit a context does not begin to, and
what fits one fits every larger one (`estimate_monotone`): only a context of zero, which is one that
is not known, admits what a larger one refuses.
-/

namespace Roadstead

open Json (Fields Flt Longer LongerText)

/-! ### Counting is not lowered -/

/-- Where both counts return, the second is not lower. -/
def NotLower (x y : Except Raised ℕ) : Prop := ∀ n n', x = .ok n → y = .ok n' → n ≤ n'

theorem NotLower.of_le {n n' : ℕ} (h : n ≤ n') : NotLower (.ok n) (.ok n') := by
  rintro _ _ ⟨⟩ ⟨⟩
  exact h

theorem NotLower.zero (y : Except Raised ℕ) : NotLower (.ok 0) y := by
  rintro _ n' ⟨⟩ -
  exact Nat.zero_le n'

theorem NotLower.refl (x : Except Raised ℕ) : NotLower x x := by
  rintro n n' h h'
  exact (Except.ok.inj (h.symm.trans h')).le

theorem NotLower.bind {x y : Except Raised ℕ} (h : NotLower x y) {f g : ℕ → ℕ}
    (le : ∀ a c, a ≤ c → f a ≤ g c) :
    NotLower (x >>= fun a => pure (f a)) (y >>= fun c => pure (g c)) := by
  cases x with
  | error e => exact fun _ _ raised => nomatch raised
  | ok a =>
      cases y with
      | error e => exact fun _ _ _ raised => nomatch raised
      | ok c => exact .of_le (le a c (h a c rfl rfl))

theorem NotLower.add {x y x' y' : Except Raised ℕ} (h : NotLower x x') (h' : NotLower y y') :
    NotLower (do let a ← x; let c ← y; return a + c) (do let a ← x'; let c ← y'; return a + c) := by
  cases x with
  | error e => exact fun _ _ raised => nomatch raised
  | ok a =>
      cases x' with
      | error e => exact fun _ _ _ raised => nomatch raised
      | ok a' => exact h'.bind fun c c' le => Nat.add_le_add (h a a' rfl rfl) le

variable {b : Builtins}

theorem jsonChars_le (monotone : b.Monotone) {value value' : Json} (h : Longer value value') :
    jsonChars b value ≤ jsonChars b value' := by
  have dumped := monotone.dumps value value' h
  rcases h.shape with ⟨s, t, rfl, rfl, longer⟩ | ⟨items, items', rfl, rfl, -⟩ |
    ⟨fields, fields', rfl, rfl, -⟩ | rfl
  · exact longer.length_le
  · exact dumped
  · exact dumped
  · exact le_rfl

theorem strLength_le (monotone : b.Monotone) {value value' : Json} (h : Longer value value') :
    strLength b value ≤ strLength b value' := by
  have printed := monotone.str value value' h
  rcases h.shape with ⟨s, t, rfl, rfl, longer⟩ | ⟨items, items', rfl, rfl, -⟩ |
    ⟨fields, fields', rfl, rfl, -⟩ | rfl
  · exact longer.length_le
  · exact printed
  · exact printed
  · exact le_rfl

/-- `len(str(name or ""))`. -/
theorem nameLength_le (monotone : b.Monotone) {name name' : Json} (h : Longer name name') :
    strLength b (if name.truthy then name else .str "") ≤
      strLength b (if name'.truthy then name' else .str "") := by
  by_cases there : name.truthy = true
  · rw [if_pos there, if_pos (h.truthy there)]
    exact strLength_le monotone h
  · rw [if_neg there]
    exact Nat.zero_le _

theorem functionChars_le (monotone : b.Monotone) {fn fn' : Fields} (h : FunctionGrown fn fn') :
    functionChars b fn ≤ functionChars b fn' :=
  Nat.add_le_add (nameLength_le monotone h.1) (jsonChars_le monotone h.2)

theorem toolCallChars_le (monotone : b.Monotone) (call call' : Json) (h : CallGrown call call') :
    toolCallChars b call ≤ toolCallChars b call' := by
  cases call with
  | obj call =>
      cases call' with
      | obj call' => exact functionChars_le monotone h
      | _ => cases h
  | _ => exact Nat.zero_le _

theorem resultChars_eq (b : Builtins) (fields : List (String × Json)) :
    resultChars b fields = contentChars b (Fields.get fields "content") := by
  induction fields with
  | nil => simp [resultChars, Fields.get, contentChars]
  | cons field fields ih =>
      rw [resultChars, ih, Fields.get, Fields.get, Fields.get?_cons]
      by_cases here : field.1 = "content"
      · rw [if_pos here, if_pos here, Option.getD_some]
      · rw [if_neg here, if_neg here]

mutual

theorem contentChars_notLower (monotone : b.Monotone) : ∀ value value' : Json,
    ContentGrown value value' → NotLower (contentChars b value) (contentChars b value')
  | .null, _, h | .bool _, _, h | .int _, _, h | .float _, _, h => h ▸ .refl _
  | .str s, value', h => by
      cases value' with
      | str t => exact .of_le (LongerText.length_le h)
      | _ => cases h
  | .obj fields, value', h => by
      cases value' with
      | obj fields' =>
          have longer : Longer (.obj fields) (.obj fields') := h
          exact .of_le (jsonChars_le monotone longer)
      | _ => cases h
  | .arr parts, value', h => by
      cases value' with
      | arr parts' => exact partsChars_notLower monotone parts parts' h
      | _ => cases h

theorem partsChars_notLower (monotone : b.Monotone) : ∀ parts parts' : List Json,
    PartsGrown parts parts' → NotLower (partsChars b parts) (partsChars b parts')
  | [], parts', _ => .zero (partsChars b parts')
  | _ :: _, [], h => h.elim
  | part :: parts, part' :: parts', h =>
      (partChars_notLower monotone part part' h.1).add
        (partsChars_notLower monotone parts parts' h.2)

theorem partChars_notLower (monotone : b.Monotone) : ∀ part part' : Json, PartGrown part part' →
    NotLower (partChars b part) (partChars b part')
  | .null, _, h | .bool _, _, h | .int _, _, h | .float _, _, h | .arr _, _, h => h ▸ .refl _
  | .str s, part', h => by
      cases part' with
      | str t => exact .of_le (LongerText.length_le h)
      | _ => cases h
  | .obj part, .null, h | .obj part, .bool _, h | .obj part, .int _, h | .obj part, .float _, h
  | .obj part, .str _, h | .obj part, .arr _, h => nomatch h
  | .obj part, .obj part', h => by
      rw [PartGrown] at h
      rw [partChars, partChars]
      cases kind : partKind part with
      | text s =>
          simp only [kind] at h
          obtain ⟨t, kind', longer⟩ := h
          simp only [kind']
          exact .of_le longer.length_le
      | toolUse =>
          simp only [kind] at h
          obtain ⟨kind', name, input⟩ := h
          simp only [kind']
          exact .of_le (Nat.add_le_add (nameLength_le monotone name) (jsonChars_le monotone input))
      | toolResult =>
          simp only [kind] at h
          obtain ⟨kind', content⟩ := h
          simp only [kind']
          rw [resultChars_eq b part']
          exact resultChars_notLower monotone part _ content
      | other ptype =>
          simp only [kind] at h
          obtain ⟨kind', fields⟩ := h
          simp only [kind']
          -- Of one type, either both parts are serialized or neither is counted.
          split
          · exact .refl _
          · split
            · exact .refl _
            · have longer : Longer (.obj part) (.obj part') := fields
              exact .of_le (jsonChars_le monotone longer)

theorem resultChars_notLower (monotone : b.Monotone) :
    ∀ (fields : List (String × Json)) (content : Json),
      ResultGrown fields content → NotLower (resultChars b fields) (contentChars b content)
  | [], content, _ => .zero (contentChars b content)
  | (key, value) :: fields, content, h => by
      rw [ResultGrown] at h
      rw [resultChars]
      by_cases here : key = "content"
      · rw [if_pos here] at h ⊢
        exact contentChars_notLower monotone value content h
      · rw [if_neg here] at h ⊢
        exact resultChars_notLower monotone fields content h

end

/-! ### The prompt -/

theorem messageChars_notLower (monotone : b.Monotone) (msg msg' : Json)
    (h : MessageGrown msg msg') : NotLower (messageChars b msg) (messageChars b msg') := by
  cases msg with
  | str s =>
      cases msg' with
      | str t => exact .of_le (LongerText.length_le h)
      | _ => cases h
  | obj msg =>
      cases msg' with
      | obj msg' =>
          obtain ⟨content, calls, legacy⟩ := h
          have ofCalls := calls.sum_le (toolCallChars_le monotone)
          have ofLegacy := legacy.sum_le fun _ _ same => functionChars_le monotone same
          -- The legacy call is a list of at most one, as the calls are a list.
          have total (fn : Option Fields) :
              (fn.map (functionChars b)).getD 0 = (fn.toList.map (functionChars b)).sum := by
            cases fn with
            | none => rfl
            | some fn => simp
          rw [messageChars, messageChars]
          refine (contentChars_notLower monotone _ _ content).bind fun a c le => ?_
          rw [total, total]
          exact Nat.add_le_add (Nat.add_le_add le ofCalls) ofLegacy
      | _ => cases h
  | _ => exact h ▸ .refl _

theorem messagesChars_notLower (monotone : b.Monotone) : ∀ msgs msgs' : List Json,
    msgs.Grown MessageGrown msgs' → NotLower (messagesChars b msgs) (messagesChars b msgs')
  | [], msgs', _ => .zero (messagesChars b msgs')
  | _ :: _, [], h => h.elim
  | msg :: msgs, msg' :: msgs', h =>
      (messageChars_notLower monotone msg msg' h.1).add
        (messagesChars_notLower monotone msgs msgs' h.2)

/-- The characters of a string and the keys of a mapping are counted as they are. -/
theorem messagesChars_texts {α : Type} (b : Builtins) (text : α → String) : ∀ as : List α,
    messagesChars b (as.map fun a => .str (text a)) = .ok (as.map fun a => (text a).length).sum
  | [] => rfl
  | a :: as => by
      rw [List.map_cons, messagesChars, messagesChars_texts b text as]
      rfl

theorem messageItems_of_falsy {value : Json} (falsy : value.truthy = false) :
    messageItems value = .ok [] := by
  cases value with
  | arr items =>
      cases items with
      | nil => rfl
      | cons item items => exact nomatch falsy
  | obj fields =>
      cases fields with
      | nil => rfl
      | cons field fields => exact nomatch falsy
  | str s =>
      obtain rfl : s = "" := not_not.mp (of_decide_eq_false falsy)
      rfl
  | null => rfl
  | _ => exact if_neg (Bool.eq_false_iff.mp falsy)

theorem systemChars_of_falsy {value : Json} (falsy : value.truthy = false) :
    systemChars b value = 0 := by
  cases value with
  | arr parts =>
      cases parts with
      | nil => rfl
      | cons part parts => exact nomatch falsy
  | str s =>
      obtain rfl : s = "" := not_not.mp (of_decide_eq_false falsy)
      rfl
  | _ => rfl

/-- What messages are read from is iterated and counted. -/
theorem messagesCounted_notLower (monotone : b.Monotone) {value value' : Json}
    (h : MessagesGrown value value') :
    NotLower (messageItems value >>= messagesChars b)
      (messageItems value' >>= messagesChars b) := by
  have other (h : value.truthy = false ∨ value = value') :
      NotLower (messageItems value >>= messagesChars b)
        (messageItems value' >>= messagesChars b) := by
    rcases h with falsy | rfl
    · rw [messageItems_of_falsy falsy]
      exact .zero _
    · exact .refl _
  cases value with
  | arr msgs =>
      cases value' with
      | arr msgs' => exact messagesChars_notLower monotone msgs msgs' h
      | _ => exact other h
  | str s =>
      cases value' with
      | str t =>
          have longer : LongerText s t := h
          show NotLower (messagesChars b (s.toList.map _)) (messagesChars b (t.toList.map _))
          rw [messagesChars_texts, messagesChars_texts]
          exact .of_le (longer.sum_le _)
      | _ => exact other h
  | obj fields =>
      cases value' with
      | obj fields' =>
          have grown : fields.Grown (fun a b => LongerText a.1 b.1) fields' := h
          show NotLower (messagesChars b (fields.map _)) (messagesChars b (fields'.map _))
          rw [messagesChars_texts, messagesChars_texts]
          exact .of_le (grown.sum_le fun _ _ longer => longer.length_le)
      | _ => exact other h
  | _ => exact other h

theorem systemPartChars_le (monotone : b.Monotone) (part part' : Json)
    (h : SystemPartGrown part part') : systemPartChars b part ≤ systemPartChars b part' := by
  cases part with
  | str s =>
      cases part' with
      | str t => exact LongerText.length_le h
      | _ => cases h
  | obj part =>
      cases part' with
      | obj part' => exact strLength_le monotone h
      | _ => cases h
  | _ => exact Nat.zero_le _

theorem systemChars_le (monotone : b.Monotone) {value value' : Json}
    (h : SystemGrown value value') : systemChars b value ≤ systemChars b value' := by
  have other (h : value.truthy = false ∨ value = value') :
      systemChars b value ≤ systemChars b value' := by
    rcases h with falsy | rfl
    · rw [systemChars_of_falsy falsy]
      exact Nat.zero_le _
    · exact le_rfl
  cases value with
  | str s =>
      cases value' with
      | str t => exact LongerText.length_le h
      | _ => exact other h
  | arr parts =>
      cases value' with
      | arr parts' =>
          have grown : parts.Grown SystemPartGrown parts' := h
          exact grown.sum_le (systemPartChars_le monotone)
      | _ => exact other h
  | _ => exact Nat.zero_le _

theorem toolsChars_le (monotone : b.Monotone) {tools tools' : Json}
    (h : tools.truthy = true → Longer tools tools') :
    (if tools.truthy then jsonChars b tools else 0) ≤
      if tools'.truthy then jsonChars b tools' else 0 := by
  by_cases there : tools.truthy = true
  · rw [if_pos there, if_pos ((h there).truthy there)]
    exact jsonChars_le monotone (h there)
  · rw [if_neg there]
    exact Nat.zero_le _

/-- An estimate is not lowered by what enlarges the payload. -/
theorem estimateInputTokens_le (monotone : b.Monotone) {payload payload' : Fields}
    (h : Enlarged payload payload') :
    NotLower (estimateInputTokens b payload) (estimateInputTokens b payload') := by
  have fixed := Nat.add_le_add (systemChars_le monotone h.system) (toolsChars_le monotone h.tools)
  have total (payload : Fields) : estimateInputTokens b payload =
      ((messageItems (payload.get "messages") >>= messagesChars b) >>= fun messages =>
        pure (max 1 ((systemChars b (payload.get "system") +
          (if (payload.get "tools").truthy then jsonChars b (payload.get "tools") else 0) +
            messages) / 4))) := (bind_assoc _ _ _).symm
  rw [total payload, total payload']
  refine (messagesCounted_notLower monotone h.messages).bind fun a c le => ?_
  exact max_le_max le_rfl (Nat.div_le_div_right (Nat.add_le_add fixed le))

theorem one_le_estimate {payload : Fields} {n : ℕ} (h : estimateInputTokens b payload = .ok n) :
    1 ≤ n := by
  unfold estimateInputTokens at h
  cases items : messageItems (payload.get "messages") with
  | error e =>
      rw [items] at h
      cases h
  | ok items' =>
      rw [items] at h
      change (messagesChars b items' >>= _) = _ at h
      cases counted : messagesChars b items' with
      | error e =>
          rw [counted] at h
          cases h
      | ok messages =>
          rw [counted] at h
          exact Except.ok.inj h ▸ le_max_left 1 _

/-! ### Contexts -/

/-- `context_fit(payload, payload_type, ctx_limit).fits`. -/
def fits (b : Builtins) (payload : Fields) (payloadType : String) (ctxLimit : ℤ) :
    Except Raised Bool :=
  (contextFitOf b payload payloadType ctxLimit).map ContextFit.fits

/-- A payload fits unless it is a chat completion, the context is known, and the prompt with the
answer is larger. -/
theorem fits_eq {payload : Fields} {n : ℕ} (h : estimateInputTokens b payload = .ok n)
    (payloadType : String) (ctxLimit : ℤ) :
    fits b payload payloadType ctxLimit = .ok (decide (payloadType = "chat_completion" →
      0 < ctxLimit → n + positiveInt (payload.get "max_tokens") ≤ ctxLimit)) := by
  unfold fits contextFitOf
  by_cases skipped : payloadType ≠ "chat_completion" ∨ ctxLimit ≤ 0
  · rw [if_pos skipped]
    refine congrArg Except.ok (decide_eq_true ?_).symm
    intro gated known
    rcases skipped with other | unknown
    · exact absurd gated other
    · exact absurd known (not_lt.mpr unknown)
  · rw [if_neg skipped, h]
    obtain ⟨gated, known⟩ := not_or.mp skipped
    refine congrArg Except.ok (decide_eq_decide.mpr ?_)
    exact ⟨fun within _ _ => within, fun within => within (not_not.mp gated) (not_le.mp known)⟩

/-- Where both payloads can be counted, the estimate is not lowered by what enlarges the first,
and the second fits no context that the first does not fit. -/
theorem estimate_monotone (floats : ℚ → ℕ) (printable : Char → Bool) (float : String → Option Flt)
    {payload payload' : Fields} (counts : countable payload = true)
    (counts' : countable payload' = true) (enlarged : Enlarged payload payload') :
    let b := python floats printable float
    ∃ n n', estimateInputTokens b payload = .ok n ∧ estimateInputTokens b payload' = .ok n' ∧
      1 ≤ n ∧ n ≤ n' ∧ ∀ (payloadType : String) (ctxLimit : ℤ),
        (fits b payload payloadType ctxLimit = .ok false →
          fits b payload' payloadType ctxLimit = .ok false) ∧
        (0 < ctxLimit → fits b payload payloadType ctxLimit = .ok true →
          ∀ larger ≥ ctxLimit, fits b payload payloadType larger = .ok true) := by
  intro b
  obtain ⟨n, estimated⟩ := (estimateInputTokens_ok_iff b payload).mpr counts
  obtain ⟨n', estimated'⟩ := (estimateInputTokens_ok_iff b payload').mpr counts'
  have le : n ≤ n' :=
    estimateInputTokens_le (monotone_python floats printable float) enlarged n n' estimated
      estimated'
  refine ⟨n, n', estimated, estimated', one_le_estimate estimated, le, ?_⟩
  intro payloadType ctxLimit
  rw [fits_eq estimated, fits_eq estimated', enlarged.maxTokens]
  simp only [Except.ok.injEq, decide_eq_false_iff_not, decide_eq_true_eq]
  constructor
  · -- What is larger would have fitted only if this had.
    refine mt fun within gated known => ?_
    exact (Int.add_le_add_right (Int.ofNat_le.mpr le) _).trans (within gated known)
  · intro known within larger wider
    rw [fits_eq estimated]
    refine congrArg Except.ok (decide_eq_true fun gated _ => ?_)
    exact (within gated known).trans wider

/-- The characters of ASCII that are printed as they are. -/
def asciiPrintable (c : Char) : Bool := decide (32 ≤ c.toNat ∧ c.toNat < 127)

theorem estimate_monotone_greeting :
    let b := python (fun _ => 3) asciiPrintable fun _ => none
    let payload := greeting (.int 64)
    let payload' := payload.set "messages" (.arr ([.obj [("role", .str "user"),
      ("content", .str "hi")]] ++ [.obj [("role", .str "assistant"), ("content", .str "hello")]]))
    ∃ n n', estimateInputTokens b payload = .ok n ∧ estimateInputTokens b payload' = .ok n' ∧
      1 ≤ n ∧ n ≤ n' ∧ ∀ (payloadType : String) (ctxLimit : ℤ),
        (fits b payload payloadType ctxLimit = .ok false →
          fits b payload' payloadType ctxLimit = .ok false) ∧
        (0 < ctxLimit → fits b payload payloadType ctxLimit = .ok true →
          ∀ larger ≥ ctxLimit, fits b payload payloadType larger = .ok true) :=
  estimate_monotone (fun _ => 3) asciiPrintable (fun _ => none) (by decide)
    (by decide) (.append_message rfl _)

/-- A message whose content is one part with data. -/
def dataPart (type : String) : Fields :=
  [("messages", .arr [.obj [("role", .str "user"),
    ("content", .arr [.obj [("type", .str type), ("data", .str "aGVsbG8gd29ybGQ=")]])]])]

/-- A context that is not known admits what a known one refuses, and the data of a part is no
longer counted when its type has become that of a file. -/
theorem estimate_sinks :
    let b := python (fun _ => 3) asciiPrintable fun _ => none
    fits b (greeting (.int 64)) "chat_completion" 0 = .ok true ∧
      fits b (greeting (.int 64)) "chat_completion" 5 = .ok false ∧
      LongerText "fil" "file" ∧
      estimateInputTokens b (dataPart "fil") = .ok 10 ∧
      estimateInputTokens b (dataPart "file") = .ok 1 := by
  intro b
  refine ⟨?_, ?_, LongerText.append "fil" "e", ?_, ?_⟩ <;> decide

end Roadstead
