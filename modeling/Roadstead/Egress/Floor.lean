import Roadstead.Egress

/-!
# The floor of a completed reply

`egress_floor_iff`: when `apply` is done with a reply to a request for JSON, the result is an error
without a body, or its content is blank or JSON, and a tool call that stands for a schema is not
shown, whatever the flags, the deadline and the engine are, if and only if the first reply and the
replies to what is asked again are `Sound`.  A sound body has a text, and one that is not JSON can
be counted: the last guard counts it before it refuses it, and lets it pass if that raises.

What follows the two finalisers is the same for the first reply and for one that was asked for
again, so `meets_correct_iff` is about that part alone.
-/

namespace Roadstead.Egress

open Json (Fields)
open Watched (choice0 message)

/-! ### What is asked of a result -/

/-- The text of a body is a string. -/
def isText (body : Fields) : Bool := ((chatCompletionText body).asStr?).isSome

/-- The content of a body is blank or JSON. -/
def holdsJson (body : Fields) : Bool :=
  ((chatCompletionText body).asStr?).any fun text =>
    blank text.toList || (Json.loads false text.toList).isSome

/-- The `completion_tokens` of a body are read without raising. -/
def countable (body : Fields) : Bool := (outputTokens body).isOk

/-- The tool calls of a message. -/
def callsIn (msg : Fields) : List Fields :=
  (((msg.get "tool_calls").asArr?).getD []).filterMap Json.asObj?

/-- A message has a tool call of the name. -/
def names (h : Helpers) (name : String) (msg : Fields) : Bool :=
  (callsIn msg).any fun tc => decide ((calledName h tc).toOption = some name)

/-- The choices of a body. -/
def choicesOf (body : Fields) : List Fields :=
  (((body.get "choices").asArr?).getD []).filterMap Json.asObj?

/-- Some choice of a body has a tool call of the name. -/
def shows (h : Helpers) (name : String) (body : Fields) : Bool :=
  (choicesOf body).any fun ch => names h name (((ch.get "message").asObj?).getD [])

/-- An error without a body, or a body with JSON in which the tool call is not seen that stands for
the schema. -/
def Meets (h : Helpers) (req : Ask) (result : Result) : Prop :=
  (result.status = .error ∧ result.response = none) ∨
    ∃ body, result.response = some body ∧ holdsJson body = true ∧
      (req.forcedToolSchema.isSome = true → shows h req.forcedToolName body = false)

/-! ### The last guard -/

section Floor

variable {h : Helpers} {s : Setting} {req : Ask} {result : Result} {body : Fields}

theorem floor_of_holds (there : result.response = some body) (holds : holdsJson body = true) :
    enforceStructuredValidity h s req result = result := by
  unfold enforceStructuredValidity
  rw [there]
  simp only
  split
  · rfl
  · cases text : chatCompletionText body with
    | str content =>
        rw [holdsJson, text] at holds
        exact if_pos holds
    | _ => rfl

theorem floor_of_uncounted (there : result.response = some body)
    (passed : isText body = false ∨ countable body = false) :
    enforceStructuredValidity h s req result = result := by
  unfold enforceStructuredValidity
  rw [there]
  simp only
  split
  · rfl
  · cases text : chatCompletionText body with
    | str content =>
        rw [isText, text] at passed
        have raised := passed.resolve_left Bool.noConfusion
        rw [countable] at raised
        cases tokens : outputTokens body with
        | ok tokens =>
            rw [tokens] at raised
            cases raised
        | error _ => simp
    | _ => rfl

theorem floor_of_counted (there : result.response = some body) (ok : result.status = .ok)
    (on : s.structuredValidity = true) (expects : requestExpectsJson h req = true)
    (holds : holdsJson body = false) (text : isText body = true) (counted : countable body = true) :
    (enforceStructuredValidity h s req result).status = .error ∧
      (enforceStructuredValidity h s req result).response = none := by
  have armed : ¬(s.structuredValidity = false ∨ result.status ≠ .ok ∨ requestExpectsJson h req = false) := by
    rw [on, expects, ok]
    decide
  cases content : chatCompletionText body with
  | str content' =>
      rw [holdsJson, content] at holds
      rw [countable] at counted
      cases tokens : outputTokens body with
      | ok tokens' =>
          have unparsed : ¬(blank content'.toList || (Json.loads false content'.toList).isSome) = true :=
            Bool.eq_false_iff.mp holds
          simp only [enforceStructuredValidity, there, if_neg armed, content, if_neg unparsed, tokens]
          exact ⟨rfl, rfl⟩
      | error _ =>
          rw [tokens] at counted
          cases counted
  | _ =>
      rw [isText, content] at text
      cases text

theorem isText_of_holdsJson (holds : holdsJson body = true) : isText body = true := by
  rw [holdsJson] at holds
  rw [isText]
  cases content : (chatCompletionText body).asStr? with
  | some _ => rfl
  | none =>
      rw [content] at holds
      cases holds

/-- The last guard, over a body that reaches it. -/
theorem meets_floor_iff (there : result.response = some body) (ok : result.status = .ok)
    (on : s.structuredValidity = true) (expects : requestExpectsJson h req = true) :
    Meets h req (enforceStructuredValidity h s req result) ↔
      (holdsJson body = true ∧
          (req.forcedToolSchema.isSome = true → shows h req.forcedToolName body = false)) ∨
        holdsJson body = false ∧ isText body = true ∧ countable body = true := by
  cases holds : holdsJson body with
  | true =>
      rw [floor_of_holds there holds]
      constructor
      · rintro (⟨failed, -⟩ | ⟨body', there', -, hidden⟩)
        · rw [ok] at failed
          cases failed
        · rw [there] at there'
          cases there'
          exact .inl ⟨rfl, hidden⟩
      · rintro (⟨-, hidden⟩ | ⟨other, -⟩)
        · exact .inr ⟨body, there, holds, hidden⟩
        · cases other
  | false =>
      constructor
      · intro meets
        by_contra unjudged
        have passed : isText body = false ∨ countable body = false := by
          by_contra both
          rw [not_or, Bool.not_eq_false, Bool.not_eq_false] at both
          exact unjudged (.inr ⟨rfl, both⟩)
        rw [floor_of_uncounted there passed] at meets
        rcases meets with ⟨failed, -⟩ | ⟨body', there', holds', -⟩
        · rw [ok] at failed
          cases failed
        · rw [there] at there'
          cases there'
          rw [holds] at holds'
          cases holds'
      · rintro (⟨other, -⟩ | ⟨-, text, counted⟩)
        · cases other
        · exact .inl (floor_of_counted there ok on expects holds text counted)

end Floor

/-! ### What is kept of a body -/

theorem message_cases (body : Fields) : message body = [] ∨
    ∃ ch others, body.get "choices" = .arr (.obj ch :: others) ∧ Fields.get ch "message" = .obj (message body) := by
  by_cases listed : ∃ ch others, body.get "choices" = .arr (.obj ch :: others)
  · obtain ⟨ch, others, list⟩ := listed
    have first : choice0 body = ch := by simp only [choice0, list]
    cases msg : Fields.get ch "message" with
    | obj fields =>
        have message_eq : message body = fields := by
          rw [message, first, msg]
          rfl
        exact .inr ⟨ch, others, list, by rw [message_eq, msg]⟩
    | _ =>
        left
        rw [message, first, msg]
        rfl
  · left
    have none_there : choice0 body = [] := by
      unfold choice0
      split
      · exact absurd ⟨_, _, by assumption⟩ listed
      · rfl
    rw [message, none_there]
    rfl

theorem message_setMessage {body ch : Fields} {others : List Json}
    (list : body.get "choices" = .arr (.obj ch :: others)) (msg : Fields) :
    message (setMessage body msg) = msg := by
  have first : choice0 (setMessage body msg) = Fields.set (choice0 body) "message" (.obj msg) := by
    simp only [setMessage, list]
    simp only [choice0, Fields.get_set_self]
  rw [message, first, Fields.get_set_self]
  rfl

variable {h : Helpers}

theorem shows_setMessage {body ch msg : Fields} {others : List Json}
    (list : body.get "choices" = .arr (.obj ch :: others)) (there : Fields.get ch "message" = .obj (message body))
    {name : String} (same : names h name msg = names h name (message body)) :
    shows h name (setMessage body msg) = shows h name body := by
  have first : choice0 body = ch := by simp only [choice0, list]
  simp only [shows, choicesOf, setMessage, list, Fields.get_set_self, Json.asArr?, Option.getD_some,
    List.filterMap_cons, Json.asObj?, List.any_cons, first, there, same]

theorem names_set_of_ne (h : Helpers) (name : String) {msg : Fields} {key : String}
    (other : "tool_calls" ≠ key) (value : Json) : names h name (msg.set key value) = names h name msg := by
  rw [names, callsIn, Fields.get_set_of_ne _ other, names, callsIn]

/-- A repair leaves a call as it is, or writes its arguments. -/
theorem repairCall_cases {tc tc' : Json} (repaired : repairCall h tc = some tc') :
    tc' = tc ∨ ∃ fields fn args, tc = .obj fields ∧ Fields.get fields "function" = .obj fn ∧
      tc' = .obj (Fields.set fields "function" (.obj (Fields.set fn "arguments" args))) := by
  unfold repairCall at repaired
  split at repaired
  · next fn found =>
      split at repaired
      · split at repaired
        · exact .inl (Option.some.inj repaired).symm
        · obtain ⟨value, -, rfl⟩ := Option.map_eq_some_iff.mp repaired
          cases tc with
          | obj fields => exact .inr ⟨fields, fn, _, rfl, found, rfl⟩
          | _ => cases found
      · exact .inl (Option.some.inj repaired).symm
  · exact .inl (Option.some.inj repaired).symm

theorem repairCall_named {tc tc' : Json} (repaired : repairCall h tc = some tc') :
    tc'.asObj?.map (calledName h) = tc.asObj?.map (calledName h) := by
  obtain rfl | ⟨fields, fn, args, rfl, found, rfl⟩ := repairCall_cases repaired
  · rfl
  · simp only [Json.asObj?, Option.map_some, calledName, Fields.get_set_self, found,
      Fields.get_set_of_ne fn (show "name" ≠ "arguments" by decide)]

theorem names_repaired (name : String) {tcs tcs' : List Json}
    (repaired : tcs.mapM (repairCall h) = some tcs') :
    ((tcs'.filterMap Json.asObj?).any fun tc => decide ((calledName h tc).toOption = some name)) =
      (tcs.filterMap Json.asObj?).any fun tc => decide ((calledName h tc).toOption = some name) := by
  induction tcs generalizing tcs' with
  | nil =>
      cases repaired
      rfl
  | cons tc tcs ih =>
      rw [List.mapM_cons] at repaired
      cases one : repairCall h tc with
      | none => simp [one] at repaired
      | some first =>
          cases rest : tcs.mapM (repairCall h) with
          | none => simp [one, rest] at repaired
          | some others =>
              simp only [one, rest, Option.pure_def, Option.bind_eq_bind, Option.bind_some,
                Option.some.injEq] at repaired
              subst repaired
              have named := repairCall_named one
              rw [List.filterMap_cons, List.filterMap_cons]
              cases here : first.asObj? <;> cases there : tc.asObj? <;> rw [here, there] at named
              · exact ih rest
              · cases named
              · cases named
              · simp only [Option.map_some, Option.some.injEq] at named
                rw [List.any_cons, List.any_cons, named, ih rest]

/-! ### What `_conform_body` lets through -/

section Conform

variable {h : Helpers} {schema : Option Fields} {body : Fields}

theorem contentOk_json {fine : Bool} (checked : contentOk h schema true body = .ok fine) :
    isText body = true ∧ (fine = true → holdsJson body = true) := by
  rw [contentOk, if_pos rfl] at checked
  cases text : chatCompletionText body with
  | str content =>
      rw [text] at checked
      cases checked
      refine ⟨by rw [isText, text]; rfl, fun fine => ?_⟩
      rw [holdsJson, text]
      change (blank content.toList || (Json.loads false content.toList).isSome) = true
      rcases (Bool.or_eq_true _ _).mp fine with empty | valid
      · rw [empty, Bool.true_or]
      · rw [contentValid] at valid
        cases parsed : Json.loads false content.toList with
        | some value => rw [Option.isSome_some, Bool.or_true]
        | none =>
            rw [parsed] at valid
            cases valid
  | _ =>
      rw [text] at checked
      cases checked

theorem chatCompletionText_of_message {body body' : Fields}
    (same : (message body').get "content" = (message body).get "content") :
    chatCompletionText body' = chatCompletionText body := by
  rw [chatCompletionText, same, chatCompletionText]

/-- A body with its arguments repaired has the same text, and shows the same calls. -/
theorem kept_of_repairedArgs {fixed : Fields} (repaired : cloneWithRepairedArgs h body = some fixed) :
    chatCompletionText fixed = chatCompletionText body ∧
      ∀ name, shows h name fixed = shows h name body := by
  unfold cloneWithRepairedArgs at repaired
  cases calls : (message body).get "tool_calls" with
  | arr tcs =>
      simp only [calls] at repaired
      obtain ⟨tcs', each, rfl⟩ := Option.map_eq_some_iff.mp repaired
      rcases message_cases body with empty | ⟨ch, others, list, there⟩
      · rw [empty] at calls
        cases calls
      · refine ⟨?_, fun name => ?_⟩
        · refine chatCompletionText_of_message ?_
          rw [message_setMessage list, Fields.get_set_of_ne _ (by decide)]
        · refine shows_setMessage list there ?_
          rw [names, callsIn, Fields.get_set_self, names, callsIn, calls]
          exact names_repaired name each
  | _ => simp [calls] at repaired

/-- A body with its content replaced shows the same calls. -/
theorem kept_of_cloneWithContent (some_text : message body ≠ []) (text : List Char) :
    (message (cloneWithContent body text)).get "content" = .str (.ofList text) ∧
      ∀ name, shows h name (cloneWithContent body text) = shows h name body := by
  rcases message_cases body with empty | ⟨ch, others, list, there⟩
  · exact absurd empty some_text
  · refine ⟨?_, fun name => ?_⟩
    · rw [cloneWithContent, message_setMessage list, Fields.get_set_self]
    · exact shows_setMessage list there (names_set_of_ne h name (by decide) _)

theorem holdsJson_of_text {text : List Char} (parses : (Json.loads false text).isSome = true)
    (content : (message body).get "content" = .str (.ofList text)) : holdsJson body = true := by
  rw [holdsJson, chatCompletionText, content]
  by_cases empty : (Json.str (.ofList text)).truthy = true
  · rw [if_pos empty]
    change (blank (String.ofList text).toList || _) = true
    rw [String.toList_ofList, parses, Bool.or_true]
  · rw [if_neg empty]
    rfl

theorem message_ne_nil_of_text {content : String} (text : chatCompletionText body = .str content)
    (some_text : blank content.toList = false) : message body ≠ [] := by
  intro empty
  rw [chatCompletionText, empty] at text
  cases text
  cases some_text

theorem blank_of_repairJsonText {text : List Char} {value : Json}
    (repaired : repairJsonText h text = some value) : blank text = false := by
  by_contra empty
  rw [Bool.not_eq_false] at empty
  rw [repairJsonText, if_pos empty] at repaired
  cases repaired

/-- What `_conform_body` lets through as it is, or repaired. -/
theorem conformed_json (prints : ∀ value, (Json.loads false (h.dumps value)).isSome = true) {c : Fields}
    (through : conformed? h schema true body = some c) :
    holdsJson c = true ∧ ∀ name, shows h name c = shows h name body := by
  unfold conformed? conformBody at through
  cases checked : contentOk h schema true body with
  | error _ => simp [checked, bind, Except.bind] at through
  | ok fine =>
      obtain ⟨text, json⟩ := contentOk_json checked
      simp only [checked, bind, Except.bind] at through
      cases fine with
      | true =>
          by_cases args : argsValid body = true
          · simp only [args, Bool.and_self, if_true, Option.some.injEq] at through
            subst through
            exact ⟨json rfl, fun _ => rfl⟩
          · have invalid := Bool.eq_false_iff.mpr args
            simp only [invalid, Bool.and_false, Bool.false_eq_true, if_false, if_true] at through
            cases repaired : cloneWithRepairedArgs h body with
            | none => simp [repaired] at through
            | some fixed =>
                simp only [repaired, Option.elim_some, Option.some.injEq] at through
                subst through
                obtain ⟨same, calls⟩ := kept_of_repairedArgs repaired
                refine ⟨?_, calls⟩
                rw [holdsJson, same]
                exact json rfl
      | false =>
          simp only [Bool.false_and, Bool.false_eq_true, if_false] at through
          cases repaired : repairContent h schema body with
          | none => simp [repaired] at through
          | some fixed =>
              simp only [repaired] at through
              -- the content is what `json.dumps` printed
              have printed : holdsJson fixed = true ∧ ∀ name, shows h name fixed = shows h name body := by
                unfold repairContent at repaired
                cases content : chatCompletionText body with
                | str content' =>
                    rw [content] at repaired
                    obtain ⟨value, found, rfl⟩ := Option.map_eq_some_iff.mp repaired
                    have some_text := blank_of_repairJsonText (Option.filter_eq_some_iff.mp found).1
                    obtain ⟨written, calls⟩ := @kept_of_cloneWithContent h body
                      (message_ne_nil_of_text content some_text) (h.dumps value)
                    exact ⟨holdsJson_of_text (prints value) written, calls⟩
                | _ =>
                    rw [content] at repaired
                    cases repaired
              by_cases args : argsValid body = true
              · simp only [args, if_true, Option.some.injEq] at through
                subst through
                exact printed
              · simp only [args] at through
                cases again : cloneWithRepairedArgs h fixed with
                | none => simp [again] at through
                | some both =>
                    simp only [again, Option.elim_some] at through
                    cases through
                    obtain ⟨same, calls⟩ := kept_of_repairedArgs again
                    refine ⟨?_, fun name => (calls name).trans (printed.2 name)⟩
                    rw [holdsJson, same]
                    exact printed.1

end Conform

/-! ### After the guard against loops -/

/-- What `apply` does after the guard against loops. -/
def afterLoops (h : Helpers) (s : Setting) (replies : Replies) (req : Ask) (result : Result) : Result :=
  enforceStructuredValidity h s req
    (maybeRepairSchema h s replies req (enforceToolcallTruncation s req result))

/-- A body with a text, that is JSON or can be counted. -/
def Judged (body : Fields) : Prop := isText body = true ∧ (holdsJson body = true ∨ countable body = true)

/-- What a body has to be that reaches the guards after the one against loops.  Where it fails
`_conform_body`, the reply of the retry may take its place. -/
structure Sound (h : Helpers) (req : Ask) (replies : Replies) (body : Fields) : Prop where
  judged : Judged body
  hidden : req.forcedToolSchema.isSome = true → shows h req.forcedToolName body = true →
    holdsJson body = false ∧ conformBody h req.forcedToolSchema true body = .ok .failed
  retried : ∀ schema, declaredSchema req = .ok schema → (requestIsStructured req || hasTools req) = true →
    conformBody h schema true body = .ok .failed → (validationError h schema body).isOk = true →
    ∀ reply c, replies.retry = some reply →
      conformed? h schema (requestIsStructured req) (retryBody h req reply) = some c →
      Judged c ∧ (req.forcedToolSchema.isSome = true → shows h req.forcedToolName c = false)

section AfterLoops

variable {h : Helpers} {s : Setting} {replies : Replies} {req : Ask} {result : Result} {body : Fields}

theorem meets_of_failed (failed : result.status = .error) (none_there : result.response = none) :
    Meets h req result := .inl ⟨failed, none_there⟩

theorem floor_of_none (none_there : result.response = none) :
    enforceStructuredValidity h s req result = result := by
  unfold enforceStructuredValidity
  rw [none_there]

theorem repair_of_none (none_there : result.response = none) :
    maybeRepairSchema h s replies req result = result := by
  unfold maybeRepairSchema
  rw [none_there]

theorem chat_of_expects (expects : requestExpectsJson h req = true) : req.chat = true := by
  rw [requestExpectsJson, Bool.and_eq_true] at expects
  exact expects.1

theorem structured_of_forced (chat : req.chat = true) (forced : req.forcedToolSchema.isSome = true) :
    requestIsStructured req = true := by
  rw [requestIsStructured, chat, forced, Bool.or_true]
  simp

theorem truncation_cases : enforceToolcallTruncation s req result = result ∨
    (enforceToolcallTruncation s req result).status = .error ∧
      (enforceToolcallTruncation s req result).response = none := by
  unfold enforceToolcallTruncation
  cases result.response with
  | none => exact .inl rfl
  | some body =>
      simp only
      split
      · exact .inl rfl
      · cases truncatedTokens req body with
        | ok tokens => exact .inr ⟨rfl, rfl⟩
        | error _ => exact .inl rfl

/-- The backstop over a body, where it is on. -/
theorem repair_armed (there : result.response = some body) (ok : result.status = .ok)
    (on : s.schemaBackstop = true) (chat : req.chat = true)
    (eligible : (requestIsStructured req || hasTools req) = true) :
    maybeRepairSchema h s replies req result =
      (repairSchema h s replies req result body).toOption.getD result := by
  have armed : ¬(s.schemaBackstop = false ∨ result.status ≠ .ok ∨ req.chat = false ∨
      (requestIsStructured req || hasTools req) = false) := by
    rw [on, ok, chat, eligible]
    decide
  simp only [maybeRepairSchema, there, if_neg armed]
  cases repairSchema h s replies req result body <;> rfl

theorem schemaRetry_eq_some {schema : Option Fields} {expectJsonContent : Bool} {c : Fields}
    (retried : schemaRetry h s replies req schema expectJsonContent = some c) :
    ∃ reply, replies.retry = some reply ∧
      conformed? h schema expectJsonContent (retryBody h req reply) = some c := by
  unfold schemaRetry at retried
  split at retried
  · cases retried
  · exact Option.bind_eq_some_iff.mp retried

/-- How the backstop ends on a body, whatever the replies are: it leaves the result, repairs the body,
or asks again. -/
theorem backstop_cases (h : Helpers) (s : Setting) (req : Ask) (body : Fields) :
    (∀ replies result, result.response = some body → result.status = .ok →
      maybeRepairSchema h s replies req result = result) ∨
    (∃ schema c, declaredSchema req = .ok schema ∧
      conformBody h schema (requestExpectsJson h req) body = .ok (.repaired c) ∧
      ∀ replies result, result.response = some body → result.status = .ok →
        maybeRepairSchema h s replies req result =
          { result with response := some c, schemaRepaired := true }) ∨
    ∃ schema errorMsg, s.schemaBackstop = true ∧ s.schemaBackstopShadow = false ∧ req.chat = true ∧
      (requestIsStructured req || hasTools req) = true ∧ declaredSchema req = .ok schema ∧
      conformBody h schema (requestExpectsJson h req) body = .ok .failed ∧
      validationError h schema body = .ok errorMsg ∧
      ∀ replies result, result.response = some body → result.status = .ok →
        maybeRepairSchema h s replies req result =
          match schemaRetry h s replies req schema (requestIsStructured req) with
          | some c => { result with response := some c, schemaRetried := true }
          | none => unrecoverable req errorMsg result := by
  by_cases off : s.schemaBackstop = false ∨ req.chat = false ∨
      (requestIsStructured req || hasTools req) = false
  · refine .inl fun replies result there _ => ?_
    have off' : s.schemaBackstop = false ∨ result.status ≠ .ok ∨ req.chat = false ∨
        (requestIsStructured req || hasTools req) = false := off.elim .inl fun rest => .inr (.inr rest)
    simp only [maybeRepairSchema, there, if_pos off']
  simp only [not_or, Bool.not_eq_false] at off
  obtain ⟨on, chat, eligible⟩ := off
  have armed (replies result) (there : result.response = some body) (ok : result.status = .ok) :=
    @repair_armed h s replies req result body there ok on chat eligible
  simp only [repairSchema, bind, Except.bind] at armed
  cases declared : declaredSchema req with
  | error _ =>
      rw [declared] at armed
      exact .inl armed
  | ok schema =>
      simp only [declared] at armed
      cases conformed : conformBody h schema (requestExpectsJson h req) body with
      | error _ =>
          rw [conformed] at armed
          exact .inl armed
      | ok outcome =>
          simp only [conformed] at armed
          cases outcome with
          | ok => exact .inl armed
          | repaired c =>
              cases shadow : s.schemaBackstopShadow with
              | true =>
                  simp only [shadow, if_true] at armed
                  exact .inl armed
              | false =>
                  simp only [shadow, Bool.false_eq_true, if_false] at armed
                  exact .inr (.inl ⟨schema, c, rfl, conformed, armed⟩)
          | failed =>
              cases message : validationError h schema body with
              | error _ =>
                  simp only [message] at armed
                  exact .inl armed
              | ok errorMsg =>
                  cases shadow : s.schemaBackstopShadow with
                  | true =>
                      simp only [message, shadow, if_true] at armed
                      exact .inl armed
                  | false =>
                      simp only [message, shadow, Bool.false_eq_true, if_false] at armed
                      refine .inr (.inr ⟨schema, errorMsg, on, rfl, chat, eligible, rfl, conformed,
                        message, fun replies result there ok => ?_⟩)
                      rw [armed replies result there ok]
                      cases schemaRetry h s replies req schema (requestIsStructured req) <;> rfl

/-- The backstop leaves the result, repairs its body, takes the retry's, or fails it. -/
theorem repair_cases (there : result.response = some body) (ok : result.status = .ok)
    (expects : requestExpectsJson h req = true) :
    maybeRepairSchema h s replies req result = result ∨
      (∃ schema c, declaredSchema req = .ok schema ∧ conformed? h schema true body = some c ∧
        (maybeRepairSchema h s replies req result).response = some c ∧
        (maybeRepairSchema h s replies req result).status = .ok) ∨
      (∃ schema reply c, declaredSchema req = .ok schema ∧
        (requestIsStructured req || hasTools req) = true ∧
        conformBody h schema true body = .ok .failed ∧ (validationError h schema body).isOk = true ∧
        replies.retry = some reply ∧
        conformed? h schema (requestIsStructured req) (retryBody h req reply) = some c ∧
        (maybeRepairSchema h s replies req result).response = some c ∧
        (maybeRepairSchema h s replies req result).status = .ok) ∨
      (maybeRepairSchema h s replies req result).status = .error ∧
        (maybeRepairSchema h s replies req result).response = none := by
  rcases backstop_cases h s req body with
    same | ⟨schema, c, declared, conformed, ran⟩ |
    ⟨schema, errorMsg, -, -, -, eligible, declared, conformed, message, ran⟩
  · exact .inl (same _ _ there ok)
  · rw [expects] at conformed
    rw [ran _ _ there ok]
    exact .inr (.inl ⟨schema, c, declared, by simp only [conformed?, conformed], rfl, ok⟩)
  · rw [expects] at conformed
    rw [ran _ _ there ok]
    cases retried : schemaRetry h s replies req schema (requestIsStructured req) with
    | none => exact .inr (.inr (.inr ⟨rfl, rfl⟩))
    | some c =>
        obtain ⟨reply, retry, again⟩ := schemaRetry_eq_some retried
        exact .inr (.inr (.inl ⟨schema, reply, c, declared, eligible, conformed, by rw [message]; rfl,
          retry, again, rfl, ok⟩))

/-- A sound body meets what is asked, whatever the guards do. -/
theorem meets_afterLoops (prints : ∀ value, (Json.loads false (h.dumps value)).isSome = true)
    (there : result.response = some body) (ok : result.status = .ok) (on : s.structuredValidity = true)
    (expects : requestExpectsJson h req = true) (sound : Sound h req replies body) :
    Meets h req (afterLoops h s replies req result) := by
  have judged_iff : ∀ {body : Fields} {result : Result}, result.response = some body → result.status = .ok →
      Judged body → (req.forcedToolSchema.isSome = true → shows h req.forcedToolName body = true →
        holdsJson body = false) → Meets h req (enforceStructuredValidity h s req result) := by
    intro body result there ok judged hidden
    rw [meets_floor_iff there ok on expects]
    cases holds : holdsJson body with
    | true =>
        refine .inl ⟨rfl, fun forced => Bool.eq_false_iff.mpr fun seen => ?_⟩
        have other := hidden forced seen
        rw [holds] at other
        cases other
    | false =>
        have counted := judged.2.resolve_left (Bool.eq_false_iff.mp holds)
        exact .inr ⟨rfl, judged.1, counted⟩
  rw [afterLoops]
  rcases @truncation_cases s req result with same | ⟨failed, none_there⟩
  · rw [same]
    rcases @repair_cases h s replies req result body there ok expects with same | ⟨schema, c, declared, through,
      there', ok'⟩ | ⟨schema, reply, c, declared, eligible, failed, raised, retry, through, there', ok'⟩ |
      ⟨failed, none_there⟩
    · rw [same]
      exact judged_iff there ok sound.judged fun forced seen => (sound.hidden forced seen).1
    · obtain ⟨holds, calls⟩ := conformed_json prints through
      refine judged_iff there' ok' ⟨isText_of_holdsJson holds, .inl holds⟩ fun forced seen => ?_
      -- a body that shows the call is not let through
      rw [calls] at seen
      have failed := (sound.hidden forced seen).2
      have schema_eq : schema = req.forcedToolSchema := by
        obtain ⟨forced', some_schema⟩ := Option.isSome_iff_exists.mp forced
        rw [declaredSchema, some_schema] at declared
        cases declared
        exact some_schema.symm
      rw [schema_eq, conformed?, failed] at through
      cases through
    · obtain ⟨judged, hidden⟩ := sound.retried schema declared eligible failed raised reply c retry through
      refine judged_iff there' ok' judged fun forced seen => ?_
      rw [hidden forced] at seen
      cases seen
    · rw [floor_of_none none_there]
      exact meets_of_failed failed none_there
  · rw [repair_of_none none_there, floor_of_none none_there]
    exact meets_of_failed failed none_there

/-- Nothing but the last guard is on. -/
def quiet : Setting :=
  { degenerationGuard := false
    degenerationShadow := false
    structuredValidity := true
    schemaBackstop := false
    schemaBackstopShadow := false
    configured := true
    mislabels := false
    degenFree := true
    degenTries := 2
    retryFree := true }

/-- The backstop is on too. -/
def mending : Setting := { quiet with schemaBackstop := true }

theorem afterLoops_quiet (there : result.response = some body) :
    afterLoops h quiet replies req result = enforceStructuredValidity h quiet req result := by
  have uncut : enforceToolcallTruncation quiet req result = result := by
    simp [enforceToolcallTruncation, there, quiet]
  have unrepaired : maybeRepairSchema h quiet replies req result = result := by
    simp [maybeRepairSchema, there, quiet]
  rw [afterLoops, uncut, unrepaired]

theorem afterLoops_mending (there : result.response = some body) (ok : result.status = .ok)
    (chat : req.chat = true) (eligible : (requestIsStructured req || hasTools req) = true) {repaired : Result}
    (repairs : repairSchema h mending replies req result body = .ok repaired) :
    afterLoops h mending replies req result = enforceStructuredValidity h mending req repaired := by
  have uncut : enforceToolcallTruncation mending req result = result := by
    simp [enforceToolcallTruncation, there, mending, quiet]
  have armed : ¬(mending.schemaBackstop = false ∨ result.status ≠ .ok ∨ req.chat = false ∨
      (requestIsStructured req || hasTools req) = false) := by
    rw [ok, chat, eligible]
    decide
  rw [afterLoops, uncut]
  simp only [maybeRepairSchema, there, if_neg armed, repairs]

/-- A body that meets what is asked under both settings is sound. -/
theorem sound_of_meets (prints : ∀ value, (Json.loads false (h.dumps value)).isSome = true)
    (there : result.response = some body) (ok : result.status = .ok)
    (expects : requestExpectsJson h req = true)
    (unrepaired : Meets h req (afterLoops h quiet replies req result))
    (repaired : Meets h req (afterLoops h mending replies req result)) : Sound h req replies body := by
  have chat := chat_of_expects expects
  rw [afterLoops_quiet there, meets_floor_iff there ok rfl expects] at unrepaired
  have judged : Judged body := by
    rcases unrepaired with ⟨holds, -⟩ | ⟨-, text, counted⟩
    · exact ⟨isText_of_holdsJson holds, .inl holds⟩
    · exact ⟨text, .inr counted⟩
  refine ⟨judged, fun forced seen => ?_, ?_⟩
  · have unheld : holdsJson body = false := by
      rcases unrepaired with ⟨-, hidden⟩ | ⟨unheld, -⟩
      · rw [hidden forced] at seen
        cases seen
      · exact unheld
    refine ⟨unheld, ?_⟩
    have declared : declaredSchema req = .ok req.forcedToolSchema := by
      obtain ⟨schema, some_schema⟩ := Option.isSome_iff_exists.mp forced
      rw [declaredSchema, some_schema]
    have structured := structured_of_forced chat forced
    have text := judged.1
    cases conformed : conformBody h req.forcedToolSchema true body with
    | error _ =>
        -- a text does not raise
        rw [isText] at text
        cases content : chatCompletionText body with
        | str content' =>
            simp only [conformBody, contentOk, if_true, content, bind, Except.bind] at conformed
            split at conformed
            · cases conformed
            · split at conformed
              · cases conformed
              · split at conformed <;> cases conformed
        | _ =>
            rw [content] at text
            cases text
    | ok outcome =>
        cases outcome with
        | ok =>
            have through : conformed? h req.forcedToolSchema true body = some body := by
              simp only [conformed?, conformed]
            rw [(conformed_json prints through).1] at unheld
            cases unheld
        | failed => rfl
        | repaired c =>
            have through : conformed? h req.forcedToolSchema true body = some c := by
              simp only [conformed?, conformed]
            obtain ⟨holds, calls⟩ := conformed_json prints through
            have mended : repairSchema h mending replies req result body =
                .ok { result with response := some c, schemaRepaired := true } := by
              simp only [repairSchema, declared, conformed, expects, bind, Except.bind]
              rfl
            rw [afterLoops_mending there ok chat (by rw [structured, Bool.true_or]) mended] at repaired
            rcases (meets_floor_iff (by rfl) (by exact ok) (by rfl) expects).mp repaired with
              ⟨-, hidden⟩ | ⟨other, -⟩
            · rw [calls, seen] at hidden
              cases hidden forced
            · rw [holds] at other
              cases other
  · intro schema declared eligible failed raised reply c retry through
    cases message : validationError h schema body with
    | error _ =>
        rw [message] at raised
        cases raised
    | ok errorMsg =>
        have retried : schemaRetry h mending replies req schema (requestIsStructured req) = some c := by
          simp only [schemaRetry, mending, quiet, retry, Option.bind_some]
          exact through
        have mended : repairSchema h mending replies req result body =
            .ok { result with response := some c, schemaRetried := true } := by
          simp only [repairSchema, declared, failed, expects, message, bind, Except.bind, retried]
          rfl
        rw [afterLoops_mending there ok chat eligible mended] at repaired
        rcases (meets_floor_iff (by rfl) (by exact ok) (by rfl) expects).mp repaired with
          ⟨holds, hidden⟩ | ⟨unheld, text, counted⟩
        · exact ⟨⟨isText_of_holdsJson holds, .inl holds⟩, hidden⟩
        · refine ⟨⟨text, .inr counted⟩, fun forced => ?_⟩
          -- the retry of a translated request is let through with JSON only
          rw [structured_of_forced chat forced] at through
          rw [(conformed_json prints through).1] at unheld
          cases unheld

end AfterLoops

/-! ### The loop guard and the finalisers -/

theorem firstClean_append {replies : List (Option Fields)} {body : Fields}
    (found : firstClean h replies = .ok (some body)) (more : List (Option Fields)) :
    firstClean h (replies ++ more) = .ok (some body) := by
  induction replies with
  | nil => cases found
  | cons reply replies ih =>
      cases reply with
      | none => exact ih found
      | some first =>
          rw [firstClean] at found
          rw [List.cons_append, firstClean]
          cases clean : isClean h first with
          | error _ =>
              rw [clean] at found
              cases found
          | ok clean' =>
              rw [clean] at found
              simp only [bind, Except.bind] at found ⊢
              cases clean' with
              | true => exact found
              | false => exact ih found

section Apply

variable {h : Helpers} {s : Setting} {replies : Replies} {req : Ask} {result : Result} {body : Fields}

/-- The loop guard leaves the body, or takes the first clean one of a re-dispatch. -/
theorem degenerate_cases (there : result.response = some body) (ok : result.status = .ok) :
    (maybeCorrectDegenerate h s replies req result).status = .ok ∧
      ((maybeCorrectDegenerate h s replies req result).response = some body ∨
        ∃ r, loops h body = true ∧ capped body = false ∧
          firstClean h [replies.redispatch 0, replies.redispatch 1] = .ok (some r) ∧
          (maybeCorrectDegenerate h s replies req result).response = some r) := by
  by_cases off : s.degenerationGuard = false ∨ result.status ≠ .ok ∨ req.chat = false ∨
      loops h body = false ∨ s.degenerationShadow = true
  · simp only [maybeCorrectDegenerate, there, if_pos off]
    exact ⟨ok, .inl trivial⟩
  · have looping : loops h body = true := by
      by_contra still
      exact off (.inr (.inr (.inr (.inl (Bool.eq_false_iff.mpr still)))))
    simp only [maybeCorrectDegenerate, there, if_neg off]
    by_cases full : capped body = true
    · rw [if_pos full]
      exact ⟨ok, .inl rfl⟩
    · rw [if_neg full]
      by_cases unknown : s.configured = false
      · rw [if_pos unknown]
        exact ⟨ok, .inl there⟩
      · rw [if_neg unknown]
        by_cases busy : s.degenFree = false
        · rw [if_pos busy]
          exact ⟨ok, .inl rfl⟩
        · rw [if_neg busy]
          cases found : firstClean h (s.tried replies) with
          | error _ => exact ⟨ok, .inl there⟩
          | ok clean =>
              cases clean with
              | none => exact ⟨ok, .inl rfl⟩
              | some r =>
                  refine ⟨ok, .inr ⟨r, looping, Bool.eq_false_iff.mpr full, ?_, rfl⟩⟩
                  have all := firstClean_append found (((List.range 2).drop s.degenTries).map replies.redispatch)
                  rwa [Setting.tried, ← List.map_append, List.take_append_drop] at all

/-- With time for both, the loop guard asks again. -/
theorem degenerate_again (there : result.response = some body) (ok : result.status = .ok)
    (chat : req.chat = true) (looping : loops h body = true) (short : capped body = false) {r : Fields}
    (found : firstClean h [replies.redispatch 0, replies.redispatch 1] = .ok (some r))
    (on : s.degenerationGuard = true) (acts : s.degenerationShadow = false) (known : s.configured = true)
    (free : s.degenFree = true) (time : s.degenTries = 2) :
    maybeCorrectDegenerate h s replies req result = { result with response := some r } := by
  have armed : ¬(s.degenerationGuard = false ∨ result.status ≠ .ok ∨ req.chat = false ∨
      loops h body = false ∨ s.degenerationShadow = true) := by
    rw [on, ok, chat, looping, acts]
    decide
  have tried : s.tried replies = [replies.redispatch 0, replies.redispatch 1] := by
    rw [Setting.tried, time]
    rfl
  simp [maybeCorrectDegenerate, there, if_neg armed, short, known, free, tried, found]

/-- What follows the finalisers, over all settings. -/
theorem meets_correct_iff (prints : ∀ value, (Json.loads false (h.dumps value)).isSome = true)
    (there : result.response = some body) (ok : result.status = .ok)
    (expects : requestExpectsJson h req = true) :
    (∀ s : Setting, s.structuredValidity = true → Meets h req (correct h s replies req result)) ↔
      Sound h req replies body ∧ (loops h body = true → capped body = false → ∀ r,
        firstClean h [replies.redispatch 0, replies.redispatch 1] = .ok (some r) → Sound h req replies r) := by
  constructor
  · intro all
    refine ⟨?_, fun looping short r found => ?_⟩
    · have unlooped : ∀ s : Setting, s.degenerationGuard = false →
          correct h s replies req result = afterLoops h s replies req result := by
        intro s off
        simp [correct, afterLoops, maybeCorrectDegenerate, there, off]
      have plain := all quiet rfl
      have mended := all mending rfl
      rw [unlooped _ rfl] at plain mended
      exact sound_of_meets prints there ok expects plain mended
    · have again : ∀ s : Setting, s = quiet ∨ s = mending →
          correct h { s with degenerationGuard := true } replies req result =
            afterLoops h s replies req { result with response := some r } := by
        intro s same
        have swapped : maybeCorrectDegenerate h { s with degenerationGuard := true } replies req result =
            { result with response := some r } := by
          rcases same with rfl | rfl <;>
            exact degenerate_again there ok (chat_of_expects expects) looping short found rfl rfl rfl rfl rfl
        rw [correct, swapped]
        rfl
      have plain := all { quiet with degenerationGuard := true } rfl
      have mended := all { mending with degenerationGuard := true } rfl
      rw [again quiet (.inl rfl)] at plain
      rw [again mending (.inr rfl)] at mended
      exact @sound_of_meets h replies req { result with response := some r } r prints rfl ok expects
        plain mended
  · rintro ⟨sound, redispatched⟩ s on
    obtain ⟨ok', same | ⟨r, looping, short, found, there'⟩⟩ :=
      @degenerate_cases h s replies req result body there ok
    · exact meets_afterLoops prints same ok' on expects sound
    · exact meets_afterLoops prints there' ok' on expects (redispatched looping short r found)

end Apply

/-- The result of a call with this body. -/
def replied (body : Fields) : Result := { status := .ok, response := some body }

/-- What the two finalisers leave of a body, if they do not fail it. -/
def finalised (h : Helpers) (req : Ask) (body : Fields) : Option Fields :=
  (finalizeThinking h req (finalizeForcedToolSchema h req (replied body))).response

theorem forced_cases {req : Ask} {result : Result} {body : Fields}
    (there : result.response = some body) (ok : result.status = .ok) :
    ((finalizeForcedToolSchema h req result).status = .ok ∧
        ∃ x, (finalizeForcedToolSchema h req result).response = some x) ∨
      (finalizeForcedToolSchema h req result).status = .error ∧
        (finalizeForcedToolSchema h req result).response = none := by
  simp only [finalizeForcedToolSchema, there]
  split
  · cases applyForcedToolAnswer h req.forcedToolName body with
    | mk outcome body' =>
        cases outcome with
        | translated => exact .inl ⟨ok, _, rfl⟩
        | unusable =>
            simp only
            cases truncatedTokens req body with
            | ok tokens => exact .inr ⟨rfl, rfl⟩
            | error _ => exact .inl ⟨ok, _, there⟩
        | _ => exact .inl ⟨ok, _, there⟩
  · exact .inl ⟨ok, _, there⟩

theorem thinking_cases {req : Ask} {result : Result} {body : Fields}
    (there : result.response = some body) (ok : result.status = .ok) :
    ((finalizeThinking h req result).status = .ok ∧ ∃ x, (finalizeThinking h req result).response = some x) ∨
      (finalizeThinking h req result).status = .error ∧ (finalizeThinking h req result).response = none := by
  cases thinking : req.thinking with
  | none =>
      simp only [finalizeThinking, thinking]
      exact .inl ⟨ok, _, there⟩
  | some allowed =>
      simp only [finalizeThinking, thinking, there]
      cases message? body with
      | none => exact .inl ⟨ok, _, there⟩
      | some msg =>
          simp only
          cases Fields.get msg "content" with
          | str content =>
              simp only
              split
              · exact .inl ⟨ok, _, there⟩
              · cases recoverStructuredObject h allowed content.toList with
                | some text => exact .inl ⟨ok, _, rfl⟩
                | none => exact .inr ⟨rfl, rfl⟩
          | _ => exact .inl ⟨ok, _, there⟩

theorem thinking_of_none {req : Ask} {result : Result} (none_there : result.response = none) :
    finalizeThinking h req result = result := by
  unfold finalizeThinking
  rw [none_there]
  split <;> simp_all

theorem correct_of_none {s : Setting} {replies : Replies} {req : Ask} {result : Result}
    (none_there : result.response = none) : correct h s replies req result = result := by
  simp [correct, maybeCorrectDegenerate, enforceToolcallTruncation, maybeRepairSchema,
    enforceStructuredValidity, none_there]

/-- The finalisers leave a body, or fail it. -/
theorem finalisers_cases (h : Helpers) (req : Ask) (body : Fields) :
    ((finalizeThinking h req (finalizeForcedToolSchema h req (replied body))).status = .ok ∧
        ∃ x, (finalizeThinking h req (finalizeForcedToolSchema h req (replied body))).response = some x) ∨
      (finalizeThinking h req (finalizeForcedToolSchema h req (replied body))).status = .error ∧
        (finalizeThinking h req (finalizeForcedToolSchema h req (replied body))).response = none := by
  rcases @forced_cases h req (replied body) body rfl rfl with ⟨ok, x, there⟩ | ⟨failed, none_there⟩
  · exact thinking_cases there ok
  · rw [thinking_of_none none_there]
    exact .inr ⟨failed, none_there⟩

/-- **The floor.**  A reply to a request for JSON ends, under all settings, as an error without a
body or as JSON that shows no tool call that was made up for its schema, if and only if the body that
the finalisers leave is sound, and so is the first clean reply where it is a loop. -/
theorem egress_floor_iff (h : Helpers) (prints : ∀ value, (Json.loads false (h.dumps value)).isSome = true)
    (req : Ask) (expects : requestExpectsJson h req = true) (replies : Replies) (body : Fields) :
    (∀ s : Setting, s.structuredValidity = true → Meets h req (apply h s replies req (replied body))) ↔
      ∀ x, finalised h req body = some x →
        Sound h req replies x ∧ (loops h x = true → capped x = false → ∀ r,
          firstClean h [replies.redispatch 0, replies.redispatch 1] = .ok (some r) → Sound h req replies r) := by
  set result := finalizeThinking h req (finalizeForcedToolSchema h req (replied body)) with result_def
  have ended := finalisers_cases h req body
  have finalised_eq : finalised h req body = result.response := rfl
  rw [finalised_eq]
  rcases ended with ⟨ok, x, there⟩ | ⟨failed, none_there⟩
  · rw [there]
    refine (meets_correct_iff prints there ok expects).trans ⟨fun sound x' same => ?_, fun sound => sound x rfl⟩
    cases same
    exact sound
  · rw [none_there]
    constructor
    · intro _ x same
      cases same
    · intro _ s _
      rw [apply, ← result_def, correct_of_none none_there]
      exact meets_of_failed failed none_there

/-- A text of forty words that goes round in a circle. -/
def loopChars : List Char := (List.replicate 40 ['l', 'a', ' ']).flatten

def loopText : String := .ofList loopChars

/-- Helpers without `json_repair` and `jsonschema`. -/
def bareHelpers : Helpers where
  dumps value := if value = .obj [] then ['{', '}'] else "null".toList
  str _ := ""
  repairs _ := none
  refuses _ _ := none
  unreadable _ := false
  rootObjectKeys _ := []
  isDegenerateText _ := false

theorem bareHelpers_prints (value : Json) : (Json.loads false (bareHelpers.dumps value)).isSome = true := by
  change (Json.loads false (if value = .obj [] then ['{', '}'] else "null".toList)).isSome = true
  split <;> decide +kernel

/-- A request for a JSON object. -/
def objectAsk : Ask :=
  { chat := true
    endpoint := "chat"
    payload := [("response_format", .obj [("type", .str "json_object")])] }

/-- A request whose schema was translated to the tool `answer`. -/
def toolAsk : Ask :=
  { chat := true
    endpoint := "chat"
    payload := [("tools", .arr [.obj []])]
    forcedToolSchema := some [("type", .str "object")]
    forcedToolName := "answer" }

/-- A body of one choice. -/
def bodyOf (msg usage : Fields) : Fields :=
  [("choices", .arr [.obj [("message", .obj msg), ("finish_reason", .str "stop")]]), ("usage", .obj usage)]

/-- A call of the tool `answer`. -/
def answerCall (args : String) : Json :=
  .obj [("function", .obj [("name", .str "answer"), ("arguments", .str args)])]

theorem egress_floor_iff_object :
    (∀ s : Setting, s.structuredValidity = true → Meets bareHelpers objectAsk
      (apply bareHelpers s ⟨fun _ => none, none⟩ objectAsk (replied (bodyOf [("content", .str "[1]")] [])))) ↔
      ∀ x, finalised bareHelpers objectAsk (bodyOf [("content", .str "[1]")] []) = some x →
        Sound bareHelpers objectAsk ⟨fun _ => none, none⟩ x ∧
          (loops bareHelpers x = true → capped x = false → ∀ r, firstClean bareHelpers [none, none] = .ok (some r) →
            Sound bareHelpers objectAsk ⟨fun _ => none, none⟩ r) :=
  egress_floor_iff bareHelpers bareHelpers_prints objectAsk (by decide +kernel) ⟨fun _ => none, none⟩
    (bodyOf [("content", .str "[1]")] [])

/-- All guards are on and the reply of the retry calls the tool with a number: the call is shown.  With
the backstop off, a text that is no JSON passes where its tokens are a word, and so does a list. -/
theorem egress_leaks :
    ((apply bareHelpers { mending with degenerationGuard := true, mislabels := true }
        ⟨fun _ => none, some (bodyOf [("content", .null), ("tool_calls", .arr [answerCall "3"])] [])⟩ toolAsk
        (replied (bodyOf [("content", .str "I cannot.")] []))).response.any (shows bareHelpers "answer") = true) ∧
      ((apply bareHelpers quiet ⟨fun _ => none, none⟩ objectAsk (replied (bodyOf [("content", .str "I cannot.")]
        [("completion_tokens", .str "unknown")]))).response.any fun body => !holdsJson body) = true ∧
      ((apply bareHelpers quiet ⟨fun _ => none, none⟩ objectAsk (replied (bodyOf
        [("content", .arr [.obj [("text", .str "I cannot.")]])] []))).response.any fun body => !holdsJson body) =
        true := by
  decide +kernel

end Roadstead.Egress
