import Roadstead.Egress.Floor

/-!
# The contract of a second reply

A reply that the backstop's retry or a re-dispatch brings does not go through `apply` from its start.
`asked_again` says when what is served of it is what `apply` serves of the same reply to a first
call (`servedFirst`): nothing more is asked of the backend there, and the gates before `apply` are
those of `execute_sync`.

## What the paths leave out

The retry translates a forced tool call and calls `_conform_body`, with `request_is_structured` for
`request_expects_json`; it knows neither the gates, nor `finalize_thinking`, nor the guard against cut
tool calls.  A re-dispatch goes through that guard, but neither through the gates nor through the
finalisers.

## The condition

`Acceptable` is what a first reply has to pass: the gates, the finalisers, the guard against cut tool
calls.  A second reply that a first pass would not have admitted is served against the contract, so it is
necessary.  It suffices where the finalisers do no more to the reply than the path itself does
(`translatedAlike` or `untranslated`, with `thinksPlainly`) and, for a retry, where both predicates ask
the same of the content.  Where the finalisers rewrite a reply, the repair of a retry may bring it to
the same text all the same: `servedFirst_retry_iff` and `servedFirst_redispatch_iff` say what has to
coincide.
-/

namespace Roadstead.Egress

open Json (Fields)

/-- Nothing is asked again. -/
def alone : Replies := ⟨fun _ => none, none⟩

/-- What is served of a reply to a first call. -/
def servedFirst (h : Helpers) (s : Setting) (req : Ask) (body : Fields) : Option Fields :=
  if truncated req body then none else (apply h s alone req (replied body)).response

/-- The guard against cut tool calls fails a body. -/
def cut (s : Setting) (req : Ask) (body : Fields) : Bool :=
  s.structuredValidity && req.chat && s.mislabels && !argsValid body && (truncatedTokens req body).isOk

/-- What the backstop leaves of a body. -/
def settled (h : Helpers) (s : Setting) (req : Ask) (body : Fields) : Option Fields :=
  (maybeRepairSchema h s alone req (replied body)).response

/-- What `_conform_body` leaves of a body in the first pass: it is as it was where that raises. -/
def judged (h : Helpers) (schema : Option Fields) (expectJsonContent : Bool) (body : Fields) : Option Fields :=
  match conformBody h schema expectJsonContent body with
  | .ok .ok => some body
  | .ok (.repaired repaired) => some repaired
  | .ok .failed => if (validationError h schema body).isOk then none else some body
  | .error _ => some body

/-- The gates, the finalisers and the guard against cut tool calls let a first reply pass. -/
def Acceptable (h : Helpers) (s : Setting) (req : Ask) (body : Fields) : Prop :=
  truncated req body = false ∧ ∃ x, finalised h req body = some x ∧ cut s req x = false

/-- `finalize_thinking` has nothing to do: the message has no text, no key is asked for, or the text is
an object of the keys that are. -/
def thinksPlainly (req : Ask) (body : Fields) : Bool :=
  match req.thinking, message? body with
  | some allowed, some msg =>
      match Fields.get msg "content" with
      | .str content => decide (allowed = []) || conforms allowed content.toList
      | _ => true
  | _, _ => true

/-- `finalize_forced_tool_schema` does what `_schema_retry` does: the request was not translated to a
tool, or the call of the tool is one that can be read, where there is one. -/
def translatedAlike (h : Helpers) (req : Ask) (body : Fields) : Bool :=
  req.forcedToolSchema.isNone ||
    decide (req.forcedToolName ≠ "" ∧ (applyForcedToolAnswer h req.forcedToolName body).1 ≠ .unusable)

/-- `finalize_forced_tool_schema` has nothing to do: the request was not translated to a tool, or the
tool is not called. -/
def untranslated (h : Helpers) (req : Ask) (body : Fields) : Bool :=
  req.forcedToolSchema.isNone ||
    decide ((applyForcedToolAnswer h req.forcedToolName body).1 ∈ [.absent, .malformed])

/-- The retry asks of the content what the first pass asks: the two predicates agree about the request,
or the content is JSON that the schema allows. -/
def AsksAlike (h : Helpers) (req : Ask) (body : Fields) : Prop :=
  requestIsStructured req = requestExpectsJson h req ∨
    ∀ schema, declaredSchema req = .ok schema → contentOk h schema true body = .ok true

/-- The loop guard takes the reply of a re-dispatch. -/
def Redispatched (h : Helpers) (s : Setting) (replies : Replies) (req : Ask) (first body : Fields) : Prop :=
  firstClean h (s.tried replies) = .ok (some body) ∧
    (maybeCorrectDegenerate h s replies req
      (finalizeThinking h req (finalizeForcedToolSchema h req (replied first)))).response = some body

/-! ### The guards, one by one -/

section Guards

variable {h : Helpers} {s : Setting} {replies : Replies} {req : Ask} {result result' : Result}
  {body c : Fields}

theorem truncation_of_cut (there : result.response = some body) (ok : result.status = .ok)
    (fails : cut s req body = true) : (enforceToolcallTruncation s req result).response = none := by
  simp only [cut, Bool.and_eq_true, Bool.not_eq_true'] at fails
  obtain ⟨⟨⟨⟨on, chat⟩, mislabels⟩, invalid⟩, counted⟩ := fails
  cases tokens : truncatedTokens req body with
  | error _ =>
      rw [tokens] at counted
      cases counted
  | ok tokens' =>
      have armed : ¬(s.structuredValidity = false ∨ result.status ≠ .ok ∨ req.chat = false ∨
          s.mislabels = false ∨ argsValid body = true) := by
        rw [on, ok, chat, mislabels, invalid]
        decide
      simp only [enforceToolcallTruncation, there, if_neg armed, tokens]
      rfl

theorem truncation_of_uncut (there : result.response = some body)
    (passes : cut s req body = false) : enforceToolcallTruncation s req result = result := by
  simp only [enforceToolcallTruncation, there]
  split
  · rfl
  · next armed =>
      simp only [not_or, not_not, Bool.not_eq_false, Bool.not_eq_true] at armed
      obtain ⟨on, -, chat, mislabels, invalid⟩ := armed
      cases tokens : truncatedTokens req body with
      | ok tokens' =>
          rw [cut, on, chat, mislabels, invalid, tokens] at passes
          cases passes
      | error _ => rfl

/-- The last guard leaves the body or takes it away. -/
theorem response_of_floor (left : (enforceStructuredValidity h s req result).response = some c) :
    result.response = some c := by
  unfold enforceStructuredValidity at left
  cases there : result.response with
  | none =>
      rw [there] at left
      exact absurd (there.symm.trans left) nofun
  | some body =>
      rw [there] at left
      simp only at left
      rw [← there]
      split at left
      · exact left
      · cases content : chatCompletionText body with
        | str text =>
            simp only [content] at left
            split at left
            · exact left
            · cases tokens : outputTokens body with
              | ok tokens' =>
                  rw [tokens] at left
                  cases left
              | error _ =>
                  rw [tokens] at left
                  exact left
        | _ =>
            rw [content] at left
            exact left

/-- It looks at nothing but the status and the body. -/
theorem floor_same (ok : result.status = .ok) (ok' : result'.status = .ok)
    (there : result.response = some body) (there' : result'.response = some body) :
    (enforceStructuredValidity h s req result).response =
      (enforceStructuredValidity h s req result').response := by
  simp only [enforceStructuredValidity, there, there', ok, ok']
  split
  · rw [there, there']
  · cases chatCompletionText body with
    | str content =>
        simp only
        split
        · rw [there, there']
        · cases outputTokens body with
          | ok tokens => rfl
          | error _ => exact there.trans there'.symm
    | _ => exact there.trans there'.symm

/-- With the loop guard unable to ask again, the body stays. -/
theorem degenerate_alone (there : result.response = some body) (ok : result.status = .ok) :
    (maybeCorrectDegenerate h s alone req result).status = .ok ∧
      (maybeCorrectDegenerate h s alone req result).response = some body := by
  obtain ⟨ok', same | ⟨r, -, -, found, -⟩⟩ := @degenerate_cases h s alone req result body there ok
  · exact ⟨ok', same⟩
  · cases found

theorem schemaRetry_alone (schema : Option Fields) (expectJsonContent : Bool) :
    schemaRetry h s alone req schema expectJsonContent = none := by
  simp [schemaRetry, alone]

/-- The backstop ends as it does alone, or takes the reply of the retry. -/
theorem repair_outcome (there : result.response = some body) (ok : result.status = .ok) :
    ((maybeRepairSchema h s replies req result).response = settled h s req body ∧
        ((maybeRepairSchema h s replies req result).response.isSome = true →
          (maybeRepairSchema h s replies req result).status = .ok) ∧
        (maybeRepairSchema h s replies req result).schemaRetried = result.schemaRetried) ∨
      ∃ schema b c, s.schemaBackstop = true ∧ s.schemaBackstopShadow = false ∧ req.chat = true ∧
        (requestIsStructured req || hasTools req) = true ∧ declaredSchema req = .ok schema ∧
        replies.retry = some b ∧
        conformed? h schema (requestIsStructured req) (retryBody h req b) = some c ∧
        maybeRepairSchema h s replies req result =
          { result with response := some c, schemaRetried := true } := by
  rcases backstop_cases h s req body with
    same | ⟨schema, c, -, -, ran⟩ | ⟨schema, errorMsg, on, acts, chat, eligible, declared, -, -, ran⟩
  · rw [settled, same _ _ there ok, same alone (replied body) rfl rfl]
    exact .inl ⟨there, fun _ => ok, rfl⟩
  · rw [settled, ran _ _ there ok, ran alone (replied body) rfl rfl]
    exact .inl ⟨rfl, fun _ => ok, rfl⟩
  · rw [settled, ran _ _ there ok, ran alone (replied body) rfl rfl, schemaRetry_alone]
    cases retried : schemaRetry h s replies req schema (requestIsStructured req) with
    | none => exact .inl ⟨rfl, fun served => Bool.noConfusion served, rfl⟩
    | some c =>
        obtain ⟨b, retry, through⟩ := schemaRetry_eq_some retried
        exact .inr ⟨schema, b, c, on, acts, chat, eligible, declared, retry, through, rfl⟩

/-- What the backstop leaves where it is on. -/
theorem settled_eq (on : s.schemaBackstop = true) (acts : s.schemaBackstopShadow = false)
    (chat : req.chat = true) (eligible : (requestIsStructured req || hasTools req) = true)
    {schema : Option Fields} (declared : declaredSchema req = .ok schema) :
    settled h s req body = judged h schema (requestExpectsJson h req) body := by
  rw [settled, @repair_armed h s alone req (replied body) body rfl rfl on chat eligible, judged]
  simp only [repairSchema, declared, bind, Except.bind]
  cases conformBody h schema (requestExpectsJson h req) body with
  | error _ => rfl
  | ok outcome =>
      cases outcome with
      | ok => rfl
      | repaired fixed =>
          simp only [acts, Bool.false_eq_true, if_false]
          rfl
      | failed =>
          simp only
          cases validationError h schema body with
          | error _ => rfl
          | ok errorMsg =>
              simp only [acts, schemaRetry_alone, Bool.false_eq_true, if_false]
              rfl

end Guards

/-! ### Whether the reply of a retry was taken -/

section Retried

variable {h : Helpers} {s : Setting} {replies : Replies} {req : Ask} {result : Result}

theorem floor_retried : (enforceStructuredValidity h s req result).schemaRetried = result.schemaRetried := by
  unfold enforceStructuredValidity
  cases result.response with
  | none => rfl
  | some body =>
      simp only
      split
      · rfl
      · cases chatCompletionText body with
        | str content =>
            simp only
            split
            · rfl
            · cases outputTokens body <;> rfl
        | _ => rfl

theorem degenerate_retried :
    (maybeCorrectDegenerate h s replies req result).schemaRetried = result.schemaRetried := by
  unfold maybeCorrectDegenerate
  cases result.response with
  | none => rfl
  | some body =>
      simp only
      split
      · rfl
      split
      · rfl
      split
      · rfl
      split
      · rfl
      cases firstClean h (s.tried replies) with
      | error _ => rfl
      | ok clean => cases clean <;> rfl

theorem forced_retried : (finalizeForcedToolSchema h req result).schemaRetried = result.schemaRetried := by
  unfold finalizeForcedToolSchema
  cases result.response with
  | none => rfl
  | some body =>
      simp only
      split
      · cases applyForcedToolAnswer h req.forcedToolName body with
        | mk outcome body' =>
            cases outcome with
            | unusable =>
                simp only
                cases truncatedTokens req body <;> rfl
            | _ => rfl
      · rfl

theorem thinking_retried : (finalizeThinking h req result).schemaRetried = result.schemaRetried := by
  unfold finalizeThinking
  split
  · split
    · split
      · split
        · rfl
        · split <;> rfl
      · rfl
    · rfl
  · rfl

end Retried

/-! ### What is left of a body -/

section Left

variable {h : Helpers} {s : Setting} {replies : Replies} {req : Ask} {result : Result} {body c : Fields}

/-- A body that is left after the guards: the backstop leaves it by itself, or takes it of the retry. -/
theorem afterLoops_left (there : result.response = some body) (ok : result.status = .ok)
    (left : (afterLoops h s replies req result).response = some c) :
    cut s req body = false ∧ (enforceStructuredValidity h s req (replied c)).response = some c ∧
      ((afterLoops h s replies req result).schemaRetried = result.schemaRetried ∧
          settled h s req body = some c ∨
        ∃ schema b, s.schemaBackstop = true ∧ s.schemaBackstopShadow = false ∧ req.chat = true ∧
          (requestIsStructured req || hasTools req) = true ∧ declaredSchema req = .ok schema ∧
          replies.retry = some b ∧
          conformed? h schema (requestIsStructured req) (retryBody h req b) = some c ∧
          (afterLoops h s replies req result).schemaRetried = true) := by
  have uncut : cut s req body = false := by
    by_contra fails
    have gone := truncation_of_cut there ok (Bool.not_eq_false _ ▸ fails)
    rw [afterLoops, repair_of_none gone, floor_of_none gone, gone] at left
    cases left
  rw [afterLoops, truncation_of_uncut there uncut] at left ⊢
  have unfloored := response_of_floor left
  refine ⟨uncut, ?_⟩
  rcases @repair_outcome h s replies req result body there ok with ⟨same, ok', unretried⟩ |
    ⟨schema, b, c', on, acts, chat, eligible, declared, retry, through, taken⟩
  · have kept := @floor_same h s req _ (replied c) c (ok' (by rw [unfloored]; rfl)) rfl unfloored rfl
    exact ⟨kept ▸ left, .inl ⟨floor_retried.trans unretried, same ▸ unfloored⟩⟩
  · rw [taken] at left unfloored ⊢
    cases unfloored
    refine ⟨?_, .inr ⟨schema, b, on, acts, chat, eligible, declared, retry, through, floor_retried⟩⟩
    rw [← left]
    exact floor_same (by rfl) (by exact ok) (by rfl) (by rfl)

/-- A body is left, with nothing asked again, if the backstop leaves it. -/
theorem afterLoops_alone_iff (there : result.response = some body) (ok : result.status = .ok)
    (kept : (enforceStructuredValidity h s req (replied c)).response = some c) :
    (afterLoops h s alone req result).response = some c ↔
      cut s req body = false ∧ settled h s req body = some c := by
  constructor
  · intro left
    obtain ⟨uncut, -, ⟨-, same⟩ | ⟨-, b, -, -, -, -, -, retry, -⟩⟩ := afterLoops_left there ok left
    · exact ⟨uncut, same⟩
    · cases retry
  · rintro ⟨uncut, same⟩
    rw [afterLoops, truncation_of_uncut there uncut]
    rcases @repair_outcome h s alone req result body there ok with ⟨same', ok', -⟩ |
      ⟨-, b, -, -, -, -, -, -, retry, -⟩
    · rw [same] at same'
      rw [← kept]
      exact floor_same (ok' (by rw [same']; rfl)) (by rfl) same' (by rfl)
    · cases retry

/-- What is served of a reply to a first call, if the last guard lets it pass. -/
theorem servedFirst_iff (kept : (enforceStructuredValidity h s req (replied c)).response = some c) :
    servedFirst h s req body = some c ↔
      truncated req body = false ∧ ∃ x, finalised h req body = some x ∧ cut s req x = false ∧
        settled h s req x = some c := by
  unfold servedFirst
  cases truncated req body with
  | true => simp
  | false =>
      simp only [Bool.false_eq_true, if_false, true_and]
      rcases finalisers_cases h req body with ⟨ok, x, there⟩ | ⟨-, none_there⟩
      · obtain ⟨ok', there'⟩ := @degenerate_alone h s req _ x there ok
        rw [finalised, there]
        constructor
        · intro left
          exact ⟨x, rfl, (afterLoops_alone_iff there' ok' kept).mp left⟩
        · rintro ⟨x', same, left⟩
          cases same
          exact (afterLoops_alone_iff there' ok' kept).mpr left
      · rw [finalised, none_there, apply, correct_of_none none_there, none_there]
        simp

/-- A run that leaves a body, from the loop guard on. -/
theorem apply_left {first : Fields} (left : (apply h s replies req (replied first)).response = some c) :
    ∃ result body, result = maybeCorrectDegenerate h s replies req
        (finalizeThinking h req (finalizeForcedToolSchema h req (replied first))) ∧
      result.status = .ok ∧ result.schemaRetried = false ∧ result.response = some body ∧
      apply h s replies req (replied first) = afterLoops h s replies req result := by
  rcases finalisers_cases h req first with ⟨ok, x, there⟩ | ⟨-, none_there⟩
  · obtain ⟨ok', body⟩ := @degenerate_cases h s replies req _ x there ok
    have fresh := (@degenerate_retried h s replies req _).trans
      ((@thinking_retried h req _).trans (@forced_retried h req (replied first)))
    rcases body with same | ⟨r, -, -, -, same⟩
    · exact ⟨_, x, rfl, ok', fresh, same, rfl⟩
    · exact ⟨_, r, rfl, ok', fresh, same, rfl⟩
  · rw [apply, correct_of_none none_there, none_there] at left
    cases left

end Left

/-! ### Finalisers that do no more -/

section Finalisers

variable {h : Helpers} {req : Ask} {result : Result} {body : Fields}

theorem thinking_plain (there : result.response = some body) (plain : thinksPlainly req body = true) :
    finalizeThinking h req result = result := by
  unfold finalizeThinking
  unfold thinksPlainly at plain
  cases thinking : req.thinking with
  | none => rfl
  | some allowed =>
      rw [thinking] at plain
      simp only [there]
      cases found : message? body with
      | none => rfl
      | some msg =>
          rw [found] at plain
          simp only at plain ⊢
          cases content : Fields.get msg "content" with
          | str text =>
              rw [content, Bool.or_eq_true, decide_eq_true_eq] at plain
              exact if_pos (.inr plain)
          | _ => rfl

/-- The body that the tool call leaves when it cannot be translated is the one it came with. -/
theorem forced_body {name : String} (other : (applyForcedToolAnswer h name body).1 ≠ .translated) :
    (applyForcedToolAnswer h name body).2 = body := by
  unfold applyForcedToolAnswer at other ⊢
  split
  · next ch others choices =>
      simp only [choices] at other
      split
      · next msg message =>
          simp only [message] at other
          split
          · rfl
          · rfl
          · next tc rest named =>
              simp only [named] at other
              split
              · rfl
              · next args read =>
                  simp only [read] at other
                  exact absurd rfl other
      · rfl
  · rfl

theorem finalised_retry (chat : req.chat = true) (alike : translatedAlike h req body = true)
    (plain : thinksPlainly req (retryBody h req body) = true) :
    finalised h req body = some (retryBody h req body) := by
  have forced : (finalizeForcedToolSchema h req (replied body)).response = some (retryBody h req body) := by
    rw [translatedAlike, Bool.or_eq_true, decide_eq_true_eq] at alike
    unfold finalizeForcedToolSchema retryBody
    rcases alike with free | ⟨named, usable⟩
    · rw [Option.isNone_iff_eq_none.mp free]
      rfl
    · by_cases translates : req.forcedToolSchema.isSome = true
      · have armed : req.forcedToolSchema.isSome = true ∧ (replied body).status = .ok ∧ req.chat = true :=
          ⟨translates, rfl, chat⟩
        rw [if_pos ⟨translates, named⟩]
        show (if _ then _ else _ : Result).response = _
        rw [if_pos armed]
        have kept := @forced_body h body req.forcedToolName
        cases found : applyForcedToolAnswer h req.forcedToolName body with
        | mk outcome body' =>
            rw [found] at usable kept
            cases outcome with
            | translated => rfl
            | unusable => exact absurd rfl usable
            | absent | malformed => exact congrArg some (kept nofun).symm
      · rw [if_neg fun both => translates both.1]
        exact congrArg Result.response (if_neg fun armed => translates armed.1)
  rw [finalised, thinking_plain forced plain, forced]

theorem finalised_redispatch (left : untranslated h req body = true)
    (plain : thinksPlainly req body = true) : finalised h req body = some body := by
  have forced : (finalizeForcedToolSchema h req (replied body)).response = some body := by
    rw [untranslated, Bool.or_eq_true, decide_eq_true_eq] at left
    unfold finalizeForcedToolSchema
    show (if _ then _ else _ : Result).response = _
    split
    · next armed =>
        rcases left with free | passed
        · rw [Option.isNone_iff_eq_none.mp free] at armed
          exact absurd armed.1 nofun
        · cases found : applyForcedToolAnswer h req.forcedToolName body with
          | mk outcome body' =>
              rw [found] at passed
              cases outcome with
              | absent | malformed => rfl
              | translated | unusable => simp at passed
    · rfl
  rw [finalised, thinking_plain forced plain, forced]

/-- What `_conform_body` lets through is what the first pass leaves, if it asks the same. -/
theorem judged_of_conformed {schema : Option Fields} {asks asks' : Bool} {c : Fields}
    (same : contentOk h schema asks body = contentOk h schema asks' body)
    (through : conformed? h schema asks body = some c) : judged h schema asks' body = some c := by
  rw [conformed?, conformBody, same, ← conformBody] at through
  unfold judged
  split at through
  · next ok => rw [ok]; exact through
  · next repaired ok => rw [ok]; exact through
  · cases through

end Finalisers

/-! ### The result -/

/-- What two passes ask of a content is the same for all bodies only if they ask for the same. -/
theorem contentOk_iff (h : Helpers) (asks asks' : Bool) :
    (∀ schema body, contentOk h schema asks body = contentOk h schema asks' body) ↔ asks = asks' := by
  constructor
  · intro same
    have list := same none [("choices", .arr [.obj [("message", .obj [("content", .arr [.null])])]])]
    cases asks <;> cases asks'
    · rfl
    · cases list
    · cases list
    · rfl
  · rintro rfl _ _
    rfl

section Again

variable {h : Helpers} {s : Setting} {replies : Replies} {req : Ask} {first b c : Fields}

/-- What is served of the reply of a retry is what is served of it as a first reply if and only if it is
admitted, and `_conform_body` leaves of it what it leaves of the body that the finalisers make. -/
theorem servedFirst_retry_iff (retry : replies.retry = some b)
    (left : (apply h s replies req (replied first)).response = some c)
    (retried : (apply h s replies req (replied first)).schemaRetried = true) :
    ∃ schema, req.chat = true ∧ declaredSchema req = .ok schema ∧
      conformed? h schema (requestIsStructured req) (retryBody h req b) = some c ∧
      (servedFirst h s req b = some c ↔
        truncated req b = false ∧ ∃ x, finalised h req b = some x ∧ cut s req x = false ∧
          judged h schema (requestExpectsJson h req) x = some c) := by
  obtain ⟨result, body, -, ok, fresh, there, run⟩ := apply_left left
  rw [run] at left retried
  obtain ⟨-, kept, ⟨unretried, -⟩ | ⟨schema, b', on, acts, chat, eligible, declared, retry', through, -⟩⟩ :=
    afterLoops_left there ok left
  · rw [unretried, fresh] at retried
    cases retried
  · rw [retry] at retry'
    cases retry'
    refine ⟨schema, chat, declared, through, (servedFirst_iff kept).trans ?_⟩
    refine and_congr_right fun _ => exists_congr fun x => and_congr_right fun _ => and_congr_right fun _ => ?_
    rw [settled_eq on acts chat eligible declared]

/-- The same of a re-dispatch, of which the backstop leaves `c`. -/
theorem servedFirst_redispatch_iff (redispatched : Redispatched h s replies req first b)
    (left : (apply h s replies req (replied first)).response = some c)
    (unretried : (apply h s replies req (replied first)).schemaRetried = false) :
    cut s req b = false ∧ settled h s req b = some c ∧
      (servedFirst h s req b = some c ↔
        truncated req b = false ∧ ∃ x, finalised h req b = some x ∧ cut s req x = false ∧
          settled h s req x = some c) := by
  obtain ⟨result, body, rfl, ok, -, -, run⟩ := apply_left left
  rw [run] at left unretried
  obtain ⟨uncut, kept, ⟨-, same⟩ | ⟨-, -, -, -, -, -, -, -, -, retried⟩⟩ :=
    afterLoops_left redispatched.2 ok left
  · exact ⟨uncut, same, servedFirst_iff kept⟩
  · rw [unretried] at retried
    cases retried

end Again

/-- **What is asked again.**  In every run of `apply`, what is served of the reply of a retry or of a
re-dispatch is served of it as a first reply only if it is admitted as one.  Where the finalisers do no
more to it than its path does, that is enough: for a retry if it asks the same of the content, for a
re-dispatch always.  The retry asks the same of the content of all replies if and only if the two
predicates agree about the request. -/
theorem asked_again (h : Helpers) (s : Setting) (replies : Replies) (req : Ask) (first : Fields) :
    (∀ b c, replies.retry = some b → (apply h s replies req (replied first)).response = some c →
      (apply h s replies req (replied first)).schemaRetried = true →
      (servedFirst h s req b = some c → Acceptable h s req b) ∧
      (translatedAlike h req b = true → thinksPlainly req (retryBody h req b) = true →
        AsksAlike h req (retryBody h req b) →
        (servedFirst h s req b = some c ↔
          truncated req b = false ∧ cut s req (retryBody h req b) = false))) ∧
    (∀ r c, Redispatched h s replies req first r →
      (apply h s replies req (replied first)).response = some c →
      (apply h s replies req (replied first)).schemaRetried = false →
      (servedFirst h s req r = some c → Acceptable h s req r) ∧
      (untranslated h req r = true → thinksPlainly req r = true →
        (servedFirst h s req r = some c ↔ truncated req r = false))) ∧
    ((∀ schema body, contentOk h schema (requestIsStructured req) body =
        contentOk h schema (requestExpectsJson h req) body) ↔
      requestIsStructured req = requestExpectsJson h req) := by
  refine ⟨fun b c retry left retried => ?_, fun r c redispatched left unretried => ?_, contentOk_iff h _ _⟩
  · -- the retry: admitted as a first reply, and then conformed with the other predicate
    obtain ⟨schema, chat, declared, through, served⟩ := servedFirst_retry_iff retry left retried
    rw [served]
    constructor
    · rintro ⟨passes, x, there, uncut, -⟩
      exact ⟨passes, x, there, uncut⟩
    · intro alike plain asks
      have same : contentOk h schema (requestIsStructured req) (retryBody h req b) =
          contentOk h schema (requestExpectsJson h req) (retryBody h req b) := by
        rcases asks with agree | valid
        · rw [agree]
        · have asked (asks : Bool) : contentOk h schema asks (retryBody h req b) = .ok true := by
            cases asks with
            | true => exact valid schema declared
            | false => rfl
          rw [asked, asked]
      rw [finalised_retry chat alike plain]
      refine and_congr_right fun _ => ⟨?_, fun uncut => ?_⟩
      · rintro ⟨x, same, uncut, -⟩
        cases same
        exact uncut
      · exact ⟨_, rfl, uncut, judged_of_conformed same through⟩
  · -- the re-dispatch: it has been through the guard against cut tool calls
    obtain ⟨uncut, same, served⟩ := servedFirst_redispatch_iff redispatched left unretried
    rw [served]
    constructor
    · rintro ⟨passes, x, there, uncut, -⟩
      exact ⟨passes, x, there, uncut⟩
    · intro unforced plain
      rw [finalised_redispatch unforced plain]
      exact and_iff_left ⟨r, rfl, uncut, same⟩

/-- Helpers that mend a cut bracket. -/
def cutHelpers : Helpers :=
  { bareHelpers with
    dumps := fun value => if value = .obj [] then ['{', '}'] else if value = .arr [.int 1] then "[1]".toList
      else "null".toList
    repairs := fun text =>
      if text = ['{'] then some (.obj []) else if text = "[1".toList then some (.arr [.int 1])
      else some (.str "")
    isDegenerateText := fun text => decide (text = loopChars) }

/-- A request for a JSON object that declares a tool. -/
def objectToolAsk : Ask := { objectAsk with payload := ("tools", .arr [.obj []]) :: objectAsk.payload }

/-- A request with a grammar and a tool. -/
def grammarAsk : Ask :=
  { chat := true
    endpoint := "chat"
    payload := [("grammar", .str "root ::= \"[1\""), ("tools", .arr [.obj []])] }

/-- A body whose message has a text alone. -/
def textBody (text : String) : Fields := bodyOf [("content", .str text)] []

/-- A body whose message calls `answer`, with these arguments, beside a content. -/
def callBody (content : Json) (args : String) : Fields :=
  bodyOf [("content", content), ("tool_calls", .arr [answerCall args])] []

/-- The loop guard is on too, and the engine mislabels cut tool calls. -/
def mislabelling : Setting := { mending with degenerationGuard := true, mislabels := true }

/-- A run serves something else of a second reply than `apply` serves of it as a first. -/
def differs (s : Setting) (replies : Replies) (req : Ask) (first second : Fields) : Bool :=
  (apply cutHelpers s replies req (replied first)).response.isSome &&
    decide (servedFirst cutHelpers s req second ≠ (apply cutHelpers s replies req (replied first)).response)

/-- A cut tool call of a retry is mended and served; a text that a grammar allows is mended though
nobody asked for JSON; a reply that ran into its cap is served; and a re-dispatch shows the tool call
that stands for the schema. -/
theorem asked_again_differs :
    differs mislabelling ⟨fun _ => none, some (callBody .null r"{")⟩ objectToolAsk (textBody "I cannot.")
        (callBody .null r"{") = true ∧
      differs mending ⟨fun _ => none, some (textBody "[1")⟩ grammarAsk (callBody .null "oops")
        (textBody "[1") = true ∧
      differs mending
        ⟨fun _ => none, some [("choices", .arr [.obj [("message", .obj [("content", .str "[1]")]),
          ("finish_reason", .str "length")]])]⟩ objectAsk (textBody "I cannot.")
        [("choices", .arr [.obj [("message", .obj [("content", .str "[1]")]),
          ("finish_reason", .str "length")]])] = true ∧
      differs mislabelling ⟨fun _ => some (callBody (.str "{}") "{}"), none⟩ toolAsk (textBody loopText)
        (callBody (.str "{}") "{}") = true := by
  decide +kernel

/-- A reply of a retry that a first pass would have admitted as it is. -/
theorem asked_again_text :
    servedFirst cutHelpers mending objectAsk (textBody "[1]") = some (textBody "[1]") ↔
      truncated objectAsk (textBody "[1]") = false ∧
        cut mending objectAsk (retryBody cutHelpers objectAsk (textBody "[1]")) = false :=
  ((asked_again cutHelpers mending ⟨fun _ => none, some (textBody "[1]")⟩ objectAsk (textBody "I cannot.")).1
    (textBody "[1]") (textBody "[1]") rfl (by decide +kernel) (by decide +kernel)).2
    (by decide +kernel) (by decide +kernel) (.inl (by decide +kernel))

end Roadstead.Egress
