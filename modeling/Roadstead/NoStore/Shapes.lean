import Mathlib.Data.Option.NAry
import Mathlib.Data.List.Forall2
import Roadstead.Egress.Floor
import Roadstead.NoStore

/-!
# What a summary shows of its content

`SameShape` and `SameReply` say that two payloads, or two replies, show the same roles, counts, tool
names, models and token usage; the summary of both is then the same if their sizes are.  The guards
of a completed reply act on contents, and this module says what they do to what is shown: all of
them keep it, but for the answer of a forced tool call, which loses the calls of its first choice.
-/

namespace Roadstead.NoStore

open Json (Fields)
open Watched (usageOf choice0 message)
open Egress (Ask Helpers Replies Result Setting)

/-! ### Payloads -/

/-- Payloads with the same roles, tool names and counts. -/
structure SameShape (p p' : Fields) : Prop where
  roles : roleKeys p = roleKeys p'
  tools : names (p.get "tools") = names (p'.get "tools")
  inputs : inputCount p = inputCount p'

theorem SameShape.refl (p : Fields) : SameShape p p := ⟨rfl, rfl, rfl⟩

theorem SameShape.symm {p p' : Fields} (same : SameShape p p') : SameShape p' p :=
  ⟨same.roles.symm, same.tools.symm, same.inputs.symm⟩

theorem SameShape.trans {p p' p'' : Fields} (first : SameShape p p') (second : SameShape p' p'') :
    SameShape p p'' :=
  ⟨first.roles.trans second.roles, first.tools.trans second.tools, first.inputs.trans second.inputs⟩

theorem SameShape.payloadSummary {floats : ℚ → ℕ} {p p' : Fields} (same : SameShape p p')
    (sized : size floats (.obj p) = size floats (.obj p')) :
    payloadSummary floats p = NoStore.payloadSummary floats p' := by
  unfold NoStore.payloadSummary
  rw [same.roles, same.tools, same.inputs, sized]

/-- A field that the summary does not read. -/
theorem sameShape_set (p : Fields) {key : String} (value : Json)
    (other : key ∉ ["messages", "tools", "texts", "input"]) : SameShape p (p.set key value) := by
  simp only [List.mem_cons, List.not_mem_nil, or_false, not_or] at other
  obtain ⟨messages, tools, texts, input⟩ := other
  constructor
  · rw [roleKeys, roleKeys, Fields.get_set_of_ne p (Ne.symm messages)]
  · rw [Fields.get_set_of_ne p (Ne.symm tools)]
  · rw [inputCount, inputCount, Fields.get_set_of_ne p (Ne.symm texts),
      Fields.get_set_of_ne p (Ne.symm input)]

/-- Writing back the messages that are there. -/
theorem sameShape_set_messages {p : Fields} {messages : List Json}
    (there : p.get "messages" = .arr messages) : SameShape p (p.set "messages" (.arr messages)) := by
  constructor
  · rw [roleKeys, roleKeys, Fields.get_set_self, there]
  · rw [Fields.get_set_of_ne p (by decide)]
  · rw [inputCount, inputCount, Fields.get_set_of_ne p (by decide), Fields.get_set_of_ne p (by decide)]

theorem sameShape_writeGrammar (p : Fields) (grammar : String) (location : GrammarLocation) :
    SameShape p (writeGrammar p grammar location) := by
  cases location with
  | top => exact sameShape_set p _ (by decide)
  | extraBody =>
      unfold writeGrammar
      cases p.get "extra_body" with
      | obj extra => exact sameShape_set p _ (by decide)
      | _ => exact .refl p

/-- The grammar of a request is no part of its shape. -/
theorem sameShape_processGrammar (auth : GrammarAuthority) (noStore : Bool) (memo : GrammarMemo)
    (p : Fields) : SameShape p ((processGrammar auth noStore memo p).2.toOption.getD p) := by
  unfold processGrammar
  cases extractGrammar p with
  | none => exact .refl p
  | some found =>
      obtain ⟨grammar, location⟩ := found
      simp only
      generalize Option.getD _ (auth.normalizeAndValidate grammar) = result
      cases result.ok <;> cases result.normalized
      · exact .refl p
      · exact .refl p
      · exact .refl p
      · exact sameShape_writeGrammar p _ location

/-! ### Replies -/

/-- Replies with the same model, counts, tool names and token usage. -/
structure SameReply (b b' : Fields) : Prop where
  model : provenance b "model" = provenance b' "model"
  source : provenance b "model_source" = provenance b' "model_source"
  called : calledNames b = calledNames b'
  usage : usageOf b = usageOf b'

theorem SameReply.refl (b : Fields) : SameReply b b := ⟨rfl, rfl, rfl, rfl⟩

theorem SameReply.symm {b b' : Fields} (same : SameReply b b') : SameReply b' b :=
  ⟨same.model.symm, same.source.symm, same.called.symm, same.usage.symm⟩

theorem SameReply.trans {b b' b'' : Fields} (first : SameReply b b') (second : SameReply b' b'') :
    SameReply b b'' :=
  ⟨first.model.trans second.model, first.source.trans second.source, first.called.trans second.called,
    first.usage.trans second.usage⟩

theorem SameReply.responseSummary {floats : ℚ → ℕ} {b b' : Fields} (same : SameReply b b')
    (sized : size floats (.obj b) = size floats (.obj b')) :
    responseSummary floats b = NoStore.responseSummary floats b' := by
  unfold NoStore.responseSummary
  rw [same.model, same.source, same.called, sized]

/-- Bodies that differ in their choices, but call the same tools. -/
theorem sameReply_set_choices {b : Fields} {choices : Json}
    (called : calledNames b = calledNames (b.set "choices" choices)) :
    SameReply b (b.set "choices" choices) where
  model := by rw [provenance, provenance, Fields.get_set_of_ne b (by decide)]
  source := by rw [provenance, provenance, Fields.get_set_of_ne b (by decide)]
  called := called
  usage := by rw [usageOf, usageOf, Fields.get_set_of_ne b (by decide)]

/-- The names of the first choice are those of its message. -/
theorem names_first {b : Fields} {ch : Json} {others : List Json}
    (list : b.get "choices" = .arr (ch :: others)) :
    names ((ch.get "message").get "tool_calls") = names ((message b).get "tool_calls") := by
  cases ch with
  | obj fields =>
      have first : choice0 b = fields := by simp only [choice0, list]
      rw [message, first, Json.get_obj]
      cases Fields.get fields "message" <;> rfl
  | _ =>
      have first : choice0 b = [] := by simp only [choice0, list]
      rw [message, first]
      rfl

theorem calledNames_setMessage {b msg : Fields} {ch : Json} {others : List Json}
    (list : b.get "choices" = .arr (ch :: others)) :
    calledNames (Egress.setMessage b msg) =
      some (names (msg.get "tool_calls") :: others.map fun ch => names ((ch.get "message").get "tool_calls")) := by
  simp only [Egress.setMessage, list, calledNames, Fields.get_set_self, Json.asArr?, Option.map_some,
    List.map_cons, Json.get_obj]

/-- Another message with the same tool calls. -/
theorem sameReply_setMessage {b msg : Fields}
    (same : names (msg.get "tool_calls") = names ((message b).get "tool_calls")) :
    SameReply b (Egress.setMessage b msg) := by
  by_cases listed : ∃ ch others, b.get "choices" = .arr (ch :: others)
  · obtain ⟨ch, others, list⟩ := listed
    have called : calledNames b = calledNames (Egress.setMessage b msg) := by
      rw [calledNames_setMessage list, same, ← names_first list, calledNames, list]
      rfl
    unfold Egress.setMessage at called ⊢
    simp only [list] at called ⊢
    exact sameReply_set_choices called
  · unfold Egress.setMessage
    split
    · exact absurd ⟨_, _, by assumption⟩ listed
    · exact .refl b

theorem sameReply_cloneWithContent (b : Fields) (text : List Char) :
    SameReply b (Egress.cloneWithContent b text) :=
  sameReply_setMessage (by rw [Fields.get_set_of_ne _ (by decide)])

/-- A repaired tool call has the name that it had. -/
theorem calledName_repairCall {h : Helpers} {tc tc' : Json} (repaired : Egress.repairCall h tc = some tc') :
    calledName tc' = calledName tc := by
  obtain rfl | ⟨fields, fn, args, rfl, found, rfl⟩ := Egress.repairCall_cases repaired
  · rfl
  · have called : Json.get (.obj fields) "function" = .obj fn := found
    have name : Json.get (.obj (Fields.set fn "arguments" args)) "name" = Json.get (.obj fn) "name" :=
      Fields.get_set_of_ne fn (by decide) args
    rw [calledName, calledName, called, Json.get_obj, Fields.get_set_self, name]

theorem filterMap_calledName {h : Helpers} {tcs tcs' : List Json}
    (repaired : tcs.mapM (Egress.repairCall h) = some tcs') :
    tcs'.filterMap calledName = tcs.filterMap calledName := by
  induction tcs generalizing tcs' with
  | nil =>
      cases repaired
      rfl
  | cons tc tcs ih =>
      rw [List.mapM_cons] at repaired
      obtain ⟨first, one, rest⟩ := Option.bind_eq_some_iff.mp repaired
      obtain ⟨others, each, whole⟩ := Option.bind_eq_some_iff.mp rest
      cases whole
      rw [List.filterMap_cons, List.filterMap_cons, calledName_repairCall one, ih each]

theorem sameReply_cloneWithRepairedArgs {h : Helpers} {b c : Fields}
    (repaired : Egress.cloneWithRepairedArgs h b = some c) : SameReply b c := by
  unfold Egress.cloneWithRepairedArgs at repaired
  cases calls : (message b).get "tool_calls" with
  | arr tcs =>
      simp only [calls] at repaired
      obtain ⟨tcs', each, rfl⟩ := Option.map_eq_some_iff.mp repaired
      refine sameReply_setMessage ?_
      rw [Fields.get_set_self, calls]
      exact filterMap_calledName each
  | _ => simp [calls] at repaired

theorem sameReply_repairContent {h : Helpers} {schema : Option Fields} {b c : Fields}
    (repaired : Egress.repairContent h schema b = some c) : SameReply b c := by
  unfold Egress.repairContent at repaired
  split at repaired
  · obtain ⟨value, -, rfl⟩ := Option.map_eq_some_iff.mp repaired
    exact sameReply_cloneWithContent b _
  · cases repaired

theorem sameReply_conformBody {h : Helpers} {schema : Option Fields} {expects : Bool} {b c : Fields}
    (repaired : Egress.conformBody h schema expects b = .ok (.repaired c)) : SameReply b c := by
  unfold Egress.conformBody at repaired
  cases checked : Egress.contentOk h schema expects b with
  | error _ =>
      rw [checked] at repaired
      cases repaired
  | ok fine =>
      simp only [checked, bind, Except.bind] at repaired
      split at repaired
      · cases repaired
      · cases mended : (if fine = true then some b else Egress.repairContent h schema b) with
        | none =>
            rw [mended] at repaired
            cases repaired
        | some d =>
            have kept : SameReply b d := by
              split at mended
              · cases mended
                exact .refl b
              · exact sameReply_repairContent mended
            simp only [mended] at repaired
            split at repaired
            · cases repaired
              exact kept
            · cases args : Egress.cloneWithRepairedArgs h d with
              | none =>
                  rw [args] at repaired
                  cases repaired
              | some e =>
                  rw [args] at repaired
                  cases repaired
                  exact kept.trans (sameReply_cloneWithRepairedArgs args)

theorem sameReply_conformed {h : Helpers} {schema : Option Fields} {expects : Bool} {b c : Fields}
    (through : Egress.conformed? h schema expects b = some c) : SameReply b c := by
  unfold Egress.conformed? at through
  cases outcome : Egress.conformBody h schema expects b with
  | error _ =>
      rw [outcome] at through
      cases through
  | ok conformed =>
      cases conformed with
      | ok =>
          rw [outcome] at through
          cases through
          exact .refl b
      | repaired d =>
          rw [outcome] at through
          cases through
          exact sameReply_conformBody outcome
      | failed =>
          rw [outcome] at through
          cases through

/-! ### Forced tool calls -/

/-- The answer of a forced tool call: the calls of the first choice are gone, the rest is kept. -/
structure Translated (b c : Fields) : Prop where
  model : provenance c "model" = provenance b "model"
  source : provenance c "model_source" = provenance b "model_source"
  called : calledNames c = (calledNames b).map fun choices => [] :: choices.tail
  usage : usageOf c = usageOf b

theorem Translated.sameReply {b b' c c' : Fields} (same : SameReply b b') (translated : Translated b c)
    (translated' : Translated b' c') : SameReply c c' where
  model := by rw [translated.model, translated'.model, same.model]
  source := by rw [translated.source, translated'.source, same.source]
  called := by rw [translated.called, translated'.called, same.called]
  usage := by rw [translated.usage, translated'.usage, same.usage]

theorem erase_tool_calls (msg : Fields) : Fields.get (Fields.erase msg "tool_calls") "tool_calls" = .null := by
  rw [Fields.get, Fields.get?_erase_self, Option.getD_none]

/-- What `_apply_forced_tool_answer` does to a body: it translates it, or leaves it. -/
theorem translated_of_apply {h : Helpers} {name : String} {b c : Fields} {outcome : Egress.Translation}
    (applied : Egress.applyForcedToolAnswer h name b = (outcome, c)) :
    outcome = .translated ∧ Translated b c ∨ outcome ≠ .translated ∧ c = b := by
  unfold Egress.applyForcedToolAnswer at applied
  split at applied
  · next ch others list =>
      split at applied
      · next msg _ =>
          split at applied
          · cases applied
            exact .inr ⟨Egress.Translation.noConfusion, rfl⟩
          · cases applied
            exact .inr ⟨Egress.Translation.noConfusion, rfl⟩
          · split at applied
            · cases applied
              exact .inr ⟨Egress.Translation.noConfusion, rfl⟩
            · next args _ =>
                cases applied
                refine .inl ⟨rfl, ?_⟩
                constructor
                · rw [provenance, provenance, Fields.get_set_of_ne b (by decide)]
                · rw [provenance, provenance, Fields.get_set_of_ne b (by decide)]
                · simp only [calledNames, list, Fields.get_set_self, Json.asArr?, Option.map_some, List.map_cons,
                    List.tail_cons, Json.get_obj]
                  split
                  · rw [Fields.get_set_of_ne _ (by decide), Fields.get_set_self, Json.get_obj, erase_tool_calls]
                    rfl
                  · rw [Fields.get_set_self, Json.get_obj, erase_tool_calls]
                    rfl
                · rw [usageOf, usageOf, Fields.get_set_of_ne b (by decide)]
      · cases applied
        exact .inr ⟨Egress.Translation.noConfusion, rfl⟩
  · cases applied
    exact .inr ⟨Egress.Translation.noConfusion, rfl⟩

/-! ### Results -/

/-- Results with the same status and replies that show the same. -/
structure SameResult (x x' : Result) : Prop where
  status : x.status = x'.status
  response : Option.Rel SameReply x.response x'.response

theorem sameReply_option_refl (o : Option Fields) : Option.Rel SameReply o o := by
  cases o with
  | none => exact .none
  | some b => exact .some (.refl b)

theorem SameResult.refl (x : Result) : SameResult x x := ⟨rfl, sameReply_option_refl x.response⟩

theorem SameResult.symm {x x' : Result} (same : SameResult x x') : SameResult x' x := by
  refine ⟨same.status.symm, ?_⟩
  have reply := same.response
  generalize x.response = o at reply
  generalize x'.response = o' at reply
  cases reply with
  | none => exact .none
  | some reply => exact .some reply.symm

theorem SameResult.trans {x x' x'' : Result} (first : SameResult x x') (second : SameResult x' x'') :
    SameResult x x'' := by
  refine ⟨first.status.trans second.status, ?_⟩
  have left := first.response
  have right := second.response
  generalize x.response = o at left
  generalize x'.response = o' at left right
  generalize x''.response = o'' at right
  cases left with
  | none =>
      cases right
      exact .none
  | some reply =>
      cases right with
      | some reply' => exact .some (reply.trans reply')

/-- A guard fails a result. -/
structure Fails (x y : Result) : Prop where
  before : x.status = .ok
  after : y.status = .error
  gone : y.response = none

/-- A guard that keeps what is shown or fails, in two runs that end with one status. -/
theorem SameResult.guarded {x x' y y' : Result} (same : SameResult x x') (kept : SameResult x y ∨ Fails x y)
    (kept' : SameResult x' y' ∨ Fails x' y') (status : y.status = y'.status) : SameResult y y' := by
  rcases kept with kept | fails
  · rcases kept' with kept' | fails'
    · exact (kept.symm.trans same).trans kept'
    · have ok : y.status = .ok := by rw [← kept.status, same.status, fails'.before]
      rw [ok, fails'.after] at status
      cases status
  · rcases kept' with kept' | fails'
    · have ok : y'.status = .ok := by rw [← kept'.status, ← same.status, fails.before]
      rw [ok, fails.after] at status
      cases status
    · refine ⟨status, ?_⟩
      rw [fails.gone, fails'.gone]
      exact .none

section Guards

variable (h : Helpers) (s : Setting) (replies : Replies) (req : Ask) (x : Result)

theorem kept_toolCalls : SameResult x (Egress.enforceToolcallTruncation s req x) ∨
    Fails x (Egress.enforceToolcallTruncation s req x) := by
  unfold Egress.enforceToolcallTruncation
  cases x.response with
  | none => exact .inl (.refl x)
  | some body =>
      simp only
      split
      · exact .inl (.refl x)
      · next armed =>
          simp only [not_or, not_not] at armed
          cases Egress.truncatedTokens req body with
          | ok tokens => exact .inr ⟨armed.2.1, rfl, rfl⟩
          | error _ => exact .inl (.refl x)

theorem kept_validity : SameResult x (Egress.enforceStructuredValidity h s req x) ∨
    Fails x (Egress.enforceStructuredValidity h s req x) := by
  unfold Egress.enforceStructuredValidity
  cases x.response with
  | none => exact .inl (.refl x)
  | some body =>
      simp only
      split
      · exact .inl (.refl x)
      · next armed =>
          simp only [not_or, not_not] at armed
          cases Egress.chatCompletionText body with
          | str content =>
              simp only
              split
              · exact .inl (.refl x)
              · cases Egress.outputTokens body with
                | ok tokens => exact .inr ⟨armed.2.1, rfl, rfl⟩
                | error _ => exact .inl (.refl x)
          | _ => exact .inl (.refl x)

theorem message_of_message? {b msg : Fields} (there : Egress.message? b = some msg) : message b = msg := by
  rw [message]
  unfold Egress.message? at there
  rw [there, Option.getD_some]

theorem kept_thinking : SameResult x (Egress.finalizeThinking h req x) ∨
    Fails x (Egress.finalizeThinking h req x) := by
  unfold Egress.finalizeThinking
  split
  · next allowed body _ there =>
      cases found : Egress.message? body with
      | none => exact .inl (.refl x)
      | some msg =>
          simp only
          cases Fields.get msg "content" with
          | str content =>
              simp only
              split
              · exact .inl (.refl x)
              · next armed =>
                  simp only [not_or, not_not] at armed
                  split
                  · refine .inl ⟨rfl, ?_⟩
                    rw [there]
                    refine .some (sameReply_setMessage ?_)
                    rw [Fields.get_set_of_ne msg (by decide), message_of_message? found]
                  · exact .inr ⟨armed.1, rfl, rfl⟩
          | _ => exact .inl (.refl x)
  · exact .inl (.refl x)

/-- The tool call of the request was the answer, and became the content. -/
def translates : Bool :=
  x.response.any fun body =>
    req.forcedToolSchema.isSome && decide (x.status = .ok) && req.chat &&
      decide ((Egress.applyForcedToolAnswer h req.forcedToolName body).1 = .translated)

theorem forced_kinds : translates h req x = false ∧
      (SameResult x (Egress.finalizeForcedToolSchema h req x) ∨
        Fails x (Egress.finalizeForcedToolSchema h req x)) ∨
    translates h req x = true ∧ ∃ b c, x.response = some b ∧ Translated b c ∧
      (Egress.finalizeForcedToolSchema h req x).status = x.status ∧
      (Egress.finalizeForcedToolSchema h req x).response = some c := by
  unfold Egress.finalizeForcedToolSchema translates
  cases there : x.response with
  | none => exact .inl ⟨rfl, .inl (.refl x)⟩
  | some body =>
      simp only [Option.any_some]
      by_cases armed : req.forcedToolSchema.isSome ∧ x.status = .ok ∧ req.chat = true
      · rw [if_pos armed]
        obtain ⟨forced, ok, chat⟩ := armed
        rw [forced, ok, chat]
        cases applied : Egress.applyForcedToolAnswer h req.forcedToolName body with
        | mk outcome c =>
            cases outcome with
            | translated =>
                right
                refine ⟨rfl, body, c, rfl, ?_, rfl, rfl⟩
                rcases translated_of_apply applied with ⟨-, translated⟩ | ⟨other, -⟩
                · exact translated
                · exact absurd rfl other
            | unusable =>
                left
                refine ⟨rfl, ?_⟩
                simp only
                cases Egress.truncatedTokens req body with
                | ok tokens => exact .inr ⟨ok, rfl, rfl⟩
                | error _ => exact .inl (.refl x)
            | _ => exact .inl ⟨rfl, .inl (.refl x)⟩
      · rw [if_neg armed]
        refine .inl ⟨?_, .inl (.refl x)⟩
        have off : (req.forcedToolSchema.isSome && decide (x.status = .ok) && req.chat) = false := by
          rw [Bool.eq_false_iff]
          intro on
          simp only [Bool.and_eq_true, decide_eq_true_eq] at on
          exact armed ⟨on.1.1, on.1.2, on.2⟩
        rw [off, Bool.false_and]

/-! ### Replies of further calls -/

theorem firstClean_bodies (h : Helpers) (answers : List (Option Answer)) :
    (Egress.firstClean h (answers.map (Option.map Answer.body))).toOption.join =
      (firstCleanAnswer h answers).map Answer.body := by
  induction answers with
  | nil => rfl
  | cons answer answers ih =>
      cases answer with
      | none => exact ih
      | some a =>
          rw [List.map_cons, Option.map_some, Egress.firstClean, firstCleanAnswer]
          cases Egress.isClean h a.body with
          | error _ => rfl
          | ok clean =>
              cases clean with
              | false => exact ih
              | true => rfl

/-- The loop guard leaves the body, or takes that of the answer it recovers. -/
theorem degenerate_recovered (answers : ℕ → Option Answer) :
    (Egress.maybeCorrectDegenerate h s (repliesOf answers) req x).status = x.status ∧
      (Egress.maybeCorrectDegenerate h s (repliesOf answers) req x).response =
        ((recovered h s answers req x).map Answer.body).or x.response := by
  unfold recovered
  cases there : x.response with
  | none =>
      unfold Egress.maybeCorrectDegenerate
      rw [there]
      exact ⟨rfl, there⟩
  | some body =>
      have bodies := firstClean_bodies h (((List.range 2).take s.degenTries).map answers)
      rw [List.map_map] at bodies
      simp only [Egress.maybeCorrectDegenerate, there]
      by_cases off : s.degenerationGuard = false ∨ x.status ≠ .ok ∨ req.chat = false ∨
          Egress.loops h body = false ∨ s.degenerationShadow = true
      · have off' : s.degenerationGuard = false ∨ x.status ≠ .ok ∨ req.chat = false ∨
            Egress.loops h body = false ∨ s.degenerationShadow = true ∨ Egress.capped body = true ∨
            s.configured = false ∨ s.degenFree = false := by tauto
        rw [if_pos off, if_pos off']
        exact ⟨rfl, there⟩
      · rw [if_neg off]
        by_cases full : Egress.capped body = true
        · rw [if_pos full, if_pos (by tauto)]
          exact ⟨rfl, rfl⟩
        · rw [if_neg full]
          by_cases unknown : s.configured = false
          · rw [if_pos unknown, if_pos (by tauto)]
            exact ⟨rfl, there⟩
          · rw [if_neg unknown]
            by_cases busy : s.degenFree = false
            · rw [if_pos busy, if_pos (by tauto)]
              exact ⟨rfl, rfl⟩
            · rw [if_neg busy, if_neg (by tauto), ← bodies]
              change _ ∧ _ = (Option.join (Egress.firstClean h (s.tried (repliesOf answers))).toOption).or _
              cases Egress.firstClean h (s.tried (repliesOf answers)) with
              | error _ => exact ⟨rfl, there⟩
              | ok clean =>
                  cases clean with
                  | none | some r => exact ⟨rfl, rfl⟩

/-- The answer of the retry became the content. -/
def retranslates (body : Fields) : Bool :=
  req.forcedToolSchema.isSome && decide (req.forcedToolName ≠ "") &&
    decide ((Egress.applyForcedToolAnswer h req.forcedToolName body).1 = .translated)

theorem retryBody_kinds (a : Fields) : retranslates h req a = false ∧ Egress.retryBody h req a = a ∨
    retranslates h req a = true ∧ Translated a (Egress.retryBody h req a) := by
  unfold Egress.retryBody retranslates
  by_cases forced : req.forcedToolSchema.isSome ∧ req.forcedToolName ≠ ""
  · rw [if_pos forced, forced.1, decide_eq_true forced.2, Bool.and_self, Bool.true_and]
    rcases translated_of_apply (b := a) rfl with ⟨here, translated⟩ | ⟨other, same⟩
    · exact .inr ⟨decide_eq_true here, translated⟩
    · exact .inl ⟨decide_eq_false other, same⟩
  · rw [if_neg forced]
    refine .inl ⟨?_, rfl⟩
    have off : (req.forcedToolSchema.isSome && decide (req.forcedToolName ≠ "")) = false := by
      rw [Bool.eq_false_iff]
      intro on
      rw [Bool.and_eq_true, decide_eq_true_eq] at on
      exact forced on
    rw [off, Bool.false_and]

/-- The backstop keeps what is shown or fails, repairs the body, or takes that of the retry. -/
theorem repair_kinds :
    mended (Egress.maybeRepairSchema h s replies req) x = (false, false) ∧
        (SameResult x (Egress.maybeRepairSchema h s replies req x) ∨
          Fails x (Egress.maybeRepairSchema h s replies req x)) ∨
      mended (Egress.maybeRepairSchema h s replies req) x = (true, false) ∧
        SameResult x (Egress.maybeRepairSchema h s replies req x) ∨
      mended (Egress.maybeRepairSchema h s replies req) x = (false, true) ∧ ∃ a c, replies.retry = some a ∧
        SameReply (Egress.retryBody h req a) c ∧ (Egress.maybeRepairSchema h s replies req x).status = x.status ∧
        (Egress.maybeRepairSchema h s replies req x).response = some c := by
  by_cases served : (∃ body, x.response = some body) ∧ x.status = .ok
  · obtain ⟨⟨body, there⟩, ok⟩ := served
    rcases Egress.backstop_cases h s req body with
      same | ⟨schema, c, -, conformed, ran⟩ | ⟨schema, errorMsg, -, -, -, -, -, -, -, ran⟩
    · rw [mended, same _ _ there ok, same _ { x with schemaRepaired := false, schemaRetried := false } there ok]
      exact .inl ⟨rfl, .inl (.refl x)⟩
    · rw [mended, ran _ _ there ok, ran _ { x with schemaRepaired := false, schemaRetried := false } there ok]
      refine .inr (.inl ⟨rfl, rfl, ?_⟩)
      rw [there]
      exact .some (sameReply_conformBody conformed)
    · rw [mended, ran _ _ there ok, ran _ { x with schemaRepaired := false, schemaRetried := false } there ok]
      cases retried : Egress.schemaRetry h s replies req schema (Egress.requestIsStructured req) with
      | none => exact .inl ⟨rfl, .inr ⟨ok, rfl, rfl⟩⟩
      | some c =>
          obtain ⟨a, retry, through⟩ := Egress.schemaRetry_eq_some retried
          exact .inr (.inr ⟨rfl, a, c, retry, sameReply_conformed through, rfl, rfl⟩)
  · unfold mended Egress.maybeRepairSchema
    cases there : x.response with
    | none => exact .inl ⟨rfl, .inl (.refl x)⟩
    | some body =>
        have off : s.schemaBackstop = false ∨ x.status ≠ .ok ∨ req.chat = false ∨
            (Egress.requestIsStructured req || Egress.hasTools req) = false :=
          .inr (.inl fun ok => served ⟨⟨body, there⟩, ok⟩)
        simp only [if_pos off]
        exact .inl ⟨trivial, .inl (.refl x)⟩

end Guards

end Roadstead.NoStore
