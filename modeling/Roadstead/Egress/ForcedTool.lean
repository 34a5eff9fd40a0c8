import Roadstead.Egress
import Roadstead.Sanitizer.Complete

/-!
# A schema sent as a tool, and the call sent back as content

`apply_forced_tool_schema` turns the `response_format` of a request into a tool that the model is
made to call, for a backend that says on its own `/health` that it has no `response_format`;
`finalize_forced_tool_schema` (in `Roadstead.Egress`) turns the call back.  The two share nothing
but the name of the tool.

The way back is `Answered`: a reply that differs from the backend's in the message and the
`finish_reason` of its first choice only.  `roundTrip_iff` says where the pair falls short of it: a
`response_format` in both places leaves one behind, and one call whose `function` cannot be read
hides the call that was asked for.
-/

namespace Roadstead.Egress

open Json (Fields)
open Watched (choice0 message)

/-! ### The request -/

/-- `_TOOL_NAME_CHARS`. -/
def toolNameChars : List Char :=
  "abcdefghijklmnopqrstuvwxyzABCDEFGHIJKLMNOPQRSTUVWXYZ0123456789_-".toList

/-- `_FORCED_TOOL_FALLBACK_NAME`. -/
def forcedToolFallbackName : List Char := "structured_response".toList

/-- `str(value or "")`. -/
def strOr (h : Helpers) : Json → String
  | .str s => s
  | value => if value.truthy then h.str value else ""

/-- `text.strip("_")`. -/
def stripUnderscores (text : List Char) : List Char :=
  (text.dropWhile (· = '_')).rdropWhile (· = '_')

/-- `_forced_tool_name`. -/
def forcedToolNameOf (h : Helpers) (schemaName : Json) : List Char :=
  let legal := (strOr h schemaName).toList.map fun c => if c ∈ toolNameChars then c else '_'
  let cleaned := stripUnderscores (legal.take 64)
  if cleaned = [] then forcedToolFallbackName else cleaned

/-- `_json_schema_response_format`, with the schema. -/
def jsonSchemaResponseFormat (h : Helpers) : Json → Option (Fields × Fields)
  | .obj rf =>
      if Text.strip (strOr h (Fields.get rf "type")).toList = "json_schema".toList then
        match Fields.get rf "json_schema" with
        | .obj js =>
            match Fields.get js "schema" with
            | .obj schema =>
                if schema ≠ [] ∧ strOr h (Fields.get schema "type") = "object" then some (js, schema)
                else none
            | _ => none
        | _ => none
      else none
  | _ => none

/-- The constraints that keep a request as it is, besides a second `response_format`. -/
def constraintKeys : List String :=
  ["grammar", "guided_grammar", "guided_json", "guided_choice", "guided_regex", "structured_outputs"]

/-- A key is set in the payload or in its `extra_body`. -/
def setAnywhere (keys : List String) (payload : Fields) : Bool :=
  keys.any fun key => (payload.get key).truthy || ((extraBody payload).get key).truthy

/-- What `apply_forced_tool_schema` knows of a request and of its endpoint. -/
structure Admitted where
  ask : Ask
  stream : Bool
  /-- The endpoint is known, and `response_format` is among its `not_implemented`. -/
  disclaimed : Bool

/-- The tool that a schema becomes. -/
def forcedFunction (name : List Char) (js schema : Fields) : Fields :=
  let function := [("name", .str (.ofList name)), ("parameters", .obj schema)]
  match Fields.get js "description" with
  | .str desc => if blank desc.toList then function else Fields.set function "description" (.str desc)
  | _ => function

/-- The payload with the tool, once the `response_format` is out of it. -/
def withForcedTool (payload : Fields) (name : List Char) (js schema : Fields) : Fields :=
  Fields.set
    (Fields.set payload "tools"
      (.arr [.obj [("type", .str "function"), ("function", .obj (forcedFunction name js schema))]]))
    "tool_choice"
    (.obj [("type", .str "function"), ("function", .obj [("name", .str (.ofList name))])])

/-- The payload without the `response_format` that is translated, and what that says. -/
def takeResponseFormat (h : Helpers) (payload : Fields) : Option (Fields × Fields × Fields) :=
  match jsonSchemaResponseFormat h (payload.get "response_format") with
  | some block => some (payload.erase "response_format", block)
  | none =>
      match jsonSchemaResponseFormat h ((extraBody payload).get "response_format") with
      | some block =>
          some (payload.set "extra_body" (.obj (Fields.erase (extraBody payload) "response_format")),
            block)
      | none => none

/-- What keeps a request as it is before its `response_format` is looked at. -/
def handsOff (a : Admitted) : Bool :=
  !a.ask.chat || a.stream || !a.disclaimed || setAnywhere constraintKeys a.ask.payload ||
    setAnywhere ["tools", "tool_choice"] a.ask.payload

/-- The request after a translation, if there is one. -/
def forcedToolSchema? (h : Helpers) (a : Admitted) : Option Ask :=
  if handsOff a then none
  else
    (takeResponseFormat h a.ask.payload).map fun (payload, js, schema) =>
      let name := forcedToolNameOf h (Fields.get js "name")
      { a.ask with
        payload := withForcedTool payload name js schema
        forcedToolSchema := some schema
        forcedToolName := .ofList name }

/-- `apply_forced_tool_schema`. -/
def applyForcedToolSchema (h : Helpers) (a : Admitted) : Ask := (forcedToolSchema? h a).getD a.ask

/-! ### Names -/

/-- `[A-Za-z0-9_-]{1,64}`. -/
def LegalToolName (name : List Char) : Prop :=
  1 ≤ name.length ∧ name.length ≤ 64 ∧ ∀ c ∈ name, c ∈ toolNameChars

theorem stripUnderscores_sublist (text : List Char) : (stripUnderscores text).Sublist text :=
  (List.rdropWhile_prefix _ _).sublist.trans (List.dropWhile_sublist _)

/-- Whatever the caller calls its schema, the tool has a legal name. -/
theorem legal_forcedToolNameOf (h : Helpers) (schemaName : Json) :
    LegalToolName (forcedToolNameOf h schemaName) := by
  rw [forcedToolNameOf]
  split
  case isTrue => exact ⟨by decide, by decide, List.all_iff_forall_prop.1 (by decide)⟩
  case isFalse some_left =>
    have part := stripUnderscores_sublist
      (((strOr h schemaName).toList.map fun c => if c ∈ toolNameChars then c else '_').take 64)
    refine ⟨List.length_pos_iff.mpr some_left, ?_, ?_⟩
    · exact part.length_le.trans (List.length_take_le ..)
    · intro c mem
      obtain ⟨c', -, rfl⟩ := List.mem_map.mp (List.mem_of_mem_take (part.subset mem))
      split
      case isTrue legal => exact legal
      case isFalse => decide

/-! ### The reply -/

/-- A call, as a mapping, and that it has this name; what cannot be read has none. -/
def isNamed (h : Helpers) (name : String) (tc : Fields) : Bool :=
  match tc.get "function" with
  | .obj fn => decide (strOr h (Fields.get fn "name") = name)
  | fn => !fn.truthy && decide (name = "")

/-- The calls of this name in the first choice. -/
def namedCalls (h : Helpers) (name : String) (body : Fields) : List Fields :=
  ((responseToolCalls body).filterMap Json.asObj?).filter (isNamed h name)

/-- The arguments of a call are a JSON object, as a text or as an object; `args` is their text. -/
inductive ObjectArguments (h : Helpers) (tc : Fields) : List Char → Prop
  | text {args : String} {fields : Fields} : (tc.get "function").get "arguments" = .str args →
      Json.loads false args.toList = some (.obj fields) → ObjectArguments h tc args.toList
  | object {fields : Fields} : (tc.get "function").get "arguments" = .obj fields →
      ObjectArguments h tc (h.dumps (.obj fields))

/-- The reply has a call of this name, and the first one has `args`. -/
def Calls (h : Helpers) (name : String) (body : Fields) (args : List Char) : Prop :=
  ∃ tc others, namedCalls h name body = tc :: others ∧ ObjectArguments h tc args

/-- The reply as a caller that sent a `response_format` reads it: `args` are its content, and
nothing else is other than the backend sent it. -/
structure Answered (body body' : Fields) (args : List Char) : Prop where
  content : (message body').get "content" = .str (.ofList args)
  toolCalls : (message body').get? "tool_calls" = none
  message : ∀ key, key ≠ "content" → key ≠ "tool_calls" →
    (message body').get? key = (message body).get? key
  finish : (choice0 body').get "finish_reason" =
    if (choice0 body).get "finish_reason" ∈ [Json.null, .str "", .str "tool_calls"] then .str "stop"
    else (choice0 body).get "finish_reason"
  choice : ∀ key, key ≠ "message" → key ≠ "finish_reason" →
    (choice0 body').get? key = (choice0 body).get? key
  choices : ((body'.get "choices").asArr?).map List.tail = ((body.get "choices").asArr?).map List.tail
  body : ∀ key, key ≠ "choices" → body'.get? key = body.get? key

section Reply

variable {h : Helpers} {name : String} {body : Fields} {args : List Char}

/-- Something else than a mapping or nothing. -/
def unreadableFunction : Json → Bool
  | .obj _ => false
  | fn => fn.truthy

/-- A call whose `function` cannot be read. -/
def unreadable : Json → Bool
  | .obj tc => unreadableFunction (Fields.get tc "function")
  | _ => false

theorem calledName_of_readable {tc : Fields} (readable : unreadable (.obj tc) = false) :
    ∃ called, calledName h tc = .ok called ∧ isNamed h name tc = decide (called = name) := by
  change unreadableFunction (Fields.get tc "function") = false at readable
  unfold calledName isNamed
  cases function : Fields.get tc "function" with
  | obj fn =>
      simp only
      cases named : Fields.get fn "name" <;> exact ⟨_, rfl, rfl⟩
  | _ =>
      rw [function, unreadableFunction] at readable
      · simp only [readable, Bool.false_eq_true, if_false]
        refine ⟨"", rfl, ?_⟩
        simp only [Bool.not_false, Bool.true_and, eq_comm]
      · exact fun _ => Json.noConfusion

theorem calledName_of_unreadable {tc : Fields} (hidden : unreadable (.obj tc) = true) :
    calledName h tc = .error () := by
  change unreadableFunction (Fields.get tc "function") = true at hidden
  unfold calledName
  cases function : Fields.get tc "function" with
  | obj fn =>
      rw [function] at hidden
      cases hidden
  | _ =>
      rw [function] at hidden
      exact if_pos hidden

theorem callsNamed_of_readable {tcs : List Json} (readable : tcs.any unreadable = false) :
    callsNamed h name tcs = .ok ((tcs.filterMap Json.asObj?).filter (isNamed h name)) := by
  induction tcs with
  | nil => rfl
  | cons tc tcs ih =>
      rw [List.any_cons, Bool.or_eq_false_iff] at readable
      have rest := ih readable.2
      cases tc with
      | obj tc =>
          obtain ⟨called, reads, named⟩ : ∃ called, calledName h tc = .ok called ∧
              isNamed h name tc = decide (called = name) := calledName_of_readable readable.1
          have objects : (Json.obj tc :: tcs).filterMap Json.asObj? =
              tc :: tcs.filterMap Json.asObj? := rfl
          rw [callsNamed, reads, rest, objects, List.filter_cons, named]
          by_cases mine : called = name
          · simp [mine, bind, Except.bind]
          · simp [mine, bind, Except.bind]
      | _ => exact rest

theorem callsNamed_of_unreadable {tcs : List Json} (hidden : tcs.any unreadable = true) :
    callsNamed h name tcs = .error () := by
  induction tcs with
  | nil => cases hidden
  | cons tc tcs ih =>
      rw [List.any_cons, Bool.or_eq_true] at hidden
      cases tc with
      | obj tc =>
          rw [callsNamed]
          cases reads : calledName h tc with
          | error _ => rfl
          | ok called =>
              rcases hidden with first | later
              · rw [calledName_of_unreadable first] at reads
                cases reads
              · rw [ih later]
                rfl
      | _ =>
          rcases hidden with first | later
          · cases first
          · exact ih later

theorem not_blank_of_loads {text : List Char} {v : Json} (read : Json.loads false text = some v) :
    blank text = false := by
  by_contra empty
  rw [Bool.not_eq_false, blank, decide_eq_true_eq] at empty
  have none := ToolCallStreamSanitizer.value?_blank empty
  unfold Json.loads at read
  split at read
  case isTrue => cases read
  case isFalse =>
    simp only at read
    rw [ToolCallStreamSanitizer.value?, Json.rawDecode, Option.map_eq_none_iff] at none
    rw [none] at read
    cases read

theorem forcedToolArguments_eq {tc : Fields} (object : ObjectArguments h tc args) :
    forcedToolArguments h tc = some args := by
  cases object with
  | text stated read =>
      rw [forcedToolArguments, stated]
      simp only
      rw [if_neg (Bool.eq_false_iff.mp (not_blank_of_loads read)), read]
  | object stated => rw [forcedToolArguments, stated]

/-- Calls are found in a message only. -/
theorem shape_of_calls (found : responseToolCalls body ≠ []) :
    ∃ ch others msg, body.get "choices" = .arr (.obj ch :: others) ∧
      Fields.get ch "message" = .obj msg := by
  have some_message : message body ≠ [] := by
    intro none
    rw [responseToolCalls, none] at found
    exact found rfl
  rw [message] at some_message
  cases sent : (choice0 body).get "message" with
  | obj msg =>
      have some_choice : choice0 body ≠ [] := by
        intro none
        rw [none] at sent
        cases sent
      unfold choice0 at sent some_choice
      split at sent
      case h_1 ch others list => exact ⟨ch, others, msg, list, sent⟩
      case h_2 => cases sent
  | _ =>
      rw [sent] at some_message
      exact absurd rfl some_message

theorem Calls.responseToolCalls_ne_nil (calls : Calls h name body args) :
    responseToolCalls body ≠ [] := by
  intro none
  obtain ⟨tc, others, found, -⟩ := calls
  rw [namedCalls, none] at found
  cases found

/-- A reply whose calls can all be read is put back. -/
theorem answered_of_readable (calls : Calls h name body args)
    (readable : (responseToolCalls body).any unreadable = false) :
    ∃ body', applyForcedToolAnswer h name body = (.translated, body') ∧ Answered body body' args := by
  obtain ⟨ch, others, msg, list, sent⟩ := shape_of_calls calls.responseToolCalls_ne_nil
  obtain ⟨tc, more, found, object⟩ := calls
  have named : callsNamed h name (responseToolCalls body) = .ok (tc :: more) := by
    rw [callsNamed_of_readable readable, ← found, namedCalls]
  have ch_eq : choice0 body = ch := by rw [choice0, list]
  have msg_eq : message body = msg := by
    rw [message, ch_eq, sent]
    rfl
  set answer := Fields.erase (Fields.set msg "content" (.str (.ofList args))) "tool_calls" with answer_def
  set reply := Fields.set ch "message" (.obj answer) with reply_def
  set finished :=
    if Fields.get reply "finish_reason" ∈ [Json.null, .str "", .str "tool_calls"] then
      Fields.set reply "finish_reason" (.str "stop")
    else reply with finished_def
  have reason : Fields.get reply "finish_reason" = Fields.get ch "finish_reason" :=
    Fields.get_set_of_ne _ (by decide) _
  have finished_get : ∀ key, key ≠ "finish_reason" → Fields.get? finished key = Fields.get? reply key := by
    intro key other
    rw [finished_def]
    split
    · exact Fields.get?_set_of_ne _ other _
    · rfl
  have ch' : choice0 (Fields.set body "choices" (.arr (.obj finished :: others))) = finished := by
    rw [choice0, Fields.get_set_self]
  have msg' : message (Fields.set body "choices" (.arr (.obj finished :: others))) = answer := by
    rw [message, ch', Fields.get, finished_get "message" (by decide), reply_def, Fields.get?_set_self]
    rfl
  refine ⟨Fields.set body "choices" (.arr (.obj finished :: others)), ?_, ?_⟩
  · rw [applyForcedToolAnswer, list]
    simp only [sent, named, forcedToolArguments_eq object]
    rfl
  · constructor
    case content =>
      rw [msg', answer_def, Fields.get_erase_of_ne _ (by decide), Fields.get_set_self]
    case toolCalls => rw [msg', answer_def, Fields.get?_erase_self]
    case message =>
      intro key not_content not_calls
      rw [msg', msg_eq, answer_def, Fields.get?_erase_of_ne _ not_calls,
        Fields.get?_set_of_ne _ not_content]
    case finish =>
      rw [ch', ch_eq, finished_def, reason]
      split
      · rw [Fields.get_set_self]
      · exact reason
    case choice =>
      intro key not_message not_reason
      rw [ch', ch_eq, finished_get key not_reason, reply_def, Fields.get?_set_of_ne _ not_message]
    case choices =>
      rw [Fields.get_set_self, list]
      rfl
    case body => exact fun key other => Fields.get?_set_of_ne _ other _

/-- One call that cannot be read, and the reply stays as it is. -/
theorem malformed_of_unreadable (hidden : (responseToolCalls body).any unreadable = true) :
    applyForcedToolAnswer h name body = (.malformed, body) := by
  unfold applyForcedToolAnswer
  split
  · split
    · rw [callsNamed_of_unreadable hidden]
    · rfl
  · rfl

end Reply

/-! ### The round trip -/

section RoundTrip

variable (h : Helpers) (a : Admitted)

/-- The `json_schema` that would be translated: the one of the payload itself, if it has one. -/
def schemaBlock? (payload : Fields) : Option (Fields × Fields) :=
  (jsonSchemaResponseFormat h (payload.get "response_format")).or
    (jsonSchemaResponseFormat h ((extraBody payload).get "response_format"))

/-- The request is one that is translated. -/
def Translates : Prop := handsOff a = false ∧ (schemaBlock? h a.ask.payload).isSome = true

/-- The name of the tool that a payload asks for. -/
def toolNameOf (payload : Fields) : String :=
  .ofList (forcedToolNameOf h (((schemaBlock? h payload).map fun b => Fields.get b.1 "name").getD .null))

/-- A `response_format` that constrains the output. -/
def constrains : Json → Bool
  | .obj rf => !rf.isEmpty && decide (Fields.get rf "type" ≠ .str "text")
  | _ => false

/-- The payload has a `response_format` in both places. -/
def secondFormat (payload : Fields) : Bool :=
  constrains (payload.get "response_format") && constrains ((extraBody payload).get "response_format")

/-- The request streams, declares tools, or has another constraint on its output besides the one
`response_format`. -/
def Barred : Prop :=
  a.stream = true ∨ setAnywhere ["tools", "tool_choice"] a.ask.payload = true ∨
    setAnywhere constraintKeys a.ask.payload = true ∨ secondFormat a.ask.payload = true

/-- The pair of translations is invisible to the caller, for this request and this reply. -/
structure RoundTrip (result : Result) : Prop where
  name : ∀ req ∈ forcedToolSchema? h a, LegalToolName req.forcedToolName.toList
  reply : ∀ req ∈ forcedToolSchema? h a, ∀ body args, result.status = .ok →
    result.response = some body → Calls h req.forcedToolName body args →
      ∃ body', (finalizeForcedToolSchema h req result).status = .ok ∧
        (finalizeForcedToolSchema h req result).response = some body' ∧ Answered body body' args
  barred : Barred a → forcedToolSchema? h a = none ∧ applyForcedToolSchema h a = a.ask

variable {h a}

theorem takeResponseFormat_snd (payload : Fields) :
    (takeResponseFormat h payload).map Prod.snd = schemaBlock? h payload := by
  rw [takeResponseFormat, schemaBlock?]
  cases jsonSchemaResponseFormat h (payload.get "response_format") with
  | some block => rfl
  | none =>
      cases jsonSchemaResponseFormat h ((extraBody payload).get "response_format") with
      | some block | none => rfl

/-- A request is translated to one that remembers the name of the tool. -/
theorem forcedToolSchema?_of_translates (translates : Translates h a) :
    ∃ req, forcedToolSchema? h a = some req ∧ req.chat = true ∧ req.forcedToolSchema.isSome = true ∧
      req.forcedToolName = toolNameOf h a.ask.payload := by
  obtain ⟨on, found⟩ := translates
  have chat : a.ask.chat = true := by
    simp only [handsOff, Bool.or_eq_false_iff, Bool.not_eq_false'] at on
    exact on.1.1.1.1
  rw [← takeResponseFormat_snd, Option.isSome_map, Option.isSome_iff_exists] at found
  obtain ⟨⟨payload, js, schema⟩, taken⟩ := found
  rw [forcedToolSchema?, on, taken]
  refine ⟨_, rfl, chat, rfl, ?_⟩
  rw [toolNameOf, ← takeResponseFormat_snd, taken]
  rfl

theorem forcedToolSchema?_eq_none (stays : ¬Translates h a) : forcedToolSchema? h a = none := by
  by_cases off : handsOff a = true
  · rw [forcedToolSchema?, if_pos off]
  · have none : takeResponseFormat h a.ask.payload = none := by
      by_contra found
      rw [← ne_eq, Option.ne_none_iff_isSome] at found
      refine stays ⟨Bool.eq_false_iff.mpr off, ?_⟩
      rwa [← takeResponseFormat_snd, Option.isSome_map]
    rw [forcedToolSchema?, if_neg off, none, Option.map_none]

/-- Whatever else bars a request is seen; the second `response_format` is not. -/
theorem Translates.secondFormat_of_barred (translates : Translates h a) (barred : Barred a) :
    secondFormat a.ask.payload = true := by
  have on := translates.1
  simp only [handsOff, Bool.or_eq_false_iff] at on
  obtain ⟨⟨⟨⟨-, stream⟩, -⟩, constraint⟩, tools⟩ := on
  rcases barred with streams | declares | other | second
  · rw [stream] at streams
    cases streams
  · rw [tools] at declares
    cases declares
  · rw [constraint] at other
    cases other
  · exact second

theorem finalizeForcedToolSchema_eq {req : Ask} {result : Result} {body : Fields}
    (chat : req.chat = true) (forced : req.forcedToolSchema.isSome = true)
    (ok : result.status = .ok) (response : result.response = some body) :
    ((applyForcedToolAnswer h req.forcedToolName body).1 = .translated →
        finalizeForcedToolSchema h req result =
          { result with
            response := some (applyForcedToolAnswer h req.forcedToolName body).2
            forcedToolTranslated := true }) ∧
      ((applyForcedToolAnswer h req.forcedToolName body).1 = .malformed →
        finalizeForcedToolSchema h req result = result) := by
  rw [finalizeForcedToolSchema, response]
  simp only
  rw [if_pos ⟨forced, ok, chat⟩]
  cases found : applyForcedToolAnswer h req.forcedToolName body with
  | mk outcome body' =>
      cases outcome with
      | translated => exact ⟨fun _ => rfl, Translation.noConfusion⟩
      | malformed => exact ⟨Translation.noConfusion, fun _ => rfl⟩
      | absent | unusable => exact ⟨Translation.noConfusion, Translation.noConfusion⟩

/-- **The forced tool, there and back.**  It is invisible to the caller but for two kinds of input:
a request with a `response_format` both in the payload and in `extra_body`, which is translated
although it has another constraint, and a reply in which some call has a `function` that is
something else than a mapping, which is left as it came. -/
theorem roundTrip_iff (h : Helpers) (a : Admitted) (result : Result) :
    RoundTrip h a result ↔
      ¬(Translates h a ∧ secondFormat a.ask.payload = true) ∧
        ¬(Translates h a ∧ result.status = .ok ∧ ∃ body args, result.response = some body ∧
          Calls h (toolNameOf h a.ask.payload) body args ∧
            (responseToolCalls body).any unreadable = true) := by
  by_cases translates : Translates h a
  · obtain ⟨req, applied, chat, forced, name⟩ := forcedToolSchema?_of_translates translates
    constructor
    · rintro ⟨-, reply, barred⟩
      constructor
      · rintro ⟨-, second⟩
        have stays := (barred (.inr (.inr (.inr second)))).1
        rw [applied] at stays
        cases stays
      · rintro ⟨-, ok, body, args, response, calls, hidden⟩
        rw [← name] at calls
        obtain ⟨body', -, response', answered⟩ := reply req applied body args ok response calls
        have left := (finalizeForcedToolSchema_eq (h := h) chat forced ok response).2
          (congrArg Prod.fst (malformed_of_unreadable hidden))
        rw [left, response, Option.some.injEq] at response'
        subst response'
        -- the calls are still there
        refine calls.responseToolCalls_ne_nil ?_
        rw [responseToolCalls, Fields.get, answered.toolCalls]
        rfl
    · rintro ⟨single, read⟩
      constructor
      case name =>
        intro req' mem
        rw [applied, Option.mem_some_iff] at mem
        subst mem
        rw [name, toolNameOf, String.toList_ofList]
        exact legal_forcedToolNameOf h _
      case reply =>
        intro req' mem body args ok response calls
        rw [applied, Option.mem_some_iff] at mem
        subst mem
        have readable : (responseToolCalls body).any unreadable = false := by
          by_contra hidden
          rw [Bool.not_eq_false] at hidden
          rw [name] at calls
          exact read ⟨translates, ok, body, args, response, calls, hidden⟩
        obtain ⟨body', found, answered⟩ := answered_of_readable calls readable
        have put_back := (finalizeForcedToolSchema_eq (h := h) chat forced ok response).1
          (congrArg Prod.fst found)
        rw [put_back, found]
        exact ⟨body', ok, rfl, answered⟩
      case barred =>
        intro barred
        exact absurd ⟨translates, translates.secondFormat_of_barred barred⟩ single
  · have stays := forcedToolSchema?_eq_none translates
    constructor
    · exact fun _ => ⟨fun both => translates both.1, fun both => translates both.1⟩
    · intro _
      constructor
      case name =>
        intro req mem
        rw [stays] at mem
        cases mem
      case reply =>
        intro req mem
        rw [stays] at mem
        cases mem
      case barred => exact fun _ => ⟨stays, by rw [applyForcedToolSchema, stays, Option.getD_none]⟩

/-- A schema in the payload and a second `response_format` in `extra_body`: the request is
translated, and the second one goes to the backend with it. -/
theorem second_format_translated :
    ¬∀ (h : Helpers) (a : Admitted) (result : Result), RoundTrip h a result := by
  intro invisible
  let h : Helpers :=
    { dumps := fun _ => [], str := fun _ => "", repairs := fun _ => none, refuses := fun _ _ => none,
      unreadable := fun _ => false, rootObjectKeys := fun _ => [], isDegenerateText := fun _ => false }
  let schema : Fields := [("type", .str "object")]
  let payload : Fields :=
    [("messages", .arr []),
      ("response_format", .obj [("type", .str "json_schema"),
        ("json_schema", .obj [("name", .str "answer"), ("schema", .obj schema)])]),
      ("extra_body", .obj [("response_format", .obj [("type", .str "json_object")])])]
  let a : Admitted :=
    { ask := { chat := true, endpoint := "local", payload := payload }, stream := false
      disclaimed := true }
  have barred : Barred a := .inr (.inr (.inr (by decide)))
  have stays := ((invisible h a { status := .ok, response := none }).barred barred).1
  exact absurd (congrArg Option.isSome stays) (by decide)

end RoundTrip

end Roadstead.Egress
