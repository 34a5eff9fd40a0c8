import Roadstead.Lib.Run
import Roadstead.NoStore.Shapes

/-!
# No-store noninterference

Two systems with the same stores are fed the same events, but for one request, whose no-store outcome
is honoured: its contents and those of its replies may differ.  `LiveTwins` says what of the request
stays the same through every step, `StepTwins` what a step of it may differ in, and
`noninterference` that the six stores are equal after any number of events.

A row has the sizes of what it drops, and they are those of the payload and of the body that would
have been stored: the payload with its grammar normalized, the body as a correction left it.  That
these are of one size is asked where a row is written, since it does not follow from the sizes of
what came in: see `sizes_are_recorded`.
-/

namespace Roadstead.NoStore

open Json (Fields)
open Watched (usageOf)
open Egress (Ask Helpers Replies Result Setting)

/-! ### Requests and replies that differ in content -/

/-- Requests that give a row the same columns. -/
structure SameCaller (r r' : Request) : Prop where
  requestId : r.head.requestId = r'.head.requestId
  agentId : r.head.agentId = r'.head.agentId
  endpoint : r.head.endpoint = r'.head.endpoint
  callSite : r.head.callSite = r'.head.callSite
  priority : r.head.priority = r'.head.priority
  payloadType : r.head.payloadType = r'.head.payloadType
  sessionId : r.head.sessionId = r'.head.sessionId
  turnId : r.head.turnId = r'.head.turnId
  callerId : r.head.callerId = r'.head.callerId
  noStore : r.head.noStoreOutcome = r'.head.noStoreOutcome
  keyId : r.keyId = r'.keyId

/-- Honoured requests that differ in their content. -/
structure RequestTwins (r r' : Request) : Prop where
  honoured : r.head.noStoreOutcome = "honoured"
  caller : SameCaller r r'
  shape : SameShape r.payload r'.payload

/-- What stays the same of a request while it is worked on. -/
structure LiveTwins (l l' : Live) : Prop where
  req : RequestTwins l.req l'.req
  result : Option.Rel SameResult l.result l'.result
  /-- It has no key of the response cache. -/
  keyless : l.cacheKey = none
  keyless' : l'.cacheKey = none

/-- Replies of one size that show the same. -/
structure ReplyTwins (floats : ℚ → ℕ) (b b' : Fields) : Prop where
  reply : SameReply b b'
  sized : size floats (.obj b) = size floats (.obj b')

/-- Ends of a call that differ in the content of the body. -/
structure OutcomeTwins (floats : ℚ → ℕ) (o o' : Outcome) : Prop where
  durationS : o.durationS = o'.durationS
  queueWaitMs : o.queueWaitMs = o'.queueWaitMs
  inputTokens : o.inputTokens = o'.inputTokens
  outputTokens : o.outputTokens = o'.outputTokens
  status : o.status = o'.status
  finishReason : o.finishReason = o'.finishReason
  cachedTokens : o.cachedTokens = o'.cachedTokens
  wall : o.wall = o'.wall
  body : Option.Rel (ReplyTwins floats) o.body o'.body

/-- Answers of a re-dispatch that differ in the content of the body. -/
structure AnswerTwins (floats : ℚ → ℕ) (a a' : Answer) : Prop where
  body : ReplyTwins floats a.body a'.body
  inputTokens : a.inputTokens = a'.inputTokens
  outputTokens : a.outputTokens = a'.outputTokens
  durationS : a.durationS = a'.durationS
  finishReason : a.finishReason = a'.finishReason

section Twins

variable {κ τ : Type} (f : Fittings κ τ)

/-- The payloads that a row would be made of are of one size. -/
def PayloadSized (l l' : Live) : Prop :=
  size f.floats (.obj l.req.payload) = size f.floats (.obj l'.req.payload)

/-- A guard leaves one status in both runs. -/
def SameStatus (guard guard' : Result → Result) (l l' : Live) : Prop :=
  l.result.map (fun x => (guard x).status) = l'.result.map fun x => (guard' x).status

/-- The finalisers of a reply. -/
def finalised (l : Live) (x : Result) : Result :=
  Egress.finalizeThinking f.guards l.req.ask (Egress.finalizeForcedToolSchema f.guards l.req.ask x)

/-- The backstop of a reply. -/
def backstop (s : Setting) (retry : Option Fields) (l : Live) (x : Result) : Result :=
  Egress.maybeRepairSchema f.guards s { redispatch := fun _ => none, retry := retry } l.req.ask x

/-- The same step of the two requests: what it reads differs in content, the same correction fires,
and what it records is of one size. -/
def StepTwins (l l' : Live) : Step → Step → Prop
  | .grammar, .grammar => True
  | .lookup now, .lookup now' => now = now'
  | .restore now, .restore now' => now = now'
  | .corrections c, .corrections c' => SameShape c.payload c'.payload
  | .rerouted endpoint, .rerouted endpoint' => endpoint = endpoint'
  | .enqueue wall, .enqueue wall' => wall = wall'
  | .dispatch, .dispatch => True
  | .expire, .expire => True
  | .replied x, .replied x' => SameResult x x'
  | .completed o, .completed o' => PayloadSized f l l' ∧ OutcomeTwins f.floats o o'
  | .shadow _ _ wall, .shadow _ _ wall' => wall = wall'
  | .finalize, .finalize =>
      l.result.map (translates f.guards l.req.ask) = l'.result.map (translates f.guards l'.req.ask) ∧
        SameStatus (Egress.finalizeForcedToolSchema f.guards l.req.ask)
          (Egress.finalizeForcedToolSchema f.guards l'.req.ask) l l' ∧
        SameStatus (finalised f l) (finalised f l') l l'
  | .redispatch s answers wall, .redispatch s' answers' wall' =>
      PayloadSized f l l' ∧ wall = wall' ∧
        Option.Rel (AnswerTwins f.floats) (l.result.bind (recovered f.guards s answers l.req.ask))
          (l'.result.bind (recovered f.guards s' answers' l'.req.ask))
  | .toolCalls s, .toolCalls s' =>
      SameStatus (Egress.enforceToolcallTruncation s l.req.ask)
        (Egress.enforceToolcallTruncation s' l'.req.ask) l l'
  | .repair s retry wall, .repair s' retry' wall' =>
      PayloadSized f l l' ∧ wall = wall' ∧ Option.Rel SameReply retry retry' ∧
        retry.map (retranslates f.guards l.req.ask) = retry'.map (retranslates f.guards l'.req.ask) ∧
        l.result.map (mended (backstop f s retry l)) = l'.result.map (mended (backstop f s' retry' l')) ∧
        SameStatus (backstop f s retry l) (backstop f s' retry' l') l l' ∧
        (l.result.bind (rewritten (backstop f s retry l))).map (fun b => size f.floats (.obj b)) =
          (l'.result.bind (rewritten (backstop f s' retry' l'))).map fun b => size f.floats (.obj b)
  | .validity s, .validity s' =>
      SameStatus (Egress.enforceStructuredValidity f.guards s l.req.ask)
        (Egress.enforceStructuredValidity f.guards s' l'.req.ask) l l'
  | .remember now _ _ _, .remember now' _ _ _ => now = now'
  | .put now, .put now' => now = now'
  | _, _ => False

end Twins

/-! ### Rows -/

section Rows

variable {floats : ℚ → ℕ}

theorem contentSummary_congr {p p' : Fields} {b b' : Option Fields} (shape : SameShape p p')
    (sized : size floats (.obj p) = size floats (.obj p')) (reply : Option.Rel (ReplyTwins floats) b b') :
    contentSummary floats (some p) b = contentSummary floats (some p') b' := by
  unfold contentSummary
  rw [Option.elim_some, Option.elim_some, shape.payloadSummary sized]
  cases reply with
  | none => rfl
  | some twins => rw [Option.elim_some, Option.elim_some, twins.reply.responseSummary twins.sized]

theorem row_congr {c c' : Completed} (honoured : c.noStore = "honoured") (bare : c.bare = c'.bare)
    (summary : contentSummary floats c.payload c.response = contentSummary floats c'.payload c'.response)
    (wall : ℚ) : c.row floats wall = c'.row floats wall := by
  have honoured' : c'.noStore = "honoured" := (congrArg Completed.noStore bare).symm.trans honoured
  unfold Completed.row
  rw [if_pos honoured, if_pos honoured', summary, bare]

end Rows

section Stores

variable {κ τ : Type} {f : Fittings κ τ} (st : Stores κ τ)

theorem persistComplete_congr {c c' : Completed} (honoured : c.noStore = "honoured") (bare : c.bare = c'.bare)
    (summary : contentSummary f.floats c.payload c.response = contentSummary f.floats c'.payload c'.response)
    (wall : ℚ) : st.persistComplete f wall c = st.persistComplete f wall c' := by
  have requestId : c.bare.requestId = c'.bare.requestId := by rw [bare]
  change c.requestId = c'.requestId at requestId
  unfold Stores.persistComplete
  rw [row_congr honoured bare summary wall, requestId]

variable {r r' : Request}

theorem engaged_of_honoured (honoured : r.head.noStoreOutcome = "honoured") : r.engaged = true := by
  rw [Request.engaged, QueuedRequest.noStore, honoured]
  rfl

theorem RequestTwins.symm (twins : RequestTwins r r') : r'.head.noStoreOutcome = "honoured" := by
  rw [← twins.caller.noStore, twins.honoured]

theorem SameCaller.ended {o o' : Outcome} (caller : SameCaller r r') (twins : OutcomeTwins f.floats o o') :
    (r.ended o).bare = (r'.ended o').bare := by
  simp only [Request.ended, Completed.bare, caller.requestId, caller.agentId, caller.endpoint,
    caller.callSite, caller.priority, caller.payloadType, caller.sessionId, caller.turnId, caller.callerId,
    caller.noStore, caller.keyId, twins.durationS, twins.queueWaitMs, twins.inputTokens,
    twins.outputTokens, twins.status, twins.finishReason, twins.cachedTokens]

theorem SameCaller.corrected (caller : SameCaller r r') (b b' : Fields) (inputTokens outputTokens : ℤ)
    (durationS : ℚ) (finishReason : Option String) :
    (r.corrected b inputTokens outputTokens durationS finishReason).bare =
      (r'.corrected b' inputTokens outputTokens durationS finishReason).bare := by
  simp only [Request.corrected, Completed.bare, caller.requestId, caller.agentId, caller.endpoint,
    caller.callSite, caller.priority, caller.sessionId, caller.turnId, caller.callerId, caller.noStore]

/-- The tracker is not told of an honoured request. -/
theorem observed_of_honoured (honoured : r.head.noStoreOutcome = "honoured") (o : Outcome) :
    st.observed f r o = st := by
  have off : (r.isChat && !r.engaged && f.configured r.head.endpoint) = false := by
    rw [engaged_of_honoured honoured, Bool.not_true, Bool.and_false, Bool.false_and]
  rw [Stores.observed, off]
  rfl

theorem recordCompletion_congr (twins : RequestTwins r r')
    (sized : size f.floats (.obj r.payload) = size f.floats (.obj r'.payload)) {o o' : Outcome}
    (ends : OutcomeTwins f.floats o o') : st.recordCompletion f r o = st.recordCompletion f r' o' := by
  have kept : (r.ended o).payload = some r.payload := by
    rw [Request.ended, engaged_of_honoured twins.honoured, Bool.or_true, if_pos rfl]
  have kept' : (r'.ended o').payload = some r'.payload := by
    rw [Request.ended, engaged_of_honoured twins.symm, Bool.or_true, if_pos rfl]
  rw [Stores.recordCompletion, Stores.recordCompletion, observed_of_honoured st twins.honoured,
    observed_of_honoured st twins.symm, ends.wall]
  refine persistComplete_congr st twins.honoured (twins.caller.ended ends) ?_ _
  rw [kept, kept']
  exact contentSummary_congr twins.shape sized ends.body

/-- The shadow is not asked for an honoured request. -/
theorem executeShadow_of_honoured (honoured : r.head.noStoreOutcome = "honoured") (queueWaitMs : ℚ)
    (a : Answer) (wall : ℚ) : st.executeShadow f r queueWaitMs a wall = st := by
  rw [Stores.executeShadow, if_pos (engaged_of_honoured honoured)]

theorem persistRecovered_congr (twins : RequestTwins r r')
    (sized : size f.floats (.obj r.payload) = size f.floats (.obj r'.payload)) {a a' : Answer}
    (answers : AnswerTwins f.floats a a') (wall : ℚ) :
    st.persistRecovered f r a wall = st.persistRecovered f r' a' wall := by
  rw [Stores.persistRecovered, Stores.persistRecovered, ← answers.inputTokens, ← answers.outputTokens,
    ← answers.durationS, ← answers.finishReason]
  exact persistComplete_congr st twins.honoured (twins.caller.corrected _ _ _ _ _ _)
    (contentSummary_congr twins.shape sized (.some answers.body)) wall

theorem persistCorrected_congr (twins : RequestTwins r r')
    (sized : size f.floats (.obj r.payload) = size f.floats (.obj r'.payload)) {b b' : Fields}
    (bodies : ReplyTwins f.floats b b') (wall : ℚ) :
    st.persistCorrected f r b wall = st.persistCorrected f r' b' wall := by
  unfold Stores.persistCorrected
  rw [bodies.reply.usage]
  split
  · exact persistComplete_congr st twins.honoured (twins.caller.corrected _ _ _ _ _ _)
      (contentSummary_congr twins.shape sized (.some bodies)) wall
  · rfl

end Stores

/-! ### Stores that an honoured request does not reach -/

section Honoured

variable {κ τ : Type} {f : Fittings κ τ} {r : Request}

theorem gate_closed (honoured : r.head.noStoreOutcome = "honoured") : (r.gate f).open = false := by
  rw [Replay.Gate.open, Request.gate, engaged_of_honoured honoured, Bool.not_true, Bool.and_false,
    Bool.false_and]

theorem keyOf_of_honoured (honoured : r.head.noStoreOutcome = "honoured") :
    DeterministicCache.keyOf (r.queued f) = none := by
  have held : (r.queued f).noStore = true := engaged_of_honoured honoured
  rw [DeterministicCache.keyOf, if_pos held]

theorem persistEnqueue_of_honoured (honoured : r.head.noStoreOutcome = "honoured") (wal : PersistentQueue)
    (wall : ℚ) : wal.persistEnqueue f.codec (r.queued f) wall = wal := by
  have held : (r.queued f).noStore = true := engaged_of_honoured honoured
  rw [PersistentQueue.persistEnqueue, if_pos held]

theorem processGrammar_of_honoured (honoured : r.head.noStoreOutcome = "honoured") (memo : GrammarMemo) :
    (processGrammar f.grammar r.engaged memo r.payload).1 = memo := by
  rw [engaged_of_honoured honoured]
  unfold processGrammar
  cases extractGrammar r.payload with
  | none => rfl
  | some found =>
      simp only [true_or, if_true]
      split <;> rfl

theorem restore_of_honoured [DecidableEq κ] (honoured : r.head.noStoreOutcome = "honoured") (now : ℚ)
    (system : Json) (cache : Replay.Cache κ) (messages : List Json) :
    Replay.restore f.digest (r.gate f) now system cache messages = (cache, messages) := by
  rw [Replay.restore, gate_closed honoured]
  rfl

theorem store_of_honoured [DecidableEq κ] (honoured : r.head.noStoreOutcome = "honoured") (now : ℚ)
    (system : Json) (cache : Replay.Cache κ) (messages : List Json) (content toolCalls reasoning : Json) :
    (Replay.store f.digest f.bounds (r.gate f) now system cache messages content toolCalls reasoning).1 =
      cache := by
  unfold Replay.store
  rw [gate_closed honoured]
  cases reasoning <;> rfl

end Honoured

/-! ### Guards -/

section Guards

variable {h : Helpers} {s s' : Setting} {req req' : Ask} {x x' : Result}

/-- The first finaliser, where the answer is translated in both runs or in none. -/
theorem forced_twins (same : SameResult x x') (fires : translates h req x = translates h req' x')
    (status : (Egress.finalizeForcedToolSchema h req x).status =
      (Egress.finalizeForcedToolSchema h req' x').status) :
    SameResult (Egress.finalizeForcedToolSchema h req x) (Egress.finalizeForcedToolSchema h req' x') := by
  rcases forced_kinds h req x with ⟨off, kept⟩ | ⟨on, b, c, there, translated, -, left⟩
  · rcases forced_kinds h req' x' with ⟨-, kept'⟩ | ⟨on', -⟩
    · exact same.guarded kept kept' status
    · rw [off, on'] at fires
      cases fires
  · rcases forced_kinds h req' x' with ⟨off', -⟩ | ⟨-, b', c', there', translated', -, left'⟩
    · rw [on, off'] at fires
      cases fires
    · refine ⟨status, ?_⟩
      have reply := same.response
      rw [there, there'] at reply
      cases reply with
      | some reply =>
          rw [left, left']
          exact .some (translated.sameReply reply translated')

/-- The reply of the retry, where it is translated in both runs or in none. -/
theorem retryBody_twins {a a' : Fields} (same : SameReply a a')
    (fires : retranslates h req a = retranslates h req' a') :
    SameReply (Egress.retryBody h req a) (Egress.retryBody h req' a') := by
  rcases retryBody_kinds h req a with ⟨off, kept⟩ | ⟨on, translated⟩
  · rcases retryBody_kinds h req' a' with ⟨-, kept'⟩ | ⟨on', -⟩
    · rwa [kept, kept']
    · rw [off, on'] at fires
      cases fires
  · rcases retryBody_kinds h req' a' with ⟨off', -⟩ | ⟨-, translated'⟩
    · rw [on, off'] at fires
      cases fires
    · exact translated.sameReply same translated'

/-- The backstop, where it mends both results alike. -/
theorem repair_twins {replies replies' : Replies} (same : SameResult x x')
    (retries : Option.Rel SameReply replies.retry replies'.retry)
    (translated : replies.retry.map (retranslates h req) = replies'.retry.map (retranslates h req'))
    (fires : mended (Egress.maybeRepairSchema h s replies req) x =
      mended (Egress.maybeRepairSchema h s' replies' req') x')
    (status : (Egress.maybeRepairSchema h s replies req x).status =
      (Egress.maybeRepairSchema h s' replies' req' x').status) :
    SameResult (Egress.maybeRepairSchema h s replies req x)
      (Egress.maybeRepairSchema h s' replies' req' x') := by
  rcases repair_kinds h s replies req x with
    ⟨kind, kept⟩ | ⟨kind, kept⟩ | ⟨kind, a, c, retry, reply, -, left⟩ <;>
    rcases repair_kinds h s' replies' req' x' with
      ⟨kind', kept'⟩ | ⟨kind', kept'⟩ | ⟨kind', a', c', retry', reply', -, left'⟩ <;>
    rw [kind, kind'] at fires
  · exact same.guarded kept kept' status
  · cases fires
  · cases fires
  · cases fires
  · exact same.guarded (.inl kept) (.inl kept') status
  · cases fires
  · cases fires
  · cases fires
  · refine ⟨status, ?_⟩
    rw [retry, retry'] at retries translated
    cases retries with
    | some retries =>
        have again := retryBody_twins retries (Option.some.inj translated)
        rw [left, left']
        exact .some ((reply.symm.trans again).trans reply')

end Guards

/-! ### One step -/

section Steps

variable {κ τ : Type} [DecidableEq κ] {f : Fittings κ τ} {st : Stores κ τ} {l l' : Live}

/-- The columns of a row are those of the head. -/
theorem SameCaller.of_head {r r' q q' : Request} (caller : SameCaller r r') (head : q.head = r.head)
    (head' : q'.head = r'.head) (keyId : q.keyId = r.keyId) (keyId' : q'.keyId = r'.keyId) : SameCaller q q' := by
  obtain ⟨_, _, _, _, _, _, _, _, _, _, _⟩ := caller
  constructor <;> simp only [head, head', keyId, keyId'] <;> assumption

theorem LiveTwins.withPayload (live : LiveTwins l l') {p p' : Fields} (shape : SameShape p p') :
    LiveTwins (l.withPayload p) (l'.withPayload p') where
  req := ⟨live.req.honoured, live.req.caller.of_head rfl rfl rfl rfl, shape⟩
  result := live.result
  keyless := live.keyless
  keyless' := live.keyless'

theorem LiveTwins.correctedBy (live : LiveTwins l l') {c c' : Corrections}
    (shape : SameShape c.payload c'.payload) : LiveTwins (l.correctedBy c) (l'.correctedBy c') where
  req := ⟨live.req.honoured, live.req.caller.of_head rfl rfl rfl rfl, shape⟩
  result := live.result
  keyless := live.keyless
  keyless' := live.keyless'

theorem LiveTwins.reroutedTo (live : LiveTwins l l') (endpoint : String) :
    LiveTwins (l.reroutedTo endpoint) (l'.reroutedTo endpoint) where
  req := by
    obtain ⟨honoured, caller, shape⟩ := live.req
    exact ⟨honoured, { caller with endpoint := rfl }, shape⟩
  result := live.result
  keyless := live.keyless
  keyless' := live.keyless'

theorem LiveTwins.replied (live : LiveTwins l l') {x x' : Result} (same : SameResult x x') :
    LiveTwins { l with result := some x } { l' with result := some x' } where
  req := live.req
  result := .some same
  keyless := live.keyless
  keyless' := live.keyless'

/-- A guard over the results of both. -/
theorem LiveTwins.guarded (live : LiveTwins l l') {guard guard' : Result → Result}
    (each : ∀ x x', l.result = some x → l'.result = some x' → SameResult x x' →
      SameResult (guard x) (guard' x')) : LiveTwins (l.guarded guard) (l'.guarded guard') where
  req := live.req
  result := by
    unfold Live.guarded
    have same := live.result
    cases here : l.result with
    | none =>
        cases here' : l'.result with
        | none => exact .none
        | some x' =>
            rw [here, here'] at same
            cases same
    | some x =>
        cases here' : l'.result with
        | none =>
            rw [here, here'] at same
            cases same
        | some x' =>
            rw [here, here'] at same
            cases same with
            | some same => exact .some (each x x' here here' same)
  keyless := live.keyless
  keyless' := live.keyless'

theorem SameStatus.at {guard guard' : Result → Result} (status : SameStatus guard guard' l l') {x x' : Result}
    (here : l.result = some x) (here' : l'.result = some x') : (guard x).status = (guard' x').status := by
  unfold SameStatus at status
  rw [here, here'] at status
  exact Option.some.inj status

/-- An honoured request gets no row of the restart queue. -/
theorem step_enqueue (honoured : l.req.head.noStoreOutcome = "honoured") (wall : ℚ) :
    l.step f st (.enqueue wall) = (st, l) := by
  change (({ st with wal := _ } : Stores κ τ), l) = _
  rw [persistEnqueue_of_honoured honoured]

/-- The gate of the replay is closed: nothing is looked up, and the messages are written back. -/
theorem step_restore (honoured : l.req.head.noStoreOutcome = "honoured") (now : ℚ) :
    ∃ p, SameShape l.req.payload p ∧ l.step f st (.restore now) = (st, l.withPayload p) := by
  unfold Live.step
  simp only
  cases there : l.req.payload.get "messages" with
  | arr messages =>
      simp only [restore_of_honoured honoured]
      exact ⟨_, sameShape_set_messages there, rfl⟩
  | _ => exact ⟨l.req.payload, .refl _, rfl⟩

theorem step_remember (honoured : l.req.head.noStoreOutcome = "honoured") (now : ℚ)
    (content toolCalls reasoning : Json) :
    l.step f st (.remember now content toolCalls reasoning) = (st, l) := by
  unfold Live.step
  simp only
  split
  · rw [store_of_honoured honoured]
  · rfl

theorem step_shadow (honoured : l.req.head.noStoreOutcome = "honoured") (queueWaitMs : ℚ) (a : Answer)
    (wall : ℚ) : l.step f st (.shadow queueWaitMs a wall) = (st, l) := by
  change (st.executeShadow f l.req queueWaitMs a wall, l) = _
  rw [executeShadow_of_honoured st honoured]

/-- The loop guard of both requests. -/
theorem step_redispatch (live : LiveTwins l l') {s s' : Setting} {answers answers' : ℕ → Option Answer}
    {wall wall' : ℚ} (twins : StepTwins f l l' (.redispatch s answers wall) (.redispatch s' answers' wall')) :
    (l.step f st (.redispatch s answers wall)).1 = (l'.step f st (.redispatch s' answers' wall')).1 ∧
      LiveTwins (l.step f st (.redispatch s answers wall)).2
        (l'.step f st (.redispatch s' answers' wall')).2 := by
  obtain ⟨sized, rfl, answered⟩ := twins
  constructor
  · change Option.elim _ st _ = Option.elim _ st _
    generalize l.result.bind (recovered f.guards s answers l.req.ask) = a at answered ⊢
    generalize l'.result.bind (recovered f.guards s' answers' l'.req.ask) = a' at answered ⊢
    cases answered with
    | none => rfl
    | some answered => exact persistRecovered_congr st live.req sized answered wall
  · refine live.guarded fun x x' here here' same => ?_
    obtain ⟨status, left⟩ := degenerate_recovered f.guards s l.req.ask x answers
    obtain ⟨status', left'⟩ := degenerate_recovered f.guards s' l'.req.ask x' answers'
    refine ⟨by rw [status, status', same.status], ?_⟩
    rw [here, here', Option.bind_some, Option.bind_some] at answered
    rw [left, left']
    generalize recovered f.guards s answers l.req.ask x = a at answered ⊢
    generalize recovered f.guards s' answers' l'.req.ask x' = a' at answered ⊢
    cases answered with
    | none => exact same.response
    | some answered => exact .some answered.body.reply

/-- What the backstop writes of two results that it mends alike. -/
theorem rewritten_twins {guard guard' : Result → Result} {x x' : Result}
    (same : SameResult (guard x) (guard' x')) (mends : mended guard x = mended guard' x') :
    Option.Rel SameReply (rewritten guard x) (rewritten guard' x') := by
  unfold rewritten
  rw [mends]
  split
  · exact same.response
  · exact .none

/-- The backstop of both requests. -/
theorem step_repair (live : LiveTwins l l') {s s' : Setting} {retry retry' : Option Fields} {wall wall' : ℚ}
    (twins : StepTwins f l l' (.repair s retry wall) (.repair s' retry' wall')) :
    (l.step f st (.repair s retry wall)).1 = (l'.step f st (.repair s' retry' wall')).1 ∧
      LiveTwins (l.step f st (.repair s retry wall)).2 (l'.step f st (.repair s' retry' wall')).2 := by
  obtain ⟨sized, rfl, retries, translated, fires, status, rows⟩ := twins
  have results : ∀ x x', l.result = some x → l'.result = some x' → SameResult x x' →
      SameResult (backstop f s retry l x) (backstop f s' retry' l' x') := by
    intro x x' here here' same
    rw [here, here'] at fires
    exact repair_twins same retries translated (Option.some.inj fires) (status.at here here')
  refine ⟨?_, live.guarded results⟩
  have bodies : Option.Rel SameReply (l.result.bind (rewritten (backstop f s retry l)))
      (l'.result.bind (rewritten (backstop f s' retry' l'))) := by
    have same := live.result
    cases here : l.result <;> cases here' : l'.result <;> rw [here, here'] at same fires <;> cases same
    · exact .none
    · next same => exact rewritten_twins (results _ _ here here' same) (Option.some.inj fires)
  change (l.result.bind (rewritten (backstop f s retry l))).elim st _ =
    (l'.result.bind (rewritten (backstop f s' retry' l'))).elim st _
  generalize l.result.bind (rewritten (backstop f s retry l)) = b at bodies rows ⊢
  generalize l'.result.bind (rewritten (backstop f s' retry' l')) = b' at bodies rows ⊢
  cases bodies with
  | none => rfl
  | some reply => exact persistCorrected_congr st live.req sized ⟨reply, Option.some.inj rows⟩ wall

/-- One step of both requests. -/
theorem step_twins (live : LiveTwins l l') {s s' : Step} (twins : StepTwins f l l' s s') :
    (l.step f st s).1 = (l'.step f st s').1 ∧ LiveTwins (l.step f st s).2 (l'.step f st s').2 := by
  have honoured := live.req.honoured
  have honoured' := live.req.symm
  cases s <;> cases s' <;> try exact twins.elim
  case grammar.grammar =>
    have chat : l.req.isChat = l'.req.isChat := by
      rw [Request.isChat, Request.isChat, live.req.caller.payloadType]
    unfold Live.step
    rw [← chat]
    cases l.req.isChat with
    | false => exact ⟨rfl, live⟩
    | true =>
        simp only [if_true, processGrammar_of_honoured honoured, processGrammar_of_honoured honoured']
        refine ⟨trivial, live.withPayload ?_⟩
        -- each payload keeps its own shape
        exact ((sameShape_processGrammar _ _ _ _).symm.trans live.req.shape).trans
          (sameShape_processGrammar _ _ _ _)
  case lookup.lookup now now' =>
    unfold Live.step
    simp only [keyOf_of_honoured honoured, keyOf_of_honoured honoured']
    exact ⟨rfl, ⟨live.req, live.result, rfl, rfl⟩⟩
  case restore.restore now now' =>
    obtain ⟨p, shape, left⟩ := @step_restore _ _ _ f st l honoured now
    obtain ⟨p', shape', left'⟩ := @step_restore _ _ _ f st l' honoured' now'
    rw [left, left']
    exact ⟨rfl, live.withPayload ((shape.symm.trans live.req.shape).trans shape')⟩
  case corrections.corrections c c' => exact ⟨rfl, live.correctedBy twins⟩
  case rerouted.rerouted endpoint endpoint' =>
    cases twins
    exact ⟨rfl, live.reroutedTo endpoint⟩
  case enqueue.enqueue wall wall' =>
    rw [step_enqueue honoured, step_enqueue honoured']
    exact ⟨rfl, live⟩
  case dispatch.dispatch =>
    unfold Live.step
    rw [live.req.caller.requestId]
    exact ⟨rfl, live⟩
  case expire.expire =>
    unfold Live.step
    rw [live.req.caller.requestId]
    exact ⟨rfl, live⟩
  case replied.replied x x' => exact ⟨rfl, live.replied twins⟩
  case completed.completed o o' => exact ⟨recordCompletion_congr st live.req twins.1 twins.2, live⟩
  case shadow.shadow =>
    rw [step_shadow honoured, step_shadow honoured']
    exact ⟨rfl, live⟩
  case finalize.finalize =>
    obtain ⟨fires, forced, status⟩ := twins
    refine ⟨rfl, live.guarded fun x x' here here' same => ?_⟩
    rw [here, here'] at fires
    exact (forced_twins same (Option.some.inj fires) (forced.at here here')).guarded
      (kept_thinking _ _ _) (kept_thinking _ _ _) (status.at here here')
  case redispatch.redispatch s answers wall s' answers' wall' => exact step_redispatch live twins
  case toolCalls.toolCalls s s' =>
    refine ⟨rfl, live.guarded fun x x' here here' same => ?_⟩
    exact same.guarded (kept_toolCalls _ _ _) (kept_toolCalls _ _ _) (SameStatus.at twins here here')
  case repair.repair s retry wall s' retry' wall' => exact step_repair live twins
  case validity.validity s s' =>
    refine ⟨rfl, live.guarded fun x x' here here' same => ?_⟩
    exact same.guarded (kept_validity _ _ _ _) (kept_validity _ _ _ _) (SameStatus.at twins here here')
  case remember.remember =>
    rw [step_remember honoured, step_remember honoured']
    exact ⟨rfl, live⟩
  case put.put now now' =>
    unfold Live.step
    simp only [live.keyless, live.keyless']
    exact ⟨trivial, live⟩

end Steps

/-! ### Whole runs -/

section Runs

variable {κ τ : Type} (f : Fittings κ τ) (target : ℕ)

/-- Systems that differ in the content of one request. -/
structure SystemTwins (sys sys' : System κ τ) : Prop where
  stores : sys.stores = sys'.stores
  others : ∀ ref, ref ≠ target → sys.live.get? ref = sys'.live.get? ref
  one : Option.Rel LiveTwins (sys.live.get? target) (sys'.live.get? target)

/-- The same event, but for the content of the one request. -/
def EventTwins (sys sys' : System κ τ) : Event κ τ → Event κ τ → Prop
  | .arrive ref r, .arrive ref' r' => ref = ref' ∧ (ref ≠ target → r = r') ∧ (ref = target → RequestTwins r r')
  | .step ref s, .step ref' s' =>
      ref = ref' ∧ (ref ≠ target → s = s') ∧
        ∀ l l', ref = target → sys.live.get? ref = some l → sys'.live.get? ref = some l' → StepTwins f l l' s s'
  | .elsewhere change, .elsewhere change' => change = change'
  | _, _ => False

variable {f} {target} {sys sys' : System κ τ}

/-- Another value for the one request, or the same for another. -/
theorem SystemTwins.set (twins : SystemTwins target sys sys') {stores stores' : Stores κ τ}
    (same : stores = stores') {ref : ℕ} {l l' : Live} (other : ref ≠ target → l = l')
    (one : ref = target → LiveTwins l l') :
    SystemTwins target { stores := stores, live := sys.live.set ref l }
      { stores := stores', live := sys'.live.set ref l' } where
  stores := same
  others := by
    intro ref' ne
    rw [Dict.get?_set, Dict.get?_set]
    split
    · next here =>
        subst here
        rw [other ne]
    · exact twins.others ref' ne
  one := by
    rw [Dict.get?_set, Dict.get?_set]
    split
    · next here => exact .some (one here.symm)
    · exact twins.one

variable [DecidableEq κ]

theorem event_twins (twins : SystemTwins target sys sys') {e e' : Event κ τ}
    (alike : EventTwins f target sys sys' e e') :
    SystemTwins target (sys.step f e) (sys'.step f e') := by
  cases e <;> cases e' <;> try exact alike.elim
  case arrive.arrive ref r ref' r' =>
    obtain ⟨rfl, other, one⟩ := alike
    refine twins.set twins.stores (fun ne => by rw [other ne]) fun here => ?_
    exact ⟨one here, .none, rfl, rfl⟩
  case step.step ref s ref' s' =>
    obtain ⟨rfl, other, one⟩ := alike
    unfold System.step
    simp only
    by_cases here : ref = target
    · have rel := twins.one
      rw [← here] at rel
      cases there : sys.live.get? ref <;> cases there' : sys'.live.get? ref <;> rw [there, there'] at rel <;>
        cases rel
      · exact twins
      · next l l' live =>
          obtain ⟨stores, next⟩ := @step_twins _ _ _ f sys.stores l l' live s s' (one l l' here there there')
          refine twins.set ?_ (fun ne => absurd here ne) fun _ => ?_
          · rw [← twins.stores, stores]
          · rw [← twins.stores]
            exact next
    · rw [← twins.others ref here, ← twins.stores, other here]
      cases sys.live.get? ref with
      | none => exact twins
      | some l => exact twins.set rfl (fun _ => rfl) fun at_target => absurd at_target here
  case elsewhere.elsewhere change change' =>
    cases alike
    exact ⟨congrArg change twins.stores, twins.others, twins.one⟩

/-- **No-store noninterference.**  Feed a system two lists of events that differ in the content of one
honoured request and of its replies: after any number of events the stores are the same. -/
theorem noninterference (f : Fittings κ τ) (sys : System κ τ) (target : ℕ)
    (new : sys.live.get? target = none) {events events' : List (Event κ τ)}
    (alike : Runs.Paired (System.step f) (EventTwins f target) sys sys events events') (n : ℕ) :
    (sys.run f (events.take n)).stores = (sys.run f (events'.take n)).stores := by
  have start : SystemTwins target sys sys := by
    refine ⟨rfl, fun _ _ => rfl, ?_⟩
    rw [new]
    exact .none
  exact (Runs.run_paired (SystemTwins target) (fun _ _ _ _ twins same => event_twins twins same) start alike n).stores

end Runs

/-! ### Two runs -/

section Examples

/-- A backend that asks nothing of its callers; a grammar with lines in it is put in parentheses. -/
def plainFittings : Fittings String Unit where
  codec := { dumps := Payload.rest, loads := fun _ => none }
  read := fun _ => {}
  cached := fun _ => { body := "" }
  floats := fun _ => 3
  configured := fun _ => true
  optedIn := fun _ => true
  digest := { dumps := fun _ => "", sha256 := fun _ => "" }
  bounds := { maxEntries := 8, maxBytes := 1024, ttl := 300 }
  grammar :=
    { normalize := fun g =>
        if g = "root ::= \"a\"\nx\nx ::= \"c\"\n\"d\"" then
          "root ::= (\n\"a\"\nx\n)\nx ::= (\n\"c\"\n\"d\"\n)"
        else if g = "root ::= \"a\"\nx\nx ::= \"c\"  \"d\"" then
          "root ::= (\n\"a\"\nx\n)\nx ::= \"c\"  \"d\""
        else g
      validate := fun _ => []
      hash := id }
  guards :=
    { dumps := fun _ => [], str := fun _ => "", repairs := fun _ => none, refuses := fun _ _ => none
      unreadable := fun _ => false, rootObjectKeys := fun _ => [], isDegenerateText := fun _ => false }
  observe := fun tracker _ _ _ _ _ _ _ => tracker

def plainHead : QueuedRequest where
  requestId := "r1"
  agentId := "alice"
  endpoint := "gpu0"
  band := .interactive
  timeoutDeadline := 60
  noStoreOutcome := "honoured"

/-- A request with one message and a grammar. -/
def grammarRequest (text grammar : String) : Request where
  head := plainHead
  payload := [("messages", .arr [.obj [("role", .str "user"), ("content", .str text)]]),
    ("grammar", .str grammar)]

/-- The reply to it. -/
def plainReply (text : String) : Fields :=
  [("model", .str "m"), ("choices", .arr [.obj [("message", .obj [("content", .str text)])]])]

def plainOutcome (text : String) : Outcome where
  durationS := 1
  queueWaitMs := 0
  inputTokens := 7
  outputTokens := 2
  status := "ok"
  body := some (plainReply text)
  now := 11
  wall := 101

/-- A request is admitted, queued, dispatched and answered. -/
def answeredLife (req : Request) (reply : String) : List (Event String Unit) :=
  [.arrive 0 req, .step 0 .grammar, .step 0 (.lookup 10), .step 0 (.restore 10), .step 0 (.enqueue 100),
    .step 0 .dispatch, .step 0 (.completed (plainOutcome reply)),
    .step 0 (.remember 11 (.str reply) .null (.str reply))]

def emptySystem : System String Unit where
  stores := { wal := {}, completions := ∅, cache := {}, replay := [], keepalive := (), grammars := {} }

theorem grammarRequest_twins (text text' grammar grammar' : String) :
    RequestTwins (grammarRequest text grammar) (grammarRequest text' grammar') :=
  ⟨rfl, ⟨rfl, rfl, rfl, rfl, rfl, rfl, rfl, rfl, rfl, rfl, rfl⟩, ⟨rfl, rfl, rfl⟩⟩

/-- Two questions and two answers of one size each leave the same in the stores. -/
theorem noninterference_greeting :
    (emptySystem.run plainFittings ((answeredLife (grammarRequest "hello" "root ::= x") "yes").take 8)).stores =
      (emptySystem.run plainFittings
        ((answeredLife (grammarRequest "salut" "root ::= y") "oui").take 8)).stores := by
  refine noninterference plainFittings emptySystem 0 rfl ?_ 8
  refine ⟨⟨rfl, fun ne => absurd rfl ne, fun _ => grammarRequest_twins _ _ _ _⟩,
    ⟨rfl, fun ne => absurd rfl ne, fun _ _ _ _ _ => trivial⟩,
    ⟨rfl, fun ne => absurd rfl ne, fun _ _ _ _ _ => rfl⟩,
    ⟨rfl, fun ne => absurd rfl ne, fun _ _ _ _ _ => rfl⟩,
    ⟨rfl, fun ne => absurd rfl ne, fun _ _ _ _ _ => rfl⟩,
    ⟨rfl, fun ne => absurd rfl ne, fun _ _ _ _ _ => trivial⟩,
    ⟨rfl, fun ne => absurd rfl ne, ?_⟩,
    ⟨rfl, fun ne => absurd rfl ne, fun _ _ _ _ _ => rfl⟩, trivial⟩
  rintro l l' - there there'
  cases there
  cases there'
  refine ⟨?_, ⟨rfl, rfl, rfl, rfl, rfl, rfl, rfl, rfl, .some ⟨⟨rfl, rfl, rfl, rfl⟩, ?_⟩⟩⟩
  · unfold PayloadSized
    decide +kernel
  · decide +kernel

/-- The sizes that are recorded are those of the payload with its grammar normalized: of two grammars
of one size, both of them rewritten, one may come out longer. -/
theorem sizes_are_recorded :
    ∃ g g' : String,
      RequestTwins (grammarRequest "hello" g) (grammarRequest "hello" g') ∧
      size plainFittings.floats (.obj (grammarRequest "hello" g).payload) =
        size plainFittings.floats (.obj (grammarRequest "hello" g').payload) ∧
      (plainFittings.grammar.normalizeAndValidate g).normalized = true ∧
      (plainFittings.grammar.normalizeAndValidate g').normalized = true ∧
      (emptySystem.run plainFittings (answeredLife (grammarRequest "hello" g) "yes")).stores.completions ≠
        (emptySystem.run plainFittings (answeredLife (grammarRequest "hello" g') "yes")).stores.completions := by
  refine ⟨"root ::= \"a\"\nx\nx ::= \"c\"\n\"d\"", "root ::= \"a\"\nx\nx ::= \"c\"  \"d\"",
    grammarRequest_twins _ _ _ _, ?_, ?_, ?_, ?_⟩ <;> decide

end Examples

end Roadstead.NoStore
