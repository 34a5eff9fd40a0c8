import Roadstead.Dispatch.Sync

/-!
# One call of `execute_streaming`

A streaming task relays chunks until the backend stream is over, and then owes its
caller one terminal frame.  About ten paths lead there: the watchdogs, the detectors,
a transport error, the answer-now re-ask, the end-of-stream guards and the plain end.
This module follows one call through every sequence of stream events and failures.

## The guards

`StreamGuards` is the block between the stream loop and the terminal frame, as the
source has it: any structured constraint is checked for truncation, a constraint that
implies JSON is checked with `json.loads` when the content is not blank, and a turn that
declared tools is checked for a call that was cut.  The predicates that inspect a payload
are left open.  What the guards read is what the *first* backend stream carried: the
chunks of an answer-now re-ask are relayed without being accumulated.

## The invariant

`Await.InStream` says, for each await of the task, what of the history its variables
hold, and that a frame is terminal exactly when the completion is recorded next.
-/

namespace Roadstead

open Segment

/-! ### The end-of-stream guards -/

/-- `str.isspace`, for one character. -/
def isSpace (ch : Char) : Bool :=
  let n := ch.toNat
  (0x09 ≤ n && n ≤ 0x0D) || (0x1C ≤ n && n ≤ 0x20) || n == 0x85 || n == 0xA0 || n == 0x1680 ||
    (0x2000 ≤ n && n ≤ 0x200A) || n == 0x2028 || n == 0x2029 || n == 0x202F || n == 0x205F ||
    n == 0x3000

/-- The truth value of `text.strip()`. -/
def hasText (text : String) : Bool := text.toList.any fun ch => !isSpace ch

/-- What the end-of-stream guards ask. -/
structure StreamGuards where
  /-- `structured_validity_guard_enabled()`. -/
  guardOn : Bool := true
  requestIsStructured : QueuedRequest → Bool := fun _ => false
  requestExpectsJson : QueuedRequest → Bool := fun _ => false
  /-- Whether `json.loads` returns. -/
  jsonLoads : String → Bool := fun _ => true
  requestDeclaresTools : QueuedRequest → Bool := fun _ => false
  isTruncatedToolTurn : QueuedRequest → Option String → List String → ℤ → Bool :=
    fun _ _ _ _ => false
  truncatedToolTurnMessage : QueuedRequest → String → ℤ → Option String → String :=
    fun _ _ _ _ => ""
  hasCutToolCall : List String → Bool := fun _ => false

namespace StreamGuards

variable (g : StreamGuards)

def streamStructured (req : QueuedRequest) : Bool :=
  g.guardOn && decide (req.payloadType = "chat_completion") && g.requestIsStructured req

def streamExpectsJson (req : QueuedRequest) : Bool :=
  g.streamStructured req && g.requestExpectsJson req

def toolsDeclared (req : QueuedRequest) : Bool :=
  decide (req.payloadType = "chat_completion") && g.requestDeclaresTools req

/-- The error the guards replace the `done` frame with. -/
def check (role : String) (req : QueuedRequest) (v : StreamVars) : Option StreamFault :=
  let tokens := v.outputTokens
  let finish := v.lastFinishReason.getD "None"
  if g.streamStructured req = true ∧ v.lastFinishReason = some "length" then
    some
      ⟨{ message := s!"backend {role} truncated structured output (finish_reason=length, output_tokens={tokens})" },
        .truncated⟩
  else if g.streamExpectsJson req = true ∧ hasText v.accumulatedContent = true ∧
      g.jsonLoads v.accumulatedContent = false then
    some
      ⟨{ message := s!"backend {role} returned invalid JSON for a structured request (stream reassembly does not parse; output_tokens={tokens})" },
        .error⟩
  else if g.toolsDeclared req = true ∧
      g.isTruncatedToolTurn req v.lastFinishReason v.streamToolCalls v.outputTokens = true then
    some
      ⟨{ message := g.truncatedToolTurnMessage req role v.outputTokens v.lastFinishReason
         code := some "truncated_tool_turn" }, .truncated⟩
  else if g.toolsDeclared req = true ∧ v.lastFinishReason ≠ some "length" ∧
      g.hasCutToolCall v.streamToolCalls = true then
    some
      ⟨{ message := s!"backend {role} truncated structured output (finish_reason={finish} mislabel — tool_call arguments cut mid-JSON, output_tokens={tokens})"
         code := some "toolcall_truncated" }, .truncated⟩
  else none

end StreamGuards

/-- The task with the guards of `g`. -/
def DispatchCtx.guarded (c : DispatchCtx) (g : StreamGuards) : DispatchCtx :=
  { c with
    policy := { c.policy with
      streamGuard := g.check c.role
      requestIsStructured := g.requestIsStructured } }

/-! ### What a call has heard and said -/

/-- The frame an effect puts on the caller's queue. -/
def Effect.frame? : Effect → Option Frame
  | .put _ frame => some frame
  | .resolveError failure => some (.error failure)
  | _ => none

namespace Passage

/-- The chunk of the backend stream that resumed the task. -/
def heard (p : Passage) : Option Chunk :=
  match p.source, p.turn with
  | .stream _ _, .wake ⟨_, _, .event (.chunk ch)⟩ => some ch
  | _, _ => none

/-- The backend sent its `[DONE]`. -/
def isDone (p : Passage) : Bool :=
  match p.source, p.turn with
  | .stream _ _, .wake ⟨_, _, .event .done⟩ => true
  | .answerNow _ _ _, .wake ⟨_, _, .event .done⟩ => true
  | _, _ => false

/-- The task synthesizes a finish chunk. -/
def synthesizes (p : Passage) : Bool :=
  match p.segment.next with
  | some (.put _ _ (.terminate _ _)) => true
  | _ => false

end Passage

namespace Execution

/-- The first passage of `execute_streaming`, for a caller with a queue. -/
def executeStreaming (c : DispatchCtx) (queue : ℕ) : Execution :=
  let segment := c.openQueue (some queue)
  ⟨segment.next, [⟨.start, .wake {}, segment⟩]⟩

/-- The frames on the caller's queue, in order. -/
def frames (x : Execution) : List Frame := x.effects.filterMap Effect.frame?

/-- The chunks of the backend stream. -/
def chunks (x : Execution) : List Chunk := x.passages.filterMap Passage.heard

/-- The content of the backend stream. -/
def content (x : Execution) : String := x.chunks.foldl (fun text ch => text ++ ch.content) ""

/-- The last `finish_reason` of the backend stream. -/
def finishReason (x : Execution) : Option String :=
  x.chunks.foldl (fun last ch => ch.finishReason.orElse fun _ => last) none

def sawDone (x : Execution) : Bool := x.passages.any Passage.isDone

/-- The task synthesized a finish chunk. -/
def synthesized (x : Execution) : Bool := x.passages.any Passage.synthesizes

section Pass

variable (x : Execution) (p : Passage)

theorem frames_pass :
    (x.pass p).frames = x.frames ++ p.segment.effects.filterMap Effect.frame? := by
  simp [frames, effects, pass, List.flatMap_append, List.filterMap_append]

theorem chunks_pass : (x.pass p).chunks = x.chunks ++ p.heard.toList := by
  cases h : p.heard <;> simp [chunks, pass, List.filterMap_append, h]

theorem sawDone_pass : (x.pass p).sawDone = (x.sawDone || p.isDone) := by
  simp [sawDone, pass, List.any_append]

theorem synthesized_pass : (x.pass p).synthesized = (x.synthesized || p.synthesizes) := by
  simp [synthesized, pass, List.any_append]

variable {p}

theorem content_pass_of_quiet (quiet : p.heard = none) : (x.pass p).content = x.content := by
  simp [content, chunks_pass, quiet]

theorem finishReason_pass_of_quiet (quiet : p.heard = none) :
    (x.pass p).finishReason = x.finishReason := by
  simp [finishReason, chunks_pass, quiet]

theorem content_pass_of_heard {ch : Chunk} (heard : p.heard = some ch) :
    (x.pass p).content = x.content ++ ch.content := by
  simp [content, chunks_pass, heard]

theorem finishReason_pass_of_heard {ch : Chunk} (heard : p.heard = some ch) :
    (x.pass p).finishReason = ch.finishReason.orElse fun _ => x.finishReason := by
  simp [finishReason, chunks_pass, heard]

end Pass

end Execution

/-! ### The invariant of a call -/

/-- The variables of the stream loop hold what the backend stream carried.  A finish
reason the task made up itself is never `length`. -/
structure StreamVars.Hears (v : StreamVars) (x : Execution) : Prop where
  content : v.accumulatedContent = x.content
  length : x.finishReason = some "length" → v.lastFinishReason = some "length"
  done : v.sawBackendDone = true → x.sawDone = true

/-- What the guards let pass: the stream of a structured request was not truncated, and
content that has to be JSON is JSON or blank. -/
structure StreamGuards.Passes (g : StreamGuards) (req : QueuedRequest) (x : Execution) : Prop where
  complete : ¬(g.streamStructured req = true ∧ x.finishReason = some "length")
  parses : ¬(g.streamExpectsJson req = true ∧ hasText x.content = true ∧
    g.jsonLoads x.content = false)

/-- What holds at an await of `execute_streaming`. -/
inductive Await.InStream (g : StreamGuards) (req : QueuedRequest) (x : Execution) : Await → Prop where
  | opening {queue : ℕ} {wait : ℚ} (silent : x.chunks = []) :
      InStream g req x (.put queue (.admitted wait) .openStream)
  | streaming {queue : ℕ} {v : StreamVars} (hears : v.Hears x) : InStream g req x (.stream queue v)
  | relaying {queue : ℕ} {data : String} {parts : List String} {v : StreamVars}
      (hears : v.Hears x) : InStream g req x (.put queue (.chunk data) (.relay parts v))
  | answering {queue : ℕ} {v : StreamVars} {a : AnswerVars} (hears : v.Hears x) :
      InStream g req x (.answerNow queue v a)
  | answered {queue : ℕ} {data : String} {v : StreamVars} {a : AnswerVars} (hears : v.Hears x) :
      InStream g req x (.put queue (.chunk data) (.answer v a))
  | repairing {queue : ℕ} {data : String} {v : StreamVars} {duration : ℚ}
      (passes : g.Passes req x) (done : x.sawDone = true) :
      InStream g req x (.put queue (.chunk data) (.terminate v duration))
  | finishing {queue : ℕ} {frame : Frame} {status : Status} {v : StreamVars}
      {duration : Option ℚ} (terminal : frame.isTerminal = true)
      (clean : ∀ i o, frame = .done i o → g.Passes req x) :
      InStream g req x (.put queue frame (.record status v duration))

/-- What a passage of `execute_streaming` does: it ends the task with the one terminal
frame and the one completion, or it goes on and puts no terminal frame. -/
inductive StreamTurn (g : StreamGuards) (req : QueuedRequest) (x : Execution) (p : Passage) : Prop where
  | ends (last : Frame) (next : p.segment.next = none)
      (frames : p.segment.effects.filterMap Effect.frame? = [last])
      (terminal : last.isTerminal = true) (clean : ∀ i o, last = .done i o → g.Passes req x)
      (records : (p.segment.effects.filterMap Effect.status?).length = 1)
      (quiet : p.heard = none)
  | goes (a : Await) (next : p.segment.next = some a)
      (frames : ∀ f ∈ p.segment.effects.filterMap Effect.frame?, f.isTerminal = false)
      (records : p.segment.effects.filterMap Effect.status? = [])
      (inStream : a.InStream g req (x.pass p))

section Hears

variable {x : Execution} {v : StreamVars} {p : Passage}

theorem StreamVars.Hears.pass (hears : v.Hears x) (quiet : p.heard = none) : v.Hears (x.pass p) where
  content := by rw [x.content_pass_of_quiet quiet, hears.content]
  length := by
    rw [x.finishReason_pass_of_quiet quiet]
    exact hears.length
  done := by
    intro h
    rw [Execution.sawDone_pass, hears.done h, Bool.true_or]

theorem StreamVars.Hears.noted (hears : v.Hears x) {ch : Chunk} (heard : p.heard = some ch) :
    (DispatchCtx.noted v ch).Hears (x.pass p) where
  content := by
    rw [x.content_pass_of_heard heard, ← hears.content]
    rfl
  length := by
    rw [x.finishReason_pass_of_heard heard]
    simp only [DispatchCtx.noted]
    cases ch.finishReason with
    | none => exact hears.length
    | some reason => exact fun h => h
  done := by
    intro h
    rw [Execution.sawDone_pass, hears.done h, Bool.true_or]

/-- What has been relayed is no part of what was heard. -/
theorem StreamVars.Hears.of_same {v' : StreamVars} (hears : v.Hears x)
    (content : v'.accumulatedContent = v.accumulatedContent)
    (length : v.lastFinishReason = some "length" → v'.lastFinishReason = some "length")
    (done : v'.sawBackendDone = true → x.sawDone = true) : v'.Hears x where
  content := content.trans hears.content
  length := fun h => length (hears.length h)
  done := done

variable {g : StreamGuards} {req : QueuedRequest}

theorem StreamGuards.Passes.pass (passes : g.Passes req x) (quiet : p.heard = none) :
    g.Passes req (x.pass p) := by
  refine ⟨?_, ?_⟩
  · rw [x.finishReason_pass_of_quiet quiet]
    exact passes.complete
  · rw [x.content_pass_of_quiet quiet]
    exact passes.parses

/-- The guards that find no fault let the stream pass. -/
theorem StreamVars.Hears.passes (hears : v.Hears x) {role : String}
    (none : g.check role req v = none) : g.Passes req x := by
  simp only [StreamGuards.check] at none
  split at none
  · exact absurd none (by simp)
  · rename_i complete
    split at none
    · exact absurd none (by simp)
    · rename_i parses
      refine ⟨fun h => complete ⟨h.1, hears.length h.2⟩, ?_⟩
      rw [← hears.content]
      exact parses

end Hears

/-! ### What one turn does -/

section Turns

variable {g : StreamGuards} {req : QueuedRequest} {x : Execution} {a : Await} {turn : Turn}

/-- The invariant reads the chunks and the `[DONE]`s of the history, and nothing else. -/
theorem Await.InStream.congr {x' : Execution} (chunks : x'.chunks = x.chunks)
    (done : x'.sawDone = x.sawDone) (h : a.InStream g req x) : a.InStream g req x' := by
  have content : x'.content = x.content := by rw [Execution.content, Execution.content, chunks]
  have finish : x'.finishReason = x.finishReason := by
    rw [Execution.finishReason, Execution.finishReason, chunks]
  have hears {v : StreamVars} (hears : v.Hears x) : v.Hears x' :=
    ⟨content ▸ hears.content, finish ▸ hears.length, done ▸ hears.done⟩
  have passes (passes : g.Passes req x) : g.Passes req x' :=
    ⟨finish ▸ passes.complete, content ▸ passes.parses⟩
  cases h with
  | opening silent => exact .opening (chunks.trans silent)
  | streaming h => exact .streaming (hears h)
  | relaying h => exact .relaying (hears h)
  | answering h => exact .answering (hears h)
  | answered h => exact .answered (hears h)
  | repairing h hdone => exact .repairing (passes h) (done.trans hdone)
  | finishing terminal clean => exact .finishing terminal fun i o h => passes (clean i o h)

theorem StreamTurn.suspend {a' : Await}
    (inStream : a'.InStream g req (x.pass ⟨a, turn, suspend a'⟩)) :
    StreamTurn g req x ⟨a, turn, suspend a'⟩ :=
  .goes a' rfl (by simp [Segment.suspend]) rfl inStream

theorem StreamTurn.abort {queue : ℕ} {v : StreamVars} {message : String} {status : Status} :
    StreamTurn g req x ⟨a, turn, DispatchCtx.abortStream queue v message status⟩ :=
  .suspend (.finishing rfl (by simp))

/-- An exception that escapes, or a cancellation: `resolve_error` puts the terminal
frame. -/
theorem StreamTurn.escapes {failure : Failure} {status : Status} {duration : ℚ}
    (quiet : Passage.heard ⟨a, turn, finish [.resolveError failure] status duration⟩ = none) :
    StreamTurn g req x ⟨a, turn, finish [.resolveError failure] status duration⟩ :=
  .ends (.error failure) rfl rfl rfl (by simp) rfl quiet

variable (c : DispatchCtx) {queue : ℕ} {v : StreamVars}

theorem terminate_turn {fault : Option StreamFault} {duration : ℚ}
    (passes : ∀ s, fault = none → g.Passes req (x.pass ⟨a, turn, s⟩)) :
    StreamTurn g req x ⟨a, turn, c.terminate queue v fault duration⟩ := by
  cases fault with
  | some fault => exact .suspend (.finishing rfl (by simp))
  | none => exact .suspend (.finishing rfl fun _ _ _ => passes _ rfl)

theorem conclude_turn {now : ℚ} (hears : ∀ s, v.Hears (x.pass ⟨a, turn, s⟩)) :
    StreamTurn g c.req x ⟨a, turn, (c.guarded g).conclude queue v now⟩ := by
  have passes (s : Segment) (none : (c.guarded g).policy.streamGuard (c.guarded g).req v = none) :
      g.Passes c.req (x.pass ⟨a, turn, s⟩) := (hears s).passes none
  simp only [DispatchCtx.conclude]
  split
  · rename_i repaired
    obtain ⟨-, done, -, faultless⟩ := repaired
    refine .suspend (.repairing (passes _ (Option.isNone_iff_eq_none.mp faultless)) ?_)
    exact (hears _).done done
  · exact terminate_turn (c.guarded g) passes

theorem answered_turn {b : AnswerVars} {sawDone : Bool} {now : ℚ}
    (hears : ∀ s, v.Hears (x.pass ⟨a, turn, s⟩))
    (done : sawDone = true → ∀ s, Passage.isDone ⟨a, turn, s⟩ = true) :
    StreamTurn g c.req x ⟨a, turn, (c.guarded g).answered queue v b sawDone now⟩ := by
  unfold DispatchCtx.answered
  split
  · refine conclude_turn c fun s => (hears s).of_same rfl ?_ ?_
    · intro h
      simp [h]
    · intro h
      rcases (Bool.or_eq_true _ _).mp h with h | h
      · exact (hears s).done h
      · rw [Execution.sawDone_pass, done h s, Bool.or_true]
  · exact .abort

theorem unanswered_turn {b : AnswerVars} {now : ℚ}
    (hears : ∀ s, v.Hears (x.pass ⟨a, turn, s⟩)) :
    StreamTurn g c.req x ⟨a, turn, (c.guarded g).unanswered queue v b now⟩ :=
  answered_turn c hears fun h => absurd h Bool.false_ne_true

theorem relay_turn {parts : List String} (hears : ∀ s, v.Hears (x.pass ⟨a, turn, s⟩)) :
    StreamTurn g req x ⟨a, turn, DispatchCtx.relay queue v parts⟩ := by
  cases parts with
  | nil => exact .suspend (.streaming (hears _))
  | cons part parts =>
      exact .suspend (.relaying ((hears _).of_same rfl (fun h => h) (hears _).done))

/-- A frame is put, and what follows the put is done. -/
theorem StreamTurn.after {s : Segment} {frame : Frame} (plain : frame.isTerminal = false)
    (turned : StreamTurn g req x ⟨a, turn, s⟩) (goes : s.next ≠ none) :
    StreamTurn g req x ⟨a, turn, s.after (.put queue frame)⟩ := by
  cases turned with
  | ends last next _ _ _ _ _ => exact absurd next goes
  | goes b next frames records inStream =>
      refine .goes b next ?_ records (inStream.congr ?_ ?_)
      · intro f hf
        rcases List.mem_cons.mp hf with rfl | hf
        · exact plain
        · exact frames f hf
      · rw [Execution.chunks_pass, Execution.chunks_pass]
        rfl
      · rw [Execution.sawDone_pass, Execution.sawDone_pass]
        rfl

theorem onEvent_turn {now : ℚ} {healthy : Bool} {e : StreamEvent} (hears : v.Hears x) :
    StreamTurn g c.req x ⟨.stream queue v, .wake ⟨now, healthy, .event e⟩,
      (c.guarded g).onEvent queue v now e⟩ := by
  cases e with
  | chunk ch =>
      have noted (s : Segment) : (DispatchCtx.noted v ch).Hears
          (x.pass ⟨.stream queue v, .wake ⟨now, healthy, .event (.chunk ch)⟩, s⟩) :=
        hears.noted rfl
      unfold DispatchCtx.onEvent
      dsimp only
      split
      · exact relay_turn noted
      · exact .abort
      · exact .suspend (.answering (noted _))
  | hold => exact .suspend (.streaming (hears.pass rfl))
  | done =>
      refine conclude_turn c fun s => (hears.pass rfl).of_same rfl (fun h => h) ?_
      intro _
      rw [Execution.sawDone_pass]
      exact Bool.or_true _
  | ended => exact conclude_turn c fun s => hears.pass rfl

theorem onStream_turn (w : Wake) (hears : v.Hears x) :
    StreamTurn g c.req x ⟨.stream queue v, .wake w, (c.guarded g).onStream queue v w⟩ := by
  obtain ⟨now, healthy, outcome⟩ := w
  cases outcome with
  | event e => exact onEvent_turn c hears
  | timedOut message | failed f | raised message => exact .abort
  | ready | responded r | blankRun b => exact .suspend (.streaming (hears.pass rfl))

theorem onAnswerNow_turn {b : AnswerVars} (w : Wake) (hears : v.Hears x) :
    StreamTurn g c.req x ⟨.answerNow queue v b, .wake w, (c.guarded g).onAnswerNow queue v b w⟩ := by
  obtain ⟨now, healthy, outcome⟩ := w
  have stays {s : Segment} {outcome : Outcome} :
      v.Hears (x.pass ⟨.answerNow queue v b, .wake ⟨now, healthy, outcome⟩, s⟩) :=
    hears.pass rfl
  cases outcome with
  | event e =>
      cases e with
      | chunk ch => exact .suspend (.answered stays)
      | hold => exact .suspend (.answering stays)
      | done => exact answered_turn c (fun _ => stays) fun _ _ => rfl
      | ended =>
          show StreamTurn g c.req x ⟨_, _, (c.guarded g).answered queue v b false now⟩
          exact answered_turn c (fun _ => stays) fun h => absurd h Bool.false_ne_true
  | timedOut message | failed f | raised message =>
      show StreamTurn g c.req x ⟨_, _, (c.guarded g).unanswered queue v b now⟩
      exact unanswered_turn c fun _ => stays
  | ready | responded r | blankRun b => exact .suspend (.answering stays)

/-- A put that has room, and what follows it. -/
theorem onPut_turn {frame : Frame} {after : After} {now : ℚ} {healthy : Bool}
    (inStream : (Await.put queue frame after).InStream g c.req x) :
    StreamTurn g c.req x ⟨.put queue frame after, .wake ⟨now, healthy, .ready⟩,
      ((c.guarded g).onPut queue after now).after (.put queue frame)⟩ := by
  cases inStream with
  | opening silent =>
      refine .after rfl (.suspend (.streaming ⟨?_, ?_, ?_⟩)) (Option.some_ne_none _)
      · simp [Execution.content, Execution.chunks_pass, silent, Passage.heard]
      · simp [Execution.finishReason, Execution.chunks_pass, silent, Passage.heard]
      · simp
  | @relaying _ _ parts v hears =>
      refine .after rfl (relay_turn fun _ => hears.pass rfl) ?_
      cases parts <;> simp [DispatchCtx.onPut, DispatchCtx.relay, suspend]
  | answered hears =>
      exact .after rfl (.suspend (.answering (hears.pass rfl))) (Option.some_ne_none _)
  | @repairing _ data v duration passes done =>
      have turned : StreamTurn g c.req x
          ⟨.put queue (.chunk data) (.terminate v duration), .wake ⟨now, healthy, .ready⟩,
            (c.guarded g).terminate queue v none duration⟩ :=
        terminate_turn (c.guarded g) fun _ _ => passes.pass rfl
      exact .after rfl turned (Option.some_ne_none _)
  | finishing terminal clean => exact .ends frame rfl rfl terminal clean rfl rfl

theorem onQueue_turn {frame : Frame} {after : After} (w : Wake)
    (inStream : (Await.put queue frame after).InStream g c.req x) :
    StreamTurn g c.req x ⟨.put queue frame after, .wake w,
      (c.guarded g).onQueue queue true frame after w⟩ := by
  obtain ⟨now, healthy, outcome⟩ := w
  have stays {outcome : Outcome} : StreamTurn g c.req x
      ⟨.put queue frame after, .wake ⟨now, healthy, outcome⟩, suspend (.put queue frame after)⟩ := by
    refine .suspend (inStream.congr ?_ ?_)
    · rw [Execution.chunks_pass]
      exact List.append_nil _
    · rw [Execution.sawDone_pass]
      exact Bool.or_false _
  cases outcome with
  | ready => exact onPut_turn c inStream
  | timedOut message =>
      cases inStream with
      | relaying hears => exact .abort
      | opening _ | answered _ | repairing _ _ | finishing _ _ => exact stays
  | raised message =>
      cases inStream with
      | relaying hears => exact .abort
      | answered hears =>
          show StreamTurn g c.req x ⟨_, _, (c.guarded g).unanswered queue _ _ now⟩
          exact unanswered_turn c fun _ => hears.pass rfl
      | opening _ | repairing _ _ | finishing _ _ => exact .escapes rfl
  | responded r | blankRun b | failed f | event e => exact stays

theorem segment_turn (cfg : ProxyConfig) (turn : Turn) (inStream : a.InStream g c.req x) :
    StreamTurn g c.req x ⟨a, turn, Execution.segmentOf cfg (c.guarded g) a turn⟩ := by
  cases turn with
  | wake w =>
      cases inStream with
      | streaming hears => exact onStream_turn c w hears
      | answering hears => exact onAnswerNow_turn c w hears
      | opening silent => exact onQueue_turn c w (.opening silent)
      | relaying hears => exact onQueue_turn c w (.relaying hears)
      | answered hears => exact onQueue_turn c w (.answered hears)
      | repairing passes done => exact onQueue_turn c w (.repairing passes done)
      | finishing terminal clean => exact onQueue_turn c w (.finishing terminal clean)
  | cancel now =>
      cases inStream <;> exact .escapes rfl

end Turns

/-! ### Runs -/

/-- What holds of a call of `execute_streaming` at any time. -/
structure Streaming (g : StreamGuards) (req : QueuedRequest) (x : Execution) : Prop where
  ended : x.await = none → ∃ front last, x.frames = front ++ [last] ∧ last.isTerminal = true ∧
    ∀ f ∈ front, f.isTerminal = false
  going : x.await ≠ none → ∀ f ∈ x.frames, f.isTerminal = false
  settled : x.completions.length = if x.await.isNone then 1 else 0
  clean : ∀ i o, Frame.done i o ∈ x.frames → g.Passes req x
  repaired : x.synthesized = true → x.sawDone = true
  inStream : ∀ a, x.await = some a → a.InStream g req x

theorem Streaming.executeStreaming (c : DispatchCtx) (g : StreamGuards) (queue : ℕ) :
    Streaming g c.req (Execution.executeStreaming (c.guarded g) queue) where
  ended h := absurd h (by simp [Execution.executeStreaming, DispatchCtx.openQueue, suspend])
  going _ := by
    simp [Execution.frames, Execution.effects, Execution.executeStreaming, DispatchCtx.openQueue,
      suspend]
  settled := rfl
  clean := by
    simp [Execution.frames, Execution.effects, Execution.executeStreaming, DispatchCtx.openQueue,
      suspend]
  repaired h := absurd h Bool.false_ne_true
  inStream := by
    intro a ha
    obtain rfl := Option.some.inj ha
    exact .opening rfl

/-- Only a repair puts the synthesized chunk. -/
theorem Passage.sawDone_of_synthesizes {g : StreamGuards} {req : QueuedRequest} {x : Execution}
    {p : Passage} {a : Await} (next : p.segment.next = some a) (inStream : a.InStream g req x)
    (h : p.synthesizes = true) : x.sawDone = true := by
  unfold synthesizes at h
  rw [next] at h
  cases inStream with
  | repairing _ done => exact done
  | opening _ | streaming _ | relaying _ | answering _ | answered _ | finishing _ _ =>
      exact absurd h Bool.false_ne_true

theorem Streaming.step (cfg : ProxyConfig) {c : DispatchCtx} {g : StreamGuards} {x : Execution}
    (inv : Streaming g c.req x) (turn : Turn) :
    Streaming g c.req (x.step cfg (c.guarded g) turn) := by
  cases ha : x.await with
  | none => simpa [Execution.step, ha] using inv
  | some a =>
      rw [Execution.step_eq_pass cfg (c.guarded g) ha]
      have turned := segment_turn c cfg turn (inv.inStream a ha)
      have before := inv.going (by simp [ha])
      have records := inv.settled
      rw [ha] at records
      generalize Passage.mk a turn (Execution.segmentOf cfg (c.guarded g) a turn) = p at turned
      have repaired : p.synthesizes = true → (x.pass p).sawDone = true := by
        intro h
        cases turned with
        | ends last next _ _ _ _ _ => simp [Passage.synthesizes, next] at h
        | goes b next _ _ inStream => exact Passage.sawDone_of_synthesizes next inStream h
      have synthesized : (x.pass p).synthesized = true → (x.pass p).sawDone = true := by
        intro h
        rw [Execution.synthesized_pass] at h
        rcases (Bool.or_eq_true _ _).mp h with h | h
        · rw [Execution.sawDone_pass, inv.repaired h, Bool.true_or]
        · exact repaired h
      cases turned with
      | ends last next frames terminal clean recorded quiet =>
          refine ⟨fun _ => ⟨x.frames, last, ?_, terminal, before⟩, fun h => absurd next h, ?_, ?_,
            synthesized, fun b hb => absurd (hb.symm.trans next) (by simp)⟩
          · rw [Execution.frames_pass, frames]
          · rw [Execution.completions_pass, List.length_append, records, recorded]
            simp [Execution.pass, next]
          · intro i o hmem
            rw [Execution.frames_pass, frames, List.mem_append, List.mem_singleton] at hmem
            rcases hmem with hmem | rfl
            · exact absurd (before _ hmem) (by simp [Frame.isTerminal])
            · exact (clean i o rfl).pass quiet
      | goes b next frames recorded inStream =>
          have after : ∀ f ∈ (x.pass p).frames, f.isTerminal = false := by
            intro f hf
            rw [Execution.frames_pass, List.mem_append] at hf
            rcases hf with hf | hf
            · exact before f hf
            · exact frames f hf
          refine ⟨fun h => absurd (next.symm.trans h) (by simp), fun _ => after, ?_, ?_, synthesized,
            ?_⟩
          · rw [Execution.completions_pass, recorded, List.append_nil, records]
            simp [Execution.pass, next]
          · intro i o hmem
            exact absurd (after _ hmem) (by simp [Frame.isTerminal])
          · intro b' hb'
            obtain rfl := Option.some.inj (hb'.symm.trans next)
            exact inStream

/-! ### The measure of a call -/

/-- The puts and events an await is from the end of its task, when no chunk comes. -/
def Await.puts : Await → ℕ
  | .put _ _ .openStream => 4
  | .put _ _ (.relay parts _) => parts.length + 4
  | .put _ _ (.answer _ _) => 4
  | .put _ _ (.terminate _ _) => 2
  | .put _ _ (.record _ _ _) => 1
  | .stream _ _ => 3
  | .answerNow _ _ _ => 3
  | _ => 0

/-- What a chunk or a hold adds to that. -/
def Turn.progress : Turn → ℕ
  | .wake w =>
      match w.outcome with
      | .event (.chunk ch) => ch.parts.length + 2
      | .event .hold => 1
      | _ => 0
  | .cancel _ => 0

/-- The puts that are left after a segment. -/
def Segment.puts (s : Segment) : ℕ := (s.next.map Await.puts).getD 0

section Puts

variable (c : DispatchCtx) (queue : ℕ) (v : StreamVars)

theorem puts_terminate (fault : Option StreamFault) (duration : ℚ) :
    (c.terminate queue v fault duration).puts = 1 := by
  cases fault <;> rfl

theorem puts_conclude (now : ℚ) : (c.conclude queue v now).puts ≤ 2 := by
  simp only [DispatchCtx.conclude]
  split
  · exact le_rfl
  · rw [puts_terminate]
    omega

theorem puts_answered (b : AnswerVars) (sawDone : Bool) (now : ℚ) :
    (c.answered queue v b sawDone now).puts ≤ 2 := by
  unfold DispatchCtx.answered
  split
  · exact puts_conclude c queue _ now
  · exact Nat.le_succ 1

theorem puts_relay (parts : List String) :
    (DispatchCtx.relay queue v parts).puts ≤ parts.length + 3 := by
  cases parts with
  | nil => exact le_rfl
  | cons part parts =>
      show parts.length + 4 ≤ (part :: parts).length + 3
      rw [List.length_cons]

theorem puts_onStream {w : Wake} (takes : (Await.stream queue v).canTake (.wake w) = true) :
    1 + (c.onStream queue v w).puts ≤ 3 + (Turn.wake w).progress := by
  obtain ⟨now, healthy, outcome⟩ := w
  cases outcome with
  | event e =>
      cases e with
      | chunk ch =>
          simp only [DispatchCtx.onStream, DispatchCtx.onEvent, Turn.progress]
          split
          · have := puts_relay queue (DispatchCtx.noted v ch) ch.parts
            omega
          · show 1 + 1 ≤ _
            omega
          · show 1 + 3 ≤ _
            omega
      | hold => exact le_rfl
      | done =>
          have := puts_conclude c queue { v with sawBackendDone := true } now
          simp only [DispatchCtx.onStream, DispatchCtx.onEvent, Turn.progress]
          omega
      | ended =>
          have := puts_conclude c queue v now
          simp only [DispatchCtx.onStream, DispatchCtx.onEvent, Turn.progress]
          omega
  | timedOut message | failed f | raised message => exact Nat.le_succ _
  | ready | responded r | blankRun b => exact absurd takes Bool.false_ne_true

theorem puts_onAnswerNow {b : AnswerVars} {w : Wake}
    (takes : (Await.answerNow queue v b).canTake (.wake w) = true) :
    1 + (c.onAnswerNow queue v b w).puts ≤ 3 + (Turn.wake w).progress := by
  obtain ⟨now, healthy, outcome⟩ := w
  have ends {b : AnswerVars} {sawDone : Bool} {n : ℕ} :
      1 + (c.answered queue v b sawDone now).puts ≤ 3 + n := by
    have := puts_answered c queue v b sawDone now
    omega
  cases outcome with
  | event e =>
      cases e with
      | chunk ch =>
          show 1 + 4 ≤ 3 + (ch.parts.length + 2)
          omega
      | hold => exact absurd takes Bool.false_ne_true
      | done | ended => exact ends
  | timedOut message | failed f | raised message => exact ends
  | ready | responded r | blankRun b => exact absurd takes Bool.false_ne_true

theorem puts_onPut (after : After) (frame : Frame) (now : ℚ) :
    1 + (c.onPut queue after now).puts ≤ (Await.put queue frame after).puts := by
  cases after with
  | openStream => exact le_rfl
  | relay parts v =>
      have := puts_relay queue v parts
      show 1 + (DispatchCtx.relay queue v parts).puts ≤ parts.length + 4
      omega
  | answer v a => exact le_rfl
  | terminate v duration =>
      show 1 + (c.terminate queue v none duration).puts ≤ 2
      rw [puts_terminate]
  | record status v duration => exact le_rfl

theorem puts_onQueue {frame : Frame} {after : After} {w : Wake}
    (takes : (Await.put queue frame after).canTake (.wake w) = true) :
    1 + (c.onQueue queue true frame after w).puts ≤ (Await.put queue frame after).puts := by
  obtain ⟨now, healthy, outcome⟩ := w
  cases outcome with
  | ready => exact puts_onPut c queue after frame now
  | timedOut message =>
      cases after with
      | relay parts v =>
          show 1 + 1 ≤ parts.length + 4
          omega
      | openStream | answer v a | terminate v duration | record status v duration =>
          exact absurd takes Bool.false_ne_true
  | raised message =>
      cases after with
      | relay parts v =>
          show 1 + 1 ≤ parts.length + 4
          omega
      | answer v a =>
          have := puts_answered c queue v { reasoningChars := a.reasoningChars } false now
          show 1 + (c.answered queue v { reasoningChars := a.reasoningChars } false now).puts ≤ 4
          omega
      | openStream =>
          show 1 + 0 ≤ 4
          omega
      | terminate v duration =>
          show 1 + 0 ≤ 2
          omega
      | record status v duration => exact le_rfl
  | responded r | blankRun b | failed f | event e =>
      cases after <;> exact absurd takes Bool.false_ne_true

end Puts

/-- The puts that are left to a call. -/
def Execution.puts (x : Execution) : ℕ := (x.await.map Await.puts).getD 0

/-- A turn the task can take lowers what is left, unless the backend makes progress. -/
theorem Streaming.puts_step (cfg : ProxyConfig) {c : DispatchCtx} {g : StreamGuards} {x : Execution}
    (inv : Streaming g c.req x) {turn : Turn} (takes : x.Takes turn)
    (going : (x.step cfg (c.guarded g) turn).await ≠ none) :
    1 + (x.step cfg (c.guarded g) turn).puts ≤ x.puts + turn.progress := by
  cases ha : x.await with
  | none => exact absurd (by simp [Execution.step, ha]) going
  | some a =>
      rw [Execution.step_eq_pass cfg (c.guarded g) ha] at going ⊢
      have left : x.puts = a.puts := by simp [Execution.puts, ha]
      rw [left]
      show 1 + (Execution.segmentOf cfg (c.guarded g) a turn).puts ≤ _
      have inStream := inv.inStream a ha
      have takes := takes a ha
      cases turn with
      | cancel now => cases inStream <;> exact absurd rfl going
      | wake w =>
          cases inStream with
          | streaming hears => exact puts_onStream (c.guarded g) _ _ takes
          | answering hears => exact puts_onAnswerNow (c.guarded g) _ _ takes
          | opening silent | relaying hears | answered hears | repairing passes done
          | finishing terminal clean =>
              exact (puts_onQueue (c.guarded g) _ takes).trans (Nat.le_add_right _ _)

/-- A dispatched chat completion. -/
def dispatchedChat : DispatchCtx :=
  { dispatchedRequest with
    decision := { dispatchedRequest.decision with
      request := { dispatchedRequest.decision.request with payloadType := "chat_completion" } } }

/-- The guards for a request with a JSON `response_format`, on the texts used below. -/
def jsonGuards : StreamGuards where
  requestIsStructured := fun _ => true
  requestExpectsJson := fun _ => true
  jsonLoads := fun text => decide (text = "[1]")

/-- A stream that carries `parts` and then the `[DONE]`, without a finish reason. -/
def unfinishedStream (parts : List String) : List Turn :=
  .wake {} ::
    parts.flatMap (fun part =>
      [.wake { outcome := .event (.chunk { parts := [part], content := part, hasContent := true }) },
        .wake {}]) ++
    .wake { outcome := .event .done } :: List.replicate 5 (.wake {})

/-- A structured stream that was cut or does not parse does not end with `done`. -/
def StreamGuards.CleanOnly (g : StreamGuards) (req : QueuedRequest) (x : Execution) : Prop :=
  ∀ i o, Frame.done i o ∈ x.frames → g.streamStructured req = true →
    x.finishReason ≠ some "length" ∧ g.jsonLoads x.content = true

/-- The guards for a `guided_choice`, which does not ask for JSON. -/
def choiceGuards : StreamGuards := { jsonGuards with requestExpectsJson := fun _ => false }

end Roadstead
