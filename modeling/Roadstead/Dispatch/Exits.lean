import Roadstead.Dispatch

/-!
# The exits of a dispatch task

`Regular` is what every segment of a task that has begun keeps to: it records the
completion exactly when it ends, it never goes back to the start, and it only ever
touches the one queue the task holds.  There is one lemma for each function of the
task and one for the two ways to resume it.

The segments that are *not* regular are the two ways to end before the `try` is
entered (`executeDispatch` on an endpoint that is not configured, or on a session id
that cannot be encoded) and the cancellation of a task that has not begun.
-/

namespace Roadstead

open Segment

/-- The queue an effect puts to. -/
def Effect.queue? : Effect → Option ℕ
  | .put queue _ => some queue
  | _ => none

/-- The queue a suspended task holds. -/
def Await.queue? : Await → Option ℕ
  | .put queue _ _ => some queue
  | .stream queue _ => some queue
  | .answerNow queue _ _ => some queue
  | _ => none

/-- The queue a task that is resumed at `a` may touch: the one it holds or, before it
begins, the one it finds. -/
def Await.heldOr (queue : Option ℕ) (a : Await) : Option ℕ :=
  if a = .start then queue else a.queue?

namespace Segment

/-- The segment touches no queue but `queue`. -/
structure Owned (queue : Option ℕ) (s : Segment) : Prop where
  own_puts : ∀ e ∈ s.effects, ∀ q, e.queue? = some q → queue = some q
  own_queue : ∀ a, s.next = some a → ∀ q, a.queue? = some q → queue = some q

theorem Owned.mono {queue queue' : Option ℕ} {s : Segment} (owned : Owned queue s)
    (more : ∀ q, queue = some q → queue' = some q) : Owned queue' s where
  own_puts e he q hq := more q (owned.own_puts e he q hq)
  own_queue a ha q hq := more q (owned.own_queue a ha q hq)

/-- What a segment of a task with the queue `queue` keeps to. -/
structure Regular (queue : Option ℕ) (s : Segment) : Prop extends Owned queue s where
  settles : (s.effects.filterMap Effect.status?).length = if s.next.isNone then 1 else 0
  begun : s.next ≠ some .start

variable {queue : Option ℕ}

theorem Regular.suspend {a : Await} (begun : a ≠ .start)
    (own : ∀ q, a.queue? = some q → queue = some q) : Regular queue (suspend a) where
  settles := rfl
  begun h := begun (Option.some.inj h)
  own_puts := by simp [Segment.suspend]
  own_queue := by
    rintro a' h q hq
    obtain rfl := Option.some.inj h
    exact own q hq

theorem Regular.finish {effects : List Effect} (quiet : ∀ e ∈ effects, e.status? = none)
    (own : ∀ e ∈ effects, e.queue? = none) (status : Status) (duration : ℚ)
    (inputTokens outputTokens : ℤ) :
    Regular queue (finish effects status duration inputTokens outputTokens) where
  settles := by
    have none : effects.filterMap Effect.status? = [] :=
      List.filterMap_eq_nil_iff.mpr quiet
    simp [Segment.finish, none, Effect.status?]
  begun := by simp [Segment.finish]
  own_puts := by
    intro e he q hq
    rcases List.mem_append.mp he with he | he
    · rw [own e he] at hq
      exact absurd hq (by simp)
    · obtain rfl := List.mem_singleton.mp he
      exact absurd hq (by simp [Effect.queue?])
  own_queue := by simp [Segment.finish]

theorem Regular.after {q : ℕ} {s : Segment} (regular : Regular (some q) s) (frame : Frame) :
    Regular (some q) (s.after (.put q frame)) where
  settles := regular.settles
  begun := regular.begun
  own_puts := by
    intro e he q' hq'
    rcases List.mem_cons.mp he with rfl | he
    · exact hq'
    · exact regular.own_puts e he q' hq'
  own_queue := regular.own_queue

end Segment

namespace DispatchCtx

variable (c : DispatchCtx)

variable {queue : Option ℕ}

/-- The exits that resolve the caller with an error. -/
theorem finish_resolveError_regular (failure : Failure) (status : Status)
    (duration : ℚ) (inputTokens outputTokens : ℤ) :
    Regular queue (finish [.resolveError failure] status duration inputTokens outputTokens) :=
  .finish (by simp [Effect.status?]) (by simp [Effect.queue?]) _ _ _ _

theorem onCancelled_regular (now : ℚ) : Regular queue (c.onCancelled now) :=
  finish_resolveError_regular _ _ _ _ _

theorem onException_regular (now : ℚ) (message : String) :
    Regular queue (c.onException now message) :=
  finish_resolveError_regular _ _ _ _ _

/-! ### `execute_sync` -/

theorem attempt_regular (v : SyncVars) (now : ℚ) :
    Regular queue (c.attempt v now) := by
  unfold attempt
  split
  · exact finish_resolveError_regular _ _ _ _ _
  · exact .suspend (by simp) (by simp [Await.queue?])

theorem serve_regular (v : SyncVars) (now : ℚ) (r : BackendResponse) :
    Regular queue (c.serve v now r) := by
  simp only [serve]
  split
  · exact finish_resolveError_regular _ _ _ _ _
  · split
    · exact finish_resolveError_regular _ _ _ _ _
    · exact .finish (by simp [Effect.status?]) (by simp [Effect.queue?]) _ _ _ _

theorem onBlankRun_regular (v : SyncVars) (w : Wake) (b : BlankRunAbort) :
    Regular queue (c.onBlankRun v w b) := by
  unfold onBlankRun
  split
  · exact c.serve_regular v _ _
  · split
    · exact .suspend (by simp) (by simp [Await.queue?])
    · exact finish_resolveError_regular _ _ _ _ _

theorem onFault_regular (v : SyncVars) (w : Wake) (f : BackendFault) :
    Regular queue (c.onFault v w f) := by
  simp only [onFault]
  split
  · exact .suspend (by simp) (by simp [Await.queue?])
  · exact finish_resolveError_regular _ _ _ _ _

theorem onCall_regular (v : SyncVars) (w : Wake) :
    Regular queue (c.onCall v w) := by
  unfold onCall
  split
  · exact c.serve_regular v _ _
  · exact c.onBlankRun_regular v w _
  · exact finish_resolveError_regular _ _ _ _ _
  · exact c.onFault_regular v w _
  · exact c.onException_regular _ _
  · exact .suspend (by simp) (by simp [Await.queue?])
  · exact .suspend (by simp) (by simp [Await.queue?])

theorem onBackoff_regular (v : SyncVars) (w : Wake) :
    Regular queue (c.onBackoff v w) := by
  unfold onBackoff
  split
  · exact c.attempt_regular v _
  · exact c.onException_regular _ _
  · exact .suspend (by simp) (by simp [Await.queue?])

/-! ### `execute_streaming` -/

/-- A segment that ends in an await on the queue the task holds. -/
theorem suspend_regular {q : ℕ} {a : Await} (own : a.queue? = some q) :
    Regular (some q) (suspend a) := by
  refine .suspend ?_ fun q' hq' => own.symm.trans hq'
  rintro rfl
  exact absurd own (by simp [Await.queue?])

theorem openQueue_regular (queue : Option ℕ) : Regular queue (c.openQueue queue) := by
  unfold openQueue
  split
  · exact .finish (by simp) (by simp) _ _ _ _
  · exact suspend_regular rfl

variable (queue : ℕ)

theorem relay_regular (v : StreamVars) (parts : List String) :
    Regular (some queue) (relay queue v parts) := by
  cases parts with
  | nil | cons part parts => exact suspend_regular rfl

theorem terminate_regular (v : StreamVars) (fault : Option StreamFault) (duration : ℚ) :
    Regular (some queue) (c.terminate queue v fault duration) := by
  cases fault with
  | none | some fault => exact suspend_regular rfl

theorem conclude_regular (v : StreamVars) (now : ℚ) :
    Regular (some queue) (c.conclude queue v now) := by
  simp only [conclude]
  split
  · exact suspend_regular rfl
  · exact c.terminate_regular queue v _ _

theorem abortStream_regular (v : StreamVars) (message : String) (status : Status) :
    Regular (some queue) (abortStream queue v message status) :=
  suspend_regular rfl

theorem onEvent_regular (v : StreamVars) (now : ℚ) (e : StreamEvent) :
    Regular (some queue) (c.onEvent queue v now e) := by
  cases e with
  | chunk ch =>
      unfold onEvent
      dsimp only
      split
      · exact relay_regular queue _ _
      · exact abortStream_regular queue _ _ _
      · exact suspend_regular rfl
  | hold => exact suspend_regular rfl
  | done | ended => exact c.conclude_regular queue _ now

theorem onStream_regular (v : StreamVars) (w : Wake) :
    Regular (some queue) (c.onStream queue v w) := by
  unfold onStream
  split
  · exact c.onEvent_regular queue v _ _
  · exact abortStream_regular queue _ _ _
  · exact abortStream_regular queue _ _ _
  · exact abortStream_regular queue _ _ _
  · exact suspend_regular rfl

theorem answered_regular (v : StreamVars) (a : AnswerVars) (sawDone : Bool) (now : ℚ) :
    Regular (some queue) (c.answered queue v a sawDone now) := by
  unfold answered
  split
  · exact c.conclude_regular queue _ now
  · exact abortStream_regular queue _ _ _

theorem onAnswerNow_regular (v : StreamVars) (a : AnswerVars) (w : Wake) :
    Regular (some queue) (c.onAnswerNow queue v a w) := by
  unfold onAnswerNow
  split
  · exact suspend_regular rfl
  · exact c.answered_regular queue v a true _
  · exact c.answered_regular queue v a false _
  · exact c.answered_regular queue v _ false _
  · exact c.answered_regular queue v _ false _
  · exact c.answered_regular queue v _ false _
  · exact suspend_regular rfl

theorem onPut_regular (after : After) (now : ℚ) :
    Regular (some queue) (c.onPut queue after now) := by
  cases after with
  | openStream => exact suspend_regular rfl
  | relay parts v => exact relay_regular queue v parts
  | answer v a => exact suspend_regular rfl
  | terminate v duration => exact c.terminate_regular queue v none duration
  | record status v duration => exact .finish (by simp) (by simp) _ _ _ _

theorem onQueue_regular (room : Bool) (frame : Frame) (after : After) (w : Wake) :
    Regular (some queue) (c.onQueue queue room frame after w) := by
  unfold onQueue
  split
  · split
    · exact (c.onPut_regular queue after _).after frame
    · exact suspend_regular rfl
  · split
    · exact abortStream_regular queue _ _ _
    · exact suspend_regular rfl
  · split
    · exact abortStream_regular queue _ _ _
    · exact c.answered_regular queue _ _ false _
    · exact c.onException_regular _ _
  · exact suspend_regular rfl

/-! ### `execute_dispatch` -/

/-- The first segment is regular when the endpoint is configured and the session id
can be encoded where it has to be. -/
theorem executeDispatch_regular {cfg : ProxyConfig} {epCfg : EndpointConfig}
    (hcfg : cfg.endpoints.get? c.req.endpoint = some epCfg)
    (encodes : affinityFault epCfg c.req = false) (queue : Option ℕ) (now : ℚ) :
    Regular queue (executeDispatch cfg c queue now) := by
  simp only [executeDispatch, hcfg, encodes]
  split
  · exact absurd ‹_› (by simp)
  · split
    · exact c.openQueue_regular queue
    · exact c.attempt_regular _ _

/-- A task that has begun stays regular. -/
theorem resume_regular (cfg : ProxyConfig) (queue : Option ℕ) (room : Bool) {a : Await}
    (begun : a ≠ .start) (w : Wake) : Regular a.queue? (c.resume cfg queue room a w) := by
  cases a with
  | start => exact absurd rfl begun
  | call v => exact c.onCall_regular v w
  | backoff v => exact c.onBackoff_regular v w
  | put q frame after => exact c.onQueue_regular q room frame after w
  | stream q v => exact c.onStream_regular q v w
  | answerNow q v b => exact c.onAnswerNow_regular q v b w

theorem cancelled_regular {a : Await} (begun : a ≠ .start) (now : ℚ) :
    Regular a.queue? (c.cancelled a now) := by
  cases a with
  | start => exact absurd rfl begun
  | call v | backoff v | put q frame after | stream q v | answerNow q v b =>
      exact c.onCancelled_regular now

/-! ### Segments that need not be regular -/

theorem executeDispatch_owned (cfg : ProxyConfig) (queue : Option ℕ) (now : ℚ) :
    Owned queue (executeDispatch cfg c queue now) := by
  simp only [executeDispatch]
  split
  · exact ⟨by simp [Effect.queue?], by simp⟩
  · split
    · exact ⟨by simp, by simp⟩
    · split
      · exact (c.openQueue_regular queue).toOwned
      · exact (c.attempt_regular _ now).toOwned

theorem resume_owned (cfg : ProxyConfig) (queue : Option ℕ) (room : Bool) (a : Await) (w : Wake) :
    Owned (a.heldOr queue) (c.resume cfg queue room a w) := by
  by_cases hstart : a = .start
  · subst hstart
    simp only [resume]
    split
    · exact c.executeDispatch_owned cfg queue w.now
    · exact ⟨by simp [suspend], by simp [suspend, Await.queue?]⟩
  · rw [Await.heldOr, if_neg hstart]
    exact (c.resume_regular cfg queue room hstart w).toOwned

theorem cancelled_owned (queue : Option ℕ) (a : Await) (now : ℚ) :
    Owned (a.heldOr queue) (c.cancelled a now) := by
  by_cases hstart : a = .start
  · subst hstart
    exact ⟨by simp [cancelled], by simp [cancelled]⟩
  · rw [Await.heldOr, if_neg hstart]
    exact (c.cancelled_regular hstart now).toOwned

end DispatchCtx

end Roadstead
