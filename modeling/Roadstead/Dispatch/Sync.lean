import Roadstead.Dispatch.Exits
import Roadstead.Lib.Run

/-!
# One call of `execute_sync`

`execute_sync` is one `while True` with five ways to go round again and three budgets:
the transient retries, the retry of a structured fault and the retry of a blank run.
This module follows one call of it through every sequence of backend outcomes.

An `Execution` is a dispatch task on its own, with the passages it has made: where it was
resumed, with what, and the segment it then ran.  What the result counts is read off
the passages and not off the variables of the loop: the backend calls it began, the
calls it made again after a structured fault or a blank run, the times it resolved its
caller, and the times it recorded a completion.

## The measure

`Sync` relates the passages to the variables of the await.  A fault is retried only
while `attempts` is at most the retry limit and a blank run only while its flag is down,
so `attempts` never passes the limit by more than two; and each turn that the await can
take lowers `SyncVars.roundsLeft`, twice the attempts that are left.
-/

namespace Roadstead

open Segment

/-- What resumes a task: an outcome, or the delivery of a cancellation. -/
inductive Turn where
  | wake (w : Wake)
  | cancel (now : ℚ)
  deriving DecidableEq

/-- A task was resumed at `source` with `turn` and ran `segment`. -/
structure Passage where
  source : Await
  turn : Turn
  segment : Segment

namespace Passage

/-- The passage begins a backend call. -/
def beginsCall (p : Passage) : Bool :=
  match p.source, p.segment.next with
  | .call _, _ => false
  | _, some (.call _) => true
  | _, _ => false

/-- The passage goes round the loop again. -/
def retries (p : Passage) : Bool :=
  match p.segment.next with
  | some (.backoff _) => true
  | _ => false

/-- The passage retries a structured fault that is no transient error. -/
def retriesFault (p : Passage) : Bool :=
  match p.source, p.turn with
  | .call _, .wake ⟨_, _, .failed f⟩ =>
      f.isStructuredGenerationFault && !f.isTransientBackendError && p.retries
  | _, _ => false

/-- The passage retries a blank run. -/
def retriesBlankRun (p : Passage) : Bool :=
  match p.source, p.turn with
  | .call _, .wake ⟨_, _, .blankRun _⟩ => p.retries
  | _, _ => false

end Passage

/-- The effect resolves the caller's future. -/
def Effect.resolves : Effect → Bool
  | .resolveError _ => true
  | .setResult _ => true
  | _ => false

/-- A dispatch task and its passages. -/
structure Execution where
  await : Option Await
  passages : List Passage := []

namespace Execution

/-- The first passage of `execute_sync`, which ends at the first backend call. -/
def executeSync (c : DispatchCtx) (now : ℚ) : Execution :=
  let segment := c.attempt {} now
  ⟨segment.next, [⟨.start, .wake { now := now }, segment⟩]⟩

/-- What the task does when it is resumed at `a`; a queue it puts to has room. -/
def segmentOf (cfg : ProxyConfig) (c : DispatchCtx) (a : Await) : Turn → Segment
  | .wake w => c.resume cfg none true a w
  | .cancel now => c.cancelled a now

/-- One turn; a task that has ended takes none. -/
def step (cfg : ProxyConfig) (c : DispatchCtx) (x : Execution) (turn : Turn) : Execution :=
  match x.await with
  | none => x
  | some a =>
      let segment := segmentOf cfg c a turn
      ⟨segment.next, x.passages ++ [⟨a, turn, segment⟩]⟩

def run (cfg : ProxyConfig) (c : DispatchCtx) (x : Execution) (turns : List Turn) : Execution :=
  Runs.run (step cfg c) x turns

/-- What the task has done so far, in order. -/
def effects (x : Execution) : List Effect := x.passages.flatMap fun p => p.segment.effects

/-- How often a backend call was begun. -/
def calls (x : Execution) : ℕ := x.passages.countP Passage.beginsCall

def faultRetries (x : Execution) : ℕ := x.passages.countP Passage.retriesFault

def blankRunRetries (x : Execution) : ℕ := x.passages.countP Passage.retriesBlankRun

/-- How often the caller's future was resolved. -/
def resolutions (x : Execution) : ℕ := x.effects.countP Effect.resolves

/-- The completions that were recorded. -/
def completions (x : Execution) : List Status := x.effects.filterMap Effect.status?

end Execution

/-- The outcomes that what is awaited can have. -/
def Await.canTake : Await → Turn → Bool
  | _, .cancel _ => true
  | .start, .wake w => decide (w.outcome = .ready)
  | .call _, .wake w =>
      match w.outcome with
      | .ready => false
      | .event _ => false
      | _ => true
  | .backoff _, .wake w =>
      match w.outcome with
      | .ready => true
      | .raised _ => true
      | _ => false
  | .put _ _ after, .wake w =>
      match w.outcome, after with
      | .ready, _ => true
      | .raised _, _ => true
      | .timedOut _, .relay _ _ => true
      | _, _ => false
  | .stream _ _, .wake w =>
      match w.outcome with
      | .event _ => true
      | .timedOut _ => true
      | .failed _ => true
      | .raised _ => true
      | _ => false
  | .answerNow _ _ _, .wake w =>
      match w.outcome with
      | .event .hold => false
      | .event _ => true
      | .timedOut _ => true
      | .failed _ => true
      | .raised _ => true
      | _ => false

/-- The turn is one that the task, if it has not ended, can take. -/
def Execution.Takes (x : Execution) (turn : Turn) : Prop :=
  ∀ a, x.await = some a → a.canTake turn = true

instance (x : Execution) (turn : Turn) : Decidable (x.Takes turn) :=
  decidable_of_iff ((x.await.all fun a => a.canTake turn) = true) (by
    cases h : x.await <;> simp [Execution.Takes, h])

/-! ### What one turn does -/

/-- The segment ends the task, having resolved the caller and recorded the completion. -/
structure Segment.Ends (s : Segment) : Prop where
  next : s.next = none
  resolves : s.effects.countP Effect.resolves = 1
  records : (s.effects.filterMap Effect.status?).length = 1

/-- The variables after a turn that goes round the loop again: a retry of a blank run
spends its flag, any other retry is of a fault and within the limit. -/
structure SyncVars.Retry (limit : ℕ) (v v' : SyncVars) (p : Passage) : Prop where
  attempts : v'.attempts = v.attempts
  blankRun : v'.blankRunRetried = v.blankRunRetried ∧ v.attempts ≤ limit ∧
      p.retriesBlankRun = false ∨
    v.blankRunRetried = false ∧ v'.blankRunRetried = true
  fault : p.retriesFault = false ∧ (v.structuredFaultRetried = true →
      v'.structuredFaultRetried = true) ∨
    v.structuredFaultRetried = false ∧ v'.structuredFaultRetried = true

/-- What a turn of `execute_sync` does. -/
inductive SyncTurn (limit : ℕ) : Await → Turn → Segment → Prop where
  | ends {a : Await} {turn : Turn} {s : Segment} (ends : s.Ends) : SyncTurn limit a turn s
  | stays {a : Await} {turn : Turn} (cannot : a.canTake turn = false) :
      SyncTurn limit a turn (suspend a)
  | again {v v' : SyncVars} {turn : Turn}
      (retry : v.Retry limit v' ⟨.call v, turn, suspend (.backoff v')⟩) :
      SyncTurn limit (.call v) turn (suspend (.backoff v'))
  | calls {v : SyncVars} {turn : Turn} (now : ℚ) :
      SyncTurn limit (.backoff v) turn
        (suspend (.call { v with attempts := v.attempts + 1, t0 := now }))

namespace DispatchCtx

variable (c : DispatchCtx)

theorem finish_resolveError_ends (failure : Failure) (status : Status) (duration : ℚ)
    (inputTokens outputTokens : ℤ) :
    (finish [.resolveError failure] status duration inputTokens outputTokens).Ends :=
  ⟨rfl, rfl, rfl⟩

theorem serve_ends (v : SyncVars) (now : ℚ) (r : BackendResponse) : (c.serve v now r).Ends := by
  simp only [serve]
  split
  · exact finish_resolveError_ends _ _ _ _ _
  · split
    · exact finish_resolveError_ends _ _ _ _ _
    · exact ⟨rfl, rfl, rfl⟩

/-- The top of the loop begins a call, or the deadline has passed. -/
theorem attempt_cases (v : SyncVars) (now : ℚ) :
    (c.attempt v now).Ends ∨
      c.attempt v now = suspend (.call { v with attempts := v.attempts + 1, t0 := now }) := by
  unfold attempt
  split
  · exact .inl (finish_resolveError_ends _ _ _ _ _)
  · exact .inr rfl

theorem onBlankRun_turn (v : SyncVars) (now : ℚ) (healthy : Bool) (b : BlankRunAbort) :
    SyncTurn c.policy.transientRetryMax (.call v) (.wake ⟨now, healthy, .blankRun b⟩)
      (c.onBlankRun v ⟨now, healthy, .blankRun b⟩ b) := by
  unfold onBlankRun
  split
  · exact .ends (c.serve_ends v _ _)
  · split
    · rename_i spent
      exact .again ⟨rfl, .inr ⟨spent.1, rfl⟩, .inl ⟨rfl, fun h => h⟩⟩
    · exact .ends (finish_resolveError_ends _ _ _ _ _)

/-- An empty completion is a transient error. -/
theorem isTransient_of_emptyCompletion {f : BackendFault} (h : f.emptyCompletion = true) :
    f.isTransientBackendError = true := by
  simp [BackendFault.isTransientBackendError, h]

theorem onFault_turn (v : SyncVars) (now : ℚ) (healthy : Bool) (f : BackendFault) :
    SyncTurn c.policy.transientRetryMax (.call v) (.wake ⟨now, healthy, .failed f⟩)
      (c.onFault v ⟨now, healthy, .failed f⟩ f) := by
  simp only [onFault]
  split
  · rename_i retried
    obtain ⟨cause, within, -⟩ := retried
    -- The flag of a structured fault is spent on the branch that is neither the rescue
    -- of an empty completion nor a plain transient retry.
    refine .again ⟨?_, .inl ⟨?_, within, rfl⟩, ?_⟩
    · split
      · rfl
      · split <;> rfl
    · split
      · rfl
      · split <;> rfl
    · split
      · rename_i empty
        refine .inl ⟨?_, fun h => h⟩
        simp [Passage.retriesFault, isTransient_of_emptyCompletion empty.2]
      · split
        · rename_i fault
          have spent : v.structuredFaultRetried = false := by
            cases h : v.structuredFaultRetried
            · rfl
            · simp [h] at fault
          exact .inr ⟨spent, rfl⟩
        · rename_i fault
          have transient : f.isTransientBackendError = true := by
            rcases Bool.or_eq_true _ _ ▸ cause with h | h
            · exact h
            · exact absurd h fault
          refine .inl ⟨?_, fun h => h⟩
          simp [Passage.retriesFault, transient]
  · exact .ends (finish_resolveError_ends _ _ _ _ _)

theorem onCall_turn (v : SyncVars) (w : Wake) :
    SyncTurn c.policy.transientRetryMax (.call v) (.wake w) (c.onCall v w) := by
  obtain ⟨now, healthy, outcome⟩ := w
  cases outcome with
  | ready => exact .stays rfl
  | responded r => exact .ends (c.serve_ends v now r)
  | blankRun b => exact c.onBlankRun_turn v now healthy b
  | timedOut message => exact .ends (finish_resolveError_ends _ _ _ _ _)
  | failed f => exact c.onFault_turn v now healthy f
  | raised message => exact .ends (finish_resolveError_ends _ _ _ _ _)
  | event e => exact .stays rfl

theorem onBackoff_turn (v : SyncVars) (w : Wake) :
    SyncTurn c.policy.transientRetryMax (.backoff v) (.wake w) (c.onBackoff v w) := by
  obtain ⟨now, healthy, outcome⟩ := w
  cases outcome with
  | ready =>
      rcases c.attempt_cases v now with ends | calls
      · exact .ends ends
      · show SyncTurn _ _ _ (c.attempt v now)
        rw [calls]
        exact .calls now
  | raised message => exact .ends (finish_resolveError_ends _ _ _ _ _)
  | responded r | blankRun b | timedOut message | failed f | event e => exact .stays rfl

theorem segmentOf_turn (cfg : ProxyConfig) {a : Await}
    (sync : ∃ v, a = .call v ∨ a = .backoff v) (turn : Turn) :
    SyncTurn c.policy.transientRetryMax a turn (Execution.segmentOf cfg c a turn) := by
  obtain ⟨v, rfl | rfl⟩ := sync
  · cases turn with
    | wake w => exact c.onCall_turn v w
    | cancel now => exact .ends (finish_resolveError_ends _ _ _ _ _)
  · cases turn with
    | wake w => exact c.onBackoff_turn v w
    | cancel now => exact .ends (finish_resolveError_ends _ _ _ _ _)

end DispatchCtx

/-! ### The invariant of a call -/

/-- The passages of `x` agree with the variables `v`. -/
structure SyncVars.Agrees (v : SyncVars) (x : Execution) : Prop where
  calls : x.calls = v.attempts
  faults : x.faultRetries ≤ v.structuredFaultRetried.toNat
  blankRuns : x.blankRunRetries ≤ v.blankRunRetried.toNat

/-- What holds at an await of `execute_sync`. -/
inductive Await.InLoop (limit : ℕ) (x : Execution) : Await → Prop where
  | call {v : SyncVars} (bound : v.attempts ≤ limit + 1 + v.blankRunRetried.toNat)
      (agrees : v.Agrees x) : InLoop limit x (.call v)
  | backoff {v : SyncVars} (bound : v.attempts ≤ limit + v.blankRunRetried.toNat)
      (agrees : v.Agrees x) : InLoop limit x (.backoff v)

structure Sync (limit : ℕ) (x : Execution) : Prop where
  calls : x.calls ≤ limit + 2
  faultRetries : x.faultRetries ≤ 1
  blankRunRetries : x.blankRunRetries ≤ 1
  resolved : x.resolutions = if x.await.isNone then 1 else 0
  settled : x.completions.length = if x.await.isNone then 1 else 0
  inLoop : ∀ a, x.await = some a → a.InLoop limit x

variable {x : Execution}

namespace Execution

/-- The execution after one more passage. -/
def pass (x : Execution) (p : Passage) : Execution := ⟨p.segment.next, x.passages ++ [p]⟩

section Pass

variable (x : Execution) (p : Passage)

theorem calls_pass : (x.pass p).calls = x.calls + p.beginsCall.toNat := by
  simp only [calls, pass, List.countP_append, List.countP_singleton]
  cases p.beginsCall <;> rfl

theorem faultRetries_pass : (x.pass p).faultRetries = x.faultRetries + p.retriesFault.toNat := by
  simp only [faultRetries, pass, List.countP_append, List.countP_singleton]
  cases p.retriesFault <;> rfl

theorem blankRunRetries_pass :
    (x.pass p).blankRunRetries = x.blankRunRetries + p.retriesBlankRun.toNat := by
  simp only [blankRunRetries, pass, List.countP_append, List.countP_singleton]
  cases p.retriesBlankRun <;> rfl

theorem resolutions_pass :
    (x.pass p).resolutions = x.resolutions + p.segment.effects.countP Effect.resolves := by
  simp [resolutions, effects, pass, List.flatMap_append, List.countP_append]

theorem completions_pass :
    (x.pass p).completions = x.completions ++ p.segment.effects.filterMap Effect.status? := by
  simp [completions, effects, pass, List.flatMap_append, List.filterMap_append]

end Pass

theorem step_eq_pass (cfg : ProxyConfig) (c : DispatchCtx) {a : Await}
    (ha : x.await = some a) (turn : Turn) :
    x.step cfg c turn = x.pass ⟨a, turn, segmentOf cfg c a turn⟩ := by
  simp [step, ha, pass]

end Execution

/-- A passage that only suspends resolves and records nothing. -/
theorem Sync.of_suspend {limit : ℕ} (inv : Sync limit x) {a a' : Await}
    {turn : Turn} (ha : x.await = some a) (inLoop : a'.InLoop limit (x.pass ⟨a, turn, suspend a'⟩)) :
    Sync limit (x.pass ⟨a, turn, suspend a'⟩) := by
  have counts : ∀ v : SyncVars, v.Agrees (x.pass ⟨a, turn, suspend a'⟩) →
      v.attempts ≤ limit + 1 + v.blankRunRetried.toNat →
      (x.pass ⟨a, turn, suspend a'⟩).calls ≤ limit + 2 ∧
        (x.pass ⟨a, turn, suspend a'⟩).faultRetries ≤ 1 ∧
        (x.pass ⟨a, turn, suspend a'⟩).blankRunRetries ≤ 1 := by
    intro v agrees bound
    have flag := Bool.toNat_le v.blankRunRetried
    have calls := agrees.calls
    exact ⟨by omega, agrees.faults.trans (Bool.toNat_le _), agrees.blankRuns.trans flag⟩
  have bounds : (x.pass ⟨a, turn, suspend a'⟩).calls ≤ limit + 2 ∧
      (x.pass ⟨a, turn, suspend a'⟩).faultRetries ≤ 1 ∧
      (x.pass ⟨a, turn, suspend a'⟩).blankRunRetries ≤ 1 := by
    cases inLoop with
    | call bound agrees => exact counts _ agrees bound
    | backoff bound agrees => exact counts _ agrees (by omega)
  refine ⟨bounds.1, bounds.2.1, bounds.2.2, ?_, ?_, ?_⟩
  · rw [Execution.resolutions_pass, inv.resolved, ha]
    rfl
  · rw [Execution.completions_pass, List.length_append, inv.settled, ha]
    rfl
  · intro b hb
    obtain rfl := Option.some.inj hb
    exact inLoop

/-- What a retry leaves of the agreement between passages and variables. -/
theorem SyncVars.Agrees.retry {limit : ℕ} {v v' : SyncVars} {turn : Turn}
    (agrees : v.Agrees x) (bound : v.attempts ≤ limit + 1 + v.blankRunRetried.toNat)
    (retry : v.Retry limit v' ⟨.call v, turn, suspend (.backoff v')⟩) :
    (Await.backoff v').InLoop limit (x.pass ⟨.call v, turn, suspend (.backoff v')⟩) := by
  obtain ⟨attempts, blankRun, fault⟩ := retry
  refine .backoff ?_ ⟨?_, ?_, ?_⟩
  · rcases blankRun with ⟨same, within, -⟩ | ⟨before, after⟩
    · rw [attempts]
      omega
    · rw [before] at bound
      rw [attempts, after]
      simpa using bound
  · rw [Execution.calls_pass, attempts, agrees.calls]
    rfl
  · rw [Execution.faultRetries_pass]
    have faults := agrees.faults
    rcases fault with ⟨no, kept⟩ | ⟨before, after⟩
    · rw [no]
      cases h : v.structuredFaultRetried
      · rw [h] at faults
        simp at faults
        simp [faults]
      · rw [h] at faults
        rw [kept h]
        simpa using faults
    · rw [before] at faults
      rw [after]
      have := Bool.toNat_le (Passage.retriesFault ⟨.call v, turn, suspend (.backoff v')⟩)
      simp at faults ⊢
      omega
  · rw [Execution.blankRunRetries_pass]
    have blankRuns := agrees.blankRuns
    rcases blankRun with ⟨same, -, no⟩ | ⟨before, after⟩
    · rw [no, same]
      simpa using blankRuns
    · rw [before] at blankRuns
      rw [after]
      have := Bool.toNat_le (Passage.retriesBlankRun ⟨.call v, turn, suspend (.backoff v')⟩)
      simp at blankRuns ⊢
      omega

/-- Only a passage that goes round the loop again is a retry. -/
theorem Passage.no_retries {p : Passage} (h : p.retries = false) :
    p.retriesFault = false ∧ p.retriesBlankRun = false := by
  constructor
  · unfold retriesFault
    split
    · simp [h]
    · rfl
  · unfold retriesBlankRun
    split
    · exact h
    · rfl

/-- A passage that is no retry changes nothing but the number of calls. -/
theorem SyncVars.Agrees.keep {v v' : SyncVars} {p : Passage}
    (agrees : v.Agrees x) (attempts : v'.attempts = v.attempts + p.beginsCall.toNat)
    (fault : v'.structuredFaultRetried = v.structuredFaultRetried)
    (blankRun : v'.blankRunRetried = v.blankRunRetried)
    (once : p.retriesFault = false ∧ p.retriesBlankRun = false) : v'.Agrees (x.pass p) where
  calls := by rw [Execution.calls_pass, attempts, agrees.calls]
  faults := by
    rw [Execution.faultRetries_pass, once.1, fault]
    exact agrees.faults
  blankRuns := by
    rw [Execution.blankRunRetries_pass, once.2, blankRun]
    exact agrees.blankRuns

/-- A passage that ends the task adds its one resolution and its one completion. -/
theorem Sync.of_ends {limit : ℕ} (inv : Sync limit x) {a : Await} {turn : Turn}
    {s : Segment} (ha : x.await = some a) (ends : s.Ends) : Sync limit (x.pass ⟨a, turn, s⟩) := by
  have quiet : Passage.beginsCall ⟨a, turn, s⟩ = false ∧ Passage.retries ⟨a, turn, s⟩ = false := by
    constructor
    · unfold Passage.beginsCall
      rw [ends.next]
      split <;> first | rfl | contradiction
    · unfold Passage.retries
      rw [ends.next]
  have none := Passage.no_retries quiet.2
  refine ⟨?_, ?_, ?_, ?_, ?_, ?_⟩
  · rw [Execution.calls_pass, quiet.1]
    exact inv.calls
  · rw [Execution.faultRetries_pass, none.1]
    exact inv.faultRetries
  · rw [Execution.blankRunRetries_pass, none.2]
    exact inv.blankRunRetries
  · rw [Execution.resolutions_pass, inv.resolved, ha, ends.resolves]
    simp [Execution.pass, ends.next]
  · rw [Execution.completions_pass, List.length_append, inv.settled, ha, ends.records]
    simp [Execution.pass, ends.next]
  · intro b hb
    exact absurd (hb.symm.trans ends.next) (by simp)

theorem Await.InLoop.sync {limit : ℕ} {a : Await} (h : a.InLoop limit x) :
    ∃ v, a = .call v ∨ a = .backoff v := by
  cases h with
  | call _ _ => exact ⟨_, .inl rfl⟩
  | backoff _ _ => exact ⟨_, .inr rfl⟩

theorem Sync.step (cfg : ProxyConfig) {c : DispatchCtx}
    (inv : Sync c.policy.transientRetryMax x) (turn : Turn) :
    Sync c.policy.transientRetryMax (x.step cfg c turn) := by
  cases ha : x.await with
  | none => simpa [Execution.step, ha] using inv
  | some a =>
      rw [Execution.step_eq_pass cfg c ha]
      have inLoop := inv.inLoop a ha
      have turned := c.segmentOf_turn cfg inLoop.sync turn
      generalize Execution.segmentOf cfg c a turn = s at turned
      cases turned with
      | ends ends => exact inv.of_ends ha ends
      | stays cannot =>
          refine inv.of_suspend ha ?_
          cases inLoop with
          | call bound agrees =>
              exact .call bound (agrees.keep rfl rfl rfl (Passage.no_retries rfl))
          | backoff bound agrees => exact .backoff bound (agrees.keep rfl rfl rfl ⟨rfl, rfl⟩)
      | again retry =>
          cases inLoop with
          | call bound agrees => exact inv.of_suspend ha (agrees.retry bound retry)
      | calls now =>
          cases inLoop with
          | backoff bound agrees =>
              refine inv.of_suspend ha (.call ?_ (agrees.keep rfl rfl rfl ⟨rfl, rfl⟩))
              dsimp only
              omega

theorem Sync.executeSync (c : DispatchCtx) (now : ℚ) :
    Sync c.policy.transientRetryMax (Execution.executeSync c now) := by
  rcases c.attempt_cases {} now with ends | calls
  · have begins : Passage.beginsCall ⟨.start, .wake { now := now }, c.attempt {} now⟩ = false := by
      unfold Passage.beginsCall
      rw [ends.next]
    refine ⟨?_, Nat.zero_le 1, Nat.zero_le 1, ?_, ?_, ?_⟩
    · simp [Execution.calls, Execution.executeSync, begins]
    · simp [Execution.resolutions, Execution.effects, Execution.executeSync, ends.resolves, ends.next]
    · simp [Execution.completions, Execution.effects, Execution.executeSync, ends.records, ends.next]
    · intro a ha
      exact absurd (ha.symm.trans ends.next) (by simp)
  · have first : Execution.executeSync c now =
        ⟨some (.call { attempts := 1, t0 := now }),
          [⟨.start, .wake { now := now }, suspend (.call { attempts := 1, t0 := now })⟩]⟩ := by
      unfold Execution.executeSync
      rw [calls]
      rfl
    rw [first]
    refine ⟨?_, Nat.zero_le 1, Nat.zero_le 1, rfl, rfl, ?_⟩
    · show 1 ≤ _
      omega
    · intro a ha
      obtain rfl := Option.some.inj ha
      exact .call (by dsimp only; omega) ⟨rfl, Nat.zero_le _, Nat.zero_le _⟩

/-! ### The measure of a call -/

/-- Twice the attempts that are left, and one more for a call under way. -/
def Execution.roundsLeft (limit : ℕ) (x : Execution) : ℕ :=
  match x.await with
  | some (.call v) => 2 * (limit + 2 - v.attempts) + 1
  | some (.backoff v) => 2 * (limit + 2 - v.attempts)
  | _ => 0

/-- A turn the task can take ends it or lowers the measure. -/
theorem Sync.roundsLeft_step (cfg : ProxyConfig) {c : DispatchCtx}
    (inv : Sync c.policy.transientRetryMax x) {turn : Turn} (takes : x.Takes turn)
    (going : (x.step cfg c turn).await ≠ none) :
    1 + (x.step cfg c turn).roundsLeft c.policy.transientRetryMax ≤
      x.roundsLeft c.policy.transientRetryMax := by
  cases ha : x.await with
  | none => exact absurd (by simp [Execution.step, ha]) going
  | some a =>
      rw [Execution.step_eq_pass cfg c ha] at going ⊢
      have inLoop := inv.inLoop a ha
      have turned := c.segmentOf_turn cfg inLoop.sync turn
      generalize Execution.segmentOf cfg c a turn = s at turned going ⊢
      cases turned with
      | ends ends => exact absurd ends.next going
      | stays cannot => exact absurd (takes a ha) (by simp [cannot])
      | again retry =>
          simp only [Execution.roundsLeft, ha, Execution.pass, suspend, retry.attempts]
          omega
      | @calls v _ now =>
          cases inLoop with
          | backoff bound agrees =>
              have flag := Bool.toNat_le v.blankRunRetried
              simp only [Execution.roundsLeft, ha, Execution.pass, suspend]
              omega

/-- A task that has ended takes no more turns. -/
theorem Execution.step_ended (cfg : ProxyConfig) (c : DispatchCtx) (x : Execution) (turn : Turn)
    (ended : ¬x.await ≠ none) : ¬(x.step cfg c turn).await ≠ none := by
  rw [not_not] at ended ⊢
  simp [step, ended]

/-- A fleet without endpoints. -/
def unconfigured : ProxyConfig where
  endpoints := ∅
  stored_under_class := by simp
  class_ne_empty := by simp

/-- A dispatched request with a minute and a half to go. -/
def dispatchedRequest : DispatchCtx where
  policy := {}
  role := "chat"
  decision :=
    { request :=
        { requestId := "x", agentId := "agent", endpoint := "chat", band := .interactive,
          timeoutDeadline := 90 }
      queueWaitMs := 0
      occupancyAtDispatch := 0 }
  began := 0

end Roadstead
