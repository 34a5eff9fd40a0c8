import Roadstead.Dispatch
import Roadstead.Scheduler.World

/-!
# The dispatch protocol

`lifecycle.py` around the scheduler: the submit handlers, `scheduler_loop`, the
dispatch tasks it creates, and the SSE generators that read what the tasks produce.
The definitions follow the source; nothing is proved here.

## Parties

* A **waiter** is a `handle_sync_submit` blocked on its future.
* A **consumer** is the generator of a `handle_streaming_submit` with its queue.  Its
  opening frame is sent before the `try` is entered, so a client that goes away then
  never reaches the `finally`.
* A **task** is a dispatch task.  It is cancelled by request: the cancellation is
  delivered at its next step, wherever it is suspended.

Each of them belongs to one request, and they are kept under its identity `ref`.  The
three maps of the proxy, `pending_futures`, `pending_streams` and `inflight_tasks`,
find them by request *id* alone.

## Steps

An `Event` is one turn of the event loop: what one party does between two switch
points.  Results carry the identity of the request they were produced for, which no
step reads.  A turn that cannot happen in a state leaves it as it is.
-/

namespace Roadstead

open Scheduler

/-- The future of a waiter; a result carries the request it is the result of. -/
inductive Future where
  | pending
  | resolved (origin : ℕ) (answer : Answer)
  | cancelled
  deriving DecidableEq

/-- A call of `handle_sync_submit`. -/
structure Waiter where
  requestId : String
  future : Future := .pending
  waiting : Bool := true
  received : List (ℕ × Answer) := []
  deriving DecidableEq

namespace Waiter

/-- `if not future.done(): future.set_result(answer)`. -/
def resolve (w : Waiter) (origin : ℕ) (answer : Answer) : Waiter :=
  match w.future with
  | .pending => { w with future := .resolved origin answer }
  | _ => w

/-- Stop waiting; a future that is still pending is cancelled. -/
def stop (w : Waiter) : Waiter :=
  match w.future with
  | .pending => { w with future := .cancelled, waiting := false }
  | _ => { w with waiting := false }

end Waiter

/-- Where the generator of a streaming response is. -/
inductive ConsumerPhase where
  /-- Before the `try`: not started, or sending the opening frame. -/
  | opening
  | reading
  /-- A terminal frame was read; the `finally` has not run. -/
  | closing
  | gone
  deriving DecidableEq

/-- A call of `handle_streaming_submit`, with its queue of frames. -/
structure Consumer where
  requestId : String
  phase : ConsumerPhase := .opening
  queue : List (ℕ × Frame) := []
  received : List (ℕ × Frame) := []
  deriving DecidableEq

namespace Consumer

/-- `asyncio.Queue(maxsize=256)`. -/
def hasRoom (k : Consumer) : Bool := k.queue.length < 256

/-- `put_nowait`; a full queue drops the frame. -/
def putNowait (k : Consumer) (origin : ℕ) (frame : Frame) : Consumer :=
  if k.hasRoom then { k with queue := k.queue ++ [(origin, frame)] } else k

/-- Read the next frame. -/
def read (k : Consumer) : Consumer :=
  match k.queue with
  | [] => k
  | (origin, frame) :: queue =>
      { k with
        queue := queue
        received := k.received ++ [(origin, frame)]
        phase := if frame.isTerminal then .closing else .reading }

end Consumer

/-- A dispatch task: `none` in `await` is a task that has ended. -/
structure Task where
  decision : DispatchDecision
  await : Option Await := some .start
  cancelRequested : Bool := false
  began : ℚ := 0
  /-- The calls of `record_completion` it has made. -/
  recorded : List Status := []
  /-- Its done callback has run. -/
  reaped : Bool := false

namespace Task

def requestId (t : Task) : String := t.decision.request.requestId

/-- `task.done()`. -/
def ended (t : Task) : Bool := t.await.isNone

/-- `task.cancel()`. -/
def cancel (t : Task) : Task :=
  if t.ended then t else { t with cancelRequested := true }

end Task

/-- The state of the proxy. -/
structure Proxy where
  world : World
  pendingFutures : Dict String ℕ := ∅
  pendingStreams : Dict String ℕ := ∅
  inflightTasks : Dict String ℕ := ∅
  waiters : Dict ℕ Waiter := ∅
  consumers : Dict ℕ Consumer := ∅
  tasks : Dict ℕ Task := ∅

/-- One turn of the event loop. -/
inductive Event where
  /-- `handle_sync_submit` or `handle_streaming_submit`, up to its first await. -/
  | submit (req : QueuedRequest)
  /-- One iteration of `scheduler_loop`. -/
  | tick (oracles : Oracles) (now : ℚ)
  /-- A step of the task of `ref`. -/
  | task (ref : ℕ) (wake : Wake)
  /-- The done callback of the task of `ref`. -/
  | taskDone (ref : ℕ)
  /-- The waiter resumes with the result of its future. -/
  | deliver (ref : ℕ)
  /-- The `wait_for` of the waiter runs out. -/
  | clientTimeout (ref : ℕ)
  /-- The handler of the waiter is cancelled. -/
  | abandon (ref : ℕ)
  /-- The consumer enters its `try`. -/
  | openStream (ref : ℕ)
  /-- The consumer reads a frame. -/
  | readFrame (ref : ℕ)
  /-- The `wait_for` of the consumer runs out. -/
  | consumerTimeout (ref : ℕ)
  /-- The generator of the consumer ends: a terminal frame was read, or the client
  disconnected. -/
  | leave (ref : ℕ)
  /-- `fast_fail_interactive` releases a queued request. -/
  | fastFail (req : QueuedRequest) (reason : String)

namespace Proxy

def init (cfg : ProxyConfig) (cost : CostModel) (budgets : BudgetManager) : Proxy where
  world := World.init cfg cost budgets

/-! ### Resolving a caller -/

/-- `future = pending_futures.get(req.request_id)`, resolved if it is pending. -/
def setResult (p : Proxy) (req : QueuedRequest) (answer : Answer) : Proxy :=
  { p with
    waiters :=
      match p.pendingFutures.get? req.requestId with
      | none => p.waiters
      | some c => p.waiters.modify c fun w => w.resolve req.ref answer }

/-- Put a frame on the queue object of caller `c`. -/
def putFrame (p : Proxy) (c origin : ℕ) (frame : Frame) : Proxy :=
  { p with consumers := p.consumers.modify c fun k => k.putNowait origin frame }

/-- `stream_q = pending_streams.get(req.request_id)`, with `put_nowait`. -/
def putNowait (p : Proxy) (req : QueuedRequest) (frame : Frame) : Proxy :=
  { p with
    consumers :=
      match p.pendingStreams.get? req.requestId with
      | none => p.consumers
      | some c => (p.putFrame c req.ref frame).consumers }

def resolveError (p : Proxy) (req : QueuedRequest) (failure : Failure) : Proxy :=
  (p.setResult req (.error failure)).putNowait req (.error failure)

def onAdmissionTimeout (p : Proxy) (req : QueuedRequest) : Proxy :=
  (p.setResult req .timeout).putNowait req (.error { message := "timeout" })

/-! ### Submit -/

/-- `handle_streaming_submit` or `handle_sync_submit`, up to the first await. -/
def submit (cfg : ProxyConfig) (p : Proxy) (req : QueuedRequest) : Proxy :=
  let ref := p.world.enqueued.length
  let p :=
    if req.stream then
      { p with
        consumers := p.consumers.set ref { requestId := req.requestId }
        pendingStreams := p.pendingStreams.set req.requestId ref }
    else
      { p with
        waiters := p.waiters.set ref { requestId := req.requestId }
        pendingFutures := p.pendingFutures.set req.requestId ref }
  { p with world := p.world.step cfg (.enqueue req) }

/-! ### The scheduler loop -/

/-- `create_task`, and its entry in `inflight_tasks`. -/
def createTask (p : Proxy) (decision : DispatchDecision) : Proxy :=
  { p with
    tasks := p.tasks.set decision.request.ref { decision := decision }
    inflightTasks := p.inflightTasks.set decision.request.requestId decision.request.ref }

/-- One iteration of `scheduler_loop`.  The scheduler calls `on_timeout` before it
dispatches. -/
def schedulerLoop (cfg : ProxyConfig) (o : Oracles) (p : Proxy) (now : ℚ) : Proxy :=
  let out := Scheduler.tick cfg o p.world.sched now
  let p := { p with world := p.world.step cfg (.tick o now) }
  out.decisions.foldl createTask (out.timeouts.foldl onAdmissionTimeout p)

/-! ### Tasks -/

/-- What `record_completion` reports to the scheduler. -/
def completionRecord (d : DispatchDecision) (status : Status) (duration : ℚ)
    (inputTokens outputTokens : ℤ) : CompletionRecord where
  requestId := d.request.requestId
  durationS := duration
  inputTokens := inputTokens
  outputTokens := outputTokens
  success := decide (status = .ok)
  occupancyDuring := d.occupancyAtDispatch

/-- One effect of the task of `d`. -/
def perform (cfg : ProxyConfig) (d : DispatchDecision) (p : Proxy) : Effect → Proxy
  | .resolveError failure => p.resolveError d.request failure
  | .setResult response => p.setResult d.request (.ok response)
  | .put queue frame => p.putFrame queue d.request.ref frame
  | .recordCompletion status duration inputTokens outputTokens =>
      { p with
        world := p.world.step cfg
          (.complete (completionRecord d status duration inputTokens outputTokens)) }

/-- Whether the queue a task wants to put to has room. -/
def roomFor (p : Proxy) : Await → Bool
  | .put queue _ _ => ((p.consumers.get? queue).map Consumer.hasRoom).getD true
  | _ => true

/-- What the task `t` reads. -/
def ctxOf (cfg : ProxyConfig) (policy : Policy) (t : Task) : DispatchCtx where
  policy := policy
  role := ((cfg.endpoints.get? t.decision.request.endpoint).map (·.role)).getD ""
  decision := t.decision
  began := t.began

/-- What the task `t` does when it is resumed at `a`. -/
def segmentOf (cfg : ProxyConfig) (policy : Policy) (p : Proxy) (t : Task) (a : Await)
    (w : Wake) : Segment :=
  if t.cancelRequested then (ctxOf cfg policy t).cancelled a w.now
  else (ctxOf cfg policy t).resume cfg (p.pendingStreams.get? t.requestId) (p.roomFor a) a w

/-- The task after the segment `s`. -/
def advance (t : Task) (a : Await) (s : Segment) (now : ℚ) : Task :=
  { t with
    await := s.next
    began := if a = .start then now else t.began
    recorded := t.recorded ++ s.effects.filterMap Effect.status? }

/-- A step of the task of `ref`. -/
def runTask (cfg : ProxyConfig) (policy : Policy) (p : Proxy) (ref : ℕ) (w : Wake) : Proxy :=
  match p.tasks.get? ref with
  | none => p
  | some t =>
      match t.await with
      | none => p
      | some a =>
          let s := segmentOf cfg policy p t a w
          let p := s.effects.foldl (perform cfg t.decision) p
          { p with tasks := p.tasks.set ref (advance t a s w.now) }

/-- The done callback. -/
def taskDone (p : Proxy) (ref : ℕ) : Proxy :=
  match p.tasks.get? ref with
  | none => p
  | some t =>
      if t.ended && !t.reaped then
        { p with
          tasks := p.tasks.set ref { t with reaped := true }
          inflightTasks := p.inflightTasks.erase t.requestId }
      else p

/-! ### Waiters -/

/-- A waiter stops, and its `finally` pops `pending_futures`. -/
def stopWaiting (p : Proxy) (ref : ℕ) (requestId : String) (f : Waiter → Waiter) : Proxy :=
  { p with
    waiters := p.waiters.modify ref f
    pendingFutures := p.pendingFutures.erase requestId }

def deliver (p : Proxy) (ref : ℕ) : Proxy :=
  match p.waiters.get? ref with
  | none => p
  | some w =>
      match w.waiting, w.future with
      | true, .resolved origin answer =>
          p.stopWaiting ref w.requestId fun w =>
            { w with waiting := false, received := w.received ++ [(origin, answer)] }
      | _, _ => p

def clientTimeout (cfg : ProxyConfig) (p : Proxy) (ref : ℕ) : Proxy :=
  match p.waiters.get? ref with
  | none => p
  | some w =>
      if w.waiting then
        ({ p with world := p.world.step cfg (.cancel w.requestId) }).stopWaiting ref w.requestId
          Waiter.stop
      else p

def abandon (p : Proxy) (ref : ℕ) : Proxy :=
  match p.waiters.get? ref with
  | none => p
  | some w => if w.waiting then p.stopWaiting ref w.requestId Waiter.stop else p

/-! ### Consumers -/

/-- The `finally` of the generator. -/
def closeStream (p : Proxy) (ref : ℕ) (requestId : String) : Proxy :=
  { p with
    consumers := p.consumers.modify ref fun k => { k with phase := .gone }
    pendingStreams := p.pendingStreams.erase requestId
    tasks :=
      match p.inflightTasks.get? requestId with
      | none => p.tasks
      | some producer => p.tasks.modify producer Task.cancel }

def openStream (p : Proxy) (ref : ℕ) : Proxy :=
  { p with
    consumers := p.consumers.modify ref fun k =>
      match k.phase with
      | .opening => { k with phase := .reading }
      | _ => k }

def readFrame (p : Proxy) (ref : ℕ) : Proxy :=
  { p with
    consumers := p.consumers.modify ref fun k =>
      match k.phase with
      | .reading => k.read
      | _ => k }

/-- `except asyncio.TimeoutError` of the generator, then its `finally`. -/
def consumerTimeout (p : Proxy) (ref : ℕ) : Proxy :=
  match p.consumers.get? ref with
  | none => p
  | some k =>
      match k.phase with
      | .reading =>
          ({ p with
            consumers := p.consumers.modify ref fun k =>
              { k with
                received := k.received ++ [(ref, Frame.error { message := "timeout" })] } }).closeStream
            ref k.requestId
      | _ => p

def leave (p : Proxy) (ref : ℕ) : Proxy :=
  match p.consumers.get? ref with
  | none => p
  | some k =>
      match k.phase with
      | .opening => { p with consumers := p.consumers.modify ref fun k => { k with phase := .gone } }
      | .reading => p.closeStream ref k.requestId
      | .closing => p.closeStream ref k.requestId
      | .gone => p

/-! ### The circuit breaker -/

/-- `fast_fail_interactive`, for one of the requests it finds queued. -/
def fastFail (cfg : ProxyConfig) (p : Proxy) (req : QueuedRequest) (reason : String) : Proxy :=
  let endpoint := req.endpoint
  if req ∈ p.world.sched.queued ∧ req.band ≠ .background then
    ({ p with world := p.world.step cfg (.cancel req.requestId) }).resolveError req
      { message := s!"backend {endpoint} unavailable ({reason})" }
  else p

/-! ### Runs -/

def step (cfg : ProxyConfig) (policy : Policy) (p : Proxy) : Event → Proxy
  | .submit req => p.submit cfg req
  | .tick o now => p.schedulerLoop cfg o now
  | .task ref w => p.runTask cfg policy ref w
  | .taskDone ref => p.taskDone ref
  | .deliver ref => p.deliver ref
  | .clientTimeout ref => p.clientTimeout cfg ref
  | .abandon ref => p.abandon ref
  | .openStream ref => p.openStream ref
  | .readFrame ref => p.readFrame ref
  | .consumerTimeout ref => p.consumerTimeout ref
  | .leave ref => p.leave ref
  | .fastFail req reason => p.fastFail cfg req reason

def run (cfg : ProxyConfig) (policy : Policy) (p : Proxy) (events : List Event) : Proxy :=
  Runs.run (step cfg policy) p events

end Proxy

end Roadstead
