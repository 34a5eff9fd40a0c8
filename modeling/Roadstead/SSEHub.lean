import Roadstead.Lib.Dict
import Roadstead.Lib.Run

/-!
# The stream of events

`SSEHub` fans every event out to the handlers of `GET /v1/stream`, each of which has a bounded queue
of its own.  `publish` never waits: where a queue is full, its oldest item makes room for a sentinel,
and the event is not put.  A handler that takes the sentinel off its queue ends its response.

The handlers take turns in any order.  What the hub does to one of them does not depend on the others,
so that the course of a handler is a run of its own (`get?_after`).
-/

namespace Roadstead

namespace SSEHub

/-- An event as it is queued: its name, and its data in print. -/
structure Payload where
  event : String
  data : String
  deriving DecidableEq

/-- `DROP_SENTINEL`. -/
def dropSentinel : Payload := ⟨"__drop__", ""⟩

/-- `json.dumps` on the data of an event: `none` where it raises, and no print is empty. -/
structure Serializer (δ : Type) where
  dumps : δ → Option String
  nonempty : ∀ data text, dumps data = some text → text ≠ ""

/-! ### Queues -/

section Queue

variable (maxsize : ℕ)

/-- Whether `put_nowait` raises `QueueFull`: a bound of 0 is none. -/
def isFull (queue : List Payload) : Bool := decide (0 < maxsize ∧ maxsize ≤ queue.length)

/-- The oldest item makes room for the sentinel. -/
def drop (queue : List Payload) : List Payload :=
  let rest := queue.tail
  if isFull maxsize rest then rest else rest ++ [dropSentinel]

/-- What `publish` does to one queue.  The source puts the payload into the queues that have room
first, and goes over the others afterwards; no queue is met by both loops. -/
def offer (payload : Payload) (queue : List Payload) : List Payload :=
  if isFull maxsize queue then drop maxsize queue else queue ++ [payload]

end Queue

/-! ### Handlers -/

/-- One call of `handle_stream`: its queue, what it has sent, and whether it is subscribed. -/
structure Handler where
  queue : List Payload := []
  sent : List Payload := []
  connected : Bool := true
  deriving DecidableEq

namespace Handler

/-- A turn of `event_gen`.  An empty queue is a keepalive, which is a comment in the stream. -/
def turn (h : Handler) : Handler :=
  match h.connected, h.queue with
  | true, payload :: rest =>
      if payload = dropSentinel then { h with queue := rest, connected := false }
      else { h with queue := rest, sent := h.sent ++ [payload] }
  | _, _ => h

/-- What the hub does to the queue of a handler that is subscribed. -/
def onQueue (f : List Payload → List Payload) (h : Handler) : Handler :=
  if h.connected then { h with queue := f h.queue } else h

end Handler

/-! ### The hub -/

/-- The hub and the handlers of its life, each under the number of its queue. -/
structure State where
  maxsize : ℕ
  handlers : Dict ℕ Handler := ∅
  /-- How many queues were made. -/
  made : ℕ := 0

inductive Event (δ : Type) where
  /-- A client connects: `subscribe`. -/
  | connect
  | publish (event : String) (data : δ)
  | turn (id : ℕ)
  /-- A client goes away: `unsubscribe`. -/
  | disconnect (id : ℕ)
  | closeAll

variable {δ : Type} (serializer : Serializer δ)

namespace State

/-- How many handlers are subscribed. -/
def clientCount (s : State) : ℕ := (s.handlers.filter fun _ h => h.connected).size

def subscribe (s : State) : State :=
  { s with handlers := s.handlers.set s.made {}, made := s.made + 1 }

def publish (s : State) (event : String) (data : δ) : State :=
  if s.clientCount = 0 then s
  else
    match serializer.dumps data with
    | none => s
    | some text =>
        { s with handlers := s.handlers.map fun _ => .onQueue (offer s.maxsize ⟨event, text⟩) }

def closeAll (s : State) : State :=
  { s with handlers := s.handlers.map fun _ => .onQueue (drop s.maxsize) }

def step (s : State) : Event δ → State
  | .connect => s.subscribe
  | .publish event data => s.publish serializer event data
  | .turn id => { s with handlers := s.handlers.modify id Handler.turn }
  | .disconnect id =>
      { s with handlers := s.handlers.modify id fun h => { h with connected := false } }
  | .closeAll => s.closeAll

end State

/-- The hub after a list of events. -/
def after (maxsize : ℕ) (events : List (Event δ)) : State :=
  Runs.run (State.step serializer) { maxsize } events

/-- The payloads of the events that are published. -/
def published (events : List (Event δ)) : List Payload :=
  events.filterMap fun
    | .publish event data => (serializer.dumps data).map (Payload.mk event)
    | _ => none

/-! ### One handler at a time -/

/-- What an event does to the handler `id`. -/
def Handler.step (maxsize id : ℕ) (h : Handler) : Event δ → Handler
  | .connect => h
  | .publish event data =>
      match serializer.dumps data with
      | none => h
      | some text => h.onQueue (offer maxsize ⟨event, text⟩)
  | .turn i => if i = id then h.turn else h
  | .disconnect i => if i = id then { h with connected := false } else h
  | .closeAll => h.onQueue (drop maxsize)

variable {maxsize : ℕ}

@[simp] theorem maxsize_step (s : State) (e : Event δ) :
    (s.step serializer e).maxsize = s.maxsize := by
  cases e with
  | publish event data =>
      rw [State.step, State.publish]
      split
      · rfl
      · split <;> rfl
  | _ => rfl

theorem le_made_step (s : State) (e : Event δ) : s.made ≤ (s.step serializer e).made := by
  cases e with
  | connect => exact Nat.le_succ s.made
  | publish event data =>
      rw [State.step, State.publish]
      split
      · exact le_rfl
      · split <;> exact le_rfl
  | _ => exact le_rfl

/-- Without a subscriber there is nobody to publish to. -/
theorem connected_eq_false {s : State} (none : s.clientCount = 0) {id : ℕ} {h : Handler}
    (found : s.handlers.get? id = some h) : h.connected = false := by
  rw [State.clientCount, Dict.size, List.length_eq_zero_iff, Dict.entries_filter,
    List.filter_eq_nil_iff] at none
  exact Bool.eq_false_iff.mpr (none (id, h) (Dict.mem_entries_iff.mpr found))

theorem get?_step {s : State} {id : ℕ} {h : Handler} (found : s.handlers.get? id = some h)
    (old : id < s.made) (e : Event δ) :
    (s.step serializer e).handlers.get? id = some (h.step serializer s.maxsize id e) := by
  cases e with
  | connect => rw [State.step, State.subscribe, Dict.get?_set_of_ne _ old.ne, found, Handler.step]
  | publish event data =>
      rw [State.step, State.publish, Handler.step]
      by_cases none : s.clientCount = 0
      · rw [if_pos none, found]
        cases serializer.dumps data with
        | none => rfl
        | some text =>
            show some h = some (h.onQueue _)
            rw [Handler.onQueue, connected_eq_false none found, if_neg Bool.false_ne_true]
      · rw [if_neg none]
        cases serializer.dumps data with
        | none => exact found
        | some text => rw [Dict.get?_map, found, Option.map_some]
  | turn i | disconnect i =>
      rw [State.step, Dict.get?_modify, found, Option.map_some, Handler.step]
      simp only [eq_comm]
  | closeAll => rw [State.step, State.closeAll, Dict.get?_map, found, Option.map_some, Handler.step]

/-- The course of a handler is a run of its own. -/
theorem get?_run {s : State} {id : ℕ} {h : Handler} (found : s.handlers.get? id = some h)
    (old : id < s.made) (events : List (Event δ)) :
    (Runs.run (State.step serializer) s events).handlers.get? id =
      some (Runs.run (Handler.step serializer s.maxsize id) h events) := by
  induction events generalizing s h with
  | nil => exact found
  | cons e events ih =>
      rw [Runs.run_cons, Runs.run_cons, ih (get?_step serializer found old e)
        (old.trans_le (le_made_step serializer s e)), maxsize_step]

theorem maxsize_after (events : List (Event δ)) :
    (after serializer maxsize events).maxsize = maxsize :=
  Runs.run_forall (fun s => s.maxsize = maxsize)
    (fun s e same => (maxsize_step serializer s e).trans same) rfl events

/-- The handler of a client that connects after some events, and after some more. -/
theorem get?_after (before events : List (Event δ)) :
    (after serializer maxsize (before ++ .connect :: events)).handlers.get?
        (after serializer maxsize before).made =
      some (Runs.run (Handler.step serializer maxsize (after serializer maxsize before).made) {}
        events) := by
  rw [after, Runs.run_append, Runs.run_cons]
  generalize same : Runs.run (State.step serializer) { maxsize } before = s
  have bound : s.maxsize = maxsize := same ▸ maxsize_after serializer before
  have made : (after serializer maxsize before).made = s.made := by rw [after, same]
  rw [made, ← bound]
  exact get?_run serializer (s := s.subscribe) (Dict.get?_set_self _ _ _) (Nat.lt_succ_self s.made)
    events

end SSEHub

end Roadstead
