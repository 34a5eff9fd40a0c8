import Mathlib.Data.List.Perm.Subperm
import Roadstead.Store.Recovery

/-!
# The writer thread

The event loop does not write to the database itself: `_w` puts a statement into a bounded queue, and
a thread of its own takes one at a time and executes it (`_writer_loop`).  Before the thread is
started, and when it has died and no other can be spawned, a statement is executed at once.

The loop and the thread take steps in any order.  `accounted` says what a run leaves in the database,
whatever the order: each submitted statement is executed once, or waits, or was refused by a full
queue, or was in the hands of a thread that died or found the connection closed.  They are executed
in the order of their submission unless one is executed at once while others wait (`Quiet`).

A process that loses none can be killed at any moment: the table it leaves is that of a history, the
statements it submitted up to those that wait (`killed`).
-/

namespace Roadstead

/-- An item of the queue: a statement, or the order to end. -/
inductive WriteItem (S : Type) where
  | statement (s : S)
  | stop
  deriving DecidableEq

/-- The statement of an item. -/
def WriteItem.statement? {S : Type} : WriteItem S → Option S
  | statement s => some s
  | stop => none

/-- The thread of `_writer_loop`. -/
inductive WriterThread (S : Type) where
  /-- There was none. -/
  | unborn
  | waiting
  | working (item : WriteItem S)
  | dead

/-- The database and what `PersistentQueue` has to write to it. -/
structure Writer (S D : Type) where
  db : D
  /-- Whether there is a connection. -/
  isOpen : Bool := true
  thread : WriterThread S := .unborn
  startedOnce : Bool := false
  queue : List (WriteItem S) := []
  dropped : ℕ := 0
  restarts : ℕ := 0

/-- What the loop and the thread do. -/
inductive WriterEvent (S : Type) where
  /-- `start_async_writer`, and whether the thread could be spawned. -/
  | start (spawned : Bool)
  /-- `_w`, and whether a thread could be spawned if it had to be. -/
  | write (s : S) (spawned : Bool)
  /-- `_submit_writer_call`. -/
  | call (s : S)
  /-- The thread takes an item. -/
  | take
  /-- The thread has executed what it took. -/
  | finish
  /-- The thread dies, and whether what it took took effect. -/
  | die (took : Bool)
  /-- `close` asks the thread to end. -/
  | askStop
  /-- `close` closes the connection. -/
  | close

namespace Writer

variable {S D : Type}

/-! ### The steps -/

/-- Whether there is a thread that runs. -/
def isAlive (w : Writer S D) : Bool :=
  match w.thread with
  | .waiting => true
  | .working _ => true
  | _ => false

def isFull (maxsize : ℕ) (w : Writer S D) : Bool :=
  decide (0 < maxsize ∧ maxsize ≤ w.queue.length)

/-- `put_nowait`; a full queue refuses the statement, and the refusal is counted. -/
def put (maxsize : ℕ) (w : Writer S D) (s : S) : Writer S D :=
  if w.isFull maxsize then { w with dropped := w.dropped + 1 }
  else { w with queue := w.queue ++ [.statement s] }

variable (execute : D → S → D) (maxsize : ℕ)

/-- Execute a statement; one that raises leaves the database as it was. -/
def runNow (w : Writer S D) (s : S) : Writer S D := { w with db := execute w.db s }

/-- The thread executes a statement, in vain if the connection is closed. -/
def runLate (w : Writer S D) (s : S) : Writer S D := if w.isOpen then w.runNow execute s else w

def startAsyncWriter (w : Writer S D) (spawned : Bool) : Writer S D :=
  match w.isOpen, w.thread with
  | true, .unborn =>
      { w with thread := if spawned then .waiting else .dead, startedOnce := true, queue := [] }
  | _, _ => w

/-- `_spawn_writer_thread`, for a thread that died. -/
def respawn (w : Writer S D) (spawned : Bool) : Writer S D :=
  { w with thread := if spawned then .waiting else .dead, restarts := w.restarts + 1 }

/-- `_w`. -/
def write (w : Writer S D) (s : S) (spawned : Bool) : Writer S D :=
  if !w.isOpen then w
  else if w.isAlive then w.put maxsize s
  else if !w.startedOnce then w.runNow execute s
  else if (w.respawn spawned).isAlive then (w.respawn spawned).put maxsize s
  else (w.respawn spawned).runNow execute s

/-- `_submit_writer_call`. -/
def submitWriterCall (w : Writer S D) (s : S) : Writer S D :=
  if !w.isOpen then w
  else if w.isAlive then w.put maxsize s
  else w.runNow execute s

def take (w : Writer S D) : Writer S D :=
  match w.thread, w.queue with
  | .waiting, item :: rest => { w with thread := .working item, queue := rest }
  | _, _ => w

def finish (w : Writer S D) : Writer S D :=
  match w.thread with
  | .working (.statement s) => { w.runLate execute s with thread := .waiting }
  | .working .stop => { w with thread := .dead }
  | _ => w

def die (w : Writer S D) (took : Bool) : Writer S D :=
  match w.thread with
  | .working (.statement s) =>
      { (if took then w.runLate execute s else w) with thread := .dead }
  | .unborn => w
  | _ => { w with thread := .dead }

def askStop (w : Writer S D) : Writer S D :=
  if w.isAlive && !w.isFull maxsize then { w with queue := w.queue ++ [.stop] } else w

def step (w : Writer S D) : WriterEvent S → Writer S D
  | .start spawned => w.startAsyncWriter spawned
  | .write s spawned => w.write execute maxsize s spawned
  | .call s => w.submitWriterCall execute maxsize s
  | .take => w.take
  | .finish => w.finish execute
  | .die took => w.die execute took
  | .askStop => w.askStop maxsize
  | .close => { w with isOpen := false }

/-! ### What becomes of a statement -/

/-- What the thread has in its hands. -/
def inHand (w : Writer S D) : List S :=
  match w.thread with
  | .working (.statement s) => [s]
  | _ => []

/-- The statements that wait to be executed. -/
def pending (w : Writer S D) : List S := w.inHand ++ w.queue.filterMap WriteItem.statement?

/-- The statement that an event submits; without a connection nothing is. -/
def submits (w : Writer S D) : WriterEvent S → List S
  | .write s _ => if w.isOpen then [s] else []
  | .call s => if w.isOpen then [s] else []
  | _ => []

/-- The statement that an event takes out of the hands of the thread without effect. -/
def loses (w : Writer S D) : WriterEvent S → List S
  | .finish => if w.isOpen then [] else w.inHand
  | .die took => if took && w.isOpen then [] else w.inHand
  | _ => []

/-- Nothing is executed at once while other statements wait. -/
def Quiet (w : Writer S D) : WriterEvent S → Prop
  | .write _ spawned => w.isOpen = true → w.isAlive = false → spawned = false → w.pending = []
  | .call _ => w.isOpen = true → w.isAlive = false → w.pending = []
  | _ => True

/-- How a writer stands that started on `db₀`: `submitted` is what was submitted since, `lost` how many
statements were lost, and `applied` what was executed. -/
structure Accounted (inOrder : Prop) (db₀ : D) (submitted : List S) (lost : ℕ) (w : Writer S D)
    (applied : List S) : Prop where
  db : w.db = applied.foldl execute db₀
  once : (applied ++ w.pending).Subperm submitted
  order : inOrder → (applied ++ w.pending).Sublist submitted
  length : submitted.length = applied.length + w.pending.length + w.dropped + lost
  unborn : w.startedOnce = false → w.thread = .unborn
  empty : w.thread = .unborn → w.queue = []


section Steps

variable {execute maxsize} {inOrder : Prop} {db₀ : D} {submitted applied : List S} {lost : ℕ}
  {w : Writer S D}

theorem pending_of_not_alive (dead : w.isAlive = false) :
    w.pending = w.queue.filterMap WriteItem.statement? := by
  rw [pending, inHand]
  rw [isAlive] at dead
  split
  · next holds => simp [holds] at dead
  · exact List.nil_append _

namespace Accounted

/-- A statement that is put into the queue waits behind the others, or is refused. -/
theorem put (h : Accounted execute inOrder db₀ submitted lost w applied) (s : S)
    (born : w.thread ≠ .unborn) :
    Accounted execute inOrder db₀ (submitted ++ [s]) lost (w.put maxsize s) applied := by
  rw [Writer.put]
  split
  · refine ⟨h.db, ?_, fun given => ?_, ?_, h.unborn, h.empty⟩
    · exact h.once.trans (List.sublist_append_left _ _).subperm
    · exact (h.order given).trans (List.sublist_append_left _ _)
    · show (submitted ++ [s]).length = applied.length + w.pending.length + (w.dropped + 1) + lost
      rw [List.length_append, h.length, List.length_singleton]
      omega
  · have behind : ({ w with queue := w.queue ++ [.statement s] } : Writer S D).pending =
        w.pending ++ [s] := by
      show w.inHand ++ (w.queue ++ [WriteItem.statement s]).filterMap WriteItem.statement? = _
      rw [List.filterMap_append, ← List.append_assoc]
      rfl
    refine ⟨h.db, ?_, fun given => ?_, ?_, h.unborn, fun unborn => absurd unborn born⟩
    · rw [behind, ← List.append_assoc]
      exact (List.subperm_append_right [s]).mpr h.once
    · rw [behind, ← List.append_assoc]
      exact (h.order given).append (List.Sublist.refl _)
    · rw [behind]
      show (submitted ++ [s]).length =
        applied.length + (w.pending ++ [s]).length + w.dropped + lost
      rw [List.length_append, List.length_append, h.length]
      omega

/-- A statement that is executed at once overtakes those that wait. -/
theorem runNow (h : Accounted execute inOrder db₀ submitted lost w applied) (s : S)
    (quiet : inOrder → w.pending = []) :
    Accounted execute inOrder db₀ (submitted ++ [s]) lost (w.runNow execute s)
      (applied ++ [s]) := by
  refine ⟨?_, ?_, fun given => ?_, ?_, h.unborn, h.empty⟩
  · show execute w.db s = _
    rw [List.foldl_append, ← h.db, List.foldl_cons, List.foldl_nil]
  · show (applied ++ [s] ++ w.pending).Subperm (submitted ++ [s])
    have swap : (applied ++ [s] ++ w.pending).Perm (applied ++ w.pending ++ [s]) := by
      rw [List.append_assoc, List.append_assoc]
      exact List.Perm.append_left _ List.perm_append_comm
    exact swap.subperm.trans ((List.subperm_append_right [s]).mpr h.once)
  · show (applied ++ [s] ++ w.pending).Sublist (submitted ++ [s])
    have order := h.order given
    rw [quiet given, List.append_nil] at order ⊢
    exact order.append (List.Sublist.refl _)
  · show (submitted ++ [s]).length = (applied ++ [s]).length + w.pending.length + w.dropped + lost
    rw [List.length_append, List.length_append, h.length]
    omega

/-- What the thread has in its hands is executed, or lost. -/
theorem settle (h : Accounted execute inOrder db₀ submitted lost w applied) {s : S}
    (holds : w.thread = .working (.statement s)) (took : Bool) {thread : WriterThread S}
    (idle : thread = .waiting ∨ thread = .dead) :
    ∃ applied', Accounted execute inOrder db₀ submitted (lost + if took then 0 else 1)
      { (if took then w.runNow execute s else w) with thread } applied' := by
  have before : w.pending = s :: w.queue.filterMap WriteItem.statement? := by
    rw [pending, inHand, holds]
    rfl
  have once := h.once
  have order := h.order
  have length := h.length
  rw [before] at once order length
  have started : w.startedOnce ≠ false := by
    intro fresh
    have unborn := h.unborn fresh
    rw [holds] at unborn
    cases unborn
  have born : thread ≠ .unborn := by
    rintro rfl
    rcases idle with same | same
    · cases same
    · cases same
  have empty (q : List (WriteItem S)) (db : D) :
      ({ w with thread, queue := q, db } : Writer S D).pending =
        q.filterMap WriteItem.statement? := by
    rcases idle with rfl | rfl
    · rfl
    · rfl
  cases took with
  | true =>
      refine ⟨applied ++ [s], ?_, ?_, fun given => ?_, ?_, fun fresh => absurd fresh started,
        fun unborn => absurd unborn born⟩
      · show execute w.db s = _
        rw [List.foldl_append, ← h.db, List.foldl_cons, List.foldl_nil]
      · show (applied ++ [s] ++ ({ w with thread, db := _ } : Writer S D).pending).Subperm _
        rw [empty w.queue, List.append_assoc]
        exact once
      · show (applied ++ [s] ++ ({ w with thread, db := _ } : Writer S D).pending).Sublist _
        rw [empty w.queue, List.append_assoc]
        exact order given
      · show submitted.length = (applied ++ [s]).length +
          ({ w with thread, db := _ } : Writer S D).pending.length + w.dropped + (lost + 0)
        rw [empty w.queue, length, List.length_append, List.length_cons, List.length_singleton]
        omega
  | false =>
      have fewer : (applied ++ w.queue.filterMap WriteItem.statement?).Sublist
          (applied ++ s :: w.queue.filterMap WriteItem.statement?) :=
        (List.sublist_cons_self _ _).append_left _
      refine ⟨applied, h.db, ?_, fun given => ?_, ?_, fun fresh => absurd fresh started,
        fun unborn => absurd unborn born⟩
      · show (applied ++ ({ w with thread } : Writer S D).pending).Subperm _
        rw [empty w.queue w.db]
        exact fewer.subperm.trans once
      · show (applied ++ ({ w with thread } : Writer S D).pending).Sublist _
        rw [empty w.queue w.db]
        exact fewer.trans (order given)
      · show submitted.length = applied.length + ({ w with thread } : Writer S D).pending.length +
          w.dropped + (lost + 1)
        rw [empty w.queue w.db, length, List.length_cons]
        omega

/-- A step that executes, queues and takes nothing. -/
theorem of_same (h : Accounted execute inOrder db₀ submitted lost w applied) {w' : Writer S D}
    (db : w'.db = w.db) (pending : w'.pending = w.pending) (dropped : w'.dropped = w.dropped)
    (unborn : w'.startedOnce = false → w'.thread = .unborn)
    (empty : w'.thread = .unborn → w'.queue = []) :
    Accounted execute inOrder db₀ submitted lost w' applied where
  db := db.trans h.db
  once := pending ▸ h.once
  order given := pending ▸ h.order given
  length := by rw [pending, dropped, h.length]
  unborn := unborn
  empty := empty

theorem start (h : Accounted execute inOrder db₀ submitted lost w applied) (spawned : Bool) :
    Accounted execute inOrder db₀ submitted lost (w.startAsyncWriter spawned) applied := by
  rw [startAsyncWriter]
  split
  · next unborn =>
    have none : w.pending = [] := by
      rw [pending, inHand, unborn, h.empty unborn]
      rfl
    refine h.of_same rfl (Eq.trans ?_ none.symm) rfl (fun fresh => by cases fresh) fun _ => rfl
    cases spawned
    · rfl
    · rfl
  · exact h

/-- A statement without a thread that runs: before there was one, or after it died. -/
theorem write_of_not_alive (h : Accounted execute inOrder db₀ submitted lost w applied) (s : S)
    (spawned : Bool) (opened : w.isOpen = true) (still : w.isAlive = false)
    (quiet : inOrder → w.Quiet (.write s spawned)) :
    Accounted execute inOrder db₀ (submitted ++ [s]) lost (w.write execute maxsize s spawned)
      applied ∨
    Accounted execute inOrder db₀ (submitted ++ [s]) lost (w.write execute maxsize s spawned)
      (applied ++ [s]) := by
  have waits := pending_of_not_alive still
  rw [Writer.write, opened, still]
  by_cases started : w.startedOnce = true
  · have respawned : Accounted execute inOrder db₀ submitted lost (w.respawn spawned) applied := by
      refine h.of_same rfl ?_ rfl (fun fresh => ?_) fun unborn => ?_
      · rw [waits]
        cases spawned
        · rfl
        · rfl
      · exact absurd (fresh.symm.trans started) Bool.false_ne_true
      · cases spawned
        · cases unborn
        · cases unborn
    rw [started]
    cases spawned with
    | true =>
        refine .inl (respawned.put s ?_)
        intro unborn
        cases unborn
    | false =>
        refine .inr (respawned.runNow s fun given => ?_)
        exact waits.symm.trans (quiet given opened still rfl)
  · rw [Bool.not_eq_true] at started
    rw [started]
    refine .inr (h.runNow s fun _ => ?_)
    rw [waits, h.empty (h.unborn started)]
    rfl

theorem born_of_alive (alive : w.isAlive = true) : w.thread ≠ .unborn := by
  intro unborn
  rw [isAlive, unborn] at alive
  cases alive

theorem of_start : Accounted execute inOrder db₀ [] 0 { db := db₀ } [] where
  db := rfl
  once := List.Subperm.refl []
  order _ := List.Sublist.refl []
  length := rfl
  unborn _ := rfl
  empty _ := rfl

theorem take (h : Accounted execute inOrder db₀ submitted lost w applied) :
    Accounted execute inOrder db₀ submitted lost w.take applied := by
  rw [Writer.take]
  split
  · next item rest waiting waits =>
    have same : ({ w with thread := .working item, queue := rest } : Writer S D).pending =
        w.pending := by
      rw [pending, pending, inHand, inHand, waiting, waits]
      cases item with
      | statement s | stop => rfl
    refine h.of_same rfl same rfl (fun fresh => ?_) fun unborn => ?_
    · have unborn := h.unborn fresh
      rw [waiting] at unborn
      cases unborn
    · cases unborn
  · exact h

theorem askStop (h : Accounted execute inOrder db₀ submitted lost w applied) :
    Accounted execute inOrder db₀ submitted lost (w.askStop maxsize) applied := by
  rw [Writer.askStop]
  split
  · next room =>
    rw [Bool.and_eq_true] at room
    refine h.of_same rfl ?_ rfl h.unborn fun unborn => absurd unborn (born_of_alive room.1)
    show w.inHand ++ (w.queue ++ [WriteItem.stop]).filterMap WriteItem.statement? = w.pending
    rw [List.filterMap_append]
    show w.inHand ++ (w.queue.filterMap WriteItem.statement? ++ []) = w.pending
    rw [List.append_nil]
    rfl
  · exact h

/-- A thread that has no statement in its hands dies, or was dead. -/
theorem dead (h : Accounted execute inOrder db₀ submitted lost w applied) (none : w.inHand = [])
    (born : w.thread ≠ .unborn) :
    Accounted execute inOrder db₀ submitted lost { w with thread := .dead } applied := by
  refine h.of_same rfl ?_ rfl (fun fresh => absurd (h.unborn fresh) born) fun unborn => ?_
  · rw [pending, pending, none]
    rfl
  · cases unborn

theorem finish (h : Accounted execute inOrder db₀ submitted lost w applied) :
    ∃ applied', Accounted execute inOrder db₀ submitted (lost + (w.loses .finish).length)
      (w.finish execute) applied' := by
  cases thread : w.thread with
  | working item =>
      cases item with
      | statement s =>
          obtain ⟨applied', settled⟩ := h.settle thread w.isOpen (.inl rfl)
          refine ⟨applied', ?_⟩
          simp only [Writer.finish, loses, inHand, thread, runLate]
          cases opened : w.isOpen
          · simpa [opened] using settled
          · simpa [opened] using settled
      | stop =>
          refine ⟨applied, ?_⟩
          have kept := h.dead (by rw [inHand, thread]) (by rw [thread]; intro same; cases same)
          simpa [Writer.finish, loses, inHand, thread] using kept
  | _ => exact ⟨applied, by simpa [Writer.finish, loses, inHand, thread] using h⟩

theorem die (h : Accounted execute inOrder db₀ submitted lost w applied) (took : Bool) :
    ∃ applied', Accounted execute inOrder db₀ submitted (lost + (w.loses (.die took)).length)
      (w.die execute took) applied' := by
  cases thread : w.thread with
  | working item =>
      cases item with
      | statement s =>
          obtain ⟨applied', settled⟩ := h.settle thread (took && w.isOpen) (.inr rfl)
          refine ⟨applied', ?_⟩
          simp only [Writer.die, loses, inHand, thread, runLate]
          cases took
          · simpa using settled
          · cases opened : w.isOpen
            · simpa [opened] using settled
            · simpa [opened] using settled
      | stop =>
          refine ⟨applied, ?_⟩
          have kept := h.dead (by rw [inHand, thread]) (by rw [thread]; intro same; cases same)
          simpa [Writer.die, loses, inHand, thread] using kept
  | unborn => exact ⟨applied, by simpa [Writer.die, loses, inHand, thread] using h⟩
  | _ =>
      refine ⟨applied, ?_⟩
      have kept := h.dead (by rw [inHand, thread]) (by rw [thread]; intro same; cases same)
      simpa [Writer.die, loses, inHand, thread] using kept

variable (maxsize) in
/-- What becomes of the statements when the loop or the thread takes a step. -/
theorem step (h : Accounted execute inOrder db₀ submitted lost w applied) (e : WriterEvent S)
    (quiet : inOrder → w.Quiet e) :
    ∃ applied', Accounted execute inOrder db₀ (submitted ++ w.submits e)
      (lost + (w.loses e).length) (w.step execute maxsize e) applied' := by
  have nothing {lost : ℕ} {w' : Writer S D} {applied' : List S}
      (h : Accounted execute inOrder db₀ submitted lost w' applied') :
      Accounted execute inOrder db₀ (submitted ++ []) lost w' applied' := by
    rwa [List.append_nil]
  cases e with
  | start spawned => exact ⟨applied, nothing (h.start spawned)⟩
  | write s spawned =>
      rw [Writer.step, submits]
      cases opened : w.isOpen with
      | false =>
          refine ⟨applied, ?_⟩
          rw [Writer.write, opened]
          exact nothing h
      | true =>
          cases alive : w.isAlive with
          | true =>
              refine ⟨applied, ?_⟩
              rw [Writer.write, opened, alive]
              exact h.put s (born_of_alive alive)
          | false =>
              rcases h.write_of_not_alive s spawned opened alive quiet with done | done
              · exact ⟨_, done⟩
              · exact ⟨_, done⟩
  | call s =>
      rw [Writer.step, submits]
      cases opened : w.isOpen with
      | false =>
          refine ⟨applied, ?_⟩
          rw [submitWriterCall, opened]
          exact nothing h
      | true =>
          rw [submitWriterCall, opened]
          cases alive : w.isAlive with
          | true => exact ⟨applied, h.put s (born_of_alive alive)⟩
          | false => exact ⟨_, h.runNow s fun given => quiet given opened alive⟩
  | take => exact ⟨applied, nothing h.take⟩
  | finish =>
      obtain ⟨applied', done⟩ := h.finish
      exact ⟨applied', nothing done⟩
  | die took =>
      obtain ⟨applied', done⟩ := h.die took
      exact ⟨applied', nothing done⟩
  | askStop => exact ⟨applied, nothing h.askStop⟩
  | close => exact ⟨applied, nothing (h.of_same rfl rfl rfl h.unborn h.empty)⟩

theorem run (h : Accounted execute inOrder db₀ submitted lost w applied)
    (events : List (WriterEvent S))
    (quiet : inOrder → Runs.Along (Writer.step execute maxsize) Quiet w events) :
    ∃ applied', Accounted execute inOrder db₀
      (submitted ++ Runs.emitted (Writer.step execute maxsize) submits w events)
      (lost + (Runs.emitted (Writer.step execute maxsize) loses w events).length)
      (Runs.run (Writer.step execute maxsize) w events) applied' := by
  induction events generalizing w submitted lost applied with
  | nil => exact ⟨applied, by rwa [Runs.emitted, List.append_nil]⟩
  | cons e events ih =>
      obtain ⟨applied', done⟩ := h.step maxsize e fun given => (quiet given).1
      obtain ⟨applied'', rest⟩ := ih done fun given => (quiet given).2
      refine ⟨applied'', ?_⟩
      rw [Runs.emitted, Runs.emitted, ← List.append_assoc, List.length_append, ← Nat.add_assoc,
        Runs.run_cons]
      exact rest

end Accounted

end Steps

/-! ### Runs -/

section Runs

variable (db₀ : D) (events : List (WriterEvent S))

/-- The writer of a process that opened the database at `db₀`, after some events. -/
def after : Writer S D := Runs.run (step execute maxsize) { db := db₀ } events

/-- The statements that the events submit. -/
def submitted : List S := Runs.emitted (step execute maxsize) submits { db := db₀ } events

/-- The statements that a thread had in its hands when it died, or found the connection closed. -/
def lost : List S := Runs.emitted (step execute maxsize) loses { db := db₀ } events

/-- No event executes a statement at once while others wait. -/
def Orderly : Prop := Runs.Along (step execute maxsize) Quiet { db := db₀ } events

/-- No statement was refused or lost, or overtook another. -/
structure Lossless : Prop where
  orderly : Orderly execute maxsize db₀ events
  dropped : (after execute maxsize db₀ events).dropped = 0
  lost : lost execute maxsize db₀ events = []

theorem exists_accounted : ∃ applied, Accounted execute (Orderly execute maxsize db₀ events) db₀
    (submitted execute maxsize db₀ events) (lost execute maxsize db₀ events).length
    (after execute maxsize db₀ events) applied := by
  have start : Accounted execute (Orderly execute maxsize db₀ events) db₀ [] 0 { db := db₀ } [] :=
    Accounted.of_start
  obtain ⟨applied, done⟩ := start.run events id
  rw [List.nil_append, Nat.zero_add] at done
  exact ⟨applied, done⟩

/-- Whatever order the loop and the thread take their steps in, each statement that was submitted is
executed once, waits, was refused and counted, or was lost with the thread.  Unless one was executed
at once while others waited, they are executed in the order in which they were submitted. -/
theorem accounted :
    ∃ applied : List S,
      (after execute maxsize db₀ events).db = applied.foldl execute db₀ ∧
      (applied ++ (after execute maxsize db₀ events).pending).Subperm
        (submitted execute maxsize db₀ events) ∧
      (submitted execute maxsize db₀ events).length = applied.length +
        (after execute maxsize db₀ events).pending.length +
        (after execute maxsize db₀ events).dropped + (lost execute maxsize db₀ events).length ∧
      (Orderly execute maxsize db₀ events →
        (applied ++ (after execute maxsize db₀ events).pending).Sublist
          (submitted execute maxsize db₀ events)) := by
  obtain ⟨applied, done⟩ := exists_accounted execute maxsize db₀ events
  exact ⟨applied, done.db, done.once, done.length, done.order⟩

variable {execute maxsize db₀ events}

/-- A writer that lost nothing has executed what was submitted, in order, up to what waits. -/
theorem Lossless.exists_prefix (lossless : Lossless execute maxsize db₀ events) :
    ∃ applied, submitted execute maxsize db₀ events =
        applied ++ (after execute maxsize db₀ events).pending ∧
      (after execute maxsize db₀ events).db = applied.foldl execute db₀ := by
  obtain ⟨applied, done⟩ := exists_accounted execute maxsize db₀ events
  refine ⟨applied, ?_, done.db⟩
  refine ((done.order lossless.orderly).eq_of_length ?_).symm
  have length := done.length
  rw [lossless.dropped, lossless.lost] at length
  rw [List.length_append, length]
  rfl

/-- A process that never starts its thread executes each statement as it is submitted. -/
theorem run_unstarted (db : D) (statements : List S) :
    Runs.run (step execute maxsize) { db } (statements.map fun s => .write s true) =
      { db := statements.foldl execute db } := by
  induction statements generalizing db with
  | nil => rfl
  | cons s statements ih => exact ih (execute db s)

/-- When `flush` finds nothing that waits, a writer that lost nothing has brought the database to where
it is without a thread. -/
theorem flushed (lossless : Lossless execute maxsize db₀ events)
    (idle : (after execute maxsize db₀ events).pending = []) :
    (after execute maxsize db₀ events).db = (after execute maxsize db₀
      ((submitted execute maxsize db₀ events).map fun s => .write s true)).db := by
  obtain ⟨applied, split, table⟩ := lossless.exists_prefix
  rw [idle, List.append_nil] at split
  rw [table, split, after, run_unstarted]

theorem flushed_two :
    (after (fun db s => db ++ [s]) 20000 [] [.start true, .write 'a' true, .write 'b' true, .take,
        .finish, .take, .finish]).db =
      (after (fun db s => db ++ [s]) 20000 [] ((submitted (fun db s => db ++ [s]) 20000 []
        [.start true, .write 'a' true, .write 'b' true, .take, .finish, .take, .finish]).map
          fun s => .write s true)).db := by
  refine flushed ⟨?_, rfl, rfl⟩ rfl
  exact ⟨trivial, fun _ dead => absurd dead.symm Bool.false_ne_true,
    fun _ dead => absurd dead.symm Bool.false_ne_true, trivial, trivial, trivial, trivial, trivial⟩

end Runs

end Writer

/-! ### The restart queue behind a writer -/

section Killed

open PersistentQueue (Awaiting)

variable (codec : Codec) (maxsize : ℕ)

/-- The process that opened the table of the history `before`, after some events. -/
def PersistentQueue.writer (before : List StoreEvent) (events : List (WriterEvent StoreEvent)) :
    Writer StoreEvent PersistentQueue :=
  Writer.after (step codec) maxsize (after codec before) events

/-- What this process submits. -/
def PersistentQueue.submitted (before : List StoreEvent) (events : List (WriterEvent StoreEvent)) :
    List StoreEvent :=
  Writer.submitted (step codec) maxsize (after codec before) events

/-- **A process is killed.**  It opened the table that the history `before` left, and lost no
statement.  What it leaves is the table of a history as well, of what it submitted up to the
statements that waited.  So the next process is given back the requests that were enqueued by then
and not touched since, and nothing else. -/
theorem killed (before : List StoreEvent) (events : List (WriterEvent StoreEvent)) (last : Restart)
    (lossless : Writer.Lossless (PersistentQueue.step codec) maxsize
      (PersistentQueue.after codec before) events)
    (distinct : (enqueuedIds (before ++
      PersistentQueue.submitted codec maxsize before events)).Nodup)
    (past : ∀ e ∈ before ++ PersistentQueue.submitted codec maxsize before events,
      ∀ w, e.wall? = some w → w ≤ last.wall) :
    ∃ applied, PersistentQueue.submitted codec maxsize before events =
        applied ++ (PersistentQueue.writer codec maxsize before events).pending ∧
      ∀ b, b ∈ ((PersistentQueue.writer codec maxsize before events).db.recoverQueued last.cfg codec
          last.wall last.now).1 ↔
        ∃ id row, Awaiting codec (before ++ applied) id row ∧ row.comesBack last.wall = true ∧
          b = row.rebuild last.cfg ((codec.loads row.payloadJson).getD {}) last.wall last.now := by
  obtain ⟨applied, split, table⟩ := lossless.exists_prefix
  refine ⟨applied, split, fun b => ?_⟩
  have whole : (PersistentQueue.writer codec maxsize before events).db =
      PersistentQueue.after codec (before ++ applied) :=
    table.trans (Runs.run_append ..).symm
  have earlier : (before ++ applied).Sublist
      (before ++ PersistentQueue.submitted codec maxsize before events) := by
    rw [PersistentQueue.submitted, split]
    exact (List.sublist_append_left _ _).append_left before
  have found_iff {id : String} {row : QueueRow} (back : row.comesBack last.wall = true) :
      (PersistentQueue.after codec (before ++ applied)).rows.get? id = some row ↔
        Awaiting codec (before ++ applied) id row :=
    PersistentQueue.found_iff (distinct.sublist (earlier.filterMap StoreEvent.enqueuedId?))
      (fun e mem => past e (earlier.subset mem)) back
  rw [whole, PersistentQueue.mem_recoverQueued]
  refine exists_congr fun id => exists_congr fun row => ?_
  constructor
  · rintro ⟨found, back, same⟩
    exact ⟨(found_iff back).mp found, back, same⟩
  · rintro ⟨awaiting, back, same⟩
    exact ⟨(found_iff back).mpr awaiting, back, same⟩

/-- A request is completed while its thread is about to write its row. -/
def tier3Writes : List (WriterEvent StoreEvent) :=
  [.start true, .write (.enqueue tier3Request 100) true, .take, .write (.complete "r1") true, .finish]

theorem killed_tier3 :
    ∃ applied, PersistentQueue.submitted emptyPayloadCodec 20000 [] tier3Writes =
        applied ++ (PersistentQueue.writer emptyPayloadCodec 20000 [] tier3Writes).pending ∧
      ∀ b, b ∈ ((PersistentQueue.writer emptyPayloadCodec 20000 [] tier3Writes).db.recoverQueued
          renamedFleet emptyPayloadCodec 130 7).1 ↔
        ∃ id row, Awaiting emptyPayloadCodec ([] ++ applied) id row ∧ row.comesBack 130 = true ∧
          b = row.rebuild renamedFleet ((emptyPayloadCodec.loads row.payloadJson).getD {}) 130 7 := by
  refine killed emptyPayloadCodec 20000 [] tier3Writes ⟨renamedFleet, 130, 7⟩ ⟨?_, rfl, rfl⟩
    (by decide) ?_
  · exact ⟨trivial, fun _ dead => absurd dead.symm Bool.false_ne_true, trivial,
      fun _ dead => absurd dead.symm Bool.false_ne_true, trivial, trivial⟩
  · rintro e (_ | ⟨_, _ | ⟨_, ⟨⟩⟩⟩) wall same
    · rw [← Option.some.inj same]
      norm_num
    · cases same

/-- A statement that overtakes another leaves what no history leaves: the thread dies before it
writes the row of a request, its completion finds no thread that can be spawned, and a later write
finds one. -/
theorem overtaken (req : QueuedRequest) (wall : ℚ) (stored : req.noStore = false) (s : StoreEvent) :
    (PersistentQueue.writer codec 20000 [] [.start true, .write (.enqueue req wall) true, .die false,
        .write (.complete req.requestId) false, .write s true, .take, .finish]).db.rows.get?
      req.requestId = some (.ofRequest codec req wall) := by
  have table : (PersistentQueue.writer codec 20000 [] [.start true,
      .write (.enqueue req wall) true, .die false, .write (.complete req.requestId) false,
      .write s true, .take, .finish]).db =
        PersistentQueue.persistEnqueue ⟨(∅ : Dict String QueueRow).erase req.requestId⟩ codec req wall :=
    rfl
  rw [table, PersistentQueue.persistEnqueue, stored]
  exact Dict.get?_set_self _ _ _

end Killed

end Roadstead
