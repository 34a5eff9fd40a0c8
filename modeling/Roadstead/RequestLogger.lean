import Mathlib.Algebra.BigOperators.Group.List.Basic
import Mathlib.Algebra.Order.Group.Nat
import Roadstead.Lib.Rotation
import Roadstead.Lib.Run

/-!
# The request log

`RequestLogger` writes one line for each completed request to a set of files that is bounded:
`x.jsonl`, which is slot 0, and `x.jsonl.1` to `x.jsonl.<backups>`.  When a line brings the size of
the first to `max_bytes`, the files are rotated.  The size is counted in memory; a restart reads it
off the disk.  Any operation on the files can raise, and then nothing more is logged until a restart.

`retained_suffix`: whatever raises, and however often the process restarts, the files hold the end of what
was written, the oldest first; no line in the middle is missing.

A record is printed by `json.dumps` with every character in ASCII, so that its characters are the
bytes of the file.
-/

namespace Roadstead

open Rotation (Slots content reading)

/-- Where logging a line raises. -/
inductive LogFault where
  | none
  /-- `write`, after some of the characters. -/
  | write (characters : ℕ)
  /-- `_rotate`, after some of its operations on files. -/
  | rotate (done : ℕ)
  /-- `_open`, at the end of `_rotate`. -/
  | reopen
  deriving DecidableEq

/-- How many of the operations of `_rotate` on files are done. -/
def LogFault.done (all : ℕ) : LogFault → ℕ
  | rotate done => done
  | _ => all

def LogFault.isWrite : LogFault → Bool
  | write _ => true
  | _ => false

/-- The files of a log hold the chunks that were written to them: whole lines, except where a write
raised. -/
structure RequestLogger where
  maxBytes : ℕ
  backups : ℕ
  files : Slots String := fun _ => none
  /-- Whether there is a handle. -/
  file : Bool := false
  size : ℕ := 0
  writeFailed : Bool := false

inductive LogEvent where
  | log (line : String) (fault : LogFault)
  | close
  /-- The process ends, and another opens the log. -/
  | restart

namespace RequestLogger

/-- The size of a file. -/
def bytes (chunks : List String) : ℕ := (chunks.map String.length).sum

/-- What a call of `log` puts into the file. -/
def chunk (line : String) : LogFault → String
  | .write characters => String.ofList ((line ++ "\n").toList.take characters)
  | _ => line ++ "\n"

variable (w : RequestLogger)

/-- `_open`: the file is there afterwards, and nothing in it is lost. -/
def openFile : RequestLogger :=
  { w with
    files := Function.update w.files 0 (some (content w.files 0))
    file := true
    size := bytes (content w.files 0) }

/-- What `_rotate` does to the files; without backups the file is truncated. -/
def fileSteps : List (Slots String → Slots String) :=
  if w.backups = 0 then [fun files => Function.update files 0 (some [])]
  else Rotation.steps w.backups

/-- The log is given up until a restart. -/
def fail : RequestLogger := { w with file := false, writeFailed := true }

/-- The files after some of the operations of `_rotate`. -/
def moved (done : ℕ) : RequestLogger :=
  { w with files := Rotation.take (w.fileSteps.take done) w.files }

def rotate (fault : LogFault) : RequestLogger :=
  let done := fault.done w.fileSteps.length
  if w.fileSteps.length ≤ done ∧ fault ≠ .reopen then (w.moved done).openFile
  else (w.moved done).fail

/-- Put a chunk at the end of the file. -/
def append (text : String) : RequestLogger :=
  { w with
    files := Function.update w.files 0 (some (content w.files 0 ++ [text]))
    size := w.size + text.length }

/-- Whether the size has reached the bound; a bound of 0 is none. -/
def isFull : Bool := decide (w.maxBytes ≠ 0 ∧ w.maxBytes ≤ w.size)

def log (line : String) (fault : LogFault) : RequestLogger :=
  if w.file then
    if fault.isWrite then (w.append (chunk line fault)).fail
    else if (w.append (chunk line fault)).isFull then (w.append (chunk line fault)).rotate fault
    else w.append (chunk line fault)
  else w

def step : LogEvent → RequestLogger
  | .log line fault => w.log line fault
  | .close => { w with file := false }
  | .restart => openFile { w with writeFailed := false }

/-- What an event writes. -/
def writes : LogEvent → List String
  | .log line fault => if w.file then [chunk line fault] else []
  | _ => []

/-- What the files hold, the oldest first. -/
def retained : List String := reading w.files w.backups

/-- A log with no files, after some events. -/
def after (maxBytes backups : ℕ) (events : List LogEvent) : RequestLogger :=
  Runs.run step { maxBytes, backups } events

/-- What was written to a log that had no files. -/
def written (maxBytes backups : ℕ) (events : List LogEvent) : List String :=
  Runs.emitted step writes { maxBytes, backups } events

/-! ### What the files hold -/

variable {w}

theorem retained_append (text : String) : (w.append text).retained = w.retained ++ [text] :=
  Rotation.reading_update_zero w.files _ [text] rfl w.backups

@[simp] theorem content_openFile (i : ℕ) : content w.openFile.files i = content w.files i := by
  rw [openFile, Rotation.content_update]
  split
  · next here => rw [here, Option.getD_some]
  · rfl

theorem retained_openFile : w.openFile.retained = w.retained :=
  Rotation.reading_congr fun i _ => content_openFile i

/-- A rotation gives up the oldest, or nothing, wherever it is cut short. -/
theorem reading_fileSteps_suffix (done : ℕ) :
    reading (Rotation.take (w.fileSteps.take done) w.files) w.backups <:+ w.retained := by
  rw [fileSteps, retained]
  cases count : w.backups with
  | zero =>
      rw [if_pos rfl]
      cases done with
      | zero => exact List.suffix_rfl
      | succ done =>
          have empty : reading (Function.update w.files 0 (some [])) 0 = [] := by
            rw [reading, Rotation.content_update, if_pos rfl, Option.getD_some]
          rw [List.take_succ_cons, List.take_nil, Rotation.take, List.foldl_cons, List.foldl_nil,
            empty]
          exact List.nil_suffix
  | succ n =>
      rw [if_neg (Nat.succ_ne_zero n)]
      rcases Rotation.reading_steps w.files n done with same | fewer
      · rw [same]
      · rw [fewer]
        exact List.suffix_append _ _

theorem retained_rotate (fault : LogFault) : (w.rotate fault).retained <:+ w.retained := by
  rw [rotate]
  split
  · rw [retained_openFile]
    exact reading_fileSteps_suffix _
  · exact reading_fileSteps_suffix _

theorem retained_step (e : LogEvent) : (w.step e).retained <:+ w.retained ++ w.writes e := by
  cases e with
  | log line fault =>
      rw [step, log, writes]
      split
      · rw [← retained_append]
        split
        · exact List.suffix_rfl
        · split
          · exact retained_rotate fault
          · exact List.suffix_rfl
      · rw [List.append_nil]
  | close =>
      show w.retained <:+ w.retained ++ []
      rw [List.append_nil]
  | restart =>
      show (openFile { w with writeFailed := false }).retained <:+ w.retained ++ []
      rw [retained_openFile, List.append_nil]
      exact List.suffix_rfl

theorem retained_run (events : List LogEvent) :
    (Runs.run step w events).retained <:+
      w.retained ++ Runs.emitted step writes w events := by
  induction events generalizing w with
  | nil => rw [Runs.emitted, List.append_nil, Runs.run_nil]
  | cons e events ih =>
      rw [Runs.run_cons, Runs.emitted, ← List.append_assoc]
      obtain ⟨gone, more⟩ := retained_step (w := w) e
      refine ih.trans ⟨gone, ?_⟩
      rw [← List.append_assoc, more]

theorem retained_start (maxBytes backups : ℕ) :
    ({ maxBytes, backups } : RequestLogger).retained = [] := by
  show reading (fun _ => none) backups = []
  induction backups with
  | zero => rfl
  | succ n ih =>
      rw [reading, ih]
      rfl

/-- Whatever raises, and however often the process restarts, the files hold the end of what was
written, in order. -/
theorem retained_suffix (maxBytes backups : ℕ) (events : List LogEvent) :
    (after maxBytes backups events).retained <:+ written maxBytes backups events := by
  have run := retained_run (w := { maxBytes, backups }) events
  rwa [retained_start, List.nil_append] at run

end RequestLogger

end Roadstead
