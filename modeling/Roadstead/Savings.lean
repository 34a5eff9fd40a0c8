import Mathlib.Algebra.Order.Monoid.Prod
import Roadstead.Lib.Run
import Roadstead.Spend

/-!
# The savings rollup

The tables `proxy_completions` and `proxy_savings_daily` of `queue.py`, the statements that
write to them, and the lifetime totals that `savings_summary` composes from both.  The
definitions follow the source; nothing is proved here.

A sweep is two statements of its own, a finalisation and a DELETE, each of which the write
queue may drop; `SavingsOp.writes` lists what an operation submits, and a run applies the
writes that land.  Sums and `MAX` are taken column by column, so a pair of token columns is
an element of the product `ℤ × ℤ`.

The wall clock is a rational number.  Of a completion row the columns that no savings query
reads are left out; no writer passes `NULL` for the others.
-/

namespace Roadstead

/-- `CAST(x AS INTEGER)`: towards zero. -/
def castInteger (x : ℚ) : ℤ := if 0 ≤ x then ⌊x⌋ else ⌈x⌉

/-- `_day_bucket_sql`: the UTC midnight before a completion. -/
def dayBucketSql (completedAt : ℚ) : ℤ := castInteger (completedAt / 86400) * 86400

namespace CompletionRow

/-- The primary key of the rollup: endpoint and day. -/
def bucket (row : CompletionRow) : String × ℤ := (row.endpoint, dayBucketSql row.completedAt)

/-- `input_tokens` and `output_tokens`. -/
def tokens (row : CompletionRow) : ℤ × ℤ := (row.inputTokens, row.outputTokens)

end CompletionRow

/-- The two tables. -/
structure SavingsDb where
  completions : Dict String CompletionRow := ∅
  savingsDaily : Dict (String × ℤ) (ℤ × ℤ) := ∅
  deriving DecidableEq

namespace SavingsDb

variable (db : SavingsDb)

/-- `SELECT … SUM(…) FROM proxy_completions GROUP BY ep, day`. -/
def liveBuckets : Dict (String × ℤ) (ℤ × ℤ) :=
  Dict.tally CompletionRow.bucket CompletionRow.tokens db.completions.values

/-- `INSERT OR REPLACE INTO proxy_completions`. -/
def insert (requestId : String) (row : CompletionRow) : SavingsDb :=
  { db with completions := db.completions.set requestId row }

/-- `ON CONFLICT(endpoint, day) DO UPDATE SET … MAX(…)`. -/
def upsertMax (old : Option (ℤ × ℤ)) (excluded : ℤ × ℤ) : ℤ × ℤ :=
  match old with
  | none => excluded
  | some tokens => tokens ⊔ excluded

/-- `_FINALISE_SAVINGS_SQL`. -/
def finalise : SavingsDb :=
  { db with savingsDaily := db.savingsDaily.merge upsertMax db.liveBuckets }

/-- The `WHERE` clause of the DELETE: an old row whose bucket has reached the rollup. -/
def prunes (cutoff : ℚ) (row : CompletionRow) : Bool :=
  decide (row.completedAt < cutoff) && db.savingsDaily.contains row.bucket

/-- `DELETE FROM proxy_completions`. -/
def prune (cutoff : ℚ) : SavingsDb :=
  { db with completions := db.completions.filter fun _ row => !db.prunes cutoff row }

/-- `_migrate_savings_daily`: only ever on an empty rollup. -/
def migrateSavingsDaily : SavingsDb :=
  if db.savingsDaily.keys.isEmpty then db.finalise else db

/-- `buckets` of `savings_summary`: the live sums, then the rollup rows by `max`. -/
def summaryBuckets : Dict (String × ℤ) (ℤ × ℤ) :=
  db.liveBuckets.merge (fun live rolled => live.getD 0 ⊔ rolled) db.savingsDaily

/-- `lifetime_by_ep`. -/
def lifetimeByEp : Dict String (ℤ × ℤ) :=
  Dict.tally (fun entry => entry.1.1) Prod.snd db.summaryBuckets.entries

/-- The lifetime tokens of an endpoint, in and out. -/
def lifetime (endpoint : String) : ℤ × ℤ := (db.lifetimeByEp.get? endpoint).getD 0

end SavingsDb

/-! ### Statements and operations -/

/-- A statement that writes to one of the two tables. -/
inductive SavingsWrite where
  | insert (requestId : String) (row : CompletionRow)
  | finalise
  | prune (cutoff : ℚ)
  | migrate
  deriving DecidableEq

/-- The tables after a statement has landed. -/
def SavingsDb.apply (db : SavingsDb) : SavingsWrite → SavingsDb
  | .insert requestId row => db.insert requestId row
  | .finalise => db.finalise
  | .prune cutoff => db.prune cutoff
  | .migrate => db.migrateSavingsDaily

/-- What is done with the store. -/
inductive SavingsOp where
  /-- `persist_complete` and `persist_external_call`, at the time in the row. -/
  | complete (requestId : String) (row : CompletionRow)
  /-- `cleanup_old_completions`. -/
  | cleanup (now maxAgeS : ℚ)
  /-- The store is opened again. -/
  | reopen
  deriving DecidableEq

namespace SavingsOp

/-- The statements an operation submits, in order. -/
def writes : SavingsOp → List SavingsWrite
  | complete requestId row => [.insert requestId row]
  | cleanup now maxAgeS => [.finalise, .prune (now - maxAgeS)]
  | reopen => [.migrate]

/-- The wall clock an operation reads. -/
def time? : SavingsOp → Option ℚ
  | complete _ row => some row.completedAt
  | cleanup now _ => some now
  | reopen => none

/-- The request and the row that a completion inserts. -/
def inserted? : SavingsOp → Option (String × CompletionRow)
  | complete requestId row => some (requestId, row)
  | _ => none

end SavingsOp

end Roadstead
