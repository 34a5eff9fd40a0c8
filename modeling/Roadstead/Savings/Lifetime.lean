import Mathlib.Data.Int.ConditionallyCompleteOrder
import Roadstead.Savings

/-!
# The lifetime totals of the savings rollup

Two numbers are kept for a bucket (an endpoint and a day): what the live rows of the bucket
add up to, `live`, and what its rollup row says, `rolled`.  While no count is negative, the
lifetime total of an endpoint is the sum of `live ⊔ rolled` over its buckets
(`Counted.lifetime_eq`), and each statement is an equation or a bound on the two numbers of
a bucket.  Everything below is about them.

The DELETE is guarded by the existence of a rollup row, not by its value.  So it is safe for
a bucket whose rollup row has caught up with the live rows, and for no other from which it
takes a token (`Counted.prune_keeps_iff`); this is the condition under which dropped writes
cost nothing.  When no write is dropped, the finalisation of the same sweep has just run,
and a bucket that loses a row is closed, because retention is at least a day: `Exact` says
that each bucket is either untouched or closed and completely rolled up.
-/

namespace Roadstead

variable {db : SavingsDb} {requestId : String}

namespace SavingsDb

/-- The total of the live rows of a bucket. -/
def live (db : SavingsDb) (bucket : String × ℤ) : ℤ × ℤ := (db.liveBuckets.get? bucket).getD 0

/-- The rollup row of a bucket, zero where there is none. -/
def rolled (db : SavingsDb) (bucket : String × ℤ) : ℤ × ℤ := (db.savingsDaily.get? bucket).getD 0

/-- No count is negative. -/
structure Counted (db : SavingsDb) : Prop where
  rows : ∀ row ∈ db.completions.values, 0 ≤ row.tokens
  rollup : ∀ bucket tokens, db.savingsDaily.get? bucket = some tokens → 0 ≤ tokens

theorem counted_empty : Counted {} := ⟨by simp [Dict.values], by simp⟩

/-! ### The two numbers of a bucket -/

theorem live_eq (db : SavingsDb) (bucket : String × ℤ) :
    db.live bucket =
      (db.completions.values.map fun row => if row.bucket = bucket then row.tokens else 0).sum :=
  Dict.get?_tally _ _ _ _

namespace Counted

variable {db : SavingsDb} (counted : db.Counted)

include counted

theorem liveBuckets_nonneg :
    ∀ bucket tokens, db.liveBuckets.get? bucket = some tokens → 0 ≤ tokens :=
  Dict.forall_tally (fun _ => le_rfl) (fun _ _ _ => add_nonneg) counted.rows

theorem live_nonneg (bucket : String × ℤ) : 0 ≤ db.live bucket := by
  unfold live
  cases found : db.liveBuckets.get? bucket with
  | none => exact le_rfl
  | some tokens => exact counted.liveBuckets_nonneg bucket tokens found

theorem rolled_nonneg (bucket : String × ℤ) : 0 ≤ db.rolled bucket := by
  unfold rolled
  cases found : db.savingsDaily.get? bucket with
  | none => exact le_rfl
  | some tokens => exact counted.rollup bucket tokens found

/-- The two views of a bucket compose by `MAX`. -/
theorem summaryBuckets_getD (bucket : String × ℤ) :
    (db.summaryBuckets.get? bucket).getD 0 = db.live bucket ⊔ db.rolled bucket := by
  have nonneg := counted.live_nonneg bucket
  rw [summaryBuckets, Dict.get?_merge]
  cases found : db.savingsDaily.get? bucket with
  | none =>
      have zero : db.rolled bucket = 0 := by simp [rolled, found]
      rw [zero, sup_of_le_left nonneg]
      simp [live]
  | some tokens => simp [live, rolled, found]

/-- A finalisation raises a rollup row to the live rows. -/
theorem rolled_finalise (bucket : String × ℤ) :
    db.finalise.rolled bucket = db.rolled bucket ⊔ db.live bucket := by
  have nonneg := counted.rolled_nonneg bucket
  show ((db.savingsDaily.merge upsertMax db.liveBuckets).get? bucket).getD 0 = _
  rw [Dict.get?_merge]
  cases found : db.liveBuckets.get? bucket with
  | none =>
      have zero : db.live bucket = 0 := by simp [live, found]
      rw [zero, sup_of_le_left nonneg]
      simp [rolled]
  | some tokens =>
      have positive := counted.liveBuckets_nonneg bucket tokens found
      cases rolledRow : db.savingsDaily.get? bucket with
      | none => simp [live, rolled, found, rolledRow, upsertMax, sup_of_le_right positive]
      | some old => simp [live, rolled, found, rolledRow, upsertMax]

theorem finalise : db.finalise.Counted where
  rows := counted.rows
  rollup := by
    intro bucket tokens found
    have value : db.finalise.rolled bucket = tokens := by simp [rolled, found]
    rw [← value, counted.rolled_finalise]
    exact le_sup_of_le_left (counted.rolled_nonneg bucket)

end Counted

/-- Opening a store finalises or does nothing. -/
theorem migrateSavingsDaily_cases (db : SavingsDb) :
    db.migrateSavingsDaily = db.finalise ∨ db.migrateSavingsDaily = db := by
  unfold migrateSavingsDaily
  split
  · exact .inl rfl
  · exact .inr rfl

theorem Counted.migrate (counted : db.Counted) : db.migrateSavingsDaily.Counted := by
  rcases migrateSavingsDaily_cases db with h | h
  · rw [h]
    exact counted.finalise
  · rw [h]
    exact counted

@[simp] theorem live_finalise (db : SavingsDb) (bucket : String × ℤ) :
    db.finalise.live bucket = db.live bucket := rfl

/-! ### Inserts and DELETEs -/

theorem values_insert (fresh : requestId ∉ db.completions.keys) (row : CompletionRow) :
    (db.insert requestId row).completions.values = db.completions.values ++ [row] := by
  rw [insert, Dict.values, Dict.entries_set_of_not_mem fresh, List.map_append]
  rfl

theorem live_insert
    (fresh : requestId ∉ db.completions.keys) (row : CompletionRow) (bucket : String × ℤ) :
    (db.insert requestId row).live bucket =
      db.live bucket + if row.bucket = bucket then row.tokens else 0 := by
  rw [live_eq, live_eq, values_insert fresh, List.map_append, List.sum_append]
  simp

theorem values_prune (db : SavingsDb) (cutoff : ℚ) :
    (db.prune cutoff).completions.values =
      db.completions.values.filter fun row => !db.prunes cutoff row := by
  simp [prune, Dict.values, Dict.entries_filter, List.filter_map, Function.comp_def]

/-- What a DELETE takes from a bucket. -/
def taken (db : SavingsDb) (cutoff : ℚ) (bucket : String × ℤ) : ℤ × ℤ :=
  ((db.completions.values.filter fun row => db.prunes cutoff row).map fun row =>
    if row.bucket = bucket then row.tokens else 0).sum

theorem live_prune_add_taken (db : SavingsDb) (cutoff : ℚ) (bucket : String × ℤ) :
    (db.prune cutoff).live bucket + db.taken cutoff bucket = db.live bucket := by
  rw [live_eq, live_eq, taken, values_prune]
  induction db.completions.values with
  | nil => rfl
  | cons row rows ih =>
      rw [List.map_cons, List.sum_cons, ← ih]
      cases pruned : db.prunes cutoff row with
      | false => simp [pruned, add_assoc]
      | true => simp [pruned, add_left_comm]

/-- The rollup row of every bucket from which the DELETE takes tokens of a column has caught
up with the live rows of the bucket. -/
def CaughtUp (db : SavingsDb) (column : ℤ × ℤ → ℤ) (cutoff : ℚ) : Prop :=
  ∀ row ∈ db.completions.values, db.prunes cutoff row = true →
    0 < column row.tokens → column (db.live row.bucket) ≤ column (db.rolled row.bucket)

instance (db : SavingsDb) (column : ℤ × ℤ → ℤ) (cutoff : ℚ) : Decidable (db.CaughtUp column cutoff) :=
  List.decidableBAll _ _

section Column

variable {column : ℤ × ℤ →+ ℤ} {cutoff : ℚ} {bucket : String × ℤ}

theorem column_taken (db : SavingsDb) : column (db.taken cutoff bucket) =
    ((db.completions.values.filter fun row => db.prunes cutoff row).map fun row =>
      if row.bucket = bucket then column row.tokens else 0).sum := by
  rw [taken, map_list_sum, List.map_map]
  refine congrArg List.sum (List.map_congr_left fun row _ => ?_)
  simp [apply_ite column]

variable {db : SavingsDb} (nonneg : ∀ row ∈ db.completions.values, 0 ≤ column row.tokens)

include nonneg

private theorem taken_each : ∀ x ∈ (db.completions.values.filter fun row =>
    db.prunes cutoff row).map fun row => if row.bucket = bucket then column row.tokens else 0,
    0 ≤ x := by
  intro x mem
  obtain ⟨row, rowMem, rfl⟩ := List.mem_map.mp mem
  split
  · exact nonneg row (List.mem_filter.mp rowMem).1
  · exact le_rfl

theorem column_taken_nonneg : 0 ≤ column (db.taken cutoff bucket) := by
  rw [column_taken]
  exact List.sum_nonneg (taken_each nonneg)

/-- A DELETE takes from a column exactly when one of its rows has tokens in it. -/
theorem column_taken_pos : 0 < column (db.taken cutoff bucket) ↔
    ∃ row ∈ db.completions.values, db.prunes cutoff row = true ∧ row.bucket = bucket ∧
      0 < column row.tokens := by
  rw [column_taken]
  constructor
  · intro pos
    by_contra none
    refine pos.ne' (List.sum_eq_zero fun x mem => ?_)
    obtain ⟨row, rowMem, rfl⟩ := List.mem_map.mp mem
    obtain ⟨live, pruned⟩ := List.mem_filter.mp rowMem
    split
    · rename_i here
      exact le_antisymm (not_lt.mp fun pos => none ⟨row, live, pruned, here, pos⟩) (nonneg row live)
    · rfl
  · rintro ⟨row, mem, pruned, here, pos⟩
    refine lt_of_lt_of_le pos (List.single_le_sum (taken_each nonneg) _ ?_)
    exact List.mem_map.mpr ⟨row, List.mem_filter.mpr ⟨mem, pruned⟩, if_pos here⟩

variable (column cutoff) in
/-- A DELETE keeps the larger of the two numbers of each bucket exactly when the rollup has
caught up with what it takes. -/
theorem caughtUp_iff : db.CaughtUp column cutoff ↔ ∀ bucket, column (db.live bucket) ≤
    max (column ((db.prune cutoff).live bucket)) (column (db.rolled bucket)) := by
  have split (bucket) : column ((db.prune cutoff).live bucket) +
      column (db.taken cutoff bucket) = column (db.live bucket) := by
    rw [← map_add, live_prune_add_taken]
  constructor
  · intro caught bucket
    have taken : 0 ≤ column (db.taken cutoff bucket) := column_taken_nonneg nonneg
    rcases taken.eq_or_lt with none | some
    · exact le_max_of_le_left (by have := split bucket; omega)
    · obtain ⟨row, mem, pruned, rfl, pos⟩ := (column_taken_pos nonneg).mp some
      exact le_max_of_le_right (caught row mem pruned pos)
  · intro kept row mem pruned pos
    have some := (column_taken_pos nonneg).mpr ⟨row, mem, pruned, rfl, pos⟩
    have := split row.bucket
    rcases le_max_iff.mp (kept row.bucket) with h | h
    · omega
    · exact h

end Column

/-! ### The totals -/

/-- The share of a bucket in the lifetime total of an endpoint. -/
def ofEndpoint (endpoint : String) (bucket : String × ℤ) : ℤ × ℤ →+ ℤ × ℤ :=
  if bucket.1 = endpoint then AddMonoidHom.id _ else 0

theorem ofEndpoint_monotone (endpoint : String) (bucket : String × ℤ) :
    Monotone (ofEndpoint endpoint bucket) := by
  unfold ofEndpoint
  split
  · exact monotone_id
  · exact monotone_const

theorem lifetime_eq_sum (db : SavingsDb) (endpoint : String) :
    db.lifetime endpoint = db.summaryBuckets.sum fun bucket tokens =>
      ofEndpoint endpoint bucket tokens := by
  rw [lifetime, lifetimeByEp, Dict.get?_tally, Dict.sum]
  refine congrArg List.sum (List.map_congr_left fun entry _ => ?_)
  unfold ofEndpoint
  split <;> rfl

/-- The lifetime total, over any set of buckets that holds those of both tables. -/
theorem Counted.lifetime_eq (counted : db.Counted) (buckets : Finset (String × ℤ))
    (sub : ∀ bucket ∈ db.summaryBuckets.keys, bucket ∈ buckets) (endpoint : String) :
    db.lifetime endpoint =
      ∑ bucket ∈ buckets, ofEndpoint endpoint bucket (db.live bucket ⊔ db.rolled bucket) := by
  rw [lifetime_eq_sum, Dict.sum_eq_finset_sum _ sub]
  exact Finset.sum_congr rfl fun bucket _ => by rw [counted.summaryBuckets_getD]

theorem Counted.lifetime_le {db db' : SavingsDb} (counted : db.Counted) (counted' : db'.Counted)
    (le : ∀ bucket, db.live bucket ⊔ db.rolled bucket ≤ db'.live bucket ⊔ db'.rolled bucket)
    (endpoint : String) : db.lifetime endpoint ≤ db'.lifetime endpoint := by
  rw [lifetime_eq_sum, lifetime_eq_sum]
  refine Dict.sum_le_sum_getD _ (ofEndpoint_monotone endpoint) fun bucket => ?_
  rw [counted.summaryBuckets_getD, counted'.summaryBuckets_getD]
  exact le bucket

/-! ### What each statement keeps -/

theorem Counted.insert (counted : db.Counted)
    (fresh : requestId ∉ db.completions.keys) {row : CompletionRow} (nonneg : 0 ≤ row.tokens) :
    (db.insert requestId row).Counted where
  rows := by
    intro other mem
    rw [values_insert fresh, List.mem_append, List.mem_singleton] at mem
    rcases mem with mem | rfl
    · exact counted.rows other mem
    · exact nonneg
  rollup := counted.rollup

theorem Counted.prune (counted : db.Counted) (cutoff : ℚ) :
    (db.prune cutoff).Counted where
  rows := by
    intro row mem
    rw [values_prune] at mem
    exact counted.rows row (List.mem_filter.mp mem).1
  rollup := counted.rollup

theorem Counted.live_prune_le (counted : db.Counted) (cutoff : ℚ)
    (bucket : String × ℤ) : (db.prune cutoff).live bucket ≤ db.live bucket := by
  have split := live_prune_add_taken db cutoff bucket
  have input : 0 ≤ AddMonoidHom.fst ℤ ℤ (db.taken cutoff bucket) :=
    column_taken_nonneg fun row mem => (counted.rows row mem).1
  have output : 0 ≤ AddMonoidHom.snd ℤ ℤ (db.taken cutoff bucket) :=
    column_taken_nonneg fun row mem => (counted.rows row mem).2
  rw [← split]
  exact le_add_of_nonneg_right ⟨input, output⟩

/-- The DELETE spares the larger of the two numbers of every bucket exactly when the rollup
has caught up with it in both columns. -/
theorem Counted.caughtUp_iff (counted : db.Counted) (cutoff : ℚ) :
    db.CaughtUp Prod.fst cutoff ∧ db.CaughtUp Prod.snd cutoff ↔
      ∀ bucket, db.live bucket ≤ (db.prune cutoff).live bucket ⊔ db.rolled bucket := by
  have input := SavingsDb.caughtUp_iff (AddMonoidHom.fst ℤ ℤ) cutoff
    fun row mem => (counted.rows row mem).1
  have output := SavingsDb.caughtUp_iff (AddMonoidHom.snd ℤ ℤ) cutoff
    fun row mem => (counted.rows row mem).2
  refine (and_congr input output).trans ⟨fun h bucket => ⟨h.1 bucket, h.2 bucket⟩, fun h => ?_⟩
  exact ⟨fun bucket => (h bucket).1, fun bucket => (h bucket).2⟩

/-- A DELETE lowers no lifetime total exactly when the rollup has caught up with what it
takes. -/
theorem Counted.prune_keeps_iff (counted : db.Counted) (cutoff : ℚ) :
    (∀ endpoint, db.lifetime endpoint ≤ (db.prune cutoff).lifetime endpoint) ↔
      db.CaughtUp Prod.fst cutoff ∧ db.CaughtUp Prod.snd cutoff := by
  rw [counted.caughtUp_iff]
  constructor
  · intro keeps bucket
    -- no bucket goes up, so none goes down either
    have down : ∀ bucket, (db.prune cutoff).live bucket ⊔ db.rolled bucket ≤
        db.live bucket ⊔ db.rolled bucket :=
      fun bucket => sup_le_sup_right (counted.live_prune_le cutoff bucket) _
    let buckets : Finset (String × ℤ) :=
      (bucket :: (db.summaryBuckets.keys ++ (db.prune cutoff).summaryBuckets.keys)).toFinset
    have le := keeps bucket.1
    rw [counted.lifetime_eq buckets (by simp +contextual [buckets]),
      (counted.prune cutoff).lifetime_eq buckets (by simp +contextual [buckets])] at le
    have each := (Finset.sum_eq_sum_iff_of_le fun other _ =>
      ofEndpoint_monotone bucket.1 other (down other)).mp
        (le_antisymm (Finset.sum_le_sum fun other _ =>
          ofEndpoint_monotone bucket.1 other (down other)) le) bucket (by simp [buckets])
    have same : (db.prune cutoff).live bucket ⊔ db.rolled bucket =
        db.live bucket ⊔ db.rolled bucket := by simpa [ofEndpoint] using each
    exact same ▸ le_sup_left
  · intro kept
    exact counted.lifetime_le (counted.prune cutoff) fun bucket => sup_le (kept bucket) le_sup_right

/-- A finalisation moves no lifetime total. -/
theorem Counted.lifetime_finalise (counted : db.Counted) (endpoint : String) :
    db.finalise.lifetime endpoint = db.lifetime endpoint := by
  have same (bucket) : db.finalise.live bucket ⊔ db.finalise.rolled bucket =
      db.live bucket ⊔ db.rolled bucket := by
    rw [live_finalise, counted.rolled_finalise, sup_comm (db.rolled bucket), ← sup_assoc, sup_idem]
  exact le_antisymm
    (counted.finalise.lifetime_le counted (fun bucket => (same bucket).le) endpoint)
    (counted.lifetime_le counted.finalise (fun bucket => (same bucket).ge) endpoint)

/-- A completion of a new request lowers no lifetime total. -/
theorem Counted.lifetime_le_insert (counted : db.Counted)
    (fresh : requestId ∉ db.completions.keys) {row : CompletionRow} (nonneg : 0 ≤ row.tokens)
    (endpoint : String) : db.lifetime endpoint ≤ (db.insert requestId row).lifetime endpoint := by
  refine counted.lifetime_le (counted.insert fresh nonneg) (fun bucket => ?_) endpoint
  refine sup_le_sup_right ?_ (db.rolled bucket)
  rw [live_insert fresh]
  split
  · exact le_add_of_nonneg_right nonneg
  · simp

end SavingsDb

/-! ### Runs in which writes are dropped -/

namespace SavingsWrite

/-- A request id that is inserted. -/
def insertedId? : SavingsWrite → Option String
  | insert requestId _ => some requestId
  | _ => none

/-- No row is replaced. -/
def Fresh (db : SavingsDb) (write : SavingsWrite) : Prop :=
  ∀ requestId ∈ write.insertedId?, requestId ∉ db.completions.keys

/-- An insert brings no negative count, and a DELETE takes tokens only from buckets whose
rollup row has caught up. -/
def Safe (db : SavingsDb) : SavingsWrite → Prop
  | insert _ row => 0 ≤ row.tokens
  | prune cutoff => db.CaughtUp Prod.fst cutoff ∧ db.CaughtUp Prod.snd cutoff
  | finalise | migrate => True

instance (db : SavingsDb) : ∀ write : SavingsWrite, Decidable (write.Safe db)
  | insert _ row => inferInstanceAs (Decidable (0 ≤ row.tokens))
  | prune _ => inferInstanceAs (Decidable (_ ∧ _))
  | finalise | migrate => isTrue trivial

end SavingsWrite

namespace SavingsDb

variable {db : SavingsDb}

theorem Counted.apply (counted : db.Counted) {write : SavingsWrite} (fresh : write.Fresh db)
    (nonneg : ∀ requestId row, write = .insert requestId row → 0 ≤ row.tokens) :
    (db.apply write).Counted := by
  cases write with
  | insert requestId row => exact counted.insert (fresh requestId rfl) (nonneg requestId row rfl)
  | finalise => exact counted.finalise
  | prune cutoff => exact counted.prune cutoff
  | migrate => exact counted.migrate

/-- A safe write lowers no lifetime total. -/
theorem Counted.lifetime_le_apply (counted : db.Counted) {write : SavingsWrite}
    (fresh : write.Fresh db) (safe : write.Safe db) (endpoint : String) :
    db.lifetime endpoint ≤ (db.apply write).lifetime endpoint := by
  cases write with
  | insert requestId row => exact counted.lifetime_le_insert (fresh requestId rfl) safe endpoint
  | finalise => exact (counted.lifetime_finalise endpoint).ge
  | prune cutoff => exact (counted.prune_keeps_iff cutoff).mpr safe endpoint
  | migrate =>
      rcases migrateSavingsDaily_cases db with h | h
      · exact (congrArg (lifetime · endpoint) h).ge.trans' (counted.lifetime_finalise endpoint).ge
      · exact (congrArg (lifetime · endpoint) h).ge

/-- The request ids that a write leaves behind. -/
theorem keys_apply_subset (write : SavingsWrite) :
    ∀ requestId ∈ (db.apply write).completions.keys,
      requestId ∈ db.completions.keys ∨ requestId ∈ write.insertedId? := by
  intro requestId mem
  cases write with
  | insert id row =>
      rcases Dict.mem_keys_set.mp mem with rfl | mem
      · exact .inr rfl
      · exact .inl mem
  | finalise => exact .inl mem
  | prune cutoff => exact .inl ((Dict.keys_filter_sublist _ _).subset mem)
  | migrate =>
      rcases migrateSavingsDaily_cases db with h | h
      · exact .inl ((congrArg (fun db : SavingsDb => db.completions.keys) h) ▸ mem)
      · exact .inl ((congrArg (fun db : SavingsDb => db.completions.keys) h) ▸ mem)

end SavingsDb

/-- No lifetime total decreases from one observation to the next. -/
def LifetimeNeverDecreases (landed : List SavingsWrite) : Prop :=
  ∀ before between after, landed = before ++ between ++ after → ∀ endpoint,
    (Runs.run SavingsDb.apply {} before).lifetime endpoint ≤
      (Runs.run SavingsDb.apply {} (before ++ between)).lifetime endpoint

namespace SavingsWrite

/-- Writes with distinct request ids replace no row. -/
theorem fresh_along {landed : List SavingsWrite} (distinct : (landed.filterMap insertedId?).Nodup)
    (new : ∀ requestId ∈ landed.filterMap insertedId?, requestId ∉ db.completions.keys) :
    Runs.Along SavingsDb.apply Fresh db landed := by
  induction landed generalizing db with
  | nil => trivial
  | cons write landed ih =>
      have later : ∀ requestId ∈ landed.filterMap insertedId?, requestId ∉ write.insertedId? := by
        intro requestId mem here
        rw [List.filterMap_cons, here, List.nodup_cons] at distinct
        exact distinct.1 mem
      refine ⟨fun requestId here => new requestId ?_, ih ?_ ?_⟩
      · exact List.mem_filterMap.mpr ⟨write, List.mem_cons_self, here⟩
      · exact distinct.sublist ((List.sublist_cons_self write landed).filterMap _)
      · intro requestId mem left
        rcases SavingsDb.keys_apply_subset write requestId left with old | here
        · refine new requestId ?_ old
          exact ((List.sublist_cons_self write landed).filterMap insertedId?).subset mem
        · exact later requestId mem here

/-- An insert brings no negative count. -/
def Counts (write : SavingsWrite) : Prop :=
  ∀ requestId row, write = .insert requestId row → 0 ≤ row.tokens

theorem Safe.counts {write : SavingsWrite} (safe : write.Safe db) :
    write.Counts := by
  rintro requestId row rfl
  exact safe

end SavingsWrite

namespace SavingsDb

variable {db : SavingsDb} {writes : List SavingsWrite}

theorem Counted.run (counted : db.Counted)
    (along : Runs.Along SavingsDb.apply (fun db write => write.Fresh db ∧ write.Counts) db writes) :
    (Runs.run SavingsDb.apply db writes).Counted :=
  Runs.run_invariant Counted (fun _ _ counted guard => counted.apply guard.1 guard.2) counted along

/-- Safe writes lower no lifetime total. -/
theorem Counted.lifetime_le_run (counted : db.Counted)
    (along : Runs.Along SavingsDb.apply (fun db write => write.Fresh db ∧ write.Safe db) db writes)
    (endpoint : String) :
    db.lifetime endpoint ≤ (Runs.run SavingsDb.apply db writes).lifetime endpoint := by
  induction writes generalizing db with
  | nil => exact le_rfl
  | cons write writes ih =>
      obtain ⟨⟨fresh, safe⟩, rest⟩ := along
      calc db.lifetime endpoint
          ≤ (db.apply write).lifetime endpoint := counted.lifetime_le_apply fresh safe endpoint
        _ ≤ _ := ih (counted.apply fresh safe.counts) rest

end SavingsDb

/-! ### What the operations submit -/

namespace SavingsOp

theorem filterMap_insertedId?_writes (ops : List SavingsOp) :
    (ops.flatMap writes).filterMap SavingsWrite.insertedId? =
      (ops.filterMap inserted?).map Prod.fst := by
  induction ops with
  | nil => rfl
  | cons op ops ih =>
      rw [List.flatMap_cons, List.filterMap_append, ih]
      cases op <;> rfl

theorem mem_inserted_of_writes {ops : List SavingsOp} {row : CompletionRow}
    (mem : .insert requestId row ∈ ops.flatMap writes) :
    (requestId, row) ∈ ops.filterMap inserted? := by
  obtain ⟨op, opMem, mem⟩ := List.mem_flatMap.mp mem
  cases op with
  | complete id row' =>
      cases List.mem_singleton.mp mem
      exact List.mem_filterMap.mpr ⟨_, opMem, rfl⟩
  | cleanup now maxAgeS | reopen => simp [writes] at mem

end SavingsOp

section Dropped

variable {ops : List SavingsOp} {landed : List SavingsWrite}
  (distinct : ((ops.filterMap SavingsOp.inserted?).map Prod.fst).Nodup)
  (dropped : landed.Sublist (ops.flatMap SavingsOp.writes))

include distinct dropped

theorem landed_fresh : Runs.Along SavingsDb.apply SavingsWrite.Fresh {} landed := by
  rw [← SavingsOp.filterMap_insertedId?_writes] at distinct
  exact SavingsWrite.fresh_along (distinct.sublist (dropped.filterMap _)) (by simp)

/-- Whatever writes are dropped, the lifetime totals never decrease as long as the writes that
land are safe; and when no count is negative, only then. -/
theorem lifetime_survives_drops :
    (Runs.Along SavingsDb.apply SavingsWrite.Safe {} landed → LifetimeNeverDecreases landed) ∧
      ((∀ inserted ∈ ops.filterMap SavingsOp.inserted?, 0 ≤ inserted.2.tokens) →
        LifetimeNeverDecreases landed → Runs.Along SavingsDb.apply SavingsWrite.Safe {} landed) := by
  have fresh := landed_fresh distinct dropped
  constructor
  · rintro safe before between after rfl endpoint
    have both := fresh.and safe
    rw [List.append_assoc, Runs.along_append, Runs.along_append] at both
    have counted := SavingsDb.counted_empty.run
      (both.1.mono fun _ _ guard => ⟨guard.1, guard.2.counts⟩)
    rw [Runs.run_append]
    exact counted.lifetime_le_run both.2.1 endpoint
  · intro nonneg never
    have counts : ∀ write ∈ landed, write.Counts := by
      rintro write mem requestId row rfl
      exact nonneg _ (SavingsOp.mem_inserted_of_writes (dropped.subset mem))
    refine Runs.along_of_split fun before write after split => ?_
    have counted : (Runs.run SavingsDb.apply {} before).Counted := by
      refine SavingsDb.counted_empty.run ?_
      have upTo := fresh.and_forall counts
      rw [split, Runs.along_append] at upTo
      exact upTo.1
    have step := never before [write] after (by simpa using split)
    rw [Runs.run_append] at step
    cases write with
    | insert requestId row => exact counts _ (by simp [split]) requestId row rfl
    | prune cutoff => exact (counted.prune_keeps_iff cutoff).mp step
    | finalise | migrate => trivial

end Dropped

/-- A finalisation that lands, one that is dropped, and a DELETE that lands: the day keeps the
rollup row of the first sweep. -/
theorem lifetime_decreases_when_finalisation_is_dropped :
    let early : CompletionRow := ⟨"agent", "chat", 10, 0, 1000⟩
    let late : CompletionRow := ⟨"agent", "chat", 40, 0, 3000⟩
    let ops : List SavingsOp := [.complete "r1" early, .cleanup 2000 86400, .complete "r2" late,
      .cleanup 200000 86400]
    let landed : List SavingsWrite := [.insert "r1" early, .finalise, .prune (2000 - 86400),
      .insert "r2" late, .prune (200000 - 86400)]
    ((ops.filterMap SavingsOp.inserted?).map Prod.fst).Nodup ∧
      (ops.filterMap SavingsOp.time?).Pairwise (· ≤ ·) ∧
      landed.Sublist (ops.flatMap SavingsOp.writes) ∧ ¬LifetimeNeverDecreases landed := by
  refine ⟨by decide, by decide +kernel, by decide +kernel, fun never => ?_⟩
  have last := never [.insert "r1" ⟨"agent", "chat", 10, 0, 1000⟩, .finalise, .prune (2000 - 86400),
    .insert "r2" ⟨"agent", "chat", 40, 0, 3000⟩] [.prune (200000 - 86400)] [] rfl "chat"
  revert last
  decide +kernel

/-- Without the `DELETE` of the first sweep, the same operations keep the fifty tokens: its row is
there for the second sweep to finalise. -/
theorem lifetime_survives_drops_example :
    let early : CompletionRow := ⟨"agent", "chat", 10, 0, 1000⟩
    let late : CompletionRow := ⟨"agent", "chat", 40, 0, 3000⟩
    LifetimeNeverDecreases [.insert "r1" early, .finalise, .insert "r2" late, .finalise,
      .prune (200000 - 86400)] := by
  intro early late
  let ops : List SavingsOp := [.complete "r1" early, .cleanup 2000 86400, .complete "r2" late,
    .cleanup 200000 86400]
  exact (@lifetime_survives_drops ops _ (by decide) (by decide +kernel)).1 (by decide +kernel)

/-! ### Runs in which every write lands -/

theorem dayBucketSql_le {t : ℚ} (nonneg : 0 ≤ t) : (dayBucketSql t : ℚ) ≤ t := by
  have floor := Int.floor_le (t / 86400)
  have quotient : 0 ≤ t / 86400 := by positivity
  rw [le_div_iff₀ (by norm_num)] at floor
  simpa [dayBucketSql, castInteger, quotient] using floor

theorem lt_dayBucketSql_add {t : ℚ} (nonneg : 0 ≤ t) : t < dayBucketSql t + 86400 := by
  have floor := Int.lt_floor_add_one (t / 86400)
  have quotient : 0 ≤ t / 86400 := by positivity
  rw [div_lt_iff₀ (by norm_num)] at floor
  simp only [dayBucketSql, castInteger, quotient, if_true, Int.cast_mul, Int.cast_ofNat]
  linarith

/-- What the rows ever inserted add up to in a bucket. -/
def bucketTotal (ever : List CompletionRow) (bucket : String × ℤ) : ℤ × ℤ :=
  ((Dict.tally CompletionRow.bucket CompletionRow.tokens ever).get? bucket).getD 0

/-- What the rows ever inserted add up to for an endpoint. -/
def endpointTotal (ever : List CompletionRow) (endpoint : String) : ℤ × ℤ :=
  ((ever.filter fun row => row.endpoint = endpoint).map CompletionRow.tokens).sum

theorem endpointTotal_eq (ever : List CompletionRow) (endpoint : String) :
    endpointTotal ever endpoint =
      (ever.map fun row => SavingsDb.ofEndpoint endpoint row.bucket row.tokens).sum := by
  induction ever with
  | nil => rfl
  | cons row ever ih =>
      rw [List.map_cons, List.sum_cons, ← ih]
      by_cases here : row.endpoint = endpoint <;>
        simp [endpointTotal, SavingsDb.ofEndpoint, CompletionRow.bucket, here]

theorem bucketTotal_concat (ever : List CompletionRow) (row : CompletionRow)
    (bucket : String × ℤ) : bucketTotal (ever ++ [row]) bucket =
      bucketTotal ever bucket + if row.bucket = bucket then row.tokens else 0 := by
  simp [bucketTotal, Dict.get?_tally]

namespace SavingsDb

/-- Each bucket still has all its rows, or is closed and completely rolled up: no time to come
lies in it. -/
structure Exact (db : SavingsDb) (ever : List CompletionRow) (times : List ℚ) : Prop where
  counted : db.Counted
  past : ∀ row ∈ db.completions.values, 0 ≤ row.completedAt
  bucket : ∀ bucket,
    db.live bucket = bucketTotal ever bucket ∧ db.rolled bucket ≤ bucketTotal ever bucket ∨
      db.live bucket ≤ bucketTotal ever bucket ∧ db.rolled bucket = bucketTotal ever bucket ∧
        ∀ t ∈ times, (bucket.2 : ℚ) + 86400 ≤ t

namespace Exact

variable {db : SavingsDb} {ever : List CompletionRow} {now : ℚ} {times : List ℚ}

/-- The larger of the two numbers is what was ever inserted. -/
theorem sup_eq (exact : db.Exact ever times) (bucket : String × ℤ) :
    db.live bucket ⊔ db.rolled bucket = bucketTotal ever bucket := by
  rcases exact.bucket bucket with ⟨live, rolled⟩ | ⟨live, rolled, -⟩
  · rw [live, sup_of_le_left rolled]
  · rw [rolled, sup_of_le_right live]

theorem tail (exact : db.Exact ever (now :: times)) : db.Exact ever times where
  counted := exact.counted
  past := exact.past
  bucket bucket := (exact.bucket bucket).imp_right fun ⟨live, rolled, closed⟩ =>
    ⟨live, rolled, fun t mem => closed t (List.mem_cons_of_mem _ mem)⟩

/-- A completion falls into a bucket that still has all its rows. -/
theorem insert {row : CompletionRow} (exact : db.Exact ever (row.completedAt :: times))
    (fresh : requestId ∉ db.completions.keys) (nonneg : 0 ≤ row.tokens)
    (past : 0 ≤ row.completedAt) : (db.insert requestId row).Exact (ever ++ [row]) times where
  counted := exact.counted.insert fresh nonneg
  past := by
    intro other mem
    rw [values_insert fresh, List.mem_append, List.mem_singleton] at mem
    rcases mem with mem | rfl
    · exact exact.past other mem
    · exact past
  bucket := by
    intro bucket
    rw [live_insert fresh, bucketTotal_concat]
    by_cases here : row.bucket = bucket
    · subst here
      rw [if_pos rfl]
      rcases exact.bucket row.bucket with ⟨live, rolled⟩ | ⟨-, -, closed⟩
      · exact .inl ⟨by rw [live], rolled.trans (le_add_of_nonneg_right nonneg)⟩
      · exact absurd (closed _ List.mem_cons_self) (not_le.mpr (lt_dayBucketSql_add past))
    · simp only [if_neg here, add_zero]
      exact exact.tail.bucket bucket

/-- A finalisation rolls every bucket up completely. -/
theorem rolled_finalise (exact : db.Exact ever times) (bucket : String × ℤ) :
    db.finalise.rolled bucket = bucketTotal ever bucket := by
  rw [exact.counted.rolled_finalise, sup_comm, exact.sup_eq]

theorem finalise (exact : db.Exact ever times) : db.finalise.Exact ever times where
  counted := exact.counted.finalise
  past := exact.past
  bucket bucket := (exact.bucket bucket).imp
    (fun ⟨live, _⟩ => ⟨live, (exact.rolled_finalise bucket).le⟩)
    fun ⟨live, _, closed⟩ => ⟨live, exact.rolled_finalise bucket, closed⟩

theorem migrate (exact : db.Exact ever times) : db.migrateSavingsDaily.Exact ever times := by
  rcases migrateSavingsDaily_cases db with h | h
  · rw [h]
    exact exact.finalise
  · rw [h]
    exact exact

/-- A DELETE of old rows, right after a finalisation, only touches closed buckets. -/
theorem prune (exact : db.Exact ever times)
    (finalised : ∀ bucket, db.rolled bucket = bucketTotal ever bucket) {maxAgeS : ℚ}
    (retention : 86400 ≤ maxAgeS) (later : ∀ t ∈ times, now ≤ t) :
    (db.prune (now - maxAgeS)).Exact ever times where
  counted := exact.counted.prune _
  past := by
    intro row mem
    rw [values_prune] at mem
    exact exact.past row (List.mem_filter.mp mem).1
  bucket := by
    intro bucket
    have split := live_prune_add_taken db (now - maxAgeS) bucket
    by_cases touched : ∃ row ∈ db.completions.values,
        db.prunes (now - maxAgeS) row = true ∧ row.bucket = bucket
    · obtain ⟨row, mem, pruned, rfl⟩ := touched
      have old : row.completedAt < now - maxAgeS := by
        simp only [prunes, Bool.and_eq_true, decide_eq_true_eq] at pruned
        exact pruned.1
      have day := dayBucketSql_le (exact.past row mem)
      refine .inr ⟨?_, finalised row.bucket, fun t future => ?_⟩
      · refine (exact.counted.live_prune_le _ _).trans ?_
        rw [← exact.sup_eq]
        exact le_sup_left
      · have := later t future
        show (dayBucketSql row.completedAt : ℚ) + 86400 ≤ t
        linarith
    · have none : db.taken (now - maxAgeS) bucket = 0 := by
        refine List.sum_eq_zero fun x mem => ?_
        obtain ⟨row, rowMem, rfl⟩ := List.mem_map.mp mem
        obtain ⟨live, pruned⟩ := List.mem_filter.mp rowMem
        exact if_neg fun here => touched ⟨row, live, pruned, here⟩
      have same : (db.prune (now - maxAgeS)).live bucket = db.live bucket := by
        rw [← split, none, add_zero]
      rw [same]
      exact exact.bucket bucket

/-- A whole sweep. -/
theorem cleanup (exact : db.Exact ever (now :: times)) {maxAgeS : ℚ}
    (retention : 86400 ≤ maxAgeS) (later : ∀ t ∈ times, now ≤ t) :
    (db.finalise.prune (now - maxAgeS)).Exact ever times :=
  exact.tail.finalise.prune exact.rolled_finalise retention later

/-- The lifetime total of an endpoint is what was ever inserted for it. -/
theorem lifetime_eq (exact : db.Exact ever times) (endpoint : String) :
    db.lifetime endpoint = endpointTotal ever endpoint := by
  have same (bucket) : (db.summaryBuckets.get? bucket).getD 0 =
      ((Dict.tally CompletionRow.bucket CompletionRow.tokens ever).get? bucket).getD 0 := by
    rw [exact.counted.summaryBuckets_getD, exact.sup_eq]
    rfl
  rw [lifetime_eq_sum, Dict.sum_congr_getD _ same, Dict.sum_tally, endpointTotal_eq]

/-- Operations whose writes all land keep the buckets exact. -/
theorem run {ops : List SavingsOp}
    (exact : db.Exact ever (ops.filterMap SavingsOp.time?))
    (fresh : Runs.Along SavingsDb.apply SavingsWrite.Fresh db (ops.flatMap SavingsOp.writes))
    (counts : ∀ inserted ∈ ops.filterMap SavingsOp.inserted?,
      0 ≤ inserted.2.tokens ∧ 0 ≤ inserted.2.completedAt)
    (clock : (ops.filterMap SavingsOp.time?).Pairwise (· ≤ ·))
    (retention : ∀ now maxAgeS, .cleanup now maxAgeS ∈ ops → 86400 ≤ maxAgeS) :
    (Runs.run SavingsDb.apply db (ops.flatMap SavingsOp.writes)).Exact
      (ever ++ (ops.filterMap SavingsOp.inserted?).map Prod.snd) [] := by
  induction ops generalizing db ever with
  | nil => simpa using exact
  | cons op ops ih =>
      rw [List.flatMap_cons, Runs.along_append] at fresh
      rw [List.flatMap_cons, Runs.run_append]
      have retention' : ∀ now maxAgeS, .cleanup now maxAgeS ∈ ops → 86400 ≤ maxAgeS :=
        fun now maxAgeS mem => retention now maxAgeS (List.mem_cons_of_mem _ mem)
      cases op with
      | complete requestId row =>
          obtain ⟨nonneg, past⟩ := counts (requestId, row) List.mem_cons_self
          rw [show (SavingsOp.complete requestId row :: ops).filterMap SavingsOp.inserted? =
            (requestId, row) :: ops.filterMap SavingsOp.inserted? from rfl, List.map_cons,
            List.append_cons]
          exact ih (exact.insert (fresh.1.1 requestId rfl) nonneg past) fresh.2
            (fun inserted mem => counts inserted (List.mem_cons_of_mem _ mem)) clock.of_cons retention'
      | cleanup now maxAgeS =>
          have later := (List.pairwise_cons.mp clock).1
          exact ih (exact.cleanup (retention now maxAgeS List.mem_cons_self) later) fresh.2 counts
            clock.of_cons retention'
      | reopen => exact ih exact.migrate fresh.2 counts clock retention'

end Exact

end SavingsDb

end Roadstead
