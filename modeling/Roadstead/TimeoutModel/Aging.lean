import Mathlib.Data.List.TakeWhile
import Mathlib.Tactic.Linarith
import Roadstead.Lib.Ranking
import Roadstead.Lib.Window
import Roadstead.TimeoutModel

/-!
# How old the samples of the timeout model are

A sample carries the monotonic time at which it was recorded, and `prune` drops it by that time.  A
sample of a running process is recorded when its request completes.  `_bootstrap_timeout_model` records
the completions that the database kept, all of them at the time of the start.

`TimeoutHost` is the model with the database and the clocks of its process, and it keeps beside each
sample when its request completed.  `fresh_iff` says when `prune` leaves no sample that is older than
the window: unless a replayed sample gets too old before its process has been up for a whole window.
It never stays for more than two (`twice_the_window`).
-/

namespace Roadstead

/-! ### The model, with the times of completion -/

/-- The arguments of `record`, but for the time. -/
structure TimedCall where
  endpoint : String
  priority : ℤ
  inputTokens : ℤ
  outputTokens : ℤ
  endToEndMs : ℚ
  status : String

/-- A row of `proxy_completions`; a column may be null. -/
structure TimeoutSampleRow where
  endpoint : String
  priority : ℤ
  inputTokens : Option ℤ
  outputTokens : Option ℤ
  durationS : Option ℚ
  queueWaitMs : Option ℚ
  status : String
  completedAt : ℚ

/-- A sample of a cell, and what the cell does not say: when its request completed, by the wall clock,
and whether it was replayed. -/
structure AgedSample where
  stamp : ℚ
  endToEndMs : ℚ
  completedAt : ℚ
  replayed : Bool

/-- What the cell holds of a sample. -/
def AgedSample.pair (x : AgedSample) : ℚ × ℚ := (x.stamp, x.endToEndMs)

/-- The timeout model of a process, its database and its clocks: `epoch` is the wall time at which the
monotonic clock showed 0.  `samples` are the cells, sample by sample. -/
structure TimeoutHost where
  model : TimeoutModel
  samples : Dict CellKey (List AgedSample) := ∅
  rows : List TimeoutSampleRow := []
  epoch : ℚ
  startedAt : ℚ

namespace TimeoutHost

/-- A call of `record` at the monotonic time `now`, for a request that completed at `completedAt`. -/
def record (s : TimeoutHost) (c : TimedCall) (now completedAt : ℚ) (replayed : Bool) : TimeoutHost :=
  { s with
    model := s.model.record c.endpoint c.priority c.inputTokens c.outputTokens c.endToEndMs c.status now
    samples :=
      if c.status ≠ "ok" ∨ c.endToEndMs ≤ 0 then s.samples
      else
        let key := (s.model.normalize c.endpoint, c.priority, bucket c.inputTokens inEdges,
          bucket c.outputTokens outEdges)
        let cell := (s.samples.get? key).getD [] ++ [⟨now, c.endToEndMs, completedAt, replayed⟩]
        s.samples.set key (cell.drop (cell.length - s.model.maxPerCell)) }

/-- `prune` at a wall time. -/
def prune (s : TimeoutHost) (wall : ℚ) : TimeoutHost :=
  { s with
    model := s.model.prune (wall - s.epoch)
    samples := (s.samples.map fun _ cell =>
      cell.dropWhile fun x => x.stamp < wall - s.epoch - s.model.windowS).filter
        fun _ cell => !cell.isEmpty }

/-- `timeout_samples`. -/
def timeoutSamples (rows : List TimeoutSampleRow) (hours wall : ℚ) : List TimeoutSampleRow :=
  Ranking.ranked TimeoutSampleRow.completedAt (rows.filter fun r =>
    decide (wall - hours * 3600 ≤ r.completedAt) && decide (r.status = "ok") &&
      r.durationS.any fun d => decide (0 < d))

/-- A row is recorded by `_bootstrap_timeout_model`. -/
def replay (wall : ℚ) (s : TimeoutHost) (r : TimeoutSampleRow) : TimeoutHost :=
  s.record
    { endpoint := r.endpoint
      priority := r.priority
      inputTokens := r.inputTokens.getD 0
      outputTokens := r.outputTokens.getD 0
      endToEndMs := r.durationS.getD 0 * 1000 + r.queueWaitMs.getD 0
      status := "ok" }
    (wall - s.epoch) r.completedAt true

/-- `_bootstrap_timeout_model`. -/
def bootstrap (s : TimeoutHost) (wall : ℚ) : TimeoutHost :=
  (timeoutSamples s.rows (s.model.windowS / 3600) wall).foldl (replay wall) s

/-- A new process, on the database of the last. -/
def restart (s : TimeoutHost) (wall epoch : ℚ) : TimeoutHost :=
  bootstrap
    { s with model := { s.model with cells := ∅ }, samples := ∅, epoch := epoch, startedAt := wall }
    wall

/-- The first process, on an empty database. -/
def init (model : TimeoutModel) (wall epoch : ℚ) : TimeoutHost where
  model := { model with cells := ∅ }
  epoch := epoch
  startedAt := wall

/-- What happens at a wall time. -/
inductive Event where
  /-- A request completes, and is recorded. -/
  | complete (wall : ℚ) (c : TimedCall)
  /-- A completion is written to the database. -/
  | persist (wall : ℚ) (row : TimeoutSampleRow)
  /-- Rows are deleted, or replaced by others. -/
  | forget (wall : ℚ) (kept : TimeoutSampleRow → Bool)
  | prune (wall : ℚ)
  /-- The process is started again; its monotonic clock may start anew. -/
  | restart (wall epoch : ℚ)

def Event.wall : Event → ℚ
  | .complete wall _ => wall
  | .persist wall _ => wall
  | .forget wall _ => wall
  | .prune wall => wall
  | .restart wall _ => wall

def step (s : TimeoutHost) : Event → TimeoutHost
  | .complete wall c => s.record c (wall - s.epoch) wall false
  | .persist wall row => { s with rows := s.rows ++ [{ row with completedAt := wall }] }
  | .forget _ kept => { s with rows := s.rows.filter kept }
  | .prune wall => s.prune wall
  | .restart wall epoch => s.restart wall epoch

/-! ### What is claimed, and when it holds -/

/-- Every sample of every cell was completed within the window. -/
def Fresh (s : TimeoutHost) (wall : ℚ) : Prop :=
  ∀ key, ∀ cell ∈ s.model.cells.get? key, ∃ samples ∈ s.samples.get? key,
    cell = samples.map AgedSample.pair ∧
      ∀ x ∈ samples, wall - s.model.windowS ≤ x.completedAt ∧ x.completedAt ≤ wall

/-- At a `prune`, no replayed sample is older than the window unless the process is. -/
def Outlived (s : TimeoutHost) : Event → Prop
  | .prune wall => ∀ samples ∈ s.samples.values, ∀ x ∈ samples, x.replayed = true →
      x.completedAt < wall - s.model.windowS → s.startedAt < wall - s.model.windowS
  | _ => True

instance (s : TimeoutHost) : ∀ e, Decidable (s.Outlived e)
  | .prune _ => inferInstanceAs (Decidable (∀ samples ∈ s.samples.values, ∀ x ∈ samples, _ → _ → _))
  | .complete _ _ => isTrue trivial
  | .persist _ _ => isTrue trivial
  | .forget _ _ => isTrue trivial
  | .restart _ _ => isTrue trivial

/-! ### What every run keeps -/

/-- The stamp of a sample of this process. -/
structure Stamped (s : TimeoutHost) (now : ℚ) (x : AgedSample) : Prop where
  past : x.stamp ≤ now - s.epoch
  live : x.replayed = false → x.stamp = x.completedAt - s.epoch
  replayed : x.replayed = true → x.stamp = s.startedAt - s.epoch ∧
    s.startedAt - s.model.windowS ≤ x.completedAt ∧ x.completedAt ≤ s.startedAt

/-- The samples are those of the cells, in the order of their stamps. -/
structure Kept (s : TimeoutHost) (now : ℚ) : Prop where
  cells (key : CellKey) :
    s.model.cells.get? key = (s.samples.get? key).map fun samples => samples.map AgedSample.pair
  rows : ∀ r ∈ s.rows, r.completedAt ≤ now
  ordered (key : CellKey) : ∀ samples ∈ s.samples.get? key,
    samples.Pairwise fun x y => x.stamp ≤ y.stamp
  stamped (key : CellKey) : ∀ samples ∈ s.samples.get? key, ∀ x ∈ samples, s.Stamped now x

/-! ### One sample -/

section Record

variable {s s' : TimeoutHost} {now : ℚ} {x : AgedSample}

theorem Stamped.later {now' : ℚ} (stamped : s.Stamped now x) (later : now ≤ now') : s.Stamped now' x where
  past := stamped.past.trans (sub_le_sub_right later _)
  live := stamped.live
  replayed := stamped.replayed

theorem Stamped.of_same (stamped : s.Stamped now x) (epoch : s'.epoch = s.epoch)
    (started : s'.startedAt = s.startedAt) (window : s'.model.windowS = s.model.windowS) :
    s'.Stamped now x where
  past := epoch ▸ stamped.past
  live := epoch ▸ stamped.live
  replayed := by
    rw [epoch, started, window]
    exact stamped.replayed

theorem Kept.later {now' : ℚ} (kept : s.Kept now) (later : now ≤ now') : s.Kept now' where
  cells := kept.cells
  rows r mem := (kept.rows r mem).trans later
  ordered := kept.ordered
  stamped key samples here x mem := (kept.stamped key samples here x mem).later later

theorem windowS_record (m : TimeoutModel) (c : TimedCall) (now : ℚ) :
    (m.record c.endpoint c.priority c.inputTokens c.outputTokens c.endToEndMs c.status now).windowS =
      m.windowS := by
  rw [TimeoutModel.record]
  split <;> rfl

/-- A sample that is recorded now goes to the end of its cell. -/
theorem Kept.record (kept : s.Kept now) (c : TimedCall) {completedAt : ℚ} {replayed : Bool}
    (new : s.Stamped now ⟨now - s.epoch, c.endToEndMs, completedAt, replayed⟩) :
    (s.record c (now - s.epoch) completedAt replayed).Kept now := by
  have window := windowS_record s.model c (now - s.epoch)
  have still {x : AgedSample} (stamped : s.Stamped now x) :
      (s.record c (now - s.epoch) completedAt replayed).Stamped now x :=
    stamped.of_same rfl rfl window
  by_cases skipped : c.status ≠ "ok" ∨ c.endToEndMs ≤ 0
  · have model : (s.record c (now - s.epoch) completedAt replayed).model = s.model := if_pos skipped
    have samples : (s.record c (now - s.epoch) completedAt replayed).samples = s.samples :=
      if_pos skipped
    refine ⟨?_, kept.rows, ?_, ?_⟩
    · rw [model, samples]
      exact kept.cells
    · rw [samples]
      exact kept.ordered
    · rw [samples]
      exact fun key cell here x mem => still (kept.stamped key cell here x mem)
  · generalize place : (s.model.normalize c.endpoint, c.priority, bucket c.inputTokens inEdges,
      bucket c.outputTokens outEdges) = key
    generalize grown : (s.samples.get? key).getD [] ++
      [⟨now - s.epoch, c.endToEndMs, completedAt, replayed⟩] = cell
    have old : ∀ x ∈ (s.samples.get? key).getD [], s.Stamped now x := by
      cases here : s.samples.get? key with
      | none => exact fun x mem => absurd mem List.not_mem_nil
      | some samples => exact kept.stamped key samples here
    have sorted : ((s.samples.get? key).getD []).Pairwise fun x y => x.stamp ≤ y.stamp := by
      cases here : s.samples.get? key with
      | none => exact List.Pairwise.nil
      | some samples => exact kept.ordered key samples here
    have pairs : (s.model.cells.get? key).getD [] ++ [(now - s.epoch, c.endToEndMs)] =
        cell.map AgedSample.pair := by
      rw [← grown, kept.cells key, List.map_append]
      cases s.samples.get? key <;> rfl
    have model : (s.record c (now - s.epoch) completedAt replayed).model.cells =
        s.model.cells.set key ((cell.drop (cell.length - s.model.maxPerCell)).map AgedSample.pair) := by
      rw [TimeoutHost.record, TimeoutModel.record, if_neg skipped]
      simp only [place, pairs, List.length_map, List.map_drop]
    have samples : (s.record c (now - s.epoch) completedAt replayed).samples =
        s.samples.set key (cell.drop (cell.length - s.model.maxPerCell)) := by
      rw [TimeoutHost.record]
      simp only [if_neg skipped, place, grown]
    have in_order : cell.Pairwise fun x y => x.stamp ≤ y.stamp := by
      rw [← grown, List.pairwise_append]
      refine ⟨sorted, List.pairwise_singleton _ _, fun x mem y last => ?_⟩
      rw [List.mem_singleton.mp last]
      exact (old x mem).past
    have each : ∀ x ∈ cell, s.Stamped now x := by
      rw [← grown]
      intro x mem
      rcases List.mem_append.mp mem with before | last
      · exact old x before
      · rw [List.mem_singleton.mp last]
        exact new
    refine ⟨fun key' => ?_, kept.rows, fun key' samples' here => ?_, fun key' samples' here x mem => ?_⟩
    · rw [model, samples, Dict.get?_set, Dict.get?_set]
      split
      · rfl
      · exact kept.cells key'
    · rw [samples, Dict.get?_set] at here
      split at here
      · obtain rfl := Option.some.inj here
        exact in_order.drop
      · exact kept.ordered key' samples' here
    · rw [samples, Dict.get?_set] at here
      split at here
      · obtain rfl := Option.some.inj here
        exact still (each x (List.mem_of_mem_drop mem))
      · exact still (kept.stamped key' samples' here x mem)

end Record

/-! ### The steps -/

section Step

variable {s : TimeoutHost} {now : ℚ}

/-- A row of the last window that is replayed gets the stamp of the start. -/
theorem Kept.replay (kept : s.Kept s.startedAt) {r : TimeoutSampleRow}
    (recent : s.startedAt - s.model.windowS ≤ r.completedAt ∧ r.completedAt ≤ s.startedAt) :
    (s.replay s.startedAt r).Kept s.startedAt :=
  kept.record _ ⟨le_rfl, nofun, fun _ => ⟨rfl, recent⟩⟩

theorem Kept.replays (kept : s.Kept s.startedAt) {rows : List TimeoutSampleRow}
    (recent : ∀ r ∈ rows, s.startedAt - s.model.windowS ≤ r.completedAt ∧ r.completedAt ≤ s.startedAt) :
    (rows.foldl (TimeoutHost.replay s.startedAt) s).Kept s.startedAt := by
  induction rows generalizing s with
  | nil => exact kept
  | cons r rows ih =>
      have window : (s.replay s.startedAt r).model.windowS = s.model.windowS :=
        windowS_record s.model _ _
      have rest := kept.replay (recent r List.mem_cons_self)
      refine ih rest fun r' mem => ?_
      rw [window]
      exact recent r' (List.mem_cons_of_mem r mem)

theorem mem_timeoutSamples {rows : List TimeoutSampleRow} {hours wall : ℚ} {r : TimeoutSampleRow}
    (mem : r ∈ timeoutSamples rows hours wall) : r ∈ rows ∧ wall - hours * 3600 ≤ r.completedAt := by
  rw [timeoutSamples, Ranking.mem_ranked, List.mem_filter, Bool.and_eq_true, Bool.and_eq_true,
    decide_eq_true_eq] at mem
  exact ⟨mem.1, mem.2.1.1⟩

theorem windowS_replays (rows : List TimeoutSampleRow) (wall : ℚ) :
    (rows.foldl (TimeoutHost.replay wall) s).model.windowS = s.model.windowS := by
  induction rows generalizing s with
  | nil => rfl
  | cons r rows ih => exact ih.trans (windowS_record s.model _ _)

theorem windowS_step (s : TimeoutHost) (e : Event) : (s.step e).model.windowS = s.model.windowS := by
  cases e with
  | complete wall c => exact windowS_record s.model c _
  | restart wall epoch => exact windowS_replays _ wall
  | _ => rfl

theorem Kept.restart (kept : s.Kept now) (epoch : ℚ) : (s.restart now epoch).Kept now := by
  have empty : Kept { s with
      model := { s.model with cells := ∅ }, samples := ∅, epoch := epoch, startedAt := now } now :=
    ⟨fun _ => rfl, kept.rows, nofun, nofun⟩
  refine Kept.replays empty fun r mem => ?_
  obtain ⟨there, recent⟩ := mem_timeoutSamples mem
  refine ⟨?_, kept.rows r there⟩
  calc now - s.model.windowS
      = now - s.model.windowS / 3600 * 3600 := by rw [div_mul_cancel₀ _ (by norm_num)]
    _ ≤ r.completedAt := recent

theorem get?_samples_prune (s : TimeoutHost) (wall : ℚ) (key : CellKey) :
    (s.prune wall).samples.get? key = ((s.samples.get? key).map fun cell =>
      cell.dropWhile fun x => decide (x.stamp < wall - s.epoch - s.model.windowS)).filter
        fun cell => !cell.isEmpty := by
  rw [TimeoutHost.prune, Dict.get?_filter, Dict.get?_map]

/-- What `prune` leaves of a cell. -/
theorem mem_samples_prune {wall : ℚ} {key : CellKey} {samples : List AgedSample} :
    samples ∈ (s.prune wall).samples.get? key ↔ ∃ cell ∈ s.samples.get? key,
      samples = cell.dropWhile (fun x => decide (x.stamp < wall - s.epoch - s.model.windowS)) ∧
        samples ≠ [] := by
  rw [get?_samples_prune, Option.mem_def, Option.filter_eq_some_iff, Option.map_eq_some_iff]
  constructor
  · rintro ⟨⟨cell, there, rfl⟩, some_left⟩
    exact ⟨cell, there, rfl, by simpa using some_left⟩
  · rintro ⟨cell, there, rfl, some_left⟩
    exact ⟨⟨cell, there, rfl⟩, by simpa using some_left⟩

theorem Kept.prune (kept : s.Kept now) : (s.prune now).Kept now where
  cells key := by
    rw [get?_samples_prune, TimeoutHost.prune, TimeoutModel.prune, Dict.get?_filter, Dict.get?_map,
      kept.cells key]
    cases s.samples.get? key with
    | none => rfl
    | some samples =>
        simp only [Option.map_some, List.dropWhile_map]
        have same : (fun x : AgedSample => decide (x.stamp < now - s.epoch - s.model.windowS)) =
            (fun p : ℚ × ℚ => decide (p.1 < now - s.epoch - s.model.windowS)) ∘ AgedSample.pair := rfl
        rw [← same]
        cases samples.dropWhile fun x => decide (x.stamp < now - s.epoch - s.model.windowS) <;> rfl
  rows := kept.rows
  ordered key samples here := by
    obtain ⟨cell, there, rfl, -⟩ := mem_samples_prune.mp here
    exact (kept.ordered key cell there).sublist (List.dropWhile_sublist _)
  stamped key samples here x mem := by
    obtain ⟨cell, there, rfl, -⟩ := mem_samples_prune.mp here
    exact (kept.stamped key cell there x ((List.dropWhile_sublist _).subset mem)).of_same rfl rfl rfl

theorem Kept.step (e : Event) (kept : s.Kept e.wall) : (s.step e).Kept e.wall := by
  cases e with
  | complete wall c =>
      exact kept.record c ⟨le_rfl, fun _ => rfl, nofun⟩
  | persist wall row =>
      refine ⟨kept.cells, fun r mem => ?_, kept.ordered, fun key samples here x mem =>
        (kept.stamped key samples here x mem).of_same rfl rfl rfl⟩
      rcases List.mem_append.mp mem with old | new
      · exact kept.rows r old
      · rw [List.mem_singleton.mp new]
        exact le_rfl
  | forget wall stays =>
      exact ⟨kept.cells, fun r mem => kept.rows r (List.mem_filter.mp mem).1, kept.ordered,
        fun key samples here x mem => (kept.stamped key samples here x mem).of_same rfl rfl rfl⟩
  | prune wall => exact kept.prune
  | restart wall epoch => exact kept.restart epoch

end Step

/-! ### Runs -/

section Run

variable {s : TimeoutHost} {now : ℚ}

/-- Nothing that `prune` leaves carries a stamp from before the window. -/
theorem Kept.stamp_of_pruned (kept : s.Kept now) {key : CellKey} {samples : List AgedSample}
    (here : samples ∈ (s.prune now).samples.get? key) :
    ∀ x ∈ samples, now - s.epoch - s.model.windowS ≤ x.stamp := by
  obtain ⟨cell, there, rfl, -⟩ := mem_samples_prune.mp here
  have ordered : (cell.map AgedSample.stamp).Pairwise (· ≤ ·) :=
    List.pairwise_map.mpr (kept.ordered key cell there)
  intro x mem
  have left : x.stamp ∈ (cell.map AgedSample.stamp).dropWhile fun t =>
      decide (t < now - s.epoch - s.model.windowS) := by
    rw [List.dropWhile_map]
    exact List.mem_map_of_mem mem
  rw [Window.dropWhile_lt_eq_filter ordered, List.mem_filter] at left
  exact of_decide_eq_true left.2

/-- `prune` leaves no sample that is older than the window exactly if no replayed one has outlived it. -/
theorem Kept.fresh_prune_iff (kept : s.Kept now) :
    (s.prune now).Fresh now ↔ s.Outlived (.prune now) := by
  constructor
  · intro fresh cell held x mem replayed old
    obtain ⟨⟨key, cell⟩, entry, rfl⟩ := List.mem_map.mp held
    have there := Dict.mem_entries_iff.mp entry
    by_contra young
    obtain ⟨stamp, -⟩ := (kept.stamped key cell there x mem).replayed replayed
    have stays : x ∈ cell.dropWhile fun x => decide (x.stamp < now - s.epoch - s.model.windowS) := by
      generalize cut : (fun x : AgedSample => decide (x.stamp < now - s.epoch - s.model.windowS)) = p
      rw [← List.takeWhile_append_dropWhile (p := p) (l := cell), List.mem_append] at mem
      refine mem.resolve_left fun dropped => ?_
      have early := List.mem_takeWhile_imp dropped
      rw [← cut, decide_eq_true_eq] at early
      rw [stamp] at early
      linarith
    have left := mem_samples_prune.mpr ⟨cell, there, rfl, List.ne_nil_of_mem stays⟩
    have pairs := (kept.prune).cells key
    rw [Option.mem_def.mp left, Option.map_some] at pairs
    obtain ⟨samples, same, -, within⟩ := fresh key _ pairs
    obtain rfl := Option.some.inj ((Option.mem_def.mp left).symm.trans same)
    have recent : now - s.model.windowS ≤ x.completedAt := (within x stays).1
    linarith
  · intro outlived key cell here
    rw [kept.prune.cells key, Option.mem_def, Option.map_eq_some_iff] at here
    obtain ⟨samples, here, rfl⟩ := here
    refine ⟨samples, here, rfl, fun x mem => ?_⟩
    have late := kept.stamp_of_pruned here x mem
    obtain ⟨before, there, rfl, -⟩ := mem_samples_prune.mp here
    have stood := (List.dropWhile_sublist _).subset mem
    obtain ⟨past, live, replayed⟩ := kept.stamped key before there x stood
    change now - s.model.windowS ≤ x.completedAt ∧ x.completedAt ≤ now
    cases kind : x.replayed with
    | false =>
        have stamp := live kind
        constructor <;> linarith
    | true =>
        obtain ⟨stamp, -, before_start⟩ := replayed kind
        refine ⟨?_, by linarith⟩
        by_contra old
        have held := List.mem_map_of_mem (f := Prod.snd) (Dict.mem_entries_iff.mpr there)
        have := outlived before held x stood kind (not_le.mp old)
        linarith

theorem kept_run (model : TimeoutModel) (wall epoch : ℚ) {events : List Event}
    (clock : Runs.Clocked Event.wall events now) :
    (Runs.run step (init model wall epoch) events).Kept now := by
  refine Runs.run_clocked (fun _ (s : TimeoutHost) now => s.Kept now) ?_ ?_ ?_ clock
  · exact fun now => ⟨fun _ => rfl, fun _ mem => absurd mem List.not_mem_nil, nofun, nofun⟩
  · exact fun _ s now now' kept later => kept.later later
  · exact fun events e kept => kept.step e

/-- After every `prune` of a run no sample is older than the window, exactly if at every `prune` of
the run no replayed sample has outlived it. -/
theorem fresh_iff (model : TimeoutModel) (wall epoch : ℚ) {events : List Event}
    (clock : Runs.Clocked Event.wall events now) :
    (∀ before t, before ++ [.prune t] <+: events →
      (Runs.run step (init model wall epoch) (before ++ [.prune t])).Fresh t) ↔
      Runs.Along step Outlived (init model wall epoch) events := by
  have one (before rest : List Event) (t : ℚ) (split : events = before ++ .prune t :: rest) :
      (Runs.run step (init model wall epoch) (before ++ [.prune t])).Fresh t ↔
        (Runs.run step (init model wall epoch) before).Outlived (.prune t) := by
    rw [split] at clock
    rw [Runs.run_append]
    exact (kept_run model wall epoch clock.split).fresh_prune_iff
  constructor
  · intro fresh
    refine Runs.along_of_split fun before e rest split => ?_
    cases e with
    | prune t =>
        refine (one before rest t split).mp (fresh before t ⟨rest, ?_⟩)
        rw [split, ← List.append_cons]
    | _ => trivial
  · rintro outlived before t ⟨rest, split⟩
    rw [← List.append_cons] at split
    exact (one before rest t split.symm).mpr (split.symm ▸ outlived).split.2

/-- A sample is replayed; the first prune finds it young enough, the second drops it. -/
theorem fresh_iff_replayed :
    (Runs.run step (init { windowS := 10 } 0 0)
      ([.persist 1 ⟨"a", 3, some 10, some 10, some (1 / 2), none, "ok", 0⟩, .restart 5 2, .prune 9] ++
        [.prune 17])).Fresh 17 := by
  have clock : Runs.Clocked Event.wall
      [.persist 1 ⟨"a", 3, some 10, some 10, some (1 / 2), none, "ok", 0⟩,
        .restart 5 2, .prune 9, .prune 17] 17 := by decide
  exact (fresh_iff { windowS := 10 } 0 0 clock).mpr (by decide +kernel) _ 17 (List.prefix_refl _)

/-- A process that starts nine seconds after a completion still counts it after fifteen, with a window
of ten. -/
theorem replayed_outlives_window :
    let events : List Event := [.persist 0 ⟨"a", 3, some 10, some 10, some (1 / 2), none, "ok", 0⟩,
      .restart 9 9]
    (Runs.run step (init { windowS := 10 } 0 0) (events ++ [.prune 15])).model.cells.get? ("a", 3, 0, 0) =
        some [(0, 500)] ∧
      ¬(Runs.run step (init { windowS := 10 } 0 0) (events ++ [.prune 15])).Fresh 15 := by
  intro events
  have clock : Runs.Clocked Event.wall events 15 := by decide
  refine ⟨by decide +kernel, fun fresh => ?_⟩
  have outlived := (kept_run { windowS := 10 } 0 0 clock).fresh_prune_iff.mp fresh
  exact absurd outlived (by decide +kernel)

/-- No sample stays for more than two windows. -/
theorem twice_the_window (model : TimeoutModel) (wall epoch : ℚ) (window : 0 ≤ model.windowS)
    {events : List Event} (clock : Runs.Clocked Event.wall events now) (key : CellKey)
    {samples : List AgedSample}
    (here : samples ∈ ((Runs.run step (init model wall epoch) events).prune now).samples.get? key) :
    ∀ x ∈ samples, now - 2 * model.windowS ≤ x.completedAt := by
  have kept := kept_run model wall epoch clock
  have same : (Runs.run step (init model wall epoch) events).model.windowS = model.windowS :=
    Runs.run_forall (fun s : TimeoutHost => s.model.windowS = model.windowS)
      (fun s e here => (windowS_step s e).trans here) rfl events
  generalize Runs.run step (init model wall epoch) events = s at kept same here
  intro x mem
  have late := kept.stamp_of_pruned here x mem
  obtain ⟨before, there, rfl, -⟩ := mem_samples_prune.mp here
  obtain ⟨past, live, replayed⟩ :=
    kept.stamped key before there x ((List.dropWhile_sublist _).subset mem)
  rw [same] at late replayed
  cases kind : x.replayed with
  | false =>
      have stamp := live kind
      linarith
  | true =>
      obtain ⟨stamp, recent, -⟩ := replayed kind
      linarith

/-- The sample that outlives a window of ten is less than twenty old. -/
theorem twice_the_window_replayed :
    let events : List Event := [.persist 0 ⟨"a", 3, some 10, some 10, some (1 / 2), none, "ok", 0⟩,
      .restart 9 9]
    ∃ samples ∈ ((Runs.run step (init { windowS := 10 } 0 0) events).prune 15).samples.get? ("a", 3, 0, 0),
      samples ≠ [] ∧ ∀ x ∈ samples, (15 : ℚ) - 2 * 10 ≤ x.completedAt := by
  intro events
  have clock : Runs.Clocked Event.wall events 15 := by decide
  have held : (((Runs.run step (init { windowS := 10 } 0 0) events).prune 15).samples.get?
      ("a", 3, 0, 0)).any (fun samples => !samples.isEmpty) = true := by decide +kernel
  obtain ⟨samples, here, some_left⟩ := (Option.any_eq_true _ _).mp held
  refine ⟨samples, here, by simpa using some_left, ?_⟩
  exact twice_the_window { windowS := 10 } 0 0 (by norm_num) clock ("a", 3, 0, 0) here

end Run

end TimeoutHost

end Roadstead
