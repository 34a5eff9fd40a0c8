import Mathlib.Data.List.Chain
import Mathlib.Data.List.Infix
import Mathlib.Tactic.Linarith
import Roadstead.Goodput
import Roadstead.Lib.Run

/-!
# Blindness never trips

`Evident` is what a collapsed verdict rests on: a window with every counter that a configured clause needs in
every sample, none of them falling, and every clause held.  `evaluate_evident` says that there is no
other way to the verdict.

The latch counts.  `consecutiveCollapsed` is never more than the number of the last answers that were to a
collapsed verdict and did nothing (`counted_run`), whatever becomes of the thresholds between them, so a
trip has as many of them behind it as the rule says.
-/

namespace Roadstead.Goodput

/-- How much a counter rose over a window. -/
def rise (window : List Sample) (key : Key) : ℚ :=
  (readings window key).getLast?.getD 0 - (readings window key).head?.getD 0

/-- What a collapsed verdict rests on. -/
structure Evident (t : Thresholds) (window : List Sample) : Prop where
  armed : t.armed = true
  enough : minSamples ≤ window.length
  long : minWindowS ≤ span window
  present : ∀ clause ∈ t.needed, ∀ key ∈ clause.keys, ∀ s ∈ window, (s.values key).isSome = true
  rising : ∀ clause ∈ t.needed, ∀ key ∈ clause.keys, key ∈ Key.cumulative →
    (readings window key).Pairwise (· ≤ ·)
  occupied : ∀ value ∈ readings window .running, (t.minRunning : ℚ) ≤ value
  iterations : ∀ ceiling, t.maxIterationRate = some ceiling → 0 < ceiling →
    rise window .iterations / span window < ceiling
  generation : ∀ ceiling, t.maxGenerationTpsPerRequest = some ceiling → 0 < ceiling →
    rise window .generation / span window / runningMean window < ceiling
  prefill : ∀ ceiling, t.maxPrefillTps = some ceiling → 0 < ceiling →
    rise window .prompt / span window < ceiling
  idle : 0 < t.busyMin → ∀ value ∈ readings window .busy, value < t.busyMin

/-! ### The verdict -/

section Window

variable {window : List Sample} {key : Key}

/-- The readings of a counter that every sample has. -/
theorem map_values (present : ∀ s ∈ window, (s.values key).isSome = true) :
    window.map (fun s => s.values key) = (readings window key).map some := by
  induction window with
  | nil => rfl
  | cons s window ih =>
      obtain ⟨value, there⟩ := Option.isSome_iff_exists.mp (present s List.mem_cons_self)
      have rest := ih fun s mem => present s (List.mem_cons_of_mem _ mem)
      rw [readings, List.map_cons, List.filterMap_cons, there, List.map_cons, rest]
      rfl

/-- Values that never fall are in order. -/
theorem isChain_of_falls {prev : Option ℚ} {values : List ℚ} (steady : falls prev (values.map some) = false) :
    (prev.toList ++ values).IsChain (· ≤ ·) := by
  induction values generalizing prev with
  | nil => cases prev <;> simp
  | cons value values ih =>
      rw [List.map_cons, falls, Bool.or_eq_false_iff] at steady
      have rest := ih steady.2
      cases prev with
      | none => exact rest
      | some p =>
          have le : p ≤ value := by simpa using steady.1
          exact List.IsChain.cons_cons le rest

theorem readings_pairwise (steady : resetDetected window = false)
    (present : ∀ s ∈ window, (s.values key).isSome = true) (counts : key ∈ Key.cumulative) :
    (readings window key).Pairwise (· ≤ ·) := by
  rw [resetDetected, List.any_eq_false] at steady
  have none_falls := Bool.eq_false_iff.mpr (steady key counts)
  rw [map_values present] at none_falls
  exact List.isChain_iff_pairwise.mp (isChain_of_falls none_falls)

/-- The rate of a counter that every sample has. -/
theorem rate_eq (present : ∀ s ∈ window, (s.values key).isSome = true) {value : ℚ}
    (found : rate window key = some value) : value = rise window key / span window := by
  have values := map_values present
  have first : (window.head?.bind fun s => s.values key) = (readings window key).head? := by
    have heads := congrArg List.head? values
    rw [List.head?_map, List.head?_map] at heads
    cases there : window.head? <;> cases there' : (readings window key).head? <;> simp_all
  have last : (window.getLast?.bind fun s => s.values key) = (readings window key).getLast? := by
    have lasts := congrArg List.getLast? values
    rw [List.getLast?_map, List.getLast?_map] at lasts
    cases there : window.getLast? <;> cases there' : (readings window key).getLast? <;> simp_all
  unfold rate at found
  rw [first, last] at found
  split at found
  · cases found
  · split at found
    · next head tail there there' =>
        cases found
        rw [rise, there, there']
        rfl
    · cases found

theorem lt_of_maxLevel {value bound : ℚ} (found : maxLevel window key = some value) (below : value < bound) :
    ∀ reading ∈ readings window key, reading < bound := by
  unfold maxLevel at found
  split at found
  · cases found
  · intro reading mem
    exact lt_of_le_of_lt ((List.max?_eq_some_iff.mp found).2 reading mem) below

theorem le_of_runningMin {bound : ℚ} (least : bound ≤ runningMin window) :
    ∀ reading ∈ readings window .running, bound ≤ reading := by
  intro reading mem
  rw [runningMin] at least
  cases found : (readings window .running).min? with
  | none =>
      rw [List.min?_eq_none_iff.mp found] at mem
      cases mem
  | some value =>
      rw [found, Option.getD_some] at least
      exact least.trans ((List.min?_eq_some_iff.mp found).2 reading mem)

/-- The rows are those of the progress clauses. -/
theorem map_fst_rows (t : Thresholds) (window : List Sample) : (rows t window).map Prod.fst = t.progressClauses := by
  unfold rows Thresholds.progressClauses
  cases Thresholds.declared t.maxIterationRate <;> cases Thresholds.declared t.maxGenerationTpsPerRequest <;>
    cases Thresholds.declared t.maxPrefillTps <;> by_cases busy : 0 < t.busyMin <;> simp [busy]

/-- A collapsed verdict is one where each row is below its ceiling. -/
theorem judge_collapsed {t : Thresholds} (collapsed : (judge t window).outcome = .collapsed) :
    (t.minRunning : ℚ) ≤ runningMin window ∧
      ∀ row ∈ rows t window, ∃ value, row.2.1 = some value ∧ value < row.2.2 := by
  unfold judge at collapsed
  split at collapsed
  · cases collapsed
  next occupied =>
    refine ⟨not_lt.mp occupied, ?_⟩
    split at collapsed
    · cases collapsed
    · dsimp only at collapsed
      split at collapsed
      case isFalse => cases collapsed
      next all_held =>
        have count : t.needed.length = (rows t window).length + 1 := by
          rw [Thresholds.needed, List.length_cons, ← map_fst_rows t window, List.length_map]
        rw [List.length_cons, List.length_map, count, Nat.add_right_cancel_iff,
          List.length_filter_eq_length_iff] at all_held
        intro row mem
        obtain ⟨value, there, below⟩ := (Option.any_eq_true _ _).mp (all_held row mem)
        exact ⟨value, there, of_decide_eq_true below⟩

theorem mem_rows {t : Thresholds} {row : Clause × Option ℚ × ℚ} (clause : row.1 ∈ t.progressClauses)
    (listed : row ∈ [(Clause.iterations, rate window .iterations, t.maxIterationRate.getD 0),
      (.generation, (rate window .generation).bind fun tps =>
        if runningMean window ≤ 0 then none else some (tps / runningMean window),
        t.maxGenerationTpsPerRequest.getD 0),
      (.prefill, rate window .prompt, t.maxPrefillTps.getD 0),
      (.engineIdle, maxLevel window .busy, t.busyMin)]) : row ∈ rows t window :=
  List.mem_filter.mpr ⟨listed, decide_eq_true clause⟩

theorem present_of_missingCounters {clauses : List Clause} (complete : missingCounters window clauses = [])
    {clause : Clause} (listed : clause ∈ clauses) (needs : key ∈ clause.keys) :
    ∀ s ∈ window, (s.values key).isSome = true := by
  intro s mem
  rw [missingCounters, List.filter_eq_nil_iff] at complete
  have here := complete key (List.mem_eraseDups.mpr (List.mem_flatMap.mpr ⟨clause, listed, needs⟩))
  rw [List.any_eq_true] at here
  by_contra absent
  exact here ⟨s, mem, by simpa using absent⟩

end Window

/-- The one way to a collapsed verdict. -/
theorem evaluate_collapsed {m : GoodputMonitor} {endpoint : String} {t : Thresholds} {now : ℚ}
    (collapsed : (m.evaluate endpoint t now).2.outcome = .collapsed) :
    t.armed = true ∧ minSamples ≤ (m.window endpoint now).length ∧ minWindowS ≤ span (m.window endpoint now) ∧
      resetDetected (m.window endpoint now) = false ∧ missingCounters (m.window endpoint now) t.needed = [] ∧
      (judge t (m.window endpoint now)).outcome = .collapsed := by
  unfold GoodputMonitor.evaluate at collapsed
  dsimp only at collapsed
  split at collapsed
  · cases collapsed
  next armed =>
  split at collapsed
  · cases collapsed
  split at collapsed
  · cases collapsed
  next enough =>
  split at collapsed
  · cases collapsed
  next long =>
  split at collapsed
  · cases collapsed
  next steady =>
  split at collapsed
  · cases collapsed
  next complete =>
  exact ⟨by simpa using armed, not_lt.mp enough, not_lt.mp long, Bool.eq_false_iff.mpr steady,
    not_not.mp complete, collapsed⟩

theorem evaluate_evident {m : GoodputMonitor} {endpoint : String} {t : Thresholds} {now : ℚ}
    (collapsed : (m.evaluate endpoint t now).2.outcome = .collapsed) : Evident t (m.window endpoint now) := by
  obtain ⟨armed, enough, long, steady, complete, judged⟩ := evaluate_collapsed collapsed
  obtain ⟨occupied, below⟩ := judge_collapsed judged
  have present : ∀ clause ∈ t.needed, ∀ key ∈ clause.keys, ∀ s ∈ m.window endpoint now,
      (s.values key).isSome = true := fun clause listed key needs =>
    present_of_missingCounters complete listed needs
  have progress : ∀ clause ∈ t.progressClauses, clause ∈ t.needed := fun clause => List.mem_cons_of_mem _
  refine ⟨armed, enough, long, present, fun clause listed key needs counts => ?_, le_of_runningMin occupied,
    fun ceiling declared positive => ?_, fun ceiling declared positive => ?_, fun ceiling declared positive => ?_,
    fun positive => ?_⟩
  · exact readings_pairwise steady (present clause listed key needs) counts
  · have clause : Clause.iterations ∈ t.progressClauses := by
      simp [Thresholds.progressClauses, declared, Thresholds.declared, positive]
    obtain ⟨value, found, lt⟩ := below _ (mem_rows clause List.mem_cons_self)
    rw [declared, Option.getD_some] at lt
    rw [← rate_eq (present _ (progress _ clause) .iterations (by simp [Clause.keys])) found]
    exact lt
  · have clause : Clause.generation ∈ t.progressClauses := by
      simp [Thresholds.progressClauses, declared, Thresholds.declared, positive]
    obtain ⟨value, found, lt⟩ := below _ (mem_rows clause (List.mem_cons_of_mem _ List.mem_cons_self))
    obtain ⟨tps, tokens, per_request⟩ := Option.bind_eq_some_iff.mp found
    split at per_request
    · cases per_request
    · cases per_request
      rw [declared, Option.getD_some] at lt
      rw [← rate_eq (present _ (progress _ clause) .generation (by simp [Clause.keys])) tokens]
      exact lt
  · have clause : Clause.prefill ∈ t.progressClauses := by
      simp [Thresholds.progressClauses, declared, Thresholds.declared, positive]
    obtain ⟨value, found, lt⟩ := below (.prefill, rate (m.window endpoint now) .prompt, t.maxPrefillTps.getD 0)
      (mem_rows clause (by simp))
    rw [declared, Option.getD_some] at lt
    rw [← rate_eq (present _ (progress _ clause) .prompt (by simp [Clause.keys])) found]
    exact lt
  · have clause : Clause.engineIdle ∈ t.progressClauses := by
      simp [Thresholds.progressClauses, positive]
    obtain ⟨value, found, lt⟩ := below (.engineIdle, maxLevel (m.window endpoint now) .busy, t.busyMin)
      (mem_rows clause (by simp))
    exact lt_of_maxLevel found lt

theorem getLast?_toList_suffix {α : Type*} (l : List α) : l.getLast?.toList <:+ l := by
  rcases List.eq_nil_or_concat l with rfl | ⟨init, last, rfl⟩
  · exact List.suffix_rfl
  · rw [List.concat_eq_append, List.getLast?_concat]
    exact List.suffix_append init [last]

/-- `evaluate` leaves a ring as it is, or its newest sample. -/
theorem ring_evaluate (m : GoodputMonitor) (endpoint other : String) (t : Thresholds) (now : ℚ) :
    (m.evaluate endpoint t now).1.ring other <:+ m.ring other ∧
      (m.evaluate endpoint t now).1.latches = m.latches := by
  have same : ∀ m' : GoodputMonitor, m' = m → m'.ring other <:+ m.ring other ∧ m'.latches = m.latches := by
    rintro m' rfl
    exact ⟨List.suffix_rfl, rfl⟩
  unfold GoodputMonitor.evaluate
  dsimp only
  split
  · exact same _ rfl
  split
  · exact same _ rfl
  split
  · exact same _ rfl
  split
  · exact same _ rfl
  split
  · refine ⟨?_, rfl⟩
    by_cases this : other = endpoint
    · subst this
      have newest : GoodputMonitor.ring { m with rings := m.rings.set other (m.ring other).getLast?.toList } other =
          (m.ring other).getLast?.toList := by
        rw [GoodputMonitor.ring, Dict.get?_set_self, Option.getD_some]
      rw [newest]
      exact getLast?_toList_suffix _
    · rw [GoodputMonitor.ring, Dict.get?_set_of_ne _ this]
      exact List.suffix_rfl
  split
  · exact same _ rfl
  · exact same _ rfl

/-! ### The latch -/

/-- A call of the monitor. -/
inductive Op where
  | observe (endpoint : String) (ts : ℚ) (counters : Option Counters)
  | evaluate (endpoint : String) (t : Thresholds) (now : ℚ)
  | step (endpoint : String) (outcome : Verdict) (tripped : Bool) (t : Thresholds) (now : ℚ)
  | forget (endpoint : String)

/-- A monitor with what it was shown of each endpoint, and what its latch answered, the newest first. -/
structure Watch where
  monitor : GoodputMonitor
  stream : String → List Sample := fun _ => []
  answers : String → List (Verdict × LatchAction) := fun _ => []

namespace Watch

def apply (w : Watch) : Op → Watch
  | .observe endpoint ts counters =>
      { w with
          monitor := w.monitor.observe endpoint ts counters
          stream := Function.update w.stream endpoint
            (w.stream endpoint ++ [{ ts := ts, values := recorded counters }]) }
  | .evaluate endpoint t now => { w with monitor := (w.monitor.evaluate endpoint t now).1 }
  | .step endpoint outcome tripped t now =>
      let stepped := w.monitor.step endpoint outcome tripped t now
      { w with
          monitor := stepped.1
          answers := Function.update w.answers endpoint ((outcome, stepped.2) :: w.answers endpoint) }
  | .forget endpoint => { w with monitor := w.monitor.forget endpoint }

/-- A run from a monitor that was shown nothing. -/
def run (ringCapacity : ℕ) (rateWindowS : ℚ) (ops : List Op) : Watch :=
  Runs.run apply { monitor := { ringCapacity := ringCapacity, rateWindowS := rateWindowS } } ops

/-- The count of a latch is backed by the last answers. -/
def Counted (answers : List (Verdict × LatchAction)) (latch : LatchState) : Prop :=
  answers.take latch.consecutiveCollapsed.toNat =
    List.replicate latch.consecutiveCollapsed.toNat (.collapsed, .none)

/-- The ring holds the last samples. -/
structure Sound (w : Watch) : Prop where
  ring : ∀ endpoint, w.monitor.ring endpoint <:+ w.stream endpoint
  counted : ∀ endpoint, Counted (w.answers endpoint) (w.monitor.latch endpoint)

variable {answers : List (Verdict × LatchAction)}

theorem Counted.zero {latch : LatchState}
    (zero : latch.consecutiveCollapsed = 0) : Counted answers latch := by
  rw [Counted, zero]
  rfl

/-- One answer more to a collapsed verdict. -/
theorem Counted.cons {latch latch' : LatchState} (counted : Counted answers latch)
    (one : latch'.consecutiveCollapsed ≤ latch.consecutiveCollapsed + 1) :
    Counted ((.collapsed, .none) :: answers) latch' := by
  rw [Counted] at counted ⊢
  cases count : latch'.consecutiveCollapsed.toNat with
  | zero => rfl
  | succ n =>
      have fewer : n ≤ latch.consecutiveCollapsed.toNat := by omega
      have shorter := congrArg (List.take n) counted
      rw [List.take_take, List.take_replicate, min_eq_left fewer] at shorter
      rw [List.take_succ_cons, shorter, List.replicate_succ]

/-- What one step of a latch leaves of its count. -/
theorem counted_step {latch : LatchState}
    (counted : Counted answers latch) (outcome : Verdict) (tripped : Bool) (t : Thresholds) (now : ℚ) :
    Counted ((outcome, (latch.step outcome tripped t now).2) :: answers) (latch.step outcome tripped t now).1 := by
  unfold LatchState.step
  split
  · exact .zero rfl
  cases outcome with
  | collapsed =>
      dsimp only
      split
      · exact .zero rfl
      · exact counted.cons (min_le_left _ _)
  | healthy =>
      dsimp only
      split <;> exact .zero rfl
  | unknown => exact .zero rfl

/-- A trip has as many answers behind it as the rule says. -/
theorem sustained_of_trip {latch : LatchState}
    (counted : Counted answers latch) {outcome : Verdict} {tripped : Bool} {t : Thresholds} {now : ℚ}
    (trips : (latch.step outcome tripped t now).2 = .trip) :
    outcome = .collapsed ∧ answers.take (t.sustainEvaluations - 1).toNat =
      List.replicate (t.sustainEvaluations - 1).toNat (.collapsed, .none) := by
  unfold LatchState.step at trips
  split at trips
  · cases trips
  cases outcome with
  | healthy =>
      dsimp only at trips
      split at trips <;> cases trips
  | unknown => cases trips
  | collapsed =>
      dsimp only at trips
      split at trips
      case isFalse => cases trips
      next reached =>
        refine ⟨rfl, ?_⟩
        have enough : (t.sustainEvaluations - 1).toNat ≤ latch.consecutiveCollapsed.toNat := by
          have bound := reached.2.trans (min_le_left _ _)
          omega
        have shorter := congrArg (List.take (t.sustainEvaluations - 1).toNat) counted
        rwa [List.take_take, List.take_replicate, min_eq_left enough] at shorter

theorem sound_apply {w : Watch} (sound : w.Sound) (op : Op) : (w.apply op).Sound := by
  obtain ⟨ring, counted⟩ := sound
  cases op with
  | observe endpoint ts counters =>
      refine ⟨fun other => ?_, counted⟩
      by_cases this : other = endpoint
      · subst this
        obtain ⟨before, split⟩ := ring other
        simp only [apply, Function.update_self, GoodputMonitor.observe, GoodputMonitor.ring, Dict.get?_set_self,
          Option.getD_some]
        refine (List.drop_suffix _ _).trans ⟨before, ?_⟩
        rw [← split, List.append_assoc]
        rfl
      · simp only [apply, Function.update_of_ne this, GoodputMonitor.observe, GoodputMonitor.ring,
          Dict.get?_set_of_ne _ this]
        exact ring other
  | evaluate endpoint t now =>
      refine ⟨fun other => ?_, fun other => ?_⟩
      · exact (ring_evaluate w.monitor endpoint other t now).1.trans (ring other)
      · have latches := (ring_evaluate w.monitor endpoint other t now).2
        simp only [apply, GoodputMonitor.latch, latches]
        exact counted other
  | step endpoint outcome tripped t now =>
      refine ⟨ring, fun other => ?_⟩
      by_cases this : other = endpoint
      · subst this
        simp only [apply, Function.update_self, GoodputMonitor.step, GoodputMonitor.latch, Dict.get?_set_self,
          Option.getD_some]
        exact counted_step (counted other) outcome tripped t now
      · simp only [apply, Function.update_of_ne this, GoodputMonitor.step, GoodputMonitor.latch,
          Dict.get?_set_of_ne _ this]
        exact counted other
  | forget endpoint =>
      refine ⟨fun other => ?_, fun other => ?_⟩
      · by_cases this : other = endpoint
        · subst this
          simp only [apply, GoodputMonitor.forget, GoodputMonitor.ring, Dict.get?_erase_self, Option.getD_none]
          exact List.nil_suffix
        · simp only [apply, GoodputMonitor.forget, GoodputMonitor.ring, Dict.get?_erase_of_ne _ this]
          exact ring other
      · by_cases this : other = endpoint
        · subst this
          simp only [apply, GoodputMonitor.forget, GoodputMonitor.latch, Dict.get?_erase_self, Option.getD_none]
          exact .zero rfl
        · simp only [apply, GoodputMonitor.forget, GoodputMonitor.latch, Dict.get?_erase_of_ne _ this]
          exact counted other

theorem sound_run (ringCapacity : ℕ) (rateWindowS : ℚ) (ops : List Op) : (run ringCapacity rateWindowS ops).Sound :=
  Runs.run_forall Sound (fun _ op sound => sound_apply sound op)
    ⟨fun _ => List.suffix_rfl, fun _ => .zero rfl⟩ ops

end Watch

/-- **Blindness never trips.**  In every run, a collapsed verdict rests on what the window shows, which is of the
last samples of the endpoint; and a trip, on as many collapsed verdicts in a row as the rule says, with
no other answer among them. -/
theorem blindness_never_trips (ringCapacity : ℕ) (rateWindowS : ℚ) (ops : List Op) (endpoint : String)
    (t : Thresholds) (now : ℚ) :
    let w := Watch.run ringCapacity rateWindowS ops
    w.monitor.ring endpoint <:+ w.stream endpoint ∧
    ((w.monitor.evaluate endpoint t now).2.outcome = .collapsed → Evident t (w.monitor.window endpoint now)) ∧
    ∀ outcome tripped, (w.monitor.step endpoint outcome tripped t now).2 = .trip →
      1 ≤ t.sustainEvaluations → outcome = .collapsed ∧
        ((w.apply (.step endpoint outcome tripped t now)).answers endpoint).take t.sustainEvaluations.toNat =
          (.collapsed, .trip) :: List.replicate (t.sustainEvaluations.toNat - 1) (.collapsed, .none) := by
  intro w
  have sound : w.Sound := Watch.sound_run ringCapacity rateWindowS ops
  refine ⟨sound.ring endpoint, evaluate_evident, fun outcome tripped trips some_rule => ?_⟩
  obtain ⟨rfl, before⟩ := Watch.sustained_of_trip (sound.counted endpoint) trips
  refine ⟨rfl, ?_⟩
  obtain ⟨n, count⟩ : ∃ n, t.sustainEvaluations.toNat = n + 1 := ⟨t.sustainEvaluations.toNat - 1, by omega⟩
  have fewer : (t.sustainEvaluations - 1).toNat = n := by omega
  rw [fewer] at before
  simp only [Watch.apply, Function.update_self, count, List.take_succ_cons, Nat.add_sub_cancel]
  rw [before, trips]

/-- An engine with two requests running that does nothing. -/
def stuck : Counters
  | .running => some 2
  | .prompt => some 7
  | _ => none

def prefillOnly : Thresholds where
  minRunning := 1
  sustainEvaluations := 1
  maxPrefillTps := some 10

theorem blindness_never_trips_stuck :
    Evident prefillOnly ((Watch.run 6 25 [.observe "chat" 0 (some stuck), .observe "chat" 10 (some stuck)]).monitor.window
      "chat" 10) ∧
    ((Watch.run 6 25 [.observe "chat" 0 (some stuck), .observe "chat" 10 (some stuck)]).apply
      (.step "chat" .collapsed false prefillOnly 10)).answers "chat" = [(.collapsed, .trip)] := by
  have shown := blindness_never_trips 6 25 [.observe "chat" 0 (some stuck), .observe "chat" 10 (some stuck)] "chat"
    prefillOnly 10
  refine ⟨shown.2.1 (by decide +kernel), ?_⟩
  have last := (shown.2.2 .collapsed false (by decide) (by decide)).2
  exact last

end Roadstead.Goodput
