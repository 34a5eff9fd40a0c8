import Roadstead.Lib.Run
import Roadstead.Lib.Window
import Roadstead.Rate

/-!
# The rate window is exact

A window is trimmed when it is written, when it is read and by the sweep, and it holds no more than
`maxSamples` timestamps.  None of this is seen: what is left of a caller's timestamps are the last
`maxSamples` of them, but for some that have left the window (`Tracks`), and these are never counted
again as time goes on.
-/

namespace Roadstead

namespace Rate

/-! ### One window -/

/-- A window that was last touched at `now`, of a caller that sent its requests at `times`. -/
def Tracks (times window : List ℚ) (now : ℚ) : Prop :=
  ∃ stale, times.rtake maxSamples = stale ++ window ∧ ∀ time ∈ stale, time < now - windowS

section Tracks

variable {times window : List ℚ} {now now' : ℚ}

theorem Tracks.later (tracks : Tracks times window now) (later : now ≤ now') :
    Tracks times window now' := by
  obtain ⟨stale, split, old⟩ := tracks
  exact ⟨stale, split, fun time mem => (old time mem).trans_le (sub_le_sub_right later _)⟩

theorem Tracks.trim (tracks : Tracks times window now) (later : now ≤ now') :
    Tracks times (Rate.trim window now') now' := by
  obtain ⟨stale, split, old⟩ := tracks.later later
  refine ⟨stale ++ window.takeWhile fun time => decide (time < now' - windowS), ?_, ?_⟩
  · rw [split, List.append_assoc, Rate.trim, List.takeWhile_append_dropWhile]
  · intro time mem
    rcases List.mem_append.mp mem with before | here
    · exact old time before
    · have dropped := List.mem_takeWhile_imp here
      exact of_decide_eq_true dropped

/-- One more request: where the window is full, the oldest timestamp goes. -/
theorem Tracks.record (tracks : Tracks times window now) (later : now ≤ now') :
    Tracks (times ++ [now']) (if maxSamples < (window ++ [now']).length then (window ++ [now']).tail
      else window ++ [now']) now' := by
  obtain ⟨stale, split, old⟩ := tracks.later later
  have room : maxSamples - 1 + 1 = maxSamples := by decide
  have next : (times ++ [now']).rtake maxSamples = (times.rtake (maxSamples - 1)) ++ [now'] := by
    rw [← List.rtake_concat_succ, room]
  have counted := congrArg List.length split
  rw [Window.length_rtake, List.length_append] at counted
  rw [List.length_append, List.length_singleton]
  by_cases full : times.length < maxSamples
  · -- nothing has been dropped for want of room, and nothing is now
    have all : times.rtake (maxSamples - 1) = times.rtake maxSamples := by
      have dropped : times.length - (maxSamples - 1) = times.length - maxSamples := by omega
      rw [List.rtake, List.rtake, dropped]
    rw [if_neg (by omega)]
    exact ⟨stale, by rw [next, all, split, List.append_assoc], old⟩
  · have drop : times.rtake (maxSamples - 1) = (times.rtake maxSamples).tail := by
      have dropped : times.length - (maxSamples - 1) = times.length - maxSamples + 1 := by
        omega
      rw [List.rtake, List.rtake, List.tail_drop, dropped]
    cases stale with
    | nil =>
        have held : window ≠ [] := by
          rintro rfl
          have : 0 < maxSamples := by decide
          simp only [List.length_nil] at counted
          omega
        rw [List.length_nil] at counted
        rw [if_pos (by omega), List.tail_append_of_ne_nil held]
        refine ⟨[], ?_, old⟩
        rw [next, drop, split, List.nil_append, List.nil_append]
    | cons first stale =>
        rw [List.length_cons] at counted
        rw [if_neg (by omega)]
        refine ⟨stale, ?_, fun time mem => old time (List.mem_cons_of_mem first mem)⟩
        rw [next, drop, split, List.cons_append, List.tail_cons, List.append_assoc]

/-- What is left in the window at `now'` is counted. -/
theorem Tracks.length_trim (tracks : Tracks times window now) (ordered : times.Pairwise (· ≤ ·))
    (later : now ≤ now') : (Rate.trim window now').length =
      min maxSamples (times.filter fun time => decide (now' - windowS ≤ time)).length := by
  obtain ⟨stale, split, old⟩ := tracks.later later
  have last : (times.rtake maxSamples).Pairwise (· ≤ ·) :=
    ordered.sublist (Window.rtake_suffix times _).sublist
  rw [← Window.length_filter_rtake ordered]
  rw [split] at last ⊢
  have gone : stale.filter (fun time => decide (now' - windowS ≤ time)) = [] := by
    rw [List.filter_eq_nil_iff]
    intro time mem
    rw [decide_eq_true_eq]
    exact not_le.mpr (old time mem)
  rw [List.filter_append, gone, List.nil_append, Rate.trim,
    Window.dropWhile_lt_eq_filter (List.pairwise_append.mp last).2.1]

end Tracks

theorem trim_trim (window : List ℚ) (now : ℚ) : trim (trim window now) now = trim window now :=
  List.dropWhile_idempotent _ window

end Rate

open Rate

namespace RateLedger

/-! ### What a call does to the windows -/

section Calls

variable {l : RateLedger} {agentId : String} {now : ℚ}

/-- The window of a caller; one that is not kept is empty. -/
def window (l : RateLedger) (agentId : String) : List ℚ := (l.windows.get? agentId).getD []

theorem window_record (l : RateLedger) (agentId other : String) (now : ℚ) :
    (l.record agentId now).window other =
      if other = agentId then trim (if maxSamples < (l.window agentId ++ [now]).length then
        (l.window agentId ++ [now]).tail else l.window agentId ++ [now]) now
      else l.window other := by
  rw [window, record, Dict.get?_set]
  by_cases same : other = agentId
  · rw [if_pos same, if_pos same]
    rfl
  · rw [if_neg same, if_neg same]
    rfl

theorem window_observed (l : RateLedger) (agentId other : String) (now : ℚ) :
    (l.observed agentId now).1.window other =
      if other = agentId then trim (l.window other) now else l.window other := by
  unfold observed
  by_cases same : other = agentId
  · subst same
    rw [if_pos rfl]
    split
    · next none => rw [window, none]; rfl
    · next none => rw [window, none]; rfl
    · next w found => rw [window, window, Dict.get?_set, if_pos rfl, found]; rfl
  · rw [if_neg same]
    split
    · rfl
    · rfl
    · rw [window, Dict.get?_set, if_neg same]
      rfl

/-- What is observed is the length of the window as it is trimmed. -/
theorem observed_eq (l : RateLedger) (agentId : String) (now : ℚ) :
    (l.observed agentId now).2 = (trim (l.window agentId) now).length := by
  unfold observed
  split
  · next none => rw [window, none]; rfl
  · next none => rw [window, none]; rfl
  · next w found =>
      rw [window, found]
      simp [windowS]

theorem window_snapshot (l : RateLedger) (other : String) (now : ℚ) :
    (l.snapshot now).1.window other = trim (l.window other) now := by
  have rows (names : List String) (acc : RateLedger × List (String × ℚ)) :
      (names.foldl (snapshotRow now) acc).1.window other =
        if other ∈ names then trim (acc.1.window other) now else acc.1.window other := by
    induction names generalizing acc with
    | nil => rfl
    | cons name names ih =>
        rw [List.foldl_cons, ih, snapshotRow]
        simp only [window_observed]
        by_cases here : other = name
        · simp [here, trim_trim]
        · simp [here]
  rw [snapshot]
  refine (rows _ _).trans ?_
  by_cases kept : other ∈ l.windows.keys
  · rw [if_pos kept]
  · rw [if_neg kept, window, Dict.get?_eq_none_iff.mpr kept]
    rfl

theorem window_prune (l : RateLedger) (other : String) (now : ℚ) :
    (l.prune now).1.window other = trim (l.window other) now := by
  rw [prune, window, window, Dict.get?_filter, Dict.get?_map]
  cases l.windows.get? other with
  | none => rfl
  | some w =>
      rw [Option.map_some, Option.getD_some]
      cases left : trim w now with
      | nil | cons time rest => rfl

end Calls

/-! ### Runs -/

/-- The times of the requests of a caller. -/
def recordsOf (agentId : String) (calls : List (ℚ × RateCall)) : List ℚ :=
  calls.filterMap fun call => if call.2 = .record agentId then some call.1 else none

theorem recordsOf_concat (agentId : String) (calls : List (ℚ × RateCall)) (call : ℚ × RateCall) :
    recordsOf agentId (calls ++ [call]) =
      recordsOf agentId calls ++ if call.2 = .record agentId then [call.1] else [] := by
  rw [recordsOf, List.filterMap_append, ← recordsOf]
  split
  · next here => simp [here]
  · next other => simp [other]

theorem recordsOf_sublist (agentId : String) (calls : List (ℚ × RateCall)) :
    (recordsOf agentId calls).Sublist (calls.map Prod.fst) := by
  induction calls with
  | nil => exact List.Sublist.slnil
  | cons call calls ih =>
      rw [recordsOf, List.filterMap_cons, ← recordsOf, List.map_cons]
      split
      · exact ih.cons call.1
      · next time here =>
          split at here
          · cases here
            exact ih.cons_cons call.1
          · cases here

/-- A call at its time keeps track of every caller. -/
theorem step_tracks {l : RateLedger} {calls : List (ℚ × RateCall)} {agentId : String}
    (call : ℚ × RateCall) (tracks : Tracks (recordsOf agentId calls) (l.window agentId) call.1) :
    Tracks (recordsOf agentId (calls ++ [call])) ((l.step call).window agentId) call.1 := by
  obtain ⟨now, op⟩ := call
  rw [recordsOf_concat, step]
  cases op with
  | record other =>
      simp only [RateCall.record.injEq, window_record, eq_comm (a := agentId)]
      by_cases here : other = agentId
      · rw [if_pos here, if_pos here, here]
        exact (tracks.record le_rfl).trim le_rfl
      · rw [if_neg here, if_neg here, List.append_nil]
        exact tracks
  | observed other =>
      rw [if_neg (by simp), List.append_nil, window_observed]
      split
      · exact tracks.trim le_rfl
      · exact tracks
  | snapshot =>
      rw [if_neg (by simp), List.append_nil, window_snapshot]
      exact tracks.trim le_rfl
  | prune =>
      rw [if_neg (by simp), List.append_nil, window_prune]
      exact tracks.trim le_rfl

theorem run_tracks {calls : List (ℚ × RateCall)} {now : ℚ} (clock : Runs.Clocked Prod.fst calls now)
    (agentId : String) :
    Tracks (recordsOf agentId calls) ((Runs.run step {} calls).window agentId) now := by
  refine Runs.run_clocked (fun calls (l : RateLedger) now =>
    Tracks (recordsOf agentId calls) (l.window agentId) now) ?_ ?_ ?_ clock
  · intro now
    exact ⟨[], List.rtake_nil _, fun time mem => absurd mem List.not_mem_nil⟩
  · exact fun calls l now now' tracks later => tracks.later later
  · exact fun calls call tracks => step_tracks call tracks

/-- What is observed of a caller is the number of its requests within the window, up to
`maxSamples`. -/
theorem observed_run {calls : List (ℚ × RateCall)} {now : ℚ}
    (clock : Runs.Clocked Prod.fst calls now) (agentId : String) :
    ((Runs.run step {} calls).observed agentId now).2 = (min maxSamples
      ((recordsOf agentId calls).filter fun time => decide (now - windowS ≤ time)).length : ℕ) := by
  have ordered : (calls.map Prod.fst).Pairwise (· ≤ ·) := (List.pairwise_append.mp clock).1
  rw [observed_eq, (run_tracks clock agentId).length_trim
    (ordered.sublist (recordsOf_sublist agentId calls)) le_rfl]

/-- What is observed of a caller is the number of its requests within the window, up to
`maxSamples`, and never more than that number.  Calls that record the same requests of the caller
give the same answer, whatever is read, swept or recorded of others in between. -/
theorem observed_exact {calls : List (ℚ × RateCall)} {now : ℚ}
    (clock : Runs.Clocked Prod.fst calls now) (agentId : String) :
    ((Runs.run step {} calls).observed agentId now).2 = (min maxSamples
        ((recordsOf agentId calls).filter fun time => decide (now - windowS ≤ time)).length : ℕ) ∧
      ((Runs.run step {} calls).observed agentId now).2 ≤
        ((recordsOf agentId calls).filter fun time => decide (now - windowS ≤ time)).length ∧
      ∀ calls', Runs.Clocked Prod.fst calls' now → recordsOf agentId calls' = recordsOf agentId calls →
        ((Runs.run step {} calls').observed agentId now).2 =
          ((Runs.run step {} calls).observed agentId now).2 := by
  refine ⟨observed_run clock agentId, ?_, ?_⟩
  · rw [observed_run clock agentId]
    exact Nat.cast_le.mpr (min_le_right _ _)
  · intro calls' clock' same
    rw [observed_run clock' agentId, observed_run clock agentId, same]

/-- Of two requests a minute apart, with a read and a sweep in between, the first is gone. -/
theorem observed_exact_swept :
    ((Runs.run step {} [(0, .record "a"), (1, .record "b"), (30, .observed "a"), (60, .record "a"),
        (61, .prune)]).observed "a" 62).2 = 1 := by
  have clock : Runs.Clocked Prod.fst [(0, RateCall.record "a"), (1, .record "b"),
    (30, .observed "a"), (60, .record "a"), (61, .prune)] (62 : ℚ) := by decide
  rw [(observed_exact clock "a").1]
  decide +kernel

end RateLedger

end Roadstead
