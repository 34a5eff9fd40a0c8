import Roadstead.Breaker
import Roadstead.Lib.Window
import Roadstead.Scheduler.Safety

/-!
# When the circuit trips

`Tripped` reads the state of a circuit off what its endpoint has answered: enough discoveries failed in a
row, `/health` did not answer either, and nothing has since.  `Follows` says that a record is in this
state, and that its counter is the number of failures in a row; both halves of a call keep it.
-/

namespace Roadstead.Breaker

open Circuits

/-- What an endpoint answers: to a discovery, or to a `/health` probe. -/
inductive Result where
  | discovered
  | failed
  | alive
  | dead
  deriving DecidableEq

/-- An answer that brings a tripped endpoint back. -/
def Result.Recovers (r : Result) : Prop := r = .discovered ∨ r = .alive

instance : DecidablePred Result.Recovers := fun _ => inferInstanceAs (Decidable (_ ∨ _))

/-- What a turn tells of an endpoint. -/
def CircuitEvent.result? (ep : String) : CircuitEvent → Option Result
  | .poll ep' probeOk => if ep' = ep then some (if probeOk then .discovered else .failed) else none
  | .answer ep' alive _ => if ep' = ep then some (if alive then .alive else .dead) else none
  | .other _ => none

/-- What an endpoint has answered. -/
def results (ep : String) (events : List CircuitEvent) : List Result :=
  events.filterMap (CircuitEvent.result? ep)

/-- The failures in a row that are the latest answers. -/
def failuresInARow (rs : List Result) : ℕ := (rs.rtakeWhile fun r => decide (r = .failed)).length

/-- `/health` failed after `threshold` discoveries had failed in a row, and nothing has succeeded
since. -/
def Tripped (threshold : ℤ) (rs : List Result) : Prop :=
  ∃ before fails rest, rs = before ++ fails ++ .dead :: rest ∧ (∀ r ∈ fails, r = .failed) ∧
    threshold ≤ fails.length ∧ ∀ r ∈ rest, ¬r.Recovers

/-! ### Lists of answers -/

section Answers

variable {threshold : ℤ} {rs : List Result}

theorem failuresInARow_concat (rs : List Result) (r : Result) :
    failuresInARow (rs ++ [r]) = if r = .failed then failuresInARow rs + 1 else 0 := by
  rw [failuresInARow, List.rtakeWhile_concat]
  by_cases failed : r = .failed
  · rw [decide_eq_true failed, if_pos rfl, if_pos failed, List.length_append, List.length_singleton]
    rfl
  · rw [decide_eq_false failed, if_neg Bool.false_ne_true, if_neg failed, List.length_nil]

theorem Tripped.concat (tripped : Tripped threshold rs) {r : Result} (still : ¬r.Recovers) :
    Tripped threshold (rs ++ [r]) := by
  obtain ⟨before, fails, rest, rfl, failed, many, silent⟩ := tripped
  refine ⟨before, fails, rest ++ [r], ?_, failed, many, ?_⟩
  · rw [List.append_assoc, List.cons_append]
  · intro r' mem
    rcases List.mem_append.mp mem with old | new
    · exact silent r' old
    · rw [List.mem_singleton.mp new]
      exact still

/-- The endpoint trips at a failed `/health` probe. -/
theorem tripped_of_dead (many : threshold ≤ failuresInARow rs) : Tripped threshold (rs ++ [.dead]) := by
  have suffix : (rs.rtakeWhile fun r => decide (r = .failed)) <:+ rs := List.rtakeWhile_suffix _ rs
  obtain ⟨before, split⟩ := suffix
  refine ⟨before, rs.rtakeWhile fun r => decide (r = .failed), [], ?_, fun r mem => ?_, many, ?_⟩
  · rw [split]
  · exact of_decide_eq_true (Window.forall_rtakeWhile rs r mem)
  · exact fun r mem => absurd mem List.not_mem_nil

theorem not_tripped_nil : ¬Tripped threshold [] := by
  rintro ⟨before, fails, rest, split, -⟩
  simp at split

/-- An answer that does not come from a failed probe trips nothing. -/
theorem Tripped.of_concat {r : Result} (tripped : Tripped threshold (rs ++ [r])) (probed : r ≠ .dead) :
    Tripped threshold rs ∧ ¬r.Recovers := by
  obtain ⟨before, fails, rest, split, failed, many, silent⟩ := tripped
  rcases rest.eq_nil_or_concat with rfl | ⟨rest, last, rfl⟩
  · obtain ⟨-, same⟩ := List.append_inj' split rfl
    exact absurd (List.head_eq_of_cons_eq same) probed
  · rw [List.concat_eq_append] at split silent
    rw [← List.cons_append, ← List.append_assoc] at split
    obtain ⟨rfl, same⟩ := List.append_inj' split rfl
    obtain rfl := List.head_eq_of_cons_eq same
    refine ⟨⟨before, fails, rest, rfl, failed, many, fun r' mem => ?_⟩, ?_⟩
    · exact silent r' (List.mem_append_left _ mem)
    · exact silent r (List.mem_append_right _ (List.mem_singleton_self r))

end Answers

/-! ### One call -/

/-- What the record of an endpoint and its call have to do with its answers. -/
structure Follows (threshold : ℤ) (rs : List Result) (h : EndpointHealth) (await : Option Await) :
    Prop where
  healthy : h.healthy = false ↔ Tripped threshold rs
  failures : h.healthy = true → h.consecutiveFailures = failuresInARow rs
  confirmation : await = some .confirmation → h.healthy = true ∧ threshold ≤ failuresInARow rs
  recovery : await = some .recovery → h.healthy = false

section Call

variable {threshold : ℤ} {rs : List Result} {h : EndpointHealth}

theorem follows_nil : Follows threshold [] {} none where
  healthy := iff_of_false nofun not_tripped_nil
  failures _ := rfl
  confirmation := nofun
  recovery := nofun

/-- A success leaves a fresh record. -/
theorem follows_recovered {r : Result} (recovers : r.Recovers) :
    Follows threshold (rs ++ [r]) {} none where
  healthy := by
    have probed : r ≠ .dead := by
      rcases recovers with rfl | rfl <;> decide
    exact iff_of_false nofun fun tripped => (tripped.of_concat probed).2 recovers
  failures _ := by
    have other : r ≠ .failed := by
      rcases recovers with rfl | rfl <;> decide
    rw [failuresInARow_concat, if_neg other]
  confirmation := nofun
  recovery := nofun

theorem startUpdate_sick (sick : h.healthy = false) :
    startUpdate threshold h false = (h, some .recovery) := by
  rw [startUpdate, if_neg Bool.false_ne_true, sick]
  rfl

theorem startUpdate_well (well : h.healthy = true) : startUpdate threshold h false =
    ({ h with consecutiveFailures := h.consecutiveFailures + 1 },
      if threshold ≤ ↑(h.consecutiveFailures + 1) then some .confirmation else none) := by
  rw [startUpdate, if_neg Bool.false_ne_true, well]
  rfl

theorem Follows.start {await : Option Await} (follows : Follows threshold rs h await) (probeOk : Bool) :
    Follows threshold (rs ++ [if probeOk then .discovered else .failed])
      (startUpdate threshold h probeOk).1 (startUpdate threshold h probeOk).2 := by
  cases probeOk with
  | true => exact follows_recovered (.inl rfl)
  | false =>
      have same : h.healthy = false ↔ Tripped threshold (rs ++ [.failed]) :=
        follows.healthy.trans
          ⟨fun tripped => tripped.concat (by decide), fun tripped => (tripped.of_concat (by decide)).1⟩
      rw [if_neg Bool.false_ne_true]
      cases well : h.healthy with
      | false =>
          rw [startUpdate_sick well]
          exact ⟨same, fun other => absurd (well.symm.trans other) Bool.false_ne_true, nofun,
            fun _ => well⟩
      | true =>
          have counted := follows.failures well
          rw [startUpdate_well well]
          refine ⟨same, fun _ => ?_, fun asked => ⟨well, ?_⟩, fun asked => ?_⟩
          · rw [failuresInARow_concat, if_pos rfl, counted]
          · rw [failuresInARow_concat, if_pos rfl, ← counted]
            by_contra few
            rw [if_neg few] at asked
            cases asked
          · split at asked <;> cases asked

theorem Follows.finish {await : Await} (follows : Follows threshold rs h (some await)) (alive : Bool)
    (now : ℚ) : Follows threshold (rs ++ [if alive then .alive else .dead])
      (finishUpdate h alive now await) none := by
  cases await with
  | recovery =>
      cases alive with
      | true => exact follows_recovered (.inr rfl)
      | false =>
          have sick := follows.recovery rfl
          have tripped := (follows.healthy.mp sick).concat (r := .dead) (by decide)
          refine ⟨iff_of_true sick tripped, fun well => ?_, nofun, nofun⟩
          exact absurd (sick.symm.trans well) Bool.false_ne_true
  | confirmation =>
      obtain ⟨well, many⟩ := follows.confirmation rfl
      cases alive with
      | true =>
          refine ⟨iff_of_false ?_ fun tripped => ?_, fun _ => ?_, nofun, nofun⟩
          · exact fun sick => Bool.false_ne_true (sick.symm.trans well)
          · exact (tripped.of_concat (by decide)).2 (.inr rfl)
          · rw [failuresInARow_concat]
            rfl
      | false => exact ⟨iff_of_true rfl (tripped_of_dead many), nofun, nofun, nofun⟩

end Call

/-! ### Runs -/

section Run

variable (cfg : ProxyConfig) (policy : Policy) (threshold : ℤ)

/-- The circuits after a list of turns. -/
def after (g : Gateway) (events : List CircuitEvent) : Circuits :=
  Runs.run (step cfg policy threshold) { gateway := g } events

/-- A turn is one of a call for an endpoint. -/
def CircuitEvent.Concerns (ep : String) : CircuitEvent → Prop
  | .poll ep' _ => ep' = ep
  | .answer ep' _ _ => ep' = ep
  | .other _ => False

/-- An endpoint is marked unhealthy that was not. -/
def Trips (s : Circuits) (e : CircuitEvent) (ep : String) : Prop :=
  (s.record ep).healthy = true ∧ ((step cfg policy threshold s e).record ep).healthy = false

/-- What `update_endpoint_health` promises after a list of turns. -/
structure Lawful (g : Gateway) (events : List CircuitEvent) : Prop where
  /-- An endpoint is unhealthy as long as it is tripped. -/
  circuit (ep : String) :
    ((after cfg policy threshold g events).record ep).healthy = false ↔
      Tripped threshold (results ep events)
  /-- The next turn of a call releases the cohort if it marks the endpoint unhealthy. -/
  released (e : CircuitEvent) (ep : String) : Sequential (after cfg policy threshold g events) e →
    Trips cfg policy threshold (after cfg policy threshold g events) e ep → ∃ now,
      e = .answer ep false now ∧
      (step cfg policy threshold (after cfg policy threshold g events) e).gateway =
        (marked (after cfg policy threshold g events).gateway ep
          ((step cfg policy threshold (after cfg policy threshold g events) e).record ep)
          ).fastFailInteractive cfg ep "circuit open" now
  /-- If it does not, the queues stay as they are. -/
  quiet (e : CircuitEvent) (ep : String) : Sequential (after cfg policy threshold g events) e →
    e.Concerns ep → ¬Trips cfg policy threshold (after cfg policy threshold g events) e ep →
      (step cfg policy threshold (after cfg policy threshold g events) e).gateway =
        marked (after cfg policy threshold g events).gateway ep
          ((step cfg policy threshold (after cfg policy threshold g events) e).record ep)

variable {cfg policy threshold} {g : Gateway} {s : Circuits} {events : List CircuitEvent}

theorem record_set (s : Circuits) (ep ep' : String) (h : EndpointHealth) :
    ((s.endpointHealth.set ep h).get? ep').getD {} = if ep' = ep then h else s.record ep' := by
  rw [Dict.get?_set]
  split <;> rfl

theorem record_poll (s : Circuits) (ep ep' : String) (probeOk : Bool) :
    (step cfg policy threshold s (.poll ep probeOk)).record ep' =
      if ep' = ep then (startUpdate threshold (s.record ep) probeOk).1 else s.record ep' :=
  record_set s ep ep' _

theorem awaiting_poll {ep : String} {probeOk : Bool} (sequential : Sequential s (.poll ep probeOk))
    (ep' : String) : (step cfg policy threshold s (.poll ep probeOk)).awaiting.get? ep' =
      if ep' = ep then (startUpdate threshold (s.record ep) probeOk).2 else s.awaiting.get? ep' := by
  have free : s.awaiting.get? ep = none := sequential
  cases polled : (startUpdate threshold (s.record ep) probeOk).2 with
  | none =>
      simp only [step, polled]
      by_cases same : ep' = ep
      · rw [if_pos same, same, free]
      · rw [if_neg same]
  | some await =>
      simp only [step, polled]
      exact Dict.get?_set _ _ _ _

theorem step_answer {await : Await} (asked : s.awaiting.get? ep = some await) (alive : Bool) (now : ℚ) :
    step cfg policy threshold s (.answer ep alive now) =
      { endpointHealth := s.endpointHealth.set ep (finishUpdate (s.record ep) alive now await)
        awaiting := s.awaiting.erase ep
        gateway := if await = .confirmation ∧ alive = false then
          (marked s.gateway ep (finishUpdate (s.record ep) alive now await)).fastFailInteractive cfg ep
            "circuit open" now
          else marked s.gateway ep (finishUpdate (s.record ep) alive now await) } := by
  rw [step, asked]

/-- Every record follows what its endpoint has answered. -/
def Sound (threshold : ℤ) (events : List CircuitEvent) (s : Circuits) : Prop :=
  ∀ ep, Follows threshold (results ep events) (s.record ep) (s.awaiting.get? ep)

theorem results_concat (ep : String) (events : List CircuitEvent) (e : CircuitEvent) :
    results ep (events ++ [e]) = results ep events ++ (e.result? ep).toList := by
  rw [results, List.filterMap_append, List.filterMap_cons, List.filterMap_nil]
  cases e.result? ep <;> rfl

theorem Sound.step (sound : Sound threshold events s) {e : CircuitEvent} (sequential : Sequential s e) :
    Sound threshold (events ++ [e]) (Circuits.step cfg policy threshold s e) := by
  intro ep'
  rw [results_concat]
  cases e with
  | poll ep probeOk =>
      rw [record_poll, awaiting_poll sequential, CircuitEvent.result?]
      by_cases same : ep' = ep
      · subst same
        rw [if_pos rfl, if_pos rfl, if_pos rfl]
        exact (sound ep').start probeOk
      · rw [if_neg same, if_neg same, if_neg (Ne.symm same), Option.toList_none, List.append_nil]
        exact sound ep'
  | answer ep alive now =>
      obtain ⟨await, asked⟩ := Option.ne_none_iff_exists'.mp sequential
      rw [step_answer asked, CircuitEvent.result?, Circuits.record, record_set, Dict.get?_erase]
      by_cases same : ep' = ep
      · subst same
        rw [if_pos rfl, if_pos rfl, if_pos rfl]
        have follows := sound ep'
        rw [asked] at follows
        exact follows.finish alive now
      · rw [if_neg same, if_neg same, if_neg (Ne.symm same), Option.toList_none, List.append_nil]
        exact sound ep'
  | other e =>
      rw [CircuitEvent.result?, Option.toList_none, List.append_nil]
      exact sound ep'

theorem sound_after (sequential : Runs.Along (step cfg policy threshold) Sequential { gateway := g }
    events) : Sound threshold events (after cfg policy threshold g events) := by
  induction events using List.reverseRecOn with
  | nil => exact fun ep => follows_nil
  | append_singleton events e ih =>
      obtain ⟨before, last, -⟩ := Runs.along_append.mp sequential
      rw [after, Runs.run_append]
      exact (ih before).step last

/-- What a turn of a call does to the gateway. -/
theorem Sound.gateway (sound : Sound threshold events s) {e : CircuitEvent} {ep : String}
    (sequential : Sequential s e) (concerns : e.Concerns ep) :
    (∃ now, e = .answer ep false now ∧ Trips cfg policy threshold s e ep ∧
      (Circuits.step cfg policy threshold s e).gateway =
        (marked s.gateway ep ((Circuits.step cfg policy threshold s e).record ep)).fastFailInteractive
          cfg ep "circuit open" now) ∨
      ¬Trips cfg policy threshold s e ep ∧ (Circuits.step cfg policy threshold s e).gateway =
        marked s.gateway ep ((Circuits.step cfg policy threshold s e).record ep) := by
  cases e with
  | poll ep' probeOk =>
      obtain rfl : ep' = ep := concerns
      refine .inr ⟨?_, ?_⟩
      · rintro ⟨well, sick⟩
        rw [record_poll, if_pos rfl] at sick
        cases probeOk with
        | true => cases sick
        | false =>
            rw [startUpdate_well well] at sick
            exact Bool.false_ne_true (sick.symm.trans well)
      · rw [record_poll, if_pos rfl]
        rfl
  | answer ep' alive now =>
      obtain rfl : ep' = ep := concerns
      obtain ⟨await, asked⟩ := Option.ne_none_iff_exists'.mp sequential
      have follows := sound ep'
      rw [asked] at follows
      have record : (Circuits.step cfg policy threshold s (.answer ep' alive now)).record ep' =
          finishUpdate (s.record ep') alive now await := by
        rw [step_answer asked, Circuits.record, record_set, if_pos rfl]
      by_cases down : await = .confirmation ∧ alive = false
      · obtain ⟨rfl, rfl⟩ := down
        refine .inl ⟨now, rfl, ⟨(follows.confirmation rfl).1, ?_⟩, ?_⟩
        · rw [record]
          rfl
        · rw [record, step_answer asked]
          rfl
      · refine .inr ⟨?_, ?_⟩
        · rintro ⟨well, sick⟩
          rw [record] at sick
          cases await with
          | recovery => exact Bool.false_ne_true ((follows.recovery rfl).symm.trans well)
          | confirmation =>
              cases alive with
              | true => exact Bool.false_ne_true (sick.symm.trans well)
              | false => exact down ⟨rfl, rfl⟩
        · rw [record, step_answer asked]
          exact if_neg down
  | other e => exact concerns.elim

/-- Only a turn of a call for an endpoint changes its record. -/
theorem concerns_of_trips {e : CircuitEvent} {ep : String}
    (trips : Trips cfg policy threshold s e ep) : e.Concerns ep := by
  obtain ⟨well, sick⟩ := trips
  by_contra other
  refine Bool.false_ne_true (sick.symm.trans ?_)
  cases e with
  | poll ep' probeOk => rw [record_poll, if_neg (Ne.symm other), well]
  | answer ep' alive now =>
      cases asked : s.awaiting.get? ep' with
      | none => rw [step, asked, well]
      | some await => rw [step_answer asked, Circuits.record, record_set, if_neg (Ne.symm other), well]
  | other e => exact well

/-- The law of the circuit breaker. -/
theorem breaker_lawful (sequential : Runs.Along (step cfg policy threshold) Sequential { gateway := g }
    events) : Lawful cfg policy threshold g events := by
  have sound := sound_after sequential
  constructor
  case circuit => exact fun ep => (sound ep).healthy
  case released =>
    intro e ep next trips
    rcases sound.gateway next (concerns_of_trips trips) with ⟨now, here, -, released⟩ | ⟨still, -⟩
    · exact ⟨now, here, released⟩
    · exact absurd trips still
  case quiet =>
    intro e ep next concerns still
    rcases sound.gateway next concerns with ⟨-, -, trips, -⟩ | ⟨-, quiet⟩
    · exact absurd trips still
    · exact quiet

theorem breaker_lawful_back : Lawful smallFleet {} 2 (Gateway.init smallFleet {} {})
    [.poll "a" false, .poll "a" false, .poll "b" false, .answer "a" false 7, .poll "a" false,
      .answer "a" true 9] :=
  breaker_lawful ⟨rfl, rfl, rfl, by decide, rfl, by decide, trivial⟩

end Run

end Roadstead.Breaker
