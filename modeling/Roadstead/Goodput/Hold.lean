import Roadstead.Goodput.Blindness

/-!
# How long an endpoint is held

A tick looks at a latch only where the endpoint's thresholds are armed, so the ceiling on a hold is one
only for an endpoint that stays armed: where the thresholds were withdrawn, an endpoint that was tripped
stays in `collapsed_endpoints` at every tick (`hold_released_iff`).

The invariant is that the latch of a held endpoint has the time of its last trip (`heldSince_run`).
-/

namespace Roadstead.Goodput

/-- The state after a sequence of ticks. -/
def Health.run (ticks : List Tick) : Health := Runs.run Health.sampleGoodput {} ticks

/-- A tick trips an endpoint. -/
def Trips (endpoint : String) (h : Health) (tick : Tick) : Prop :=
  tick.endpoint = endpoint ∧ endpoint ∉ h.collapsedEndpoints ∧ endpoint ∈ (h.sampleGoodput tick).collapsedEndpoints

/-- The latch of an endpoint has the time of the trip that is held. -/
def HeldSince (endpoint : String) (since : ℚ) (h : Health) : Prop :=
  endpoint ∈ h.collapsedEndpoints → (h.goodput.latch endpoint).trippedAt = since

/-- The endpoints that are held after an action. -/
def act (endpoint : String) (held : Finset String) : LatchAction → Finset String
  | .trip => insert endpoint held
  | .clear => held.erase endpoint
  | .none => held

section Tick

variable {h : Health} {tick : Tick}

theorem sampleGoodput_of_disarmed (disarmed : tick.thresholds.armed = false) : h.sampleGoodput tick = h :=
  if_pos disarmed

/-- The step of a latch that a tick takes on a verdict. -/
def stepped (h : Health) (tick : Tick) (outcome : Verdict) : LatchState × LatchAction :=
  (h.goodput.latch tick.endpoint).step outcome (decide (tick.endpoint ∈ h.collapsedEndpoints)) tick.thresholds
    tick.now

/-- What a tick of an armed endpoint does: one step of its latch. -/
theorem sampleGoodput_spec (armed : tick.thresholds.armed = true) :
    ∃ outcome, (h.sampleGoodput tick).goodput.latch tick.endpoint = (stepped h tick outcome).1 ∧
      (∀ other, other ≠ tick.endpoint → (h.sampleGoodput tick).goodput.latch other = h.goodput.latch other) ∧
      (h.sampleGoodput tick).collapsedEndpoints =
        act tick.endpoint h.collapsedEndpoints (stepped h tick outcome).2 := by
  have latch : ∀ endpoint, ((h.goodput.observe tick.endpoint tick.now tick.merged).evaluate tick.endpoint
      tick.thresholds tick.now).1.latch endpoint = h.goodput.latch endpoint := by
    intro endpoint
    rw [GoodputMonitor.latch, (ring_evaluate _ tick.endpoint tick.endpoint tick.thresholds tick.now).2]
    rfl
  have runs : ¬tick.thresholds.armed = false := by simp [armed]
  unfold Health.sampleGoodput
  rw [if_neg runs]
  refine ⟨((h.goodput.observe tick.endpoint tick.now tick.merged).evaluate tick.endpoint tick.thresholds
    tick.now).2.outcome, ?_, fun other ne => ?_, ?_⟩
  · simp only [GoodputMonitor.step]
    rw [GoodputMonitor.latch, Dict.get?_set_self, Option.getD_some, latch, stepped]
  · simp only [GoodputMonitor.step]
    rw [GoodputMonitor.latch, Dict.get?_set_of_ne _ ne]
    exact latch other
  · simp only [GoodputMonitor.step, latch, stepped]
    rfl

end Tick

/-- A latch that does nothing keeps the time of its trip. -/
theorem trippedAt_of_none {latch : LatchState} {outcome : Verdict} {tripped : Bool} {t : Thresholds} {now : ℚ}
    (idle : (latch.step outcome tripped t now).2 = .none) :
    (latch.step outcome tripped t now).1.trippedAt = latch.trippedAt := by
  unfold LatchState.step at idle ⊢
  split
  · next due =>
      rw [if_pos due] at idle
      cases idle
  next early =>
  rw [if_neg early] at idle
  cases outcome with
  | collapsed =>
      dsimp only at idle ⊢
      split
      · next trips =>
          rw [if_pos trips] at idle
          cases idle
      · rfl
  | healthy =>
      dsimp only at idle ⊢
      split
      · next clears =>
          rw [if_pos clears] at idle
          cases idle
      · rfl
  | unknown => rfl

/-- A trip is one of an endpoint that is not held. -/
theorem trippedAt_of_trip {latch : LatchState} {outcome : Verdict} {tripped : Bool} {t : Thresholds} {now : ℚ}
    (trips : (latch.step outcome tripped t now).2 = .trip) :
    tripped = false ∧ (latch.step outcome tripped t now).1.trippedAt = now := by
  unfold LatchState.step at trips ⊢
  split
  · next due =>
      rw [if_pos due] at trips
      cases trips
  next early =>
  rw [if_neg early] at trips
  cases outcome with
  | collapsed =>
      dsimp only at trips ⊢
      split
      · next reached => exact ⟨reached.1, rfl⟩
      · next idle =>
          rw [if_neg idle] at trips
          cases trips
  | healthy =>
      dsimp only at trips
      split at trips <;> cases trips
  | unknown => cases trips

section Endpoint

variable {endpoint : String} {since : ℚ} {h : Health} {tick : Tick}

/-- The tick that trips an endpoint starts its hold. -/
theorem heldSince_of_trips (trips : Trips endpoint h tick) : HeldSince endpoint tick.now (h.sampleGoodput tick) := by
  obtain ⟨rfl, out, held⟩ := trips
  intro _
  cases armed : tick.thresholds.armed with
  | false =>
      rw [sampleGoodput_of_disarmed armed] at held
      exact absurd held out
  | true =>
      obtain ⟨outcome, latch, -, collapsed⟩ := sampleGoodput_spec armed (h := h)
      rw [collapsed] at held
      cases action : (stepped h tick outcome).2 with
      | trip =>
          rw [latch]
          exact (trippedAt_of_trip action).2
      | clear =>
          rw [action] at held
          exact absurd (Finset.mem_of_mem_erase held) out
      | none =>
          rw [action] at held
          exact absurd held out

/-- Any other tick leaves the time of a hold as it is. -/
theorem heldSince_step (held_since : HeldSince endpoint since h) (quiet : ¬Trips endpoint h tick) :
    HeldSince endpoint since (h.sampleGoodput tick) := by
  intro held
  have before : endpoint ∈ h.collapsedEndpoints ∨ tick.endpoint ≠ endpoint := by
    by_contra neither
    obtain ⟨out, same⟩ := not_or.mp neither
    exact quiet ⟨not_not.mp same, out, held⟩
  cases armed : tick.thresholds.armed with
  | false =>
      rw [sampleGoodput_of_disarmed armed] at held ⊢
      exact held_since held
  | true =>
      obtain ⟨outcome, latch, others, collapsed⟩ := sampleGoodput_spec armed (h := h)
      rw [collapsed] at held
      by_cases same : tick.endpoint = endpoint
      · subst same
        have was := before.resolve_right (not_not.mpr rfl)
        cases action : (stepped h tick outcome).2 with
        | none =>
            rw [latch]
            exact (trippedAt_of_none action).trans (held_since was)
        | clear =>
            rw [action] at held
            exact absurd rfl (Finset.ne_of_mem_erase held)
        | trip => exact absurd was (of_decide_eq_false (trippedAt_of_trip action).1)
      · rw [others _ (Ne.symm same)]
        refine held_since ?_
        cases action : (stepped h tick outcome).2 with
        | none => rwa [action] at held
        | clear =>
            rw [action] at held
            exact Finset.mem_of_mem_erase held
        | trip =>
            rw [action] at held
            exact (Finset.mem_insert.mp held).resolve_left (Ne.symm same)

/-- A tick of an armed endpoint releases it when its hold has lasted long enough. -/
theorem released_of_armed (held_since : HeldSince endpoint since h) (clock : since ≠ 0)
    (this : tick.endpoint = endpoint) (armed : tick.thresholds.armed = true)
    (due : since + tick.thresholds.effectiveMaxHoldS ≤ tick.now) (held : endpoint ∈ h.collapsedEndpoints) :
    endpoint ∉ (h.sampleGoodput tick).collapsedEndpoints := by
  subst this
  obtain ⟨outcome, -, -, collapsed⟩ := sampleGoodput_spec armed (h := h)
  have at_trip : (h.goodput.latch tick.endpoint).trippedAt = since := held_since held
  have clears : (stepped h tick outcome).2 = .clear := by
    unfold stepped LatchState.step
    rw [if_pos]
    rw [at_trip]
    exact ⟨decide_eq_true held, clock, by linarith⟩
  rw [collapsed, clears]
  exact Finset.notMem_erase _ _

end Endpoint

/-- **No hold forever, where the detector runs.**  An endpoint that was tripped and not tripped again is out of
`collapsed_endpoints` after a tick at which its hold has lasted the maximum, exactly if its thresholds are
armed at that tick, or an earlier one released it. -/
theorem hold_released_iff (before between : List Tick) (trip last : Tick) (endpoint : String)
    (trips : Trips endpoint (.run before) trip) (clock : trip.now ≠ 0)
    (once : Runs.Along Health.sampleGoodput (fun h tick => ¬Trips endpoint h tick) (.run (before ++ [trip]))
      (between ++ [last]))
    (this : last.endpoint = endpoint) (due : trip.now + last.thresholds.effectiveMaxHoldS ≤ last.now) :
    endpoint ∉ (Health.run (before ++ [trip] ++ (between ++ [last]))).collapsedEndpoints ↔
      last.thresholds.armed = true ∨
        endpoint ∉ (Health.run (before ++ [trip] ++ between)).collapsedEndpoints := by
  obtain ⟨quiet, quiet_last, -⟩ := Runs.along_append.mp once
  have start : HeldSince endpoint trip.now (.run (before ++ [trip])) := by
    rw [Health.run, Runs.run_append]
    exact heldSince_of_trips trips
  have held_since : HeldSince endpoint trip.now (.run (before ++ [trip] ++ between)) := by
    rw [Health.run, Runs.run_append]
    exact Runs.run_invariant (HeldSince endpoint trip.now) (fun _ _ => heldSince_step) start quiet
  have tick : Health.run (before ++ [trip] ++ (between ++ [last])) =
      (Health.run (before ++ [trip] ++ between)).sampleGoodput last := by
    rw [← List.append_assoc, Health.run, Runs.run_append]
    rfl
  have quiet_now : ¬Trips endpoint (Health.run (before ++ [trip] ++ between)) last := by
    rw [Health.run, Runs.run_append]
    exact quiet_last
  rw [tick]
  constructor
  · intro out
    by_contra neither
    obtain ⟨disarmed, held⟩ := not_or.mp neither
    rw [sampleGoodput_of_disarmed (Bool.eq_false_iff.mpr disarmed)] at out
    exact held out
  · rintro (armed | out)
    · by_cases held : endpoint ∈ (Health.run (before ++ [trip] ++ between)).collapsedEndpoints
      · exact released_of_armed held_since clock this armed due held
      · exact fun back => quiet_now ⟨this, held, back⟩
    · exact fun back => quiet_now ⟨this, out, back⟩

/-- A tick of an engine with two requests running that does nothing. -/
def stuckTick (t : Thresholds) (now : ℚ) : Tick :=
  { endpoint := "chat", thresholds := t, now := now, counters := some stuck }

theorem trips_stuckTick :
    Trips "chat" (.run [stuckTick prefillOnly 10]) (stuckTick prefillOnly 20) :=
  ⟨rfl, by decide +kernel, by decide +kernel⟩

theorem hold_released_iff_armed :
    "chat" ∉ (Health.run ([stuckTick prefillOnly 10] ++ [stuckTick prefillOnly 20] ++
      ([] ++ [stuckTick prefillOnly 320]))).collapsedEndpoints ↔
      prefillOnly.armed = true ∨
        "chat" ∉ (Health.run ([stuckTick prefillOnly 10] ++ [stuckTick prefillOnly 20] ++ [])).collapsedEndpoints :=
  hold_released_iff [stuckTick prefillOnly 10] [] (stuckTick prefillOnly 20) (stuckTick prefillOnly 320) "chat"
    trips_stuckTick (by decide) ⟨fun trips => trips.2.1 trips_stuckTick.2.2, trivial⟩ rfl
    (by norm_num [stuckTick, prefillOnly, Thresholds.effectiveMaxHoldS])

/-- The thresholds of a tripped endpoint are withdrawn: the tick that is due leaves it held. -/
theorem held_when_disarmed :
    Trips "chat" (.run [stuckTick prefillOnly 10]) (stuckTick prefillOnly 20) ∧
    "chat" ∈ (Health.run [stuckTick prefillOnly 10, stuckTick prefillOnly 20, stuckTick {} 320]).collapsedEndpoints := by
  have disarmed : (stuckTick {} 320).thresholds.armed = false := by decide
  have kept : Health.run [stuckTick prefillOnly 10, stuckTick prefillOnly 20, stuckTick {} 320] =
      Health.run [stuckTick prefillOnly 10, stuckTick prefillOnly 20] := sampleGoodput_of_disarmed disarmed
  rw [kept]
  exact ⟨trips_stuckTick, trips_stuckTick.2.2⟩

end Roadstead.Goodput
