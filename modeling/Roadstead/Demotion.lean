import Roadstead.Rate.Window
import Roadstead.Spend

/-!
# What a threshold costs

`ProxyState.spend_demote`: a request of a caller that is over its daily spend cap, or sends too many
requests a minute, is queued one band lower, and the crossing is reported once a day.  The sweep
`prune_rate_state` forgets both the rate of a caller and that it was reported.

## Two standings, one step down

What a caller spent and how often it asks are kept in two ledgers, and each has a standing with the
same two answers: the band in which a request is queued, and whether it may spill.
`effective_priority` asks the second ledger only when the first has no objection, so a caller that is
over both thresholds is still moved by one band and not by two.  A request of the lowest band stays
where it is.

## What is proved

The rate of a caller is said of the requests it submitted, not of the window that is kept of them
(`OverRate`), and its spend is the ledger's (`OverBudget`).  `Kept` ties the window and the reports to
what happened; each operation keeps it, and so does each run of requests, charges, reads and sweeps.

* `demoted_one_band`: who is demoted, and by how much.
* `demotion_reported`: no crossing is without a report, and the spend cap is reported once a day.

`time.time()` is read once in a call, and amounts are exact.
-/

namespace Roadstead

open Rate

/-! ### Standings -/

/-- `SpendStanding`. -/
structure SpendStanding where
  agentId : String
  spentTodayUsd : ℚ
  capUsd : Option ℚ := none

namespace SpendStanding

/-- `over`: a cap of 0 is one. -/
def «over» (s : SpendStanding) : Bool := s.capUsd.any fun cap => decide (cap ≤ s.spentTodayUsd)

/-- `may_spill`. -/
def maySpill (s : SpendStanding) : Bool := !s.«over»

/-- `effective_priority`. -/
def effectivePriority (s : SpendStanding) (declared : LLMPriority) : LLMPriority :=
  if !s.«over» then declared
  else .coerce (min (declared.value + 1) LLMPriority.p4Hygiene.value)

end SpendStanding

/-- The thresholds of a caller: `daily_spend_usd` and `requests_per_minute`. -/
structure Thresholds where
  dailySpendUsd : Option ℚ := none
  requestsPerMinute : Option ℚ := none

/-- `standing` of `spend.py`. -/
def spendStanding (l : SpendLedger) (agentId : String) (capUsd : Option ℚ) (now : ℚ) : SpendStanding :=
  { agentId := agentId, spentTodayUsd := l.spentToday agentId now, capUsd := capUsd }

/-- The day that each caller was last reported on, and the reports. -/
structure Reports where
  noted : Dict String ℤ := ∅
  sent : List (String × ℤ) := []

/-- A crossing is reported the first time it bites in a day. -/
def Reports.note (r : Reports) (agentId : String) (today : ℤ) : Reports :=
  if r.noted.get? agentId ≠ some today then
    { noted := r.noted.set agentId today, sent := r.sent ++ [(agentId, today)] }
  else r

/-- The ledgers of `ProxyState`, `spend_demotion_noted` and `rate_demotion_noted`. -/
structure Standings where
  spend : SpendLedger
  rate : RateLedger := {}
  spendReports : Reports := {}
  rateReports : Reports := {}

namespace Standings

variable (cfg : String → Thresholds)

/-- `spend_standing`. -/
def spendStanding (s : Standings) (agentId : String) (now : ℚ) : SpendStanding :=
  Roadstead.spendStanding s.spend agentId (cfg agentId).dailySpendUsd now

/-- `rate_standing`, which trims the window it reads. -/
def rateStanding (s : Standings) (agentId : String) (now : ℚ) : Standings × RateStanding :=
  let (rate, standing) := Roadstead.rateStanding s.rate agentId (cfg agentId).requestsPerMinute now
  ({ s with rate := rate }, standing)

/-- `effective_priority`: no more than one standing is asked. -/
def effectivePriority (s : Standings) (agentId : String) (declared : LLMPriority) (now : ℚ) :
    Standings × LLMPriority :=
  let spendSt := s.spendStanding cfg agentId now
  if spendSt.«over» then (s, spendSt.effectivePriority declared)
  else
    let (s, rateSt) := s.rateStanding cfg agentId now
    if rateSt.«over» then (s, rateSt.effectivePriority declared) else (s, declared)

/-- `spend_demote`. -/
def spendDemote (s : Standings) (agentId : String) (declared : LLMPriority) (now : ℚ) :
    Standings × LLMPriority :=
  let spendSt := s.spendStanding cfg agentId now
  let (s, rateSt) := s.rateStanding cfg agentId now
  let (s, effective) := s.effectivePriority cfg agentId declared now
  if effective = declared then (s, declared)
  else
    let today := dayBucket now
    ({ s with
        spendReports := if spendSt.«over» then s.spendReports.note agentId today else s.spendReports
        rateReports := if rateSt.«over» then s.rateReports.note agentId today else s.rateReports },
      effective)

/-- `spend_may_spill`. -/
def spendMaySpill (s : Standings) (agentId : String) (now : ℚ) : Standings × Bool :=
  if (s.spendStanding cfg agentId now).maySpill then
    let (s, rateSt) := s.rateStanding cfg agentId now
    (s, rateSt.maySpill)
  else (s, false)

/-- `record_request` and `spend_demote`, as a request is submitted. -/
def submit (s : Standings) (agentId : String) (declared : LLMPriority) (now : ℚ) :
    Standings × LLMPriority :=
  { s with rate := s.rate.record agentId now }.spendDemote cfg agentId declared now

/-- `prune_rate_state`. -/
def pruneRateState (s : Standings) (now : ℚ) : Standings :=
  let (rate, dropped) := s.rate.prune now
  if dropped = 0 then { s with rate := rate }
  else
    { s with
      rate := rate
      rateReports :=
        { s.rateReports with
          noted := s.rateReports.noted.filter fun a _ => decide (a ∈ rate.windows.keys) } }

/-- What happens to the standings. -/
inductive Event where
  | submit (agentId : String) (declared : LLMPriority)
  | maySpill (agentId : String)
  | priority (agentId : String) (declared : LLMPriority)
  | prune
  | account (call : SpendCall)

def step (s : Standings) (e : ℚ × Event) : Standings :=
  match e.2 with
  | .submit agentId declared => (s.submit cfg agentId declared e.1).1
  | .maySpill agentId => (s.spendMaySpill cfg agentId e.1).1
  | .priority agentId declared => (s.effectivePriority cfg agentId declared e.1).1
  | .prune => s.pruneRateState e.1
  | .account call => { s with spend := s.spend.step (e.1, call) }

/-- The times at which a caller submitted its requests. -/
def submitted (agentId : String) (events : List (ℚ × Event)) : List ℚ :=
  events.filterMap fun e => match e.2 with
    | .submit a _ => if a = agentId then some e.1 else none
    | _ => none

/-! ### One call -/

/-- The band below, if there is one. -/
def lowered (declared : LLMPriority) : LLMPriority :=
  .coerce (min (declared.value + 1) LLMPriority.p4Hygiene.value)

theorem lowered_eq_self_iff {declared : LLMPriority} :
    lowered declared = declared ↔ declared = .p4Hygiene := by
  cases declared <;> decide

/-- What was spent today has reached the cap. -/
def OverBudget (s : Standings) (agentId : String) (now : ℚ) : Prop :=
  ∃ cap ∈ (cfg agentId).dailySpendUsd, cap ≤ s.spend.spentToday agentId now

/-- More than the limit was sent in the last minute, and more than the limit is kept. -/
def OverRate (agentId : String) (times : List ℚ) (now : ℚ) : Prop :=
  ∃ limit ∈ (cfg agentId).requestsPerMinute, limit < maxSamples ∧
    limit < (times.filter fun time => decide (now - windowS ≤ time)).length

section Calls

variable {cfg} {s : Standings} {agentId : String} {declared : LLMPriority} {times : List ℚ} {now : ℚ}

theorem over_spendStanding :
    (s.spendStanding cfg agentId now).«over» = true ↔ OverBudget cfg s agentId now := by
  rw [SpendStanding.over, Option.any_eq_true]
  exact exists_congr fun cap => and_congr_right fun _ => decide_eq_true_iff

theorem rateStanding_snd : (s.rateStanding cfg agentId now).2 =
    ⟨agentId, (trim (s.rate.window agentId) now).length, (cfg agentId).requestsPerMinute⟩ := by
  rw [← s.rate.observed_eq]
  rfl

theorem over_rateStanding (cfg : String → Thresholds) (tracks : Tracks times (s.rate.window agentId) now)
    (ordered : times.Pairwise (· ≤ ·)) :
    (s.rateStanding cfg agentId now).2.«over» = true ↔ OverRate cfg agentId times now := by
  rw [rateStanding_snd, RateStanding.over, Option.any_eq_true, tracks.length_trim ordered le_rfl]
  refine exists_congr fun limit => and_congr_right fun _ => decide_eq_true_iff.trans ?_
  rw [Nat.cast_min, lt_min_iff]

/-- A standing that is taken again at the same time is the same. -/
theorem rateStanding_again : ((s.rateStanding cfg agentId now).1.rateStanding cfg agentId now).2 =
    (s.rateStanding cfg agentId now).2 := by
  have trimmed : (s.rateStanding cfg agentId now).1.rate.window agentId = trim (s.rate.window agentId) now :=
    (s.rate.window_observed agentId agentId now).trans (if_pos rfl)
  rw [rateStanding_snd, rateStanding_snd, trimmed, trim_trim]

/-- Nothing but the windows has changed, and these only by what has left them. -/
structure Reads (now : ℚ) (s s' : Standings) : Prop where
  spend : s'.spend = s.spend
  spendReports : s'.spendReports = s.spendReports
  rateReports : s'.rateReports = s.rateReports
  tracks : ∀ a times, Tracks times (s.rate.window a) now → Tracks times (s'.rate.window a) now

theorem Reads.refl (now : ℚ) (s : Standings) : Reads now s s :=
  ⟨rfl, rfl, rfl, fun _ _ tracks => tracks⟩

theorem Reads.trans {s s' s'' : Standings} (first : Reads now s s') (second : Reads now s' s'') :
    Reads now s s'' where
  spend := second.spend.trans first.spend
  spendReports := second.spendReports.trans first.spendReports
  rateReports := second.rateReports.trans first.rateReports
  tracks a times tracks := second.tracks a times (first.tracks a times tracks)

theorem reads_rateStanding (cfg : String → Thresholds) :
    Reads now s (s.rateStanding cfg agentId now).1 := by
  refine ⟨rfl, rfl, rfl, fun a times tracks => ?_⟩
  show Tracks times ((s.rate.observed agentId now).1.window a) now
  rw [s.rate.window_observed]
  split
  · exact tracks.trim le_rfl
  · exact tracks

theorem effectivePriority_spec (cfg : String → Thresholds) (s : Standings) (agentId : String)
    (declared : LLMPriority) (now : ℚ) :
    Reads now s (s.effectivePriority cfg agentId declared now).1 ∧
      (s.effectivePriority cfg agentId declared now).2 =
        if (s.spendStanding cfg agentId now).«over» || (s.rateStanding cfg agentId now).2.«over» then
          lowered declared
        else declared := by
  unfold effectivePriority
  dsimp only
  cases spend : (s.spendStanding cfg agentId now).«over» with
  | true =>
      refine ⟨.refl now s, ?_⟩
      rw [if_pos rfl, Bool.true_or, if_pos rfl, SpendStanding.effectivePriority, spend]
      rfl
  | false =>
      rw [if_neg Bool.false_ne_true, Bool.false_or]
      cases rate : (s.rateStanding cfg agentId now).2.«over» with
      | true =>
          refine ⟨reads_rateStanding cfg, ?_⟩
          rw [if_pos rfl, if_pos rfl, RateStanding.effectivePriority, rate]
          rfl
      | false => exact ⟨reads_rateStanding cfg, rfl⟩

/-- What a demotion changes beside the windows. -/
structure Demoted (cfg : String → Thresholds) (agentId : String) (declared : LLMPriority) (now : ℚ)
    (s s' : Standings) (band : LLMPriority) : Prop where
  spend : s'.spend = s.spend
  tracks : ∀ a times, Tracks times (s.rate.window a) now → Tracks times (s'.rate.window a) now
  placed : band =
    if (s.spendStanding cfg agentId now).«over» || (s.rateStanding cfg agentId now).2.«over» then
      lowered declared
    else declared
  spendReports : s'.spendReports =
    if band ≠ declared ∧ (s.spendStanding cfg agentId now).«over» = true then
      s.spendReports.note agentId (dayBucket now)
    else s.spendReports
  rateReports : s'.rateReports =
    if band ≠ declared ∧ (s.rateStanding cfg agentId now).2.«over» = true then
      s.rateReports.note agentId (dayBucket now)
    else s.rateReports

theorem demoted_spendDemote : Demoted cfg agentId declared now s (s.spendDemote cfg agentId declared now).1
    (s.spendDemote cfg agentId declared now).2 := by
  have first : Reads now s (s.rateStanding cfg agentId now).1 := reads_rateStanding cfg
  have second := (s.rateStanding cfg agentId now).1.effectivePriority_spec cfg agentId declared now
  rw [rateStanding_again] at second
  unfold spendDemote
  dsimp only
  generalize (s.rateStanding cfg agentId now).1.effectivePriority cfg agentId declared now = found at *
  obtain ⟨s', effective⟩ := found
  obtain ⟨more, band⟩ := second
  have reads : Reads now s s' := first.trans more
  by_cases same : effective = declared
  · rw [if_pos same]
    refine ⟨reads.spend, reads.tracks, same ▸ band, ?_, ?_⟩
    · rw [if_neg fun both => both.1 rfl]
      exact reads.spendReports
    · rw [if_neg fun both => both.1 rfl]
      exact reads.rateReports
  · rw [if_neg same]
    refine ⟨reads.spend, reads.tracks, band, ?_, ?_⟩
    · simp only [same, reads.spendReports, ne_eq, not_false_eq_true, true_and]
    · simp only [same, reads.rateReports, ne_eq, not_false_eq_true, true_and]

theorem spendMaySpill_spec (cfg : String → Thresholds) (s : Standings) (agentId : String) (now : ℚ) :
    Reads now s (s.spendMaySpill cfg agentId now).1 ∧ (s.spendMaySpill cfg agentId now).2 =
      !((s.spendStanding cfg agentId now).«over» || (s.rateStanding cfg agentId now).2.«over») := by
  unfold spendMaySpill SpendStanding.maySpill
  cases (s.spendStanding cfg agentId now).«over» with
  | true => exact ⟨.refl now s, rfl⟩
  | false => exact ⟨reads_rateStanding cfg, rfl⟩

end Calls

/-! ### Reports -/

end Standings

namespace Reports

variable {r : Reports} {agentId : String} {today : ℤ}

/-- What is noted has been reported. -/
def Backed (r : Reports) : Prop := ∀ a d, r.noted.get? a = some d → (a, d) ∈ r.sent

/-- No caller is reported twice in a day: the last report of each is noted. -/
structure Daily (r : Reports) (today : ℤ) : Prop where
  nodup : r.sent.Nodup
  last : ∀ a d, (a, d) ∈ r.sent → ∃ d' ∈ r.noted.get? a, d ≤ d' ∧ d' ≤ today

theorem Backed.mem_note (backed : r.Backed) : (agentId, today) ∈ (r.note agentId today).sent := by
  rw [note]
  split
  · exact List.mem_append_right _ List.mem_cons_self
  · next noted => exact backed _ _ (not_not.mp noted)

theorem Backed.note (backed : r.Backed) : (r.note agentId today).Backed := by
  rw [Reports.note]
  split
  · intro a d noted
    rw [Dict.get?_set] at noted
    split at noted
    · next same =>
      rw [same, ← Option.some.inj noted]
      exact List.mem_append_right _ List.mem_cons_self
    · exact List.mem_append_left _ (backed a d noted)
  · exact backed

theorem Daily.later {today' : ℤ} (daily : r.Daily today) (later : today ≤ today') : r.Daily today' :=
  ⟨daily.nodup, fun a d mem =>
    let ⟨d', noted, le, bound⟩ := daily.last a d mem
    ⟨d', noted, le, bound.trans later⟩⟩

theorem Daily.note (daily : r.Daily today) : (r.note agentId today).Daily today := by
  rw [Reports.note]
  split
  · next unnoted =>
    refine ⟨?_, fun a d mem => ?_⟩
    · refine List.nodup_append.mpr ⟨daily.nodup, List.nodup_singleton _, ?_⟩
      rintro ⟨a, d⟩ before _ here rfl
      obtain ⟨rfl, rfl⟩ := Prod.mk.inj (List.mem_singleton.mp here)
      obtain ⟨d', noted, le, bound⟩ := daily.last _ _ before
      exact unnoted (le_antisymm le bound ▸ noted)
    · rw [Dict.get?_set]
      rcases List.mem_append.mp mem with before | here
      · obtain ⟨d', noted, le, bound⟩ := daily.last a d before
        split
        · exact ⟨today, rfl, le.trans bound, le_rfl⟩
        · exact ⟨d', noted, le, bound⟩
      · obtain ⟨rfl, rfl⟩ := Prod.mk.inj (List.mem_singleton.mp here)
        exact ⟨d, if_pos rfl, le_rfl, le_rfl⟩
  · exact daily

end Reports

namespace Standings

variable (cfg : String → Thresholds)

/-! ### Runs -/

/-- What holds after events up to a time. -/
structure Kept (events : List (ℚ × Event)) (s : Standings) (now : ℚ) : Prop where
  tracks : ∀ a, Tracks (submitted a events) (s.rate.window a) now
  spendBacked : s.spendReports.Backed
  rateBacked : s.rateReports.Backed
  daily : s.spendReports.Daily (dayBucket now)

variable {cfg} {events : List (ℚ × Event)} {s s' : Standings} {now : ℚ}

theorem Kept.later {now' : ℚ} (kept : Kept events s now) (later : now ≤ now') : Kept events s now' where
  tracks a := (kept.tracks a).later later
  spendBacked := kept.spendBacked
  rateBacked := kept.rateBacked
  daily := kept.daily.later (Int.floor_le_floor (div_le_div_of_nonneg_right later (by norm_num)))

theorem Kept.reads (kept : Kept events s now) (reads : Reads now s s') : Kept events s' now where
  tracks a := reads.tracks a _ (kept.tracks a)
  spendBacked := reads.spendReports ▸ kept.spendBacked
  rateBacked := reads.rateReports ▸ kept.rateBacked
  daily := reads.spendReports ▸ kept.daily

theorem Kept.demoted (kept : Kept events s now) {agentId : String} {declared band : LLMPriority}
    (demoted : Demoted cfg agentId declared now s s' band) : Kept events s' now := by
  refine ⟨fun a => demoted.tracks a _ (kept.tracks a), ?_, ?_, ?_⟩
  · rw [demoted.spendReports]
    split
    · exact kept.spendBacked.note
    · exact kept.spendBacked
  · rw [demoted.rateReports]
    split
    · exact kept.rateBacked.note
    · exact kept.rateBacked
  · rw [demoted.spendReports]
    split
    · exact kept.daily.note
    · exact kept.daily

theorem submitted_append (a : String) (events events' : List (ℚ × Event)) :
    submitted a (events ++ events') = submitted a events ++ submitted a events' :=
  List.filterMap_append

theorem submitted_submit (a agentId : String) (declared : LLMPriority) (now : ℚ) :
    submitted a [(now, .submit agentId declared)] = if agentId = a then [now] else [] := by
  by_cases same : agentId = a
  · simp [submitted, same]
  · simp [submitted, same]

/-- The request is recorded before its caller is judged. -/
theorem Kept.record (kept : Kept events s now) (agentId : String) (declared : LLMPriority) :
    Kept (events ++ [(now, .submit agentId declared)]) { s with rate := s.rate.record agentId now } now := by
  refine ⟨fun a => ?_, kept.spendBacked, kept.rateBacked, kept.daily⟩
  show Tracks _ ((s.rate.record agentId now).window a) now
  rw [submitted_append, submitted_submit, s.rate.window_record]
  by_cases same : agentId = a
  · rw [if_pos same, if_pos same.symm, same]
    exact ((kept.tracks a).record le_rfl).trim le_rfl
  · rw [if_neg same, if_neg (Ne.symm same), List.append_nil]
    exact kept.tracks a

theorem Kept.pruned (kept : Kept events s now) : Kept events (s.pruneRateState now) now := by
  have tracks (a : String) : Tracks (submitted a events) ((s.rate.prune now).1.window a) now := by
    rw [s.rate.window_prune]
    exact (kept.tracks a).trim le_rfl
  unfold pruneRateState
  dsimp only
  split
  · exact ⟨tracks, kept.spendBacked, kept.rateBacked, kept.daily⟩
  · refine ⟨tracks, kept.spendBacked, fun a d noted => ?_, kept.daily⟩
    rw [Dict.get?_filter, Option.filter_eq_some_iff] at noted
    exact kept.rateBacked a d noted.1

theorem Kept.step (e : ℚ × Event) (kept : Kept events s e.1) :
    Kept (events ++ [e]) (s.step cfg e) e.1 := by
  obtain ⟨now, event⟩ := e
  have quiet (other : ∀ a, submitted a [(now, event)] = []) {s' : Standings}
      (kept' : Kept events s' now) : Kept (events ++ [(now, event)]) s' now :=
    ⟨fun a => by
      rw [submitted_append, other, List.append_nil]
      exact kept'.tracks a, kept'.spendBacked, kept'.rateBacked, kept'.daily⟩
  cases event with
  | submit agentId declared => exact (kept.record agentId declared).demoted demoted_spendDemote
  | maySpill agentId => exact quiet (fun _ => rfl) (kept.reads (s.spendMaySpill_spec cfg agentId now).1)
  | priority agentId declared =>
      exact quiet (fun _ => rfl) (kept.reads (s.effectivePriority_spec cfg agentId declared now).1)
  | prune => exact quiet (fun _ => rfl) kept.pruned
  | account call =>
      exact quiet (fun _ => rfl) ⟨kept.tracks, kept.spendBacked, kept.rateBacked, kept.daily⟩

theorem kept_run (cfg : String → Thresholds) (ledger : SpendLedger)
    (clock : Runs.Clocked Prod.fst events now) :
    Kept events (Runs.run (step cfg) { spend := ledger } events) now := by
  refine Runs.run_clocked Kept (fun now => ?_) (fun _ _ _ _ kept later => kept.later later)
    (fun _ e kept => kept.step e) clock
  refine ⟨fun a => ⟨[], List.rtake_nil _, fun _ mem => absurd mem List.not_mem_nil⟩, ?_, ?_, ?_⟩
  · exact fun _ _ noted => absurd noted (by simp)
  · exact fun _ _ noted => absurd noted (by simp)
  · exact ⟨List.nodup_nil, fun _ _ mem => absurd mem List.not_mem_nil⟩

theorem submitted_sorted (clock : Runs.Clocked Prod.fst events now) (a : String) :
    (submitted a events ++ [now]).Pairwise (· ≤ ·) := by
  refine List.Pairwise.sublist (List.Sublist.append ?_ (List.Sublist.refl _)) clock
  clear clock
  induction events with
  | nil => exact List.Sublist.slnil
  | cons e events ih =>
      obtain ⟨time, event⟩ := e
      cases event with
      | submit agentId declared =>
          show (submitted a ([(time, .submit agentId declared)] ++ events)).Sublist _
          rw [submitted_append, submitted_submit]
          split
          · exact ih.cons_cons time
          · exact ih.cons time
      | _ => exact ih.cons time

/-- The caller of a request is over a threshold, the request included. -/
def Over (cfg : String → Thresholds) (s : Standings) (events : List (ℚ × Event)) (agentId : String)
    (now : ℚ) : Prop :=
  OverBudget cfg s agentId now ∨ OverRate cfg agentId (submitted agentId events ++ [now]) now

section Submit

variable (cfg) (ledger : SpendLedger) (clock : Runs.Clocked Prod.fst events now) (agentId : String)
  (declared : LLMPriority)

include clock in
/-- The standings that a request is judged by. -/
theorem over_recorded :
    let s := Runs.run (step cfg) { spend := ledger } events
    let s' : Standings := { s with rate := s.rate.record agentId now }
    ((s'.spendStanding cfg agentId now).«over» = true ↔ OverBudget cfg s agentId now) ∧
      ((s'.rateStanding cfg agentId now).2.«over» = true ↔
        OverRate cfg agentId (submitted agentId events ++ [now]) now) := by
  intro s s'
  have tracks := ((kept_run cfg ledger clock).record agentId .p0Realtime).tracks agentId
  rw [submitted_append, submitted_submit, if_pos rfl] at tracks
  exact ⟨over_spendStanding, over_rateStanding cfg tracks (submitted_sorted clock agentId)⟩

include clock in
/-- **One band, whatever is crossed.**  In every run, a request is queued one band lower than declared
if its caller is over a threshold, and as declared if it is not; the lowest band stays.  A caller that is
over one may not spill.  A request counts towards the rate that it is judged by; whether its caller may
spill is judged by the requests submitted by then. -/
theorem demoted_one_band :
    let s : Standings := Runs.run (step cfg) { spend := ledger } events
    (Over cfg s events agentId now → (s.submit cfg agentId declared now).2 = lowered declared) ∧
      (¬Over cfg s events agentId now → (s.submit cfg agentId declared now).2 = declared) ∧
      ((s.spendMaySpill cfg agentId now).2 = true ↔
        ¬(OverBudget cfg s agentId now ∨ OverRate cfg agentId (submitted agentId events) now)) := by
  intro s
  obtain ⟨spend, rate⟩ := over_recorded cfg ledger clock agentId
  have placed : (s.submit cfg agentId declared now).2 = _ := demoted_spendDemote.placed
  have ordered := (List.pairwise_append.mp (submitted_sorted clock agentId)).1
  have before := over_rateStanding cfg ((kept_run cfg ledger clock).tracks agentId) ordered
  refine ⟨fun is => ?_, fun none => ?_, ?_⟩
  · rw [Over, ← spend, ← rate, ← Bool.or_eq_true] at is
    exact placed.trans (if_pos is)
  · rw [Over, ← spend, ← rate, ← Bool.or_eq_true] at none
    exact placed.trans (if_neg none)
  · rw [(s.spendMaySpill_spec cfg agentId now).2, ← over_spendStanding, ← before, ← Bool.or_eq_true,
      Bool.not_eq_true', Bool.not_eq_true]

/-- The second request within a minute is one too many. -/
theorem demoted_one_band_second :
    let cfg : String → Thresholds := fun _ => { requestsPerMinute := some 1 }
    let s := Runs.run (step cfg) { spend := { prices := {} } }
      [(0, .submit "app" .p2PostTurn), (30, .maySpill "app"), (40, .prune)]
    (s.submit cfg "app" .p2PostTurn 50).2 = .p3Ingestion := by
  intro cfg s
  have clock : Runs.Clocked Prod.fst [((0 : ℚ), Event.submit "app" .p2PostTurn), (30, .maySpill "app"),
    (40, .prune)] 50 := by decide
  refine (demoted_one_band cfg { prices := {} } clock "app" .p2PostTurn).1 (.inr ⟨1, rfl, ?_, ?_⟩)
  · norm_num [maxSamples]
  · decide +kernel

include clock in
/-- In every run, each threshold that the caller of a request is over has been reported on that day,
unless the request is of the lowest band; that one changes no report.  No caller is reported over its
spend cap twice on a day. -/
theorem demotion_reported :
    let s : Standings := Runs.run (step cfg) { spend := ledger } events
    let s' := (s.submit cfg agentId declared now).1
    (declared ≠ .p4Hygiene →
      (OverBudget cfg s agentId now → (agentId, dayBucket now) ∈ s'.spendReports.sent) ∧
        (OverRate cfg agentId (submitted agentId events ++ [now]) now →
          (agentId, dayBucket now) ∈ s'.rateReports.sent)) ∧
      (declared = .p4Hygiene →
        s'.spendReports = s.spendReports ∧ s'.rateReports = s.rateReports) ∧
      s'.spendReports.sent.Nodup := by
  intro s s'
  have kept := kept_run cfg ledger clock
  obtain ⟨spend, rate⟩ := over_recorded cfg ledger clock agentId
  have demoted : Demoted cfg agentId declared now { s with rate := s.rate.record agentId now } s'
    (s.submit cfg agentId declared now).2 := demoted_spendDemote
  refine ⟨fun higher => ⟨fun budget => ?_, fun rapid => ?_⟩, fun lowest => ?_, ?_⟩
  · have lower := demoted.placed
    rw [spend.mpr budget, Bool.true_or, if_pos rfl] at lower
    rw [demoted.spendReports, if_pos ⟨lower ▸ lowered_eq_self_iff.not.mpr higher, spend.mpr budget⟩]
    exact kept.spendBacked.mem_note
  · have lower := demoted.placed
    rw [rate.mpr rapid, Bool.or_true, if_pos rfl] at lower
    rw [demoted.rateReports, if_pos ⟨lower ▸ lowered_eq_self_iff.not.mpr higher, rate.mpr rapid⟩]
    exact kept.rateBacked.mem_note
  · have same := demoted.placed
    rw [lowered_eq_self_iff.mpr lowest, ite_self] at same
    rw [demoted.spendReports, demoted.rateReports, if_neg fun both => both.1 same,
      if_neg fun both => both.1 same]
    exact ⟨rfl, rfl⟩
  · exact ((kept.record agentId declared).demoted demoted).daily.nodup

/-- A caller that may not pay for anything is reported with its first request. -/
theorem demotion_reported_first :
    let cfg : String → Thresholds := fun _ => { dailySpendUsd := some 0 }
    let s := Runs.run (step cfg) { spend := { prices := {} } } [(0, .prune)]
    ("app", 0) ∈ (s.submit cfg "app" .p0Realtime 50).1.spendReports.sent := by
  intro cfg s
  have clock : Runs.Clocked Prod.fst [((0 : ℚ), Event.prune)] 50 := by decide
  have budget : OverBudget cfg s "app" 50 := ⟨0, rfl, le_rfl⟩
  have reported := ((demotion_reported cfg { prices := {} } clock "app" .p0Realtime).1 (by decide)).1 budget
  have today : dayBucket 50 = 0 := by decide +kernel
  rwa [today] at reported

end Submit

end Standings

end Roadstead
