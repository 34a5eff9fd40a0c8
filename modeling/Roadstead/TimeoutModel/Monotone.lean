import Mathlib.Data.Int.Log
import Mathlib.Order.Bounds.Image
import Mathlib.Tactic.GCongr
import Mathlib.Tactic.Positivity
import Roadstead.Config
import Roadstead.TimeoutModel

/-!
# A larger request is never given less time

The walk of `advise` over the smaller cells ends with the greatest answer of the ladder on
`Smaller`, the cells below the request in both directions (`walk_isGreatest`).  A larger
request has more such cells, so its greatest answer is no smaller, whichever rung of the
ladder answered; the factors and the ceiling are monotone one by one.

The bounds are another matter.  `advise` looks the floors up under the class name, and the
lookup normalizes the name once more, while `effective_timeout_advice` looks them up under
the name it was given.  Where the class name is itself rewritten, the recommendation starts
from the floors of another class (`advice_sound_iff`).
-/

namespace Roadstead

/-! ### Rounding -/

theorem roundTo_mono (digits : ℕ) {x y : ℚ} (h : x ≤ y) : roundTo digits x ≤ roundTo digits y := by
  have scaled : x * 10 ^ digits ≤ y * 10 ^ digits := by gcongr
  have rounded := Binary64.roundHalfEven_mono scaled
  unfold roundTo
  gcongr

theorem roundTo_roundTo (digits : ℕ) (x : ℚ) :
    roundTo digits (roundTo digits x) = roundTo digits x := by
  have positive : (10 : ℚ) ^ digits ≠ 0 := by positivity
  unfold roundTo
  rw [div_mul_cancel₀ _ positive, Binary64.roundHalfEven_intCast]

/-- A bound that is rounded on the way is as good as one that is not. -/
theorem roundTo_min_self (digits : ℕ) (x : ℚ) :
    roundTo digits (min (roundTo digits x) x) = roundTo digits x := by
  rcases min_choice (roundTo digits x) x with rounded | own
  · rw [rounded, roundTo_roundTo]
  · rw [own]

theorem roundTo_nonneg (digits : ℕ) {x : ℚ} (h : 0 ≤ x) : 0 ≤ roundTo digits x := by
  have zero : roundTo digits 0 = 0 := by
    have := Binary64.roundHalfEven_intCast 0
    unfold roundTo
    rw [zero_mul]
    push_cast at this
    rw [this, Int.cast_zero, zero_div]
  exact zero.symm.le.trans (roundTo_mono digits h)

/-! ### Buckets -/

theorem bucket_mono {n n' : ℤ} (h : n ≤ n') (edges : List ℤ) :
    bucket n edges ≤ bucket n' edges := by
  unfold bucket
  induction edges with
  | nil => exact le_rfl
  | cons edge edges ih =>
      by_cases below : edge < max 0 n
      · have below' : edge < max 0 n' := below.trans_le (max_le_max le_rfl h)
        rw [List.takeWhile_cons_of_pos (by simpa only [decide_eq_true_eq] using below),
          List.takeWhile_cons_of_pos (by simpa only [decide_eq_true_eq] using below')]
        exact Nat.succ_le_succ ih
      · rw [List.takeWhile_cons_of_neg (by simpa only [decide_eq_true_eq] using below)]
        exact Nat.zero_le _

namespace TimeoutModel

/-! ### The walk over the smaller cells -/

/-- The cells no larger than the given one, in either direction. -/
def Smaller (cell : ℕ × ℕ) : Set (ℕ × ℕ) := {c | c.1 ≤ cell.1 ∧ c.2 ≤ cell.2}

theorem smaller_subset {cell cell' : ℕ × ℕ} (h : cell ≤ cell') : Smaller cell ⊆ Smaller cell' :=
  fun _ small => ⟨small.1.trans h.1, small.2.trans h.2⟩

theorem mem_lattice {cell c : ℕ × ℕ} : c ∈ lattice cell.1 cell.2 ↔ c ∈ Smaller cell := by
  rcases cell with ⟨inB, outB⟩
  rcases c with ⟨i, o⟩
  simp only [lattice, List.mem_flatMap, List.mem_map, List.mem_range, Prod.mk.injEq, Smaller,
    Set.mem_ofPred_eq]
  constructor
  · rintro ⟨i', hi, o', ho, rfl, rfl⟩
    exact ⟨by omega, by omega⟩
  · rintro ⟨hi, ho⟩
    exact ⟨i, by omega, o, by omega, rfl, rfl⟩

/-- One round of the guard keeps the greatest answer so far. -/
theorem liftFrom_recommended (cand : ℕ × ℕ → ℚ) (l : Lift) (cell : ℕ × ℕ) :
    (liftFrom cand l cell).recommended = max l.recommended (cand cell) := by
  unfold liftFrom
  split
  · rename_i higher
    exact (max_eq_right higher.le).symm
  · rename_i lower
    exact (max_eq_left (not_lt.mp lower)).symm

theorem foldl_liftFrom_isGreatest (cand : ℕ × ℕ → ℚ) (cells : List (ℕ × ℕ)) (l : Lift)
    {seen : Set ℚ} (start : IsGreatest seen l.recommended) :
    IsGreatest (seen ∪ cand '' {c | c ∈ cells}) (cells.foldl (liftFrom cand) l).recommended := by
  induction cells generalizing l seen with
  | nil => simpa using start
  | cons cell cells ih =>
      have next : IsGreatest (insert (cand cell) seen) (liftFrom cand l cell).recommended := by
        rw [liftFrom_recommended, max_comm]
        exact start.insert (cand cell)
      have same : seen ∪ cand '' {c | c ∈ cell :: cells} =
          insert (cand cell) seen ∪ cand '' {c | c ∈ cells} := by
        ext x
        simp only [Set.mem_union, Set.mem_image, Set.mem_ofPred_eq, List.mem_cons,
          Set.mem_insert_iff]
        grind
      rw [same]
      exact ih (liftFrom cand l cell) next

/-- The walk ends with the greatest answer of the ladder on the smaller cells. -/
theorem walk_isGreatest (cand : ℕ × ℕ → ℚ) (cell : ℕ × ℕ) :
    IsGreatest (cand '' Smaller cell)
      (((lattice cell.1 cell.2).filter (· ≠ cell)).foldl (liftFrom cand)
        { recommended := cand cell }).recommended := by
  have walked := foldl_liftFrom_isGreatest cand ((lattice cell.1 cell.2).filter (· ≠ cell))
    { recommended := cand cell } (isGreatest_singleton (a := cand cell))
  convert walked using 1
  ext x
  simp only [Set.mem_image, Set.mem_union, Set.mem_singleton_iff, Set.mem_ofPred_eq,
    List.mem_filter, mem_lattice, decide_eq_true_eq]
  constructor
  · rintro ⟨c, small, rfl⟩
    by_cases own : c = cell
    · exact .inl (congrArg cand own)
    · exact .inr ⟨c, ⟨small, own⟩, rfl⟩
  · rintro (rfl | ⟨c, ⟨small, -⟩, rfl⟩)
    · exact ⟨cell, ⟨le_rfl, le_rfl⟩, rfl⟩
    · exact ⟨c, small, rfl⟩

/-! ### The recommendation of `advise` -/

/-- The answer of the ladder for one cell, lifted to that of the smaller cells. -/
def peakMs (m : TimeoutModel) (endpoint : String) (priority : ℤ) (cell : ℕ × ℕ) : ℚ :=
  let ep := m.normalize endpoint
  let cand (c : ℕ × ℕ) := (m.adviseAt ep priority c.1 c.2 (m.floorMs ep)).recommended
  (((lattice cell.1 cell.2).filter (· ≠ cell)).foldl (liftFrom cand)
    { recommended := cand cell }).recommended

/-- What `advise` rounds, for a request that says how much output it wants. -/
def baseMs (m : TimeoutModel) (endpoint : String) (priority estIn estOut : ℤ) : ℚ :=
  max (m.peakMs endpoint priority (bucket estIn inEdges, bucket estOut outEdges))
    (m.decodeFloorMs (m.normalize endpoint) estOut)

variable (m : TimeoutModel) (endpoint : String) (priority : ℤ)

theorem advise_recommended (estIn : ℤ) {estOut : ℤ} (known : 1 ≤ estOut) :
    (m.advise endpoint priority estIn estOut).recommendedMs =
        roundTo 1 (m.baseMs endpoint priority estIn estOut) ∧
      (m.advise endpoint priority estIn estOut).recommendedTimeoutS =
        ⌈m.baseMs endpoint priority estIn estOut / 1000⌉ := by
  have given : ¬estOut ≤ 0 := by omega
  have larger (x y : ℚ) : (if x < y then y else x) = max x y := (max_def_lt x y).symm
  unfold advise baseMs peakMs
  simp only [if_neg given, larger, true_and]

theorem peakMs_mono {cell cell' : ℕ × ℕ} (h : cell ≤ cell') :
    m.peakMs endpoint priority cell ≤ m.peakMs endpoint priority cell' :=
  IsGreatest.mono (walk_isGreatest _ cell) (walk_isGreatest _ cell')
    (Set.image_mono (smaller_subset h))

theorem decodeRateFloorMs_nonneg (estOut : ℤ) (rate : ℚ) : 0 ≤ decodeRateFloorMs estOut rate := by
  unfold decodeRateFloorMs
  split
  · exact le_rfl
  · rename_i given
    have rate_pos : 0 < rate := not_le.mp fun h => given (.inl h)
    have out_pos : (0 : ℚ) < estOut := Int.cast_pos.mpr (not_le.mp fun h => given (.inr h))
    positivity

theorem decodeRateFloorMs_mono {estOut estOut' : ℤ} (h : estOut ≤ estOut') (rate : ℚ) :
    decodeRateFloorMs estOut rate ≤ decodeRateFloorMs estOut' rate := by
  by_cases none : rate ≤ 0 ∨ estOut ≤ 0
  · rw [decodeRateFloorMs, if_pos none]
    exact decodeRateFloorMs_nonneg estOut' rate
  · have none' : ¬(rate ≤ 0 ∨ estOut' ≤ 0) := by grind
    have rate_pos : 0 < rate := not_le.mp fun h => none (.inl h)
    have cast : (estOut : ℚ) ≤ estOut' := Int.cast_le.mpr h
    rw [decodeRateFloorMs, decodeRateFloorMs, if_neg none, if_neg none']
    gcongr

theorem decodeFloorMs_mono (name : String) {estOut estOut' : ℤ} (h : estOut ≤ estOut') :
    m.decodeFloorMs name estOut ≤ m.decodeFloorMs name estOut' :=
  decodeRateFloorMs_mono h _

theorem baseMs_mono {estIn estIn' estOut estOut' : ℤ} (moreIn : estIn ≤ estIn')
    (moreOut : estOut ≤ estOut') :
    m.baseMs endpoint priority estIn estOut ≤ m.baseMs endpoint priority estIn' estOut' := by
  have cells : (bucket estIn inEdges, bucket estOut outEdges) ≤
      (bucket estIn' inEdges, bucket estOut' outEdges) :=
    ⟨bucket_mono moreIn inEdges, bucket_mono moreOut outEdges⟩
  exact max_le_max (peakMs_mono m endpoint priority cells) (decodeFloorMs_mono m _ moreOut)

/-- No rung of the ladder answers with less than the floor it was given. -/
theorem floor_le_adviseAt (ep : String) (pri : ℤ) (inB outB : ℕ) (floor : ℚ) :
    floor ≤ (m.adviseAt ep pri inB outB floor).recommended := by
  unfold adviseAt
  simp only
  split
  · exact le_rfl
  · exact le_max_right _ _

theorem floors_le_baseMs (estIn estOut : ℤ) :
    max (m.floorMs (m.normalize endpoint)) (m.decodeFloorMs (m.normalize endpoint) estOut) ≤
      m.baseMs endpoint priority estIn estOut := by
  refine max_le_max ?_ le_rfl
  let cell := (bucket estIn inEdges, bucket estOut outEdges)
  have own := (walk_isGreatest (fun c => (m.adviseAt (m.normalize endpoint) priority c.1 c.2
    (m.floorMs (m.normalize endpoint))).recommended) cell).2 ⟨cell, ⟨le_rfl, le_rfl⟩, rfl⟩
  exact (floor_le_adviseAt m _ priority cell.1 cell.2 _).trans own

end TimeoutModel

/-! ### The factors and the ceiling -/

theorem one_le_surgeFactor (inFlight queued : ℕ) (maxSlots : ℤ) {kLoad surgeMax : ℚ}
    (kLoad_nonneg : 0 ≤ kLoad) (surgeMax_nonneg : 0 ≤ surgeMax) :
    1 ≤ surgeFactor inFlight queued maxSlots kLoad surgeMax := by
  unfold surgeFactor
  split
  · exact le_rfl
  · simp only
    have : 0 ≤ min (max 0 (((inFlight : ℚ) + queued - maxSlots) / maxSlots)) surgeMax :=
      le_min (le_max_left _ _) surgeMax_nonneg
    nlinarith [mul_nonneg kLoad_nonneg this]

theorem surgeFactor_mono {inFlight inFlight' queued queued' : ℕ} (maxSlots : ℤ)
    {kLoad : ℚ} (surgeMax : ℚ) (kLoad_nonneg : 0 ≤ kLoad) (moreFlying : inFlight ≤ inFlight')
    (moreQueued : queued ≤ queued') :
    surgeFactor inFlight queued maxSlots kLoad surgeMax ≤
      surgeFactor inFlight' queued' maxSlots kLoad surgeMax := by
  unfold surgeFactor
  split
  · exact le_rfl
  · rename_i slots
    have slots_pos : (0 : ℚ) < maxSlots := Int.cast_pos.mpr (not_le.mp slots)
    have flying : (inFlight : ℚ) ≤ inFlight' := Nat.cast_le.mpr moreFlying
    have queue : (queued : ℚ) ≤ queued' := Nat.cast_le.mpr moreQueued
    simp only
    gcongr

section Stretch

variable (l : Logarithm) {kSize sizeMax : ℚ} (kSize_nonneg : 0 ≤ kSize)

/-- The stretch of a prompt past the reference length, which the linear term alone keeps from
being negative. -/
theorem stretch_term_nonneg {estIn : ℤ} (sizeMax_nonneg : 0 ≤ sizeMax) (long : ¬estIn ≤ 16384) :
    0 ≤ min (((estIn : ℚ) - 16384) / 16384) sizeMax := by
  have : (16384 : ℚ) < estIn := by exact_mod_cast not_le.mp long
  exact le_min (by linarith) sizeMax_nonneg

include kSize_nonneg

theorem one_le_sizeStretch (estIn : ℤ) (sizeMax_nonneg : 0 ≤ sizeMax) :
    1 ≤ sizeStretch l estIn kSize sizeMax := by
  unfold sizeStretch
  split
  · exact le_rfl
  · rename_i long
    have linear := stretch_term_nonneg sizeMax_nonneg long
    simp only
    exact le_add_of_nonneg_right (mul_nonneg kSize_nonneg (le_max_of_le_left linear))

theorem sizeStretch_mono {estIn estIn' : ℤ} (sizeMax_nonneg : 0 ≤ sizeMax)
    (more : estIn ≤ estIn') :
    sizeStretch l estIn kSize sizeMax ≤ sizeStretch l estIn' kSize sizeMax := by
  by_cases short : estIn ≤ 16384
  · rw [sizeStretch, if_pos short]
    exact one_le_sizeStretch l kSize_nonneg estIn' sizeMax_nonneg
  · have long' : ¬estIn' ≤ 16384 := by omega
    have past : (1 : ℚ) ≤ (estIn : ℚ) / 16384 := by
      have : (16384 : ℚ) < estIn := by exact_mod_cast not_le.mp short
      linarith
    have cast : (estIn : ℚ) ≤ estIn' := Int.cast_le.mpr more
    have ratio : (estIn : ℚ) / 16384 ≤ (estIn' : ℚ) / 16384 := by gcongr
    have units_nonneg : 0 ≤ l.log ((estIn : ℚ) / 16384) / l.unit :=
      div_nonneg (l.nonneg _ past) l.unit_pos.le
    have units : l.log ((estIn : ℚ) / 16384) / l.unit ≤ l.log ((estIn' : ℚ) / 16384) / l.unit :=
      div_le_div_of_nonneg_right (l.mono _ _ past ratio) l.unit_pos.le
    -- The square is monotone because no unit count is negative.
    have squared : min (l.log ((estIn : ℚ) / 16384) / l.unit) sizeMax ^ 2 ≤
        min (l.log ((estIn' : ℚ) / 16384) / l.unit) sizeMax ^ 2 :=
      pow_le_pow_left₀ (le_min units_nonneg sizeMax_nonneg) (min_le_min units le_rfl) 2
    rw [sizeStretch, sizeStretch, if_neg short, if_neg long']
    simp only
    gcongr

end Stretch

theorem floor_le_resolveCeilingS (override : Option ℚ) (interactive : Bool)
    (floorS interactiveS backgroundS : ℚ) :
    floorS ≤ resolveCeilingS override interactive floorS interactiveS backgroundS :=
  le_max_right _ _

theorem resolveCeilingS_mono (override : Option ℚ) (interactive : Bool) {floorS floorS' : ℚ}
    (interactiveS backgroundS : ℚ) (h : floorS ≤ floorS') :
    resolveCeilingS override interactive floorS interactiveS backgroundS ≤
      resolveCeilingS override interactive floorS' interactiveS backgroundS :=
  max_le_max le_rfl h

/-- No knob is negative. -/
structure TimeoutPolicy.NonNegative (p : TimeoutPolicy) : Prop where
  surgeK : 0 ≤ p.surgeK
  surgeMax : 0 ≤ p.surgeMax
  sizeK : 0 ≤ p.sizeK
  sizeMax : 0 ≤ p.sizeMax

section Uplift

variable (l : Logarithm) {p : TimeoutPolicy} (knobs : p.NonNegative)

include knobs

/-- The factors never shorten a deadline. -/
theorem le_applyLoadAndCeiling {recommendedMs ceilingMs x : ℚ} (load : EndpointLoad) (estIn : ℤ)
    (nonneg : 0 ≤ recommendedMs) (recommended : x ≤ recommendedMs) (ceiling : x ≤ ceilingMs) :
    x ≤ applyLoadAndCeiling l p recommendedMs load estIn ceilingMs := by
  have surge := one_le_surgeFactor load.inFlight load.queued load.maxSlots knobs.surgeK
    knobs.surgeMax
  have stretch := one_le_sizeStretch l knobs.sizeK estIn knobs.sizeMax
  have surged := le_mul_of_one_le_right nonneg surge
  have lifted := le_mul_of_one_le_right (nonneg.trans surged) stretch
  exact le_min (recommended.trans (surged.trans lifted)) ceiling

theorem applyLoadAndCeiling_mono {recommendedMs recommendedMs' ceilingMs ceilingMs' : ℚ}
    {load load' : EndpointLoad} {estIn estIn' : ℤ} (nonneg : 0 ≤ recommendedMs)
    (recommended : recommendedMs ≤ recommendedMs') (slots : load'.maxSlots = load.maxSlots)
    (moreFlying : load.inFlight ≤ load'.inFlight) (moreQueued : load.queued ≤ load'.queued)
    (moreIn : estIn ≤ estIn') (ceiling : ceilingMs ≤ ceilingMs') :
    applyLoadAndCeiling l p recommendedMs load estIn ceilingMs ≤
      applyLoadAndCeiling l p recommendedMs' load' estIn' ceilingMs' := by
  have surge_nonneg := zero_le_one.trans (one_le_surgeFactor load.inFlight load.queued
    load.maxSlots knobs.surgeK knobs.surgeMax)
  have stretch_nonneg := zero_le_one.trans (one_le_sizeStretch l knobs.sizeK estIn knobs.sizeMax)
  have surge := surgeFactor_mono load.maxSlots p.surgeMax knobs.surgeK moreFlying moreQueued
  have stretch := sizeStretch_mono l knobs.sizeK knobs.sizeMax moreIn
  have surge_nonneg' := surge_nonneg.trans surge
  have nonneg' := nonneg.trans recommended
  unfold applyLoadAndCeiling
  rw [slots]
  simp only
  gcongr

end Uplift

namespace TimeoutModel

/-! ### The advice over every run -/

/-- The larger of the two floors that are looked up under a name. -/
def floorsMs (m : TimeoutModel) (name : String) (estOut : ℤ) : ℚ :=
  max (m.floorMs name) (m.decodeFloorMs name estOut)

/-- An answer that gives no less time than another. -/
structure NoLess (a a' : TimeoutAdvice) : Prop where
  ms : a.recommendedMs ≤ a'.recommendedMs
  timeoutS : a.recommendedTimeoutS ≤ a'.recommendedTimeoutS

/-- What both answers promise about an endpoint: more is never given less time, and the
effective answer lies between the floors and the ceiling, all three rounded to a tenth of a
millisecond. -/
structure AdviceSound (l : Logarithm) (p : TimeoutPolicy) (m : TimeoutModel) (endpoint : String) :
    Prop where
  advise_mono : ∀ (priority : ℤ) {estIn estIn' estOut estOut' : ℤ}, 1 ≤ estIn → estIn ≤ estIn' →
    1 ≤ estOut → estOut ≤ estOut' →
    NoLess (m.advise endpoint priority estIn estOut) (m.advise endpoint priority estIn' estOut')
  effective_mono : ∀ (priority : ℤ) {estIn estIn' estOut estOut' : ℤ} {load load' : EndpointLoad},
    1 ≤ estIn → estIn ≤ estIn' → 1 ≤ estOut → estOut ≤ estOut' →
    load'.maxSlots = load.maxSlots → load.inFlight ≤ load'.inFlight →
    load.queued ≤ load'.queued →
    NoLess (effectiveTimeoutAdvice l m p load endpoint priority estIn estOut)
      (effectiveTimeoutAdvice l m p load' endpoint priority estIn' estOut')
  above_floors : ∀ (priority : ℤ) (load : EndpointLoad) {estIn estOut : ℤ}, 1 ≤ estIn → 1 ≤ estOut →
    roundTo 1 (m.floorsMs endpoint estOut) ≤
      (effectiveTimeoutAdvice l m p load endpoint priority estIn estOut).recommendedMs
  below_ceiling : ∀ (priority : ℤ) (load : EndpointLoad) {estIn estOut : ℤ},
    1 ≤ estIn → 1 ≤ estOut →
    (effectiveTimeoutAdvice l m p load endpoint priority estIn estOut).recommendedMs ≤
      roundTo 1 (m.ceilingS p endpoint priority estOut * 1000)
  ceiling_above_floors : ∀ (priority : ℤ) {estOut : ℤ}, 1 ≤ estOut →
    m.floorsMs endpoint estOut ≤ m.ceilingS p endpoint priority estOut * 1000

/-- The floors of an endpoint are not lost when its class name is looked up again. -/
def FloorsKept (m : TimeoutModel) (endpoint : String) : Prop :=
  ∀ estOut, 1 ≤ estOut →
    roundTo 1 (m.floorsMs endpoint estOut) ≤ roundTo 1 (m.floorsMs (m.normalize endpoint) estOut)

theorem floorsKept_of_idempotent {m : TimeoutModel} {endpoint : String}
    (same : m.normalize (m.normalize endpoint) = m.normalize endpoint) : FloorsKept m endpoint := by
  intro estOut _
  unfold floorsMs floorMs decodeFloorMs
  rw [same]

section Sound

variable (l : Logarithm) {p : TimeoutPolicy} {m : TimeoutModel} {endpoint : String}

theorem floorMs_nonneg (floors : ∀ e ∈ m.floors.entries, 0 ≤ e.2) (name : String) :
    0 ≤ m.floorMs name := by
  unfold floorMs
  cases hfloor : m.floors.get? (m.normalize name) with
  | none => norm_num
  | some floor =>
      have := floors _ (Dict.mem_entries_iff.mpr hfloor)
      simp only [Option.getD_some]
      linarith

theorem advise_nonneg (floors : ∀ e ∈ m.floors.entries, 0 ≤ e.2) (endpoint : String)
    (priority estIn : ℤ) {estOut : ℤ} (known : 1 ≤ estOut) :
    0 ≤ (m.advise endpoint priority estIn estOut).recommendedMs := by
  rw [(advise_recommended m endpoint priority estIn known).1]
  have floors_le := floors_le_baseMs m endpoint priority estIn estOut
  have nonneg := floorMs_nonneg floors (m.normalize endpoint)
  exact roundTo_nonneg 1 (nonneg.trans ((le_max_left _ _).trans floors_le))

theorem floors_le_ceiling (p : TimeoutPolicy) (m : TimeoutModel) (endpoint : String)
    (priority estOut : ℤ) :
    m.floorsMs endpoint estOut ≤ m.ceilingS p endpoint priority estOut * 1000 := by
  have resolved := floor_le_resolveCeilingS (p.roleCeilings.get? (m.normalize endpoint))
    (priority ≤ 2) (max (m.floorMs endpoint / 1000) (m.decodeFloorMs endpoint estOut / 1000))
    p.ceilingInteractiveS p.ceilingBackgroundS
  have floor := (le_max_left _ _).trans resolved
  have decode := (le_max_right _ _).trans resolved
  change _ ≤ m.ceilingS p endpoint priority estOut at floor decode
  exact max_le (by linarith) (by linarith)

theorem ceilingS_mono (p : TimeoutPolicy) (m : TimeoutModel) (endpoint : String) (priority : ℤ)
    {estOut estOut' : ℤ} (more : estOut ≤ estOut') :
    m.ceilingS p endpoint priority estOut ≤ m.ceilingS p endpoint priority estOut' := by
  have decode := decodeFloorMs_mono m endpoint more
  refine resolveCeilingS_mono _ _ _ _ (max_le_max le_rfl ?_)
  gcongr

theorem noLess_of_ms {a a' : TimeoutAdvice} {x x' : ℚ} (h : x ≤ x')
    (ms : a.recommendedMs = roundTo 1 x) (timeoutS : a.recommendedTimeoutS = ⌈x / 1000⌉)
    (ms' : a'.recommendedMs = roundTo 1 x') (timeoutS' : a'.recommendedTimeoutS = ⌈x' / 1000⌉) :
    NoLess a a' := by
  constructor
  · rw [ms, ms']
    exact roundTo_mono 1 h
  · rw [timeoutS, timeoutS']
    exact Int.ceil_mono (by gcongr)

/-- One state of the model: the floors need only survive the second lookup. -/
theorem advice_sound (knobs : p.NonNegative) (floors : ∀ e ∈ m.floors.entries, 0 ≤ e.2)
    (kept : FloorsKept m endpoint) : AdviceSound l p m endpoint where
  advise_mono priority estIn estIn' estOut estOut' _ moreIn known moreOut := by
    obtain ⟨ms, timeoutS⟩ := advise_recommended m endpoint priority estIn known
    obtain ⟨ms', timeoutS'⟩ :=
      advise_recommended m endpoint priority estIn' (known.trans moreOut)
    exact noLess_of_ms (baseMs_mono m endpoint priority moreIn moreOut) ms timeoutS ms' timeoutS'
  effective_mono priority estIn estIn' estOut estOut' load load' _ moreIn known moreOut slots
      moreFlying moreQueued := by
    have recommended := roundTo_mono 1 (baseMs_mono m endpoint priority moreIn moreOut)
    rw [← (advise_recommended m endpoint priority estIn known).1,
      ← (advise_recommended m endpoint priority estIn' (known.trans moreOut)).1] at recommended
    have nonneg := advise_nonneg floors endpoint priority estIn known
    have ceiling := ceilingS_mono p m endpoint priority moreOut
    exact noLess_of_ms (applyLoadAndCeiling_mono l knobs nonneg recommended slots moreFlying
      moreQueued moreIn (by linarith)) rfl rfl rfl rfl
  above_floors priority load estIn estOut _ known := by
    have floor := (kept estOut known).trans
      (roundTo_mono 1 (floors_le_baseMs m endpoint priority estIn estOut))
    rw [← (advise_recommended m endpoint priority estIn known).1] at floor
    have nonneg := advise_nonneg floors endpoint priority estIn known
    have ceiling := floors_le_ceiling p m endpoint priority estOut
    -- The floor itself reaches the ceiling, and its rounding the recommendation.
    have lifted := le_applyLoadAndCeiling l knobs load estIn nonneg
      ((min_le_left _ _).trans floor) ((min_le_right _ _).trans ceiling)
    exact (roundTo_min_self 1 _).symm.le.trans (roundTo_mono 1 lifted)
  below_ceiling priority load estIn estOut _ _ := roundTo_mono 1 (min_le_right _ _)
  ceiling_above_floors priority estOut _ := floors_le_ceiling p m endpoint priority estOut

/-! ### Runs -/

/-- No call changes what is configured. -/
structure SameSettings (m m' : TimeoutModel) : Prop where
  normalize : m'.normalize = m.normalize
  floors : m'.floors = m.floors
  decodeRates : m'.decodeRates = m.decodeRates

theorem sameSettings_step {m m' : TimeoutModel} (op : Op) (h : SameSettings m m') :
    SameSettings m (m'.step op) := by
  rcases op with ⟨name, pri, i, o, ms, status, now⟩ | now
  · unfold step record
    simp only
    split
    · exact h
    · exact ⟨h.normalize, h.floors, h.decodeRates⟩
  · exact ⟨h.normalize, h.floors, h.decodeRates⟩

theorem sameSettings_run (m : TimeoutModel) (ops : List Op) :
    SameSettings m (Runs.run step m ops) :=
  Runs.run_forall (SameSettings m) (fun _ op h => sameSettings_step op h) ⟨rfl, rfl, rfl⟩ ops

theorem floorsMs_congr {m m' : TimeoutModel} (h : SameSettings m m') (name : String) (estOut : ℤ) :
    m'.floorsMs name estOut = m.floorsMs name estOut := by
  unfold floorsMs floorMs decodeFloorMs
  rw [h.normalize, h.floors, h.decodeRates]

/-- A model without samples answers with the floor. -/
theorem adviseAt_of_empty (empty : m.cells = ∅) (ep : String) (pri : ℤ) (inB outB : ℕ) (floor : ℚ) :
    (m.adviseAt ep pri inB outB floor).recommended = floor := by
  have nothing (priority : Option ℤ) (i o : Option ℕ) : m.collect ep priority i o = [] := by
    unfold collect
    rw [empty]
    rcases priority with _ | _ <;> rcases i with _ | _ <;> rcases o with _ | _ <;> rfl
  have samples : (((m.levels ep pri inB outB).find? fun l => m.minSamples ≤ l.2.length).map
      Prod.snd).getD [] = [] := by
    cases hrung : (m.levels ep pri inB outB).find? fun l => m.minSamples ≤ l.2.length with
    | none => rfl
    | some rung =>
        have rungs := List.mem_of_find?_eq_some hrung
        simp only [levels, nothing, List.mem_cons, List.not_mem_nil, or_false] at rungs
        rcases rungs with rfl | rfl | rfl | rfl <;> rfl
  unfold adviseAt
  simp only
  rw [if_pos samples]

theorem baseMs_of_empty (empty : m.cells = ∅) (endpoint : String) (priority estIn estOut : ℤ) :
    m.baseMs endpoint priority estIn estOut = m.floorsMs (m.normalize endpoint) estOut := by
  have peak (cell : ℕ × ℕ) :
      m.peakMs endpoint priority cell = m.floorMs (m.normalize endpoint) := by
    obtain ⟨c, -, hc⟩ := (walk_isGreatest (fun c => (m.adviseAt (m.normalize endpoint) priority c.1
      c.2 (m.floorMs (m.normalize endpoint))).recommended) cell).1
    exact hc.symm.trans (adviseAt_of_empty empty _ _ _ _ _)
  unfold baseMs floorsMs
  rw [peak]

theorem applyLoadAndCeiling_le {recommendedMs : ℚ} (ceilingMs : ℚ) {estIn : ℤ}
    (short : estIn ≤ 16384) :
    applyLoadAndCeiling l p recommendedMs ⟨0, 0, 0⟩ estIn ceilingMs ≤ recommendedMs := by
  unfold applyLoadAndCeiling surgeFactor sizeStretch
  simp only [le_refl, if_true, if_pos short, mul_one]
  exact min_le_left _ _

/-- In every run from an empty model the advice keeps all its promises about an endpoint exactly
when the endpoint's floors are found again under its class name. -/
theorem advice_sound_iff (knobs : p.NonNegative) (floors : ∀ e ∈ m.floors.entries, 0 ≤ e.2)
    (empty : m.cells = ∅) :
    (∀ ops, AdviceSound l p (Runs.run step m ops) endpoint) ↔ FloorsKept m endpoint := by
  constructor
  · intro sound estOut known
    have fresh : AdviceSound l p m endpoint := sound []
    have above := fresh.above_floors 0 ⟨0, 0, 0⟩ le_rfl known
    have idle : (effectiveTimeoutAdvice l m p ⟨0, 0, 0⟩ endpoint 0 1 estOut).recommendedMs ≤
        roundTo 1 (m.advise endpoint 0 1 estOut).recommendedMs :=
      roundTo_mono 1 (applyLoadAndCeiling_le l _ (by norm_num))
    have base := (advise_recommended m endpoint 0 1 known).1
    rw [base, roundTo_roundTo, baseMs_of_empty empty] at idle
    exact above.trans idle
  · intro kept ops
    have settings := sameSettings_run m ops
    refine advice_sound l knobs (settings.floors ▸ floors) fun estOut known => ?_
    rw [settings.normalize, floorsMs_congr settings, floorsMs_congr settings]
    exact kept estOut known

end Sound

/-- The binary logarithm, rounded down. -/
def binaryLogarithm : Logarithm where
  log x := Int.log 2 x
  unit := 1
  mono x y hx hxy := Int.cast_le.mpr (Int.log_mono_right (zero_lt_one.trans_le hx) hxy)
  nonneg x hx := by
    have : Int.log 2 (1 : ℚ) ≤ Int.log 2 x := Int.log_mono_right zero_lt_one hx
    rw [Int.log_one_right] at this
    exact Int.cast_nonneg this
  unit_pos := zero_lt_one

/-- A catalog in which the role `deep` is played by the class `name`. -/
def deepPlayedBy (name : String) (keys : ([("deep", name), (name, name)].map Prod.fst).Nodup) :
    ProxyConfig where
  endpoints := ∅
  stored_under_class _ h := absurd h List.not_mem_nil
  class_ne_empty _ h := absurd h List.not_mem_nil
  roleToClass := ⟨[("deep", name), (name, name)], keys⟩

/-- The shipped floors, and one more. -/
def floorsWithBig : Dict String ℚ :=
  ⟨[("tier3", 180), ("tier2", 120), ("tier1", 60), ("embed", 15), ("rerank", 10), ("Big", 300)],
    by decide⟩

theorem advice_sound_tier3 :
    AdviceSound binaryLogarithm {} (Runs.run step
      { normalize := (deepPlayedBy "tier3" (by decide)).normalizeEndpoint
        floors := floorsWithBig } [.record "deep" 1 100 100 5000 "ok" 0, .prune 10]) "deep" :=
  (advice_sound_iff binaryLogarithm ⟨by norm_num, by norm_num, by norm_num, by norm_num⟩
    (by decide) rfl).mpr (floorsKept_of_idempotent (by decide)) _

/-- A class whose name has a capital letter: `advise` starts from the default floor of a
minute, and five minutes were declared. -/
theorem declared_floor_lost :
    let m : TimeoutModel :=
      { normalize := (deepPlayedBy "Big" (by decide)).normalizeEndpoint, floors := floorsWithBig }
    (effectiveTimeoutAdvice binaryLogarithm m {} ⟨4, 0, 0⟩ "deep" 1 100 100).recommendedMs = 60000 ∧
      m.floorMs "deep" = 300000 ∧
      ¬AdviceSound binaryLogarithm {} (Runs.run step m []) "deep" := by
  intro m
  have given :
      (effectiveTimeoutAdvice binaryLogarithm m {} ⟨4, 0, 0⟩ "deep" 1 100 100).recommendedMs =
        60000 := by decide +kernel
  have declared : roundTo 1 (m.floorsMs "deep" 100) = 300000 := by decide +kernel
  refine ⟨given, by decide +kernel, fun sound => ?_⟩
  have above := AdviceSound.above_floors (m := m) sound 1 ⟨4, 0, 0⟩ (by decide : (1 : ℤ) ≤ 100)
    (by decide : (1 : ℤ) ≤ 100)
  rw [given, declared] at above
  norm_num at above

end TimeoutModel

end Roadstead
