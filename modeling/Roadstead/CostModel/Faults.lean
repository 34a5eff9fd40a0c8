import Mathlib.Algebra.Order.Field.Rat
import Mathlib.Data.List.GetD
import Mathlib.Tactic.Linarith
import Mathlib.Tactic.Positivity
import Mathlib.Tactic.Ring
import Roadstead.CostModel
import Roadstead.Lib.Binary64

/-!
# The cost model never faults

The functions of `CostModel` are total; the Python ones index a list by an occupancy and
divide.  Here they are once more with these two operations as they are in Python, where they
can fail (`item`, `setItem`, `quotient`), together with the two operations that change the
decode curve, `register_endpoint` and `update_max_slots`.

`estimate_eq` and `update_eq` say that the guards in front of each index and each division
suffice, in every state: the checked function returns, and returns what the total one does.
No invariant is needed for it, since `occ` is compared with the curve as it is *now*.

That the numbers keep their signs needs one (`Sound`): every entry of the curve, and every
moving average that is written back into it, is positive, because it averages quotients of
positive numbers.

## Exact and rounded

The arithmetic is exact, and `never_faults` is about exact numbers.  Doubles have a least positive
number: the default curve of an endpoint with thousands of slots ends in zeros
(`decode_curve_underflows`).
-/

namespace Roadstead

/-- The exceptions in question. -/
inductive Fault where
  | indexError
  | zeroDivision
  deriving DecidableEq

/-! ### Indexing and division -/

/-- The position `xs[i]` means: a negative index counts from the end. -/
def position (xs : List ℚ) (i : ℤ) : ℤ := if i < 0 then i + xs.length else i

/-- `xs[i]`. -/
def item (xs : List ℚ) (i : ℤ) : Except Fault ℚ :=
  if 0 ≤ position xs i ∧ position xs i < xs.length then .ok (xs.getD (position xs i).toNat 0)
  else .error .indexError

/-- `xs[i] = x`. -/
def setItem (xs : List ℚ) (i : ℤ) (x : ℚ) : Except Fault (List ℚ) :=
  if 0 ≤ position xs i ∧ position xs i < xs.length then .ok (xs.set (position xs i).toNat x)
  else .error .indexError

/-- `a / b`. -/
def quotient (a b : ℚ) : Except Fault ℚ := if b = 0 then .error .zeroDivision else .ok (a / b)

theorem item_ok {xs : List ℚ} {i : ℤ} (low : 0 ≤ i) (high : i < xs.length) (d : ℚ) :
    item xs i = .ok (xs.getD i.toNat d) := by
  have here : position xs i = i := if_neg (not_lt.mpr low)
  have within : i.toNat < xs.length := by omega
  rw [item, here, if_pos ⟨low, high⟩, List.getD_eq_getElem _ _ within,
    List.getD_eq_getElem _ _ within]

theorem setItem_ok {xs : List ℚ} {i : ℤ} (low : 0 ≤ i) (high : i < xs.length) (x : ℚ) :
    setItem xs i x = .ok (xs.set i.toNat x) := by
  have here : position xs i = i := if_neg (not_lt.mpr low)
  rw [setItem, here, if_pos ⟨low, high⟩]

theorem quotient_ok {a b : ℚ} (h : b ≠ 0) : quotient a b = .ok (a / b) := if_neg h

/-- `xs[-1]` of a list that is not empty. -/
theorem item_last {xs : List ℚ} (h : xs ≠ []) : item xs (-1) = .ok (xs.getLastD 0) := by
  have long : 0 < xs.length := List.length_pos_iff.mpr h
  have here : position xs (-1) = xs.length - 1 := by
    unfold position
    rw [if_pos (by decide)]
    ring
  rw [item, here, if_pos ⟨by omega, by omega⟩]
  congr 1
  have last : ((xs.length : ℤ) - 1).toNat = xs.length - 1 := by omega
  rw [last, List.getLastD_eq_getLast?, List.getLast?_eq_getElem?, List.getD_eq_getElem?_getD]

/-- `a / b if b > 0 else other`. -/
def quotientOr (a b other : ℚ) : Except Fault ℚ := if 0 < b then quotient a b else .ok other

/-- `xs[occ - 1] if occ <= len(xs) else other`. -/
def entryAt (xs : List ℚ) (occ : ℤ) (other : Except Fault ℚ) : Except Fault ℚ :=
  if occ ≤ xs.length then item xs (occ - 1) else other

theorem quotientOr_ok (a b other : ℚ) :
    quotientOr a b other = .ok (if 0 < b then a / b else other) := by
  unfold quotientOr
  split
  · rename_i positive
    exact quotient_ok positive.ne'
  · rfl

theorem entryAt_ok {xs : List ℚ} {occ : ℤ} (low : 1 ≤ occ) (other d : ℚ) :
    entryAt xs occ (.ok other) =
      .ok (if occ ≤ xs.length then xs.getD (occ - 1).toNat d else other) := by
  unfold entryAt
  split
  · exact item_ok (by omega) (by omega) d
  · rfl

variable {m : EndpointCostModel}

namespace EndpointCostModel

/-! ### Setting up a model and changing its size -/

/-- `_default_decode_curve`. -/
def defaultDecodeCurve (maxSlots : ℤ) : List ℚ :=
  let curve := (List.range maxSlots.toNat).map fun i => 40 * (88 / 100 : ℚ) ^ i
  if curve = [] then [40] else curve

/-- The model `register_endpoint` stores. -/
def registered (endpoint : String) (maxSlots : ℤ) (prefillK : ℚ) (decodeTps : Option (List ℚ)) :
    EndpointCostModel :=
  let curve := decodeTps.getD []
  { endpoint := endpoint, maxSlots := maxSlots, prefillK := prefillK
    decodeTps := if curve = [] then defaultDecodeCurve maxSlots else curve }

/-- The rate a longer curve goes on from. -/
def lastRate (m : EndpointCostModel) : Except Fault ℚ :=
  if m.decodeTps = [] then .ok 40 else item m.decodeTps (-1)

/-- `update_max_slots` of one model. -/
def updateMaxSlots (m : EndpointCostModel) (newMax : ℤ) : Except Fault EndpointCostModel :=
  if newMax ≤ 0 then .ok { m with maxSlots := newMax, decodeTps := [] }
  else if m.maxSlots < newMax then do
    let last ← m.lastRate
    return { m with
      maxSlots := newMax
      decodeTps :=
        m.decodeTps ++ List.replicate (newMax - m.maxSlots).toNat (last * (88 / 100)) }
  else if newMax < m.maxSlots then
    .ok { m with maxSlots := newMax, decodeTps := m.decodeTps.take newMax.toNat }
  else .ok { m with maxSlots := newMax }

/-! ### The checked estimate and calibration -/

/-- `est_output` of `estimate_cost_ss`. -/
def estOutput (m : EndpointCostModel) (maxOutputTokens : ℚ) (callSite : String) : ℚ :=
  match m.outputLengthEwma.get? callSite with
  | some ewma =>
      if 5 ≤ ewma.sampleCount then max 1 (min maxOutputTokens ewma.intP95) else maxOutputTokens
  | none => maxOutputTokens

/-- `estimate_cost_ss`. -/
def estimate (m : EndpointCostModel) (inputTokens : ℕ) (maxOutputTokens : ℚ) (callSite : String)
    (currentOccupancy : ℤ) : Except Fault ℚ :=
  let prefillS := m.prefillK * inputTokens
  let estOutput := m.estOutput maxOutputTokens callSite
  if m.decodeTps = [] ∨ m.maxSlots ≤ 0 then do
    let decodeS ← quotient estOutput 40
    return prefillS + decodeS
  else do
    let occ := min (max 1 (currentOccupancy + 1)) m.maxSlots
    let tps ← entryAt m.decodeTps occ (item m.decodeTps (-1))
    let decodeS ← quotientOr estOutput tps 30
    return prefillS + decodeS

/-- `self.decode_tps[occ - 1] = value`, once there are three samples. -/
def learned (m : EndpointCostModel) (occ : ℤ) (tracker : EWMATracker) : Except Fault (List ℚ) :=
  if 3 ≤ tracker.sampleCount then
    if occ ≤ m.decodeTps.length then setItem m.decodeTps (occ - 1) tracker.value
    else .ok m.decodeTps
  else .ok m.decodeTps

/-- The step of `update_from_completion` that calibrates `decode_tps`. -/
def learnDecode (m : EndpointCostModel) (outputTokens estDecode : ℚ) (occupancyDuring : ℤ) :
    Except Fault EndpointCostModel :=
  if 1 ≤ occupancyDuring then do
    let observedTps ← quotient outputTokens estDecode
    let occ := min occupancyDuring m.maxSlots
    let tracker := ((m.decodeTpsEwma.get? occ).getD {}).update observedTps
    let decodeTps ← m.learned occ tracker
    return { m with decodeTpsEwma := m.decodeTpsEwma.set occ tracker, decodeTps := decodeTps }
  else .ok m

/-- The sample `implied_k`, if it is one, and `prefill_k` once there are ten of them. -/
def learnedK (m : EndpointCostModel) (impliedK : ℚ) : EndpointCostModel :=
  if 0 < impliedK then
    let tracker := m.prefillEwma.update impliedK
    { m with
      prefillEwma := tracker
      prefillK := if 10 ≤ tracker.sampleCount then tracker.value else m.prefillK }
  else m

/-- The step that calibrates `prefill_k`. -/
def learnPrefill (m : EndpointCostModel) (inputTokens outputTokens : ℤ) (durationS estDecode : ℚ)
    (occupancyDuring : ℤ) : Except Fault EndpointCostModel :=
  if 100 < inputTokens then do
    let occIdx := min (max occupancyDuring 1) m.maxSlots
    let tpsAtOcc ← entryAt m.decodeTps occIdx (.ok 40)
    let impliedDecode ← quotientOr outputTokens tpsAtOcc estDecode
    let impliedK ← quotientOr (max 0 (durationS - impliedDecode)) inputTokens 0
    return m.learnedK impliedK
  else .ok m

/-- `update_from_completion`. -/
def update (m : EndpointCostModel) (callSite : String) (inputTokens outputTokens : ℤ)
    (durationS : ℚ) (occupancyDuring : ℤ) : Except Fault EndpointCostModel :=
  if durationS ≤ 0 ∨ outputTokens ≤ 0 then .ok m
  else
    let tracker := ((m.outputLengthEwma.get? callSite).getD {}).update outputTokens
    let m := { m with outputLengthEwma := m.outputLengthEwma.set callSite tracker }
    if m.maxSlots < 1 ∨ m.decodeTps = [] then .ok m
    else do
      let estDecode := max (1 / 100) (durationS - m.prefillK * inputTokens)
      let m ← m.learnDecode outputTokens estDecode occupancyDuring
      m.learnPrefill inputTokens outputTokens durationS estDecode occupancyDuring

/-! ### The guards suffice -/

/-- The estimate never faults, and is the one the scheduler is modelled with. -/
theorem estimate_eq (m : EndpointCostModel) (inputTokens : ℕ) (maxOutputTokens : ℚ)
    (callSite : String) (currentOccupancy : ℤ) :
    m.estimate inputTokens maxOutputTokens callSite currentOccupancy =
      .ok (m.estimateCostSs inputTokens maxOutputTokens callSite currentOccupancy.toNat) := by
  unfold estimate estimateCostSs
  simp only
  by_cases flat : m.decodeTps = [] ∨ m.maxSlots ≤ 0
  · rw [if_pos flat, if_pos flat, quotient_ok (by norm_num)]
    rfl
  · rw [if_neg flat, if_neg flat]
    rw [not_or, not_le] at flat
    have sameOcc : max 1 ((currentOccupancy.toNat : ℤ) + 1) = max 1 (currentOccupancy + 1) := by
      omega
    rw [sameOcc, item_last flat.1, entryAt_ok (by omega) _ 0]
    show (quotientOr _ _ _ >>= _) = _
    rw [quotientOr_ok]
    rfl

/-- The calibration of the curve never faults. -/
theorem learnDecode_eq (slots : 1 ≤ m.maxSlots) (outputTokens : ℚ)
    {estDecode : ℚ} (positive : 0 < estDecode) (occupancyDuring : ℤ) :
    m.learnDecode outputTokens estDecode occupancyDuring =
      .ok (if 1 ≤ occupancyDuring then
        m.calibrateDecode (outputTokens / estDecode) (min occupancyDuring m.maxSlots)
      else m) := by
  unfold learnDecode
  split
  · rw [quotient_ok positive.ne']
    have written : ∀ tracker : EWMATracker,
        m.learned (min occupancyDuring m.maxSlots) tracker =
          .ok (if 3 ≤ tracker.sampleCount ∧
              min occupancyDuring m.maxSlots ≤ m.decodeTps.length then
            m.decodeTps.set (min occupancyDuring m.maxSlots - 1).toNat tracker.value
          else m.decodeTps) := by
      intro tracker
      unfold learned
      by_cases samples : 3 ≤ tracker.sampleCount
      · by_cases within : min occupancyDuring m.maxSlots ≤ m.decodeTps.length
        · rw [if_pos samples, if_pos within, if_pos ⟨samples, within⟩]
          exact setItem_ok (by omega) (by omega) _
        · rw [if_pos samples, if_neg within, if_neg fun h => within h.2]
      · rw [if_neg samples, if_neg fun h => samples h.1]
    show (m.learned _ _ >>= _) = _
    rw [written]
    rfl
  · rfl

/-- Nor does the calibration of `prefill_k`. -/
theorem learnPrefill_eq (slots : 1 ≤ m.maxSlots)
    (inputTokens outputTokens : ℤ) (durationS estDecode : ℚ) (occupancyDuring : ℤ) :
    m.learnPrefill inputTokens outputTokens durationS estDecode occupancyDuring =
      .ok (if 100 < inputTokens then
        m.calibratePrefill inputTokens outputTokens durationS estDecode occupancyDuring
      else m) := by
  unfold learnPrefill
  split
  · rename_i long
    simp only
    rw [entryAt_ok (by omega) _ 40]
    show (quotientOr _ _ _ >>= _) = _
    rw [quotientOr_ok]
    show (quotientOr _ _ _ >>= _) = _
    rw [quotientOr_ok, if_pos (show (0 : ℚ) < inputTokens by exact_mod_cast (by omega : 0 < inputTokens))]
    rfl
  · rfl

/-- A completion never faults, whatever it reports and however the curve has changed since its
dispatch. -/
theorem update_eq (m : EndpointCostModel) (callSite : String) (inputTokens outputTokens : ℤ)
    (durationS : ℚ) (occupancyDuring : ℤ) :
    m.update callSite inputTokens outputTokens durationS occupancyDuring =
      .ok (m.updateFromCompletion callSite inputTokens outputTokens durationS occupancyDuring) := by
  unfold update updateFromCompletion
  simp only
  by_cases ignored : durationS ≤ 0 ∨ outputTokens ≤ 0
  · rw [if_pos ignored, if_pos ignored]
  · rw [if_neg ignored, if_neg ignored]
    by_cases flat : m.maxSlots < 1 ∨ m.decodeTps = []
    · rw [if_pos flat, if_pos flat]
    · rw [if_neg flat, if_neg flat]
      have slots : 1 ≤ m.maxSlots := not_lt.mp (not_or.mp flat).1
      have positive : 0 < max (1 / 100) (durationS - m.prefillK * inputTokens) :=
        lt_max_of_lt_left (by norm_num)
      let m' : EndpointCostModel :=
        { m with
          outputLengthEwma := m.outputLengthEwma.set callSite
            (((m.outputLengthEwma.get? callSite).getD {}).update outputTokens) }
      show (m'.learnDecode outputTokens (max (1 / 100) (durationS - m.prefillK * inputTokens))
        occupancyDuring >>= _) = _
      rw [learnDecode_eq (m := m') slots _ positive]
      show learnPrefill _ _ _ _ _ _ = _
      rw [learnPrefill_eq]
      split
      · exact slots
      · exact slots

end EndpointCostModel

/-! ### The signs -/

/-- What was averaged so far was positive. -/
structure EWMATracker.Positive (t : EWMATracker) : Prop where
  weight_pos : 0 < t.alpha
  weight_le : t.alpha ≤ 1
  value_pos : t.sampleCount ≠ 0 → 0 < t.value

theorem EWMATracker.positive_default : ({} : EWMATracker).Positive :=
  ⟨by norm_num, by norm_num, fun h => absurd rfl h⟩

/-- An average of positive samples is positive: it is between the old one and the new
sample. -/
theorem EWMATracker.Positive.update {t : EWMATracker} (positive : t.Positive) {sample : ℚ}
    (h : 0 < sample) : (t.update sample).Positive ∧ 0 < (t.update sample).value := by
  have value : 0 < (t.update sample).value := by
    unfold EWMATracker.update
    split
    · exact h
    · rename_i seen
      have old := positive.value_pos seen
      have kept : 0 ≤ (1 - t.alpha) * t.value :=
        mul_nonneg (by linarith [positive.weight_le]) old.le
      have gained : 0 < t.alpha * sample := mul_pos positive.weight_pos h
      calc (0 : ℚ) < (1 - t.alpha) * t.value + t.alpha * sample := by linarith
        _ = t.value + t.alpha * (sample - t.value) := by ring
  have weight : (t.update sample).alpha = t.alpha := by
    unfold EWMATracker.update
    split <;> rfl
  exact ⟨⟨weight ▸ positive.weight_pos, weight ▸ positive.weight_le, fun _ => value⟩, value⟩

namespace EndpointCostModel

/-- Every rate in the curve is positive, and so is everything that may be written into it;
`prefill_k` is not negative. -/
structure Sound (m : EndpointCostModel) : Prop where
  decodeTps : ∀ tps ∈ m.decodeTps, 0 < tps
  decodeTpsEwma : ∀ occ t, m.decodeTpsEwma.get? occ = some t → t.Positive
  prefillK : 0 ≤ m.prefillK
  prefillEwma : m.prefillEwma.Positive

theorem defaultDecodeCurve_pos (maxSlots : ℤ) : ∀ tps ∈ defaultDecodeCurve maxSlots, 0 < tps := by
  unfold defaultDecodeCurve
  simp only
  split
  · simp
  · intro tps h
    obtain ⟨i, -, rfl⟩ := List.mem_map.mp h
    positivity

theorem sound_registered (endpoint : String) (maxSlots : ℤ) {prefillK : ℚ} (nonneg : 0 ≤ prefillK)
    {decodeTps : Option (List ℚ)} (given : ∀ tps ∈ decodeTps.getD [], 0 < tps) :
    (registered endpoint maxSlots prefillK decodeTps).Sound where
  decodeTps := by
    unfold registered
    simp only
    split
    · exact defaultDecodeCurve_pos maxSlots
    · exact given
  decodeTpsEwma := fun occ t h => by simp [registered] at h
  prefillK := nonneg
  prefillEwma := ⟨by norm_num [registered], by norm_num [registered], fun h => absurd rfl h⟩

theorem lastRate_spec (m : EndpointCostModel) :
    ∃ last, m.lastRate = .ok last ∧ (m.Sound → 0 < last) := by
  unfold lastRate
  split
  · exact ⟨40, rfl, fun _ => by norm_num⟩
  · rename_i curve
    refine ⟨_, item_last curve, fun h => h.decodeTps _ ?_⟩
    rw [List.getLastD_eq_getLast?, List.getLast?_eq_some_getLast curve]
    exact List.getLast_mem curve

/-- A change of size never faults and only appends positive rates. -/
theorem updateMaxSlots_spec (m : EndpointCostModel) (newMax : ℤ) :
    ∃ m', m.updateMaxSlots newMax = .ok m' ∧ (m.Sound → m'.Sound) := by
  unfold updateMaxSlots
  split
  · exact ⟨_, rfl, fun h => ⟨by simp, h.decodeTpsEwma, h.prefillK, h.prefillEwma⟩⟩
  split
  · obtain ⟨last, found, positive⟩ := m.lastRate_spec
    rw [found]
    refine ⟨_, rfl, fun h => ⟨fun tps mem => ?_, h.decodeTpsEwma, h.prefillK, h.prefillEwma⟩⟩
    rcases List.mem_append.mp mem with old | new
    · exact h.decodeTps tps old
    · rw [List.eq_of_mem_replicate new]
      exact mul_pos (positive h) (by norm_num)
  split
  · refine ⟨_, rfl, fun h => ⟨fun tps mem => ?_, h.decodeTpsEwma, h.prefillK, h.prefillEwma⟩⟩
    exact h.decodeTps tps (List.mem_of_mem_take mem)
  · exact ⟨_, rfl, fun h => ⟨h.decodeTps, h.decodeTpsEwma, h.prefillK, h.prefillEwma⟩⟩

theorem Sound.calibrateDecode (sound : m.Sound) {observedTps : ℚ}
    (positive : 0 < observedTps) (occ : ℤ) : (m.calibrateDecode observedTps occ).Sound := by
  have before : ((m.decodeTpsEwma.get? occ).getD {}).Positive := by
    rcases h : m.decodeTpsEwma.get? occ with - | t
    · exact EWMATracker.positive_default
    · exact sound.decodeTpsEwma occ t h
  have after := before.update positive
  refine ⟨fun tps mem => ?_, fun occ' t known => ?_, sound.prefillK, sound.prefillEwma⟩
  · simp only [EndpointCostModel.calibrateDecode] at mem
    split at mem
    · rcases List.mem_or_eq_of_mem_set mem with old | new
      · exact sound.decodeTps tps old
      · exact new ▸ after.2
    · exact sound.decodeTps tps mem
  · simp only [EndpointCostModel.calibrateDecode, Dict.get?_set] at known
    split at known
    · exact Option.some.inj known ▸ after.1
    · exact sound.decodeTpsEwma occ' t known

theorem Sound.learnedK (sound : m.Sound) (impliedK : ℚ) :
    (m.learnedK impliedK).Sound := by
  unfold EndpointCostModel.learnedK
  split
  · rename_i positive
    have after := sound.prefillEwma.update positive
    refine ⟨sound.decodeTps, sound.decodeTpsEwma, ?_, after.1⟩
    simp only
    split
    · exact after.2.le
    · exact sound.prefillK
  · exact sound

/-- The sample for `prefill_k` may be anything. -/
theorem Sound.calibratePrefill (sound : m.Sound)
    (inputTokens outputTokens : ℤ) (durationS estDecode : ℚ) (occupancyDuring : ℤ) :
    (m.calibratePrefill inputTokens outputTokens durationS estDecode occupancyDuring).Sound :=
  sound.learnedK _

theorem Sound.updateFromCompletion (sound : m.Sound) (callSite : String)
    (inputTokens outputTokens : ℤ) (durationS : ℚ) (occupancyDuring : ℤ) :
    (m.updateFromCompletion callSite inputTokens outputTokens durationS occupancyDuring).Sound := by
  unfold EndpointCostModel.updateFromCompletion
  split
  · exact sound
  rename_i used
  rw [not_or, not_le, not_le] at used
  -- From here on the model has counted the output; nothing else reads the counter.
  have counted := (⟨sound.decodeTps, sound.decodeTpsEwma, sound.prefillK, sound.prefillEwma⟩ :
    Sound { m with
      outputLengthEwma := m.outputLengthEwma.set callSite
        (((m.outputLengthEwma.get? callSite).getD {}).update outputTokens) })
  simp only
  split
  · exact counted
  have observed : (0 : ℚ) < outputTokens / max (1 / 100) (durationS - m.prefillK * inputTokens) :=
    div_pos (by exact_mod_cast used.2) (lt_max_of_lt_left (by norm_num))
  by_cases known : 1 ≤ occupancyDuring
  · rw [if_pos known]
    have calibrated := counted.calibrateDecode observed (min occupancyDuring m.maxSlots)
    split
    · exact calibrated.calibratePrefill _ _ _ _ _
    · exact calibrated
  · rw [if_neg known]
    split
    · exact counted.calibratePrefill _ _ _ _ _
    · exact counted

/-- A sound model never estimates less than nothing. -/
theorem Sound.estimateCostSs_nonneg (sound : m.Sound) (inputTokens : ℕ)
    {maxOutputTokens : ℚ} (nonneg : 0 ≤ maxOutputTokens) (callSite : String) (occupancy : ℕ) :
    0 ≤ m.estimateCostSs inputTokens maxOutputTokens callSite occupancy := by
  have prefill : 0 ≤ m.prefillK * inputTokens := mul_nonneg sound.prefillK (Nat.cast_nonneg _)
  have output : 0 ≤ m.estOutput maxOutputTokens callSite := by
    unfold estOutput
    split
    · split
      · exact le_max_of_le_left (by norm_num)
      · exact nonneg
    · exact nonneg
  have decode (tps : ℚ) : 0 ≤ if 0 < tps then m.estOutput maxOutputTokens callSite / tps else 30 := by
    split
    · rename_i positive
      exact div_nonneg output positive.le
    · norm_num
  unfold EndpointCostModel.estimateCostSs
  simp only
  split
  · exact add_nonneg prefill (div_nonneg output (by norm_num))
  · exact add_nonneg prefill (decode _)

end EndpointCostModel

/-! ### The fleet, under any sequence of calls -/

namespace CostModel

/-- The calls that write to a cost model. -/
inductive Op where
  | registerEndpoint (endpoint : String) (maxSlots : ℤ) (prefillK : ℚ) (decodeTps : Option (List ℚ))
  | updateMaxSlots (endpoint : String) (newMax : ℤ)
  | recordCompletion (endpoint callSite : String) (inputTokens outputTokens : ℤ) (durationS : ℚ)
      (occupancyDuring : ℤ)

/-- What a registration may be called with; the other calls may be called with anything. -/
def Op.Legal : Op → Prop
  | .registerEndpoint _ _ prefillK decodeTps => 0 ≤ prefillK ∧ ∀ tps ∈ decodeTps.getD [], 0 < tps
  | _ => True

/-- Rewrite the model of an endpoint, if there is one. -/
def rewrite (c : CostModel) (endpoint : String)
    (f : EndpointCostModel → Except Fault EndpointCostModel) : Except Fault CostModel :=
  match c.models.get? endpoint with
  | none => .ok c
  | some model => do
      let model ← f model
      return { models := c.models.set endpoint model }

def step (c : CostModel) : Op → Except Fault CostModel
  | .registerEndpoint endpoint maxSlots prefillK decodeTps =>
      .ok { models := c.models.set endpoint
              (.registered endpoint maxSlots prefillK decodeTps) }
  | .updateMaxSlots endpoint newMax => c.rewrite endpoint fun m => m.updateMaxSlots newMax
  | .recordCompletion endpoint callSite inputTokens outputTokens durationS occupancyDuring =>
      c.rewrite endpoint fun m =>
        m.update callSite inputTokens outputTokens durationS occupancyDuring

/-- `estimate_cost`. -/
def estimate (c : CostModel) (endpoint : String) (inputTokens : ℕ) (maxOutputTokens : ℚ)
    (callSite : String) (currentOccupancy : ℤ) : Except Fault ℚ :=
  match c.models.get? endpoint with
  | none => quotient maxOutputTokens 40
  | some model => model.estimate inputTokens maxOutputTokens callSite currentOccupancy

/-- Every model of the fleet is sound. -/
def Sound (c : CostModel) : Prop := ∀ ep m, c.models.get? ep = some m → m.Sound

theorem Sound.set {c : CostModel} (sound : c.Sound) (h : m.Sound)
    (ep : String) : Sound { models := c.models.set ep m } := by
  intro ep' m' known
  rw [Dict.get?_set] at known
  split at known
  · exact Option.some.inj known ▸ h
  · exact sound ep' m' known

theorem Sound.rewrite {c : CostModel} (sound : c.Sound) (ep : String)
    {f : EndpointCostModel → Except Fault EndpointCostModel}
    (fine : ∀ m : EndpointCostModel, m.Sound → ∃ m', f m = .ok m' ∧ m'.Sound) :
    ∃ c', c.rewrite ep f = .ok c' ∧ c'.Sound := by
  unfold CostModel.rewrite
  rcases known : c.models.get? ep with - | m
  · exact ⟨c, rfl, sound⟩
  · obtain ⟨m', returned, h⟩ := fine m (sound ep m known)
    refine ⟨_, ?_, sound.set h ep⟩
    simp only [returned]
    rfl

theorem Sound.step {c : CostModel} (sound : c.Sound) {op : Op} (legal : op.Legal) :
    ∃ c', c.step op = .ok c' ∧ c'.Sound := by
  cases op with
  | registerEndpoint endpoint maxSlots prefillK decodeTps =>
      exact ⟨_, rfl, sound.set
        (EndpointCostModel.sound_registered endpoint maxSlots legal.1 legal.2) endpoint⟩
  | updateMaxSlots endpoint newMax =>
      refine sound.rewrite endpoint fun m h => ?_
      obtain ⟨m', returned, keeps⟩ := m.updateMaxSlots_spec newMax
      exact ⟨m', returned, keeps h⟩
  | recordCompletion endpoint callSite inputTokens outputTokens durationS occupancyDuring =>
      exact sound.rewrite endpoint fun m h =>
        ⟨_, m.update_eq .., h.updateFromCompletion ..⟩

theorem Sound.run {c : CostModel} (sound : c.Sound) {ops : List Op} (legal : ∀ op ∈ ops, op.Legal) :
    ∃ c', ops.foldlM CostModel.step c = .ok c' ∧ c'.Sound := by
  induction ops generalizing c with
  | nil => exact ⟨c, rfl, sound⟩
  | cons op ops ih =>
      obtain ⟨c₁, first, sound₁⟩ := sound.step (legal op List.mem_cons_self)
      obtain ⟨c', rest, sound'⟩ := ih sound₁ fun op' h => legal op' (List.mem_cons_of_mem op h)
      refine ⟨c', ?_, sound'⟩
      rw [List.foldlM_cons, first]
      exact rest

/-- Whatever is registered, resized and completed, in any order: nothing indexes out of range
or divides by zero, the rates of every curve stay positive, `prefill_k` stays non-negative,
and an estimate returns a cost that is not negative. -/
theorem never_faults (ops : List Op) (legal : ∀ op ∈ ops, op.Legal) :
    ∃ c, ops.foldlM step {} = .ok c ∧
      (∀ ep m, c.models.get? ep = some m → (∀ tps ∈ m.decodeTps, 0 < tps) ∧ 0 ≤ m.prefillK) ∧
      ∀ ep (inputTokens : ℕ) (maxOutputTokens : ℚ) callSite (currentOccupancy : ℤ),
        0 ≤ maxOutputTokens →
        ∃ cost, c.estimate ep inputTokens maxOutputTokens callSite currentOccupancy = .ok cost ∧
          0 ≤ cost := by
  have empty : Sound {} := fun ep m known => by simp at known
  obtain ⟨c, returned, sound⟩ := empty.run legal
  refine ⟨c, returned, fun ep m known => ⟨(sound ep m known).decodeTps, (sound ep m known).prefillK⟩,
    fun ep inputTokens maxOutputTokens callSite currentOccupancy nonneg => ?_⟩
  unfold estimate
  rcases known : c.models.get? ep with - | m
  · exact ⟨_, quotient_ok (by norm_num), div_nonneg nonneg (by norm_num)⟩
  · exact ⟨_, m.estimate_eq .., (sound ep m known).estimateCostSs_nonneg inputTokens nonneg _ _⟩

/-- An endpoint loses its slots while three completions are on their way, and gets more than it
had. -/
theorem never_faults_resized :
    ∃ c, [Op.registerEndpoint "local" 2 (4 / 10000) (some [57, 50]),
        .recordCompletion "local" "chat" 200 80 2 2, .updateMaxSlots "local" 0,
        .recordCompletion "local" "chat" 200 80 2 2, .updateMaxSlots "local" 3,
        .recordCompletion "local" "chat" 200 80 2 7].foldlM step {} = .ok c ∧
      ∃ cost, c.estimate "local" 100 256 "chat" 9 = .ok cost ∧ 0 ≤ cost := by
  obtain ⟨c, returned, -, estimates⟩ := never_faults
    [.registerEndpoint "local" 2 (4 / 10000) (some [57, 50]),
      .recordCompletion "local" "chat" 200 80 2 2, .updateMaxSlots "local" 0,
      .recordCompletion "local" "chat" 200 80 2 2, .updateMaxSlots "local" 3,
      .recordCompletion "local" "chat" 200 80 2 7]
    (by
      simp only [List.forall_mem_cons, Op.Legal, true_and]
      norm_num)
  exact ⟨c, returned, estimates "local" 100 256 "chat" 9 (by norm_num)⟩

end CostModel

/-! ### The default curve in doubles -/

namespace EndpointCostModel

/-- `_default_decode_curve` in doubles, each power rounded once. -/
def roundedDecodeCurve (maxSlots : ℤ) : List ℚ :=
  let base := Binary64.nearest (88 / 100)
  let curve := (List.range maxSlots.toNat).map fun i => Binary64.mul 40 (Binary64.nearest (base ^ i))
  if curve = [] then [40] else curve

/-- Six slots more halve the rate at least. -/
theorem rounded_pow_le (n : ℕ) :
    0 ≤ Binary64.nearest (88 / 100) ∧ Binary64.nearest (88 / 100) ^ (6 * n) ≤ (1 / 2 : ℚ) ^ n := by
  have base : 0 ≤ Binary64.nearest (88 / 100) ∧ Binary64.nearest (88 / 100) ^ 6 ≤ 1 / 2 := by
    decide +kernel
  rw [pow_mul]
  exact ⟨base.1, pow_le_pow_left₀ (pow_nonneg base.1 6) base.2 n⟩

/-- An endpoint of 8000 slots has a rate of zero. -/
theorem decode_curve_underflows : ¬∀ tps ∈ roundedDecodeCurve 8000, 0 < tps := by
  intro positive
  let base := Binary64.nearest (88 / 100)
  obtain ⟨nonneg, halved⟩ := rounded_pow_le 1333
  -- half of the smallest subnormal: what lies below is rounded to zero
  have tiny : base ^ (6 * 1333) < 2 ^ (-1075 : ℤ) := by
    refine halved.trans_lt ?_
    rw [one_div, inv_pow, ← zpow_natCast, ← zpow_neg]
    exact zpow_lt_zpow_right₀ one_lt_two (by norm_num)
  have zero : Binary64.nearest (base ^ (6 * 1333)) = 0 :=
    Binary64.nearest_eq_zero (pow_nonneg nonneg _) tiny
  have entry : Binary64.mul 40 (Binary64.nearest (base ^ (6 * 1333))) ∈ roundedDecodeCurve 8000 := by
    have mem : Binary64.mul 40 (Binary64.nearest (base ^ (6 * 1333))) ∈ (List.range 8000).map fun i =>
        Binary64.mul 40 (Binary64.nearest (base ^ i)) :=
      List.mem_map.mpr ⟨6 * 1333, List.mem_range.mpr (by norm_num), rfl⟩
    have filled := List.ne_nil_of_mem mem
    rw [roundedDecodeCurve, show (8000 : ℤ).toNat = 8000 from rfl]
    exact (if_neg filled).symm ▸ mem
  have last := positive _ entry
  rw [zero, Binary64.mul, mul_zero, Binary64.nearest, if_pos rfl] at last
  exact lt_irrefl 0 last

end EndpointCostModel

end Roadstead
