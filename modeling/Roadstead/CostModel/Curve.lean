import Roadstead.CostModel.Faults
import Roadstead.Lib.Since

/-!
# The length of the decode curve

`decode_tps` is meant to be *indexed by occupancy [1..max_slots]*.  Nothing that is learned from a
completion changes its length; a registration and a change of size do, and the latter appends as
many entries as there are new slots, to whatever is there.  So a curve that once has another length
than its model has slots keeps the difference: that of an endpoint registered without slots, which
has a fallback entry, one that was cleared under a negative size, or one that was supplied.

Only the two numbers matter (`Size`); `Op.resized` is what a call does to them, and the cost model
follows it (`step_size`, `run_size`).  `curve_length_iff` is exact: the curves have the lengths
they were last resized to, at every point of a sequence of calls, exactly when every call meets
`KeepsCurve`.  `plain_run_fits` is the docstring's sentence, for calls that bring no odd sizes.
-/

namespace Roadstead

namespace EndpointCostModel

/-- The slots of a model, and the entries of its curve. -/
structure Size where
  slots : ℤ
  entries : ℕ
  deriving DecidableEq

def size (m : EndpointCostModel) : Size := ⟨m.maxSlots, m.decodeTps.length⟩

/-- The entries of the curve a model is registered with. -/
def registeredEntries (maxSlots : ℤ) (decodeTps : Option (List ℚ)) : ℕ :=
  if decodeTps.getD [] = [] then max 1 maxSlots.toNat else (decodeTps.getD []).length

/-- `update_max_slots`, of the two numbers. -/
def Size.resize (s : Size) (newMax : ℤ) : Size :=
  if newMax ≤ 0 then ⟨newMax, 0⟩
  else if s.slots < newMax then ⟨newMax, s.entries + (newMax - s.slots).toNat⟩
  else if newMax < s.slots then ⟨newMax, min newMax.toNat s.entries⟩
  else ⟨newMax, s.entries⟩

theorem length_defaultDecodeCurve (maxSlots : ℤ) :
    (defaultDecodeCurve maxSlots).length = max 1 maxSlots.toNat := by
  unfold defaultDecodeCurve
  simp only [List.map_eq_nil_iff, List.range_eq_nil]
  split
  · rename_i none
    rw [none]
    rfl
  · rw [List.length_map, List.length_range]
    omega

theorem size_registered (endpoint : String) (maxSlots : ℤ) (prefillK : ℚ)
    (decodeTps : Option (List ℚ)) :
    (registered endpoint maxSlots prefillK decodeTps).size =
      ⟨maxSlots, registeredEntries maxSlots decodeTps⟩ := by
  unfold size registered registeredEntries
  simp only
  split
  · rw [length_defaultDecodeCurve]
  · rfl

theorem size_updateMaxSlots (m : EndpointCostModel) (newMax : ℤ) :
    ∃ m', m.updateMaxSlots newMax = .ok m' ∧ m'.size = m.size.resize newMax := by
  unfold updateMaxSlots Size.resize size
  split
  · exact ⟨_, rfl, rfl⟩
  split
  · obtain ⟨last, found, -⟩ := m.lastRate_spec
    rw [found]
    refine ⟨_, rfl, ?_⟩
    rw [List.length_append, List.length_replicate]
  split
  · exact ⟨_, rfl, by rw [List.length_take]⟩
  · exact ⟨_, rfl, rfl⟩

theorem size_calibrateDecode (m : EndpointCostModel) (observedTps : ℚ) (occ : ℤ) :
    (m.calibrateDecode observedTps occ).size = m.size := by
  unfold size calibrateDecode
  simp only
  split
  · rw [List.length_set]
  · rfl

theorem size_learnedK (m : EndpointCostModel) (impliedK : ℚ) :
    (m.learnedK impliedK).size = m.size := by
  unfold learnedK
  split
  · rfl
  · rfl

theorem size_calibratePrefill (m : EndpointCostModel) (inputTokens outputTokens : ℤ)
    (durationS estDecode : ℚ) (occupancyDuring : ℤ) :
    (m.calibratePrefill inputTokens outputTokens durationS estDecode occupancyDuring).size =
      m.size :=
  size_learnedK m _

/-- What is learned from a completion is written over an entry that is there. -/
theorem size_updateFromCompletion (m : EndpointCostModel) (callSite : String)
    (inputTokens outputTokens : ℤ) (durationS : ℚ) (occupancyDuring : ℤ) :
    (m.updateFromCompletion callSite inputTokens outputTokens durationS occupancyDuring).size =
      m.size := by
  unfold updateFromCompletion
  split
  · rfl
  simp only
  split
  · rfl
  split
  · rw [size_calibratePrefill]
    split
    · exact size_calibrateDecode ..
    · rfl
  · split
    · exact size_calibrateDecode ..
    · rfl

/-- A change of size leaves a curve of that size when it clears it, when it cuts a longer one, or
when it goes on from one that has an entry for each slot. -/
theorem Size.resize_iff (s : Size) (newMax : ℤ) :
    ((s.resize newMax).entries : ℤ) = max 0 newMax ↔
      newMax ≤ 0 ∨ if newMax < s.slots then newMax ≤ s.entries else s.entries = s.slots := by
  unfold Size.resize
  by_cases cleared : newMax ≤ 0
  · simp [cleared]
  · rw [if_neg cleared]
    by_cases grown : s.slots < newMax
    · rw [if_pos grown, if_neg (not_lt.mpr grown.le)]
      simp only
      omega
    · rw [if_neg grown]
      by_cases cut : newMax < s.slots
      · rw [if_pos cut, if_pos cut]
        simp only
        omega
      · rw [if_neg cut, if_neg cut]
        simp only
        omega

/-- Where the curve has an entry for each slot, the estimate at an occupancy divides by the entry
of that occupancy. -/
theorem estimateCostSs_of_fits {m : EndpointCostModel} (fits : m.decodeTps.length = m.maxSlots)
    {occupancy : ℕ} (room : occupancy < m.decodeTps.length) (inputTokens : ℕ)
    (maxOutputTokens : ℚ) (callSite : String) :
    m.estimateCostSs inputTokens maxOutputTokens callSite occupancy =
      m.prefillK * inputTokens +
        if 0 < m.decodeTps[occupancy] then
          m.estOutput maxOutputTokens callSite / m.decodeTps[occupancy]
        else 30 := by
  have curve : ¬(m.decodeTps = [] ∨ m.maxSlots ≤ 0) := by
    rintro (empty | slots)
    · simp [empty] at room
    · omega
  have occ : min (max 1 ((occupancy : ℤ) + 1)) m.maxSlots = occupancy + 1 := by omega
  have within : (occupancy : ℤ) + 1 ≤ m.decodeTps.length := by omega
  unfold estimateCostSs
  simp only
  rw [if_neg curve, occ, if_pos within]
  have entry : ((occupancy : ℤ) + 1 - 1).toNat = occupancy := by omega
  rw [entry, List.getD_eq_getElem _ _ room]
  rfl

end EndpointCostModel

namespace CostModel

open EndpointCostModel (Size registeredEntries)

def sizeOf (c : CostModel) (ep : String) : Option Size :=
  (c.models.get? ep).map EndpointCostModel.size

/-- What a call does to the size of the model of `ep`. -/
def resized (ep : String) (old : Option Size) : Op → Option Size
  | .registerEndpoint endpoint maxSlots _ decodeTps =>
      if ep = endpoint then some ⟨maxSlots, registeredEntries maxSlots decodeTps⟩ else old
  | .updateMaxSlots endpoint newMax =>
      if ep = endpoint then old.map fun s => s.resize newMax else old
  | .recordCompletion .. => old

theorem rewrite_size (c : CostModel) (endpoint : String)
    {f : EndpointCostModel → Except Fault EndpointCostModel} {g : Size → Size}
    (effect : ∀ m : EndpointCostModel, ∃ m', f m = .ok m' ∧ m'.size = g m.size) :
    ∃ c', c.rewrite endpoint f = .ok c' ∧
      ∀ ep, c'.sizeOf ep = if ep = endpoint then (c.sizeOf ep).map g else c.sizeOf ep := by
  unfold rewrite sizeOf
  rcases known : c.models.get? endpoint with - | m
  · refine ⟨c, rfl, fun ep => ?_⟩
    split
    · rename_i same
      rw [same, known]
      rfl
    · rfl
  · obtain ⟨m', returned, sized⟩ := effect m
    refine ⟨{ models := c.models.set endpoint m' }, ?_, fun ep => ?_⟩
    · simp only [returned]
      rfl
    · rw [Dict.get?_set]
      split
      · rename_i same
        rw [same, known, Option.map_some, Option.map_some, Option.map_some, sized]
      · rfl

/-- A call returns, and does to the sizes what `resized` says. -/
theorem step_size (c : CostModel) (op : Op) :
    ∃ c', c.step op = .ok c' ∧ ∀ ep, c'.sizeOf ep = resized ep (c.sizeOf ep) op := by
  cases op with
  | registerEndpoint endpoint maxSlots prefillK decodeTps =>
      refine ⟨_, rfl, fun ep => ?_⟩
      simp only [sizeOf, resized, Dict.get?_set]
      split
      · rw [Option.map_some, EndpointCostModel.size_registered]
      · rfl
  | updateMaxSlots endpoint newMax =>
      exact c.rewrite_size endpoint fun m => m.size_updateMaxSlots newMax
  | recordCompletion endpoint callSite inputTokens outputTokens durationS occupancyDuring =>
      obtain ⟨c', returned, sized⟩ := c.rewrite_size (g := id) endpoint fun m =>
        ⟨_, m.update_eq callSite inputTokens outputTokens durationS occupancyDuring,
          m.size_updateFromCompletion ..⟩
      refine ⟨c', returned, fun ep => ?_⟩
      rw [sized, Option.map_id, id, ite_self]
      rfl

theorem run_size (c : CostModel) (ops : List Op) :
    ∃ c', ops.foldlM step c = .ok c' ∧
      ∀ ep, c'.sizeOf ep = Runs.run (resized ep) (c.sizeOf ep) ops := by
  induction ops generalizing c with
  | nil => exact ⟨c, rfl, fun _ => rfl⟩
  | cons op ops ih =>
      obtain ⟨c₁, first, sized⟩ := c.step_size op
      obtain ⟨c', rest, sized'⟩ := ih c₁
      refine ⟨c', ?_, fun ep => ?_⟩
      · rw [List.foldlM_cons, first]
        exact rest
      · rw [sized', sized, Runs.run_cons]

/-! ### What was asked for -/

/-- The size `ep` was last resized to. -/
def askedFor (ep : String) (last : Option ℤ) : Op → Option ℤ
  | .updateMaxSlots endpoint newMax => if ep = endpoint then some newMax else last
  | _ => last

/-- The argument of the last `update_max_slots` of `ep` among `ops`. -/
def lastSize (ops : List Op) (ep : String) : Option ℤ := Runs.run (askedFor ep) none ops

/-- After `ops`, the curve of an endpoint has the length it was last resized to. -/
def CurvesFit (ops : List Op) : Prop :=
  ∃ c, ops.foldlM step {} = .ok c ∧ ∀ ep newMax m, lastSize ops ep = some newMax →
    c.models.get? ep = some m → (m.decodeTps.length : ℤ) = max 0 newMax

/-- What a call after `before` has to meet for that to stay so. -/
def KeepsCurve (before : List Op) : Op → Prop
  | .registerEndpoint endpoint maxSlots _ decodeTps =>
      -- It replaces the model, also between two changes of size.
      ∀ newMax, lastSize before endpoint = some newMax →
        if decodeTps.getD [] = [] then max 1 maxSlots = max 0 newMax
        else ((decodeTps.getD []).length : ℤ) = max 0 newMax
  | .updateMaxSlots endpoint newMax =>
      ∀ c m, before.foldlM step {} = .ok c → c.models.get? endpoint = some m →
        newMax ≤ 0 ∨
          if newMax < m.maxSlots then newMax ≤ m.decodeTps.length
          else m.decodeTps.length = m.maxSlots
  | .recordCompletion .. => True

/-! ### The law, of the sizes -/

/-- The size of the model of `ep` after `ops`. -/
def sizeAfter (ops : List Op) (ep : String) : Option Size := Runs.run (resized ep) none ops

theorem lastSize_concat (before : List Op) (op : Op) (ep : String) :
    lastSize (before ++ [op]) ep = askedFor ep (lastSize before ep) op := Runs.run_append ..

theorem sizeAfter_concat (before : List Op) (op : Op) (ep : String) :
    sizeAfter (before ++ [op]) ep = resized ep (sizeAfter before ep) op := Runs.run_append ..

/-- The models that calls lead to have the sizes that these lead to. -/
theorem exists_size_iff {ops : List Op} {ep : String} {P : Size → Prop} :
    (∀ c m, ops.foldlM step {} = .ok c → c.models.get? ep = some m → P m.size) ↔
      ∀ s, sizeAfter ops ep = some s → P s := by
  obtain ⟨c, returned, sized⟩ := run_size {} ops
  have here : c.sizeOf ep = sizeAfter ops ep := sized ep
  rw [← here]
  constructor
  · intro holds s known
    obtain ⟨m, there, rfl⟩ := Option.map_eq_some_iff.mp known
    exact holds c m returned there
  · intro holds c' m returned' there
    obtain rfl := Except.ok.inj (returned.symm.trans returned')
    exact holds m.size (by rw [sizeOf, there, Option.map_some])

theorem curvesFit_iff {ops : List Op} :
    CurvesFit ops ↔ ∀ ep newMax, lastSize ops ep = some newMax →
      ∀ s, sizeAfter ops ep = some s → (s.entries : ℤ) = max 0 newMax := by
  obtain ⟨c, returned, -⟩ := run_size {} ops
  constructor
  · rintro ⟨c', returned', fit⟩ ep newMax asked
    refine exists_size_iff.mp fun c₁ m returned₁ there => ?_
    obtain rfl := Except.ok.inj (returned'.symm.trans returned₁)
    exact fit ep newMax m asked there
  · intro fit
    exact ⟨c, returned, fun ep newMax m asked =>
      exists_size_iff.mpr (fit ep newMax asked) c m returned⟩

/-- A call keeps the law exactly when it meets `KeepsCurve`. -/
theorem curvesFit_concat {before : List Op} (fit : CurvesFit before) (op : Op) :
    CurvesFit (before ++ [op]) ↔ KeepsCurve before op := by
  rw [curvesFit_iff] at fit ⊢
  simp only [lastSize_concat, sizeAfter_concat]
  cases op with
  | registerEndpoint endpoint maxSlots prefillK decodeTps =>
      have entries (newMax : ℤ) : (registeredEntries maxSlots decodeTps : ℤ) = max 0 newMax ↔
          if decodeTps.getD [] = [] then max 1 maxSlots = max 0 newMax
          else ((decodeTps.getD []).length : ℤ) = max 0 newMax := by
        unfold registeredEntries
        split
        · omega
        · rfl
      constructor
      · intro fit' newMax asked
        exact (entries newMax).mp (fit' endpoint newMax asked
          ⟨maxSlots, registeredEntries maxSlots decodeTps⟩ (if_pos rfl))
      · intro keeps ep newMax asked s known
        by_cases own : ep = endpoint
        · obtain rfl := Option.some.inj ((if_pos own).symm.trans known)
          exact (entries newMax).mpr (keeps newMax (own ▸ asked))
        · exact fit ep newMax asked s ((if_neg own).symm.trans known)
  | updateMaxSlots endpoint newMax =>
      have measured : KeepsCurve before (.updateMaxSlots endpoint newMax) ↔
          ∀ s, sizeAfter before endpoint = some s →
            newMax ≤ 0 ∨ if newMax < s.slots then newMax ≤ s.entries else s.entries = s.slots :=
        exists_size_iff (P := fun s =>
          newMax ≤ 0 ∨ if newMax < s.slots then newMax ≤ s.entries else s.entries = s.slots)
      rw [measured]
      constructor
      · intro fit' s known
        refine (s.resize_iff newMax).mp (fit' endpoint newMax (if_pos rfl) _ ?_)
        exact (if_pos rfl).trans (congrArg _ known)
      · intro keeps ep asked' asked s known
        by_cases own : ep = endpoint
        · obtain rfl := Option.some.inj ((if_pos own).symm.trans asked)
          obtain ⟨old, there, rfl⟩ := Option.map_eq_some_iff.mp ((if_pos own).symm.trans known)
          exact (old.resize_iff newMax).mpr (keeps old (own ▸ there))
        · exact fit ep asked' ((if_neg own).symm.trans asked) s ((if_neg own).symm.trans known)
  | recordCompletion endpoint callSite inputTokens outputTokens durationS occupancyDuring =>
      exact iff_of_true (fun ep newMax asked s known => fit ep newMax asked s known) trivial

/-- From each change of size to the next the curve has as many entries as it was resized to, at
every point of a sequence of calls, exactly when every call of it meets `KeepsCurve`. -/
theorem curve_length_iff (ops : List Op) :
    (∀ before, before <+: ops → CurvesFit before) ↔
      ∀ before op, before ++ [op] <+: ops → KeepsCurve before op := by
  refine History.always_iff ?_ fun before op _ fit => curvesFit_concat fit op
  exact ⟨{}, rfl, fun ep newMax m asked => nomatch asked⟩

/-- An endpoint registered without slots is given two and has three rates; one that was set to a
negative size is given two and has five. -/
theorem fallback_entry_stays :
    let fallback : List Op :=
      [.registerEndpoint "local" 0 (4 / 10000) none, .updateMaxSlots "local" 2]
    let cleared : List Op :=
      [.registerEndpoint "local" 4 (4 / 10000) none, .updateMaxSlots "local" (-3),
        .updateMaxSlots "local" 2]
    (∃ c m, fallback.foldlM step {} = .ok c ∧ c.models.get? "local" = some m ∧
      m.maxSlots = 2 ∧ m.decodeTps.length = 3) ∧
    (∃ c m, cleared.foldlM step {} = .ok c ∧ c.models.get? "local" = some m ∧
      m.maxSlots = 2 ∧ m.decodeTps.length = 5) ∧
    (¬∀ before, before <+: fallback → CurvesFit before) ∧
      ¬∀ before, before <+: cleared → CurvesFit before := by
  intro fallback cleared
  have reached {ops : List Op} {s : Size} (known : sizeAfter ops "local" = some s) :
      ∃ c m, ops.foldlM step {} = .ok c ∧ c.models.get? "local" = some m ∧
        m.maxSlots = s.slots ∧ m.decodeTps.length = s.entries := by
    obtain ⟨c, returned, sized⟩ := run_size {} ops
    obtain ⟨m, there, rfl⟩ := Option.map_eq_some_iff.mp ((sized "local").trans known)
    exact ⟨c, m, returned, there, rfl, rfl⟩
  have unfit {ops : List Op} {s : Size} (asked : lastSize ops "local" = some 2)
      (known : sizeAfter ops "local" = some s) (long : s.entries ≠ 2) :
      ¬∀ before, before <+: ops → CurvesFit before := by
    intro always
    have fits := curvesFit_iff.mp (always ops (List.prefix_refl ops)) "local" 2 asked s known
    exact long (by exact_mod_cast fits)
  have three : sizeAfter fallback "local" = some ⟨2, 3⟩ := by decide
  have five : sizeAfter cleared "local" = some ⟨2, 5⟩ := by decide
  exact ⟨reached three, reached five, unfit (by decide) three (by decide),
    unfit (by decide) five (by decide)⟩

/-! ### Sizes that are not odd -/

/-- A registration has a slot, and a rate for each slot if it has rates; a change of size is not to
a negative one. -/
def Op.Plain : Op → Prop
  | .registerEndpoint _ maxSlots _ decodeTps =>
      1 ≤ maxSlots ∧ (decodeTps.getD [] = [] ∨ ((decodeTps.getD []).length : ℤ) = maxSlots)
  | .updateMaxSlots _ newMax => 0 ≤ newMax
  | .recordCompletion .. => True

theorem resize_entries_eq {s : Size} (fits : (s.entries : ℤ) = s.slots) {newMax : ℤ}
    (nonneg : 0 ≤ newMax) : ((s.resize newMax).entries : ℤ) = (s.resize newMax).slots := by
  have slots : (s.resize newMax).slots = newMax := by
    unfold EndpointCostModel.Size.resize
    split_ifs <;> rfl
  rw [slots]
  refine ((s.resize_iff newMax).mpr (.inr ?_)).trans (max_eq_right nonneg)
  split
  · omega
  · exact fits

/-- `decode_tps` is indexed by occupancy [1..max_slots]. -/
theorem plain_run_fits {ops : List Op} (plain : ∀ op ∈ ops, op.Plain) :
    ∃ c, ops.foldlM step {} = .ok c ∧
      ∀ ep m, c.models.get? ep = some m → (m.decodeTps.length : ℤ) = m.maxSlots := by
  obtain ⟨c, returned, sized⟩ := run_size {} ops
  refine ⟨c, returned, fun ep m there => ?_⟩
  have along : Runs.Along (resized ep) (fun _ op => op.Plain) none ops :=
    Runs.along_of_split fun before op after split => plain op (by simp [split])
  have kept : ∀ s, sizeAfter ops ep = some s → (s.entries : ℤ) = s.slots := by
    refine Runs.run_invariant
      (fun size : Option Size => ∀ s, size = some s → (s.entries : ℤ) = s.slots) ?_ (by simp) along
    intro size op fit plain s known
    cases op with
    | registerEndpoint endpoint maxSlots prefillK decodeTps =>
        by_cases own : ep = endpoint
        · obtain rfl := Option.some.inj ((if_pos own).symm.trans known)
          unfold registeredEntries
          obtain ⟨slots, supplied⟩ := plain
          simp only
          split
          · omega
          · rename_i given
            exact supplied.resolve_left given
        · exact fit s ((if_neg own).symm.trans known)
    | updateMaxSlots endpoint newMax =>
        by_cases own : ep = endpoint
        · obtain ⟨old, there, rfl⟩ := Option.map_eq_some_iff.mp ((if_pos own).symm.trans known)
          exact resize_entries_eq (fit old there) plain
        · exact fit s ((if_neg own).symm.trans known)
    | recordCompletion endpoint callSite inputTokens outputTokens durationS occupancyDuring =>
        exact fit s known
  have here : sizeAfter ops ep = some m.size := by
    rw [← show c.sizeOf ep = sizeAfter ops ep from sized ep, sizeOf, there, Option.map_some]
  exact kept m.size here

/-- After plain calls each occupancy has its own entry, and an estimate divides by that entry. -/
theorem plain_run_reads {ops : List Op} (plain : ∀ op ∈ ops, op.Plain) :
    ∃ c, ops.foldlM step {} = .ok c ∧ ∀ ep m, c.models.get? ep = some m →
      (m.decodeTps.length : ℤ) = m.maxSlots ∧
        ∀ occupancy, (room : occupancy < m.decodeTps.length) → ∀ inputTokens maxOutputTokens callSite,
          m.estimateCostSs inputTokens maxOutputTokens callSite occupancy =
            m.prefillK * inputTokens +
              if 0 < m.decodeTps[occupancy] then
                m.estOutput maxOutputTokens callSite / m.decodeTps[occupancy]
              else 30 := by
  obtain ⟨c, returned, fits⟩ := plain_run_fits plain
  refine ⟨c, returned, fun ep m there => ⟨fits ep m there, fun occupancy room => ?_⟩⟩
  exact m.estimateCostSs_of_fits (fits ep m there) room

/-- Three slots where there were two, and none in between. -/
theorem plain_run_reads_grown : ∃ c, [Op.registerEndpoint "local" 2 (4 / 10000) (some [57, 50]),
      .updateMaxSlots "local" 0, .updateMaxSlots "local" 3].foldlM step {} = .ok c ∧
    ∀ m, c.models.get? "local" = some m → (m.decodeTps.length : ℤ) = m.maxSlots := by
  have plain : ∀ op ∈ [Op.registerEndpoint "local" 2 (4 / 10000) (some [57, 50]),
      .updateMaxSlots "local" 0, .updateMaxSlots "local" 3], op.Plain := by
    simp [Op.Plain]
  obtain ⟨c, returned, reads⟩ := plain_run_reads plain
  exact ⟨c, returned, fun m there => (reads "local" m there).1⟩

end CostModel

end Roadstead
