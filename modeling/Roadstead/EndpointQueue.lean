import Mathlib.Data.List.DropRight
import Mathlib.Data.List.Rotate
import Mathlib.Data.List.TakeWhile
import Roadstead.Request

/-!
# The queue of one endpoint

`EndpointQueue`: for each band a dictionary from agents to FIFO deques, and a
round-robin list of the agents that have one.

Four code paths take requests out of a deque (dispatch, spill, expiry, cancel),
and each one drops the agent from the dictionary and from the round-robin list
when its deque ran empty.  That shared repair is `writeBack`, and one lemma about
it (`Valid.writeBack`, `bandContents_writeBack`) serves all four.

`Valid` is the representation invariant: the round-robin list of a band is a
duplicate-free listing of the agents with a deque, no deque is empty, and every
request sits in the deque of its own band and agent.  `bandContents` is the
multiset of requests a band holds; it is the view in which later modules count.
-/

namespace Roadstead

/-- `EndpointQueue`. -/
structure EndpointQueue where
  queues : PriorityBand → Dict String (List QueuedRequest)
  robin : PriorityBand → List String

namespace EndpointQueue

/-- `EndpointQueue()`. -/
def empty : EndpointQueue where
  queues := fun _ => ∅
  robin := fun _ => []

/-- The deque of an agent, empty if it has none. -/
def deque (eq : EndpointQueue) (band : PriorityBand) (agentId : String) :
    List QueuedRequest :=
  ((eq.queues band).get? agentId).getD []

def enqueue (eq : EndpointQueue) (req : QueuedRequest) : EndpointQueue where
  queues := Function.update eq.queues req.band
    ((eq.queues req.band).set req.agentId (eq.deque req.band req.agentId ++ [req]))
  robin := Function.update eq.robin req.band
    (if req.agentId ∈ (eq.queues req.band).keys then eq.robin req.band
      else eq.robin req.band ++ [req.agentId])

/-- Store what is left of an agent's deque; an agent whose deque ran empty leaves
the dictionary and the round-robin list. -/
def writeBack (eq : EndpointQueue) (band : PriorityBand) (agentId : String)
    (rest : List QueuedRequest) : EndpointQueue where
  queues := Function.update eq.queues band
    (if rest = [] then (eq.queues band).erase agentId
      else (eq.queues band).set agentId rest)
  robin := Function.update eq.robin band
    (if rest = [] then (eq.robin band).erase agentId else eq.robin band)

def dequeue (eq : EndpointQueue) (band : PriorityBand) (agentId : String) :
    Option QueuedRequest × EndpointQueue :=
  match eq.deque band agentId with
  | [] => (none, eq)
  | req :: rest => (some req, eq.writeBack band agentId rest)

def peek (eq : EndpointQueue) (band : PriorityBand) (agentId : String) :
    Option QueuedRequest :=
  (eq.deque band agentId).head?

def agentsInBand (eq : EndpointQueue) (band : PriorityBand) : List String := eq.robin band

def bandDepth (eq : EndpointQueue) (band : PriorityBand) : ℕ :=
  (eq.queues band).sum fun _ q => q.length

/-- Advance the round-robin pointer of a band. -/
def rotateRobin (eq : EndpointQueue) (band : PriorityBand) : EndpointQueue :=
  { eq with robin := Function.update eq.robin band ((eq.robin band).rotate 1) }

/-- The deadline test of `expire_before`. -/
def isExpired (deadline : ℚ) (req : QueuedRequest) : Bool :=
  decide (req.timeoutDeadline ≤ deadline)

/-- The body of the inner loop of `expire_before`: pop the head while it has
expired. -/
def expireAgent (deadline : ℚ) (band : PriorityBand)
    (acc : EndpointQueue × List QueuedRequest) (agentId : String) :
    EndpointQueue × List QueuedRequest :=
  let q := acc.1.deque band agentId
  (acc.1.writeBack band agentId (q.dropWhile (isExpired deadline)),
    acc.2 ++ q.takeWhile (isExpired deadline))

def expireBand (deadline : ℚ) (acc : EndpointQueue × List QueuedRequest)
    (band : PriorityBand) : EndpointQueue × List QueuedRequest :=
  (acc.1.queues band).keys.foldl (expireAgent deadline band) acc

def expireBefore (eq : EndpointQueue) (deadline : ℚ) :
    EndpointQueue × List QueuedRequest :=
  PriorityBand.all.foldl (expireBand deadline) (eq, [])

/-- The waits `_dispatch_endpoint` hands to `pick_agent`. -/
def waitByAgent (eq : EndpointQueue) (band : PriorityBand) (now : ℚ) : Dict String ℚ :=
  (eq.agentsInBand band).foldl (fun waits cand =>
    match eq.peek band cand with
    | none => waits
    | some head => waits.set cand (now - head.enqueuedAt)) ∅

/-- The requests of one band. -/
def bandContents (eq : EndpointQueue) (band : PriorityBand) : Multiset QueuedRequest :=
  (eq.queues band).sum fun _ q => (q : Multiset QueuedRequest)

/-- All requests of the endpoint. -/
def contents (eq : EndpointQueue) : Multiset QueuedRequest :=
  (PriorityBand.all.map eq.bandContents).sum

/-- The representation invariant. -/
structure Valid (eq : EndpointQueue) : Prop where
  robin_nodup : ∀ b, (eq.robin b).Nodup
  mem_robin : ∀ b a, a ∈ eq.robin b ↔ a ∈ (eq.queues b).keys
  ne_nil : ∀ b a q, (eq.queues b).get? a = some q → q ≠ []
  labelled : ∀ b a q, (eq.queues b).get? a = some q → ∀ r ∈ q, r.band = b ∧ r.agentId = a

/-! ### Contents -/

@[simp] theorem deque_empty (b : PriorityBand) (a : String) : empty.deque b a = [] := rfl

@[simp] theorem bandContents_empty (b : PriorityBand) : empty.bandContents b = 0 := rfl

theorem card_bandContents (eq : EndpointQueue) (b : PriorityBand) :
    (eq.bandContents b).card = eq.bandDepth b := by
  rw [bandContents, bandDepth, ← Multiset.cardHom_apply, Dict.map_sum]
  rfl

variable {eq : EndpointQueue} {b : PriorityBand}

theorem mem_bandContents_iff {r : QueuedRequest} :
    r ∈ eq.bandContents b ↔ ∃ a, r ∈ eq.deque b a := by
  rw [bandContents, Dict.mem_sum_iff]
  refine exists_congr fun a => ?_
  unfold deque
  cases (eq.queues b).get? a with
  | none | some q => simp

theorem contents_eq (eq : EndpointQueue) :
    eq.contents =
      eq.bandContents .interactive + eq.bandContents .foreground +
        eq.bandContents .background := by
  simp [contents, PriorityBand.all, add_assoc]

theorem mem_contents_iff {r : QueuedRequest} :
    r ∈ eq.contents ↔ ∃ b, r ∈ eq.bandContents b := by
  rw [contents_eq, Multiset.mem_add, Multiset.mem_add]
  constructor
  · rintro ((h | h) | h)
    exacts [⟨_, h⟩, ⟨_, h⟩, ⟨_, h⟩]
  · rintro ⟨b, h⟩
    cases b
    exacts [.inl (.inl h), .inl (.inr h), .inr h]

/-- A change within one band is the same change of the whole. -/
theorem contents_of_band (eq eq' : EndpointQueue) (b : PriorityBand)
    (taken added : Multiset QueuedRequest)
    (same : ∀ b' ≠ b, eq'.bandContents b' = eq.bandContents b')
    (changed : eq'.bandContents b + taken = eq.bandContents b + added) :
    eq'.contents + taken = eq.contents + added := by
  have regroup : ∀ x y z t : Multiset QueuedRequest, x + y + z + t = x + t + y + z ∧
      x + y + z + t = x + (y + t) + z := fun x y z t => ⟨by abel, by abel⟩
  rw [contents_eq, contents_eq]
  cases b with
  | interactive =>
      rw [same .foreground (by decide), same .background (by decide), (regroup _ _ _ _).1,
        changed, (regroup _ _ _ added).1]
  | foreground =>
      rw [same .interactive (by decide), same .background (by decide), (regroup _ _ _ _).2,
        changed, (regroup _ _ _ added).2]
  | background =>
      rw [same .interactive (by decide), same .foreground (by decide), add_assoc, changed,
        ← add_assoc]

theorem bandDepth_eq_zero_iff :
    eq.bandDepth b = 0 ↔ eq.bandContents b = 0 := by
  rw [← card_bandContents, Multiset.card_eq_zero]

theorem get?_of_mem_deque {a : String}
    (h : eq.deque b a ≠ []) : (eq.queues b).get? a = some (eq.deque b a) := by
  unfold deque at h ⊢
  cases hq : (eq.queues b).get? a with
  | none => simp [hq] at h
  | some q => rfl

theorem Valid.deque_ne_nil_iff (valid : eq.Valid)
    {a : String} : eq.deque b a ≠ [] ↔ a ∈ eq.robin b := by
  rw [valid.mem_robin, Dict.mem_keys_iff]
  constructor
  · intro h
    exact ⟨_, get?_of_mem_deque h⟩
  · rintro ⟨q, hq⟩
    have := valid.ne_nil b a q hq
    simpa [deque, hq] using this

theorem Valid.band_agent (valid : eq.Valid)
    {a : String} {r : QueuedRequest} (h : r ∈ eq.deque b a) : r.band = b ∧ r.agentId = a :=
  valid.labelled b a _ (get?_of_mem_deque (List.ne_nil_of_mem h)) r h

theorem valid_empty : empty.Valid where
  robin_nodup := fun _ => List.nodup_nil
  mem_robin := fun _ _ => Iff.rfl
  ne_nil := fun _ _ _ h => by simp [empty] at h
  labelled := fun _ _ _ h => by simp [empty] at h

/-! ### Enqueue -/

theorem deque_enqueue (eq : EndpointQueue) (req : QueuedRequest) (b : PriorityBand)
    (a : String) :
    (eq.enqueue req).deque b a =
      if b = req.band ∧ a = req.agentId then eq.deque b a ++ [req] else eq.deque b a := by
  by_cases hb : b = req.band
  · subst hb
    by_cases ha : a = req.agentId
    · subst ha
      simp [enqueue, deque]
    · simp [enqueue, deque, ha, Dict.get?_set_of_ne]
  · simp [enqueue, deque, hb, Function.update_of_ne]

theorem bandContents_enqueue (eq : EndpointQueue) (req : QueuedRequest) (b : PriorityBand) :
    (eq.enqueue req).bandContents b =
      if b = req.band then req ::ₘ eq.bandContents b else eq.bandContents b := by
  by_cases hb : b = req.band
  · subst hb
    simp only [bandContents, enqueue, Function.update_self, if_true]
    cases hq : (eq.queues req.band).get? req.agentId with
    | none =>
        have hk := Dict.get?_eq_none_iff.mp hq
        rw [Dict.sum_set_of_not_mem _ hk]
        simp [deque, hq, ← Multiset.singleton_add, add_comm]
    | some q =>
        have hsum := Dict.sum_set_of_get? (fun _ (q : List QueuedRequest) =>
          (q : Multiset QueuedRequest)) hq (q ++ [req])
        have hdeque : eq.deque req.band req.agentId = q := by simp [deque, hq]
        rw [hdeque]
        apply add_right_cancel (b := (q : Multiset QueuedRequest))
        rw [hsum, ← Multiset.coe_add, ← Multiset.singleton_add, Multiset.coe_singleton]
        abel
  · simp [bandContents, enqueue, hb, Function.update_of_ne]

theorem Valid.enqueue (valid : eq.Valid) (req : QueuedRequest) :
    (eq.enqueue req).Valid where
  robin_nodup := by
    intro b
    by_cases hb : b = req.band
    · subst hb
      simp only [EndpointQueue.enqueue, Function.update_self]
      split
      · exact valid.robin_nodup _
      · rename_i hk
        rw [← valid.mem_robin] at hk
        exact List.nodup_append.mpr ⟨valid.robin_nodup _, by simp, by
          intro x hx y hy
          rw [List.mem_singleton] at hy
          exact fun hxy => hk (hy ▸ hxy ▸ hx)⟩
    · simpa [EndpointQueue.enqueue, hb, Function.update_of_ne] using valid.robin_nodup b
  mem_robin := by
    intro b a
    by_cases hb : b = req.band
    · subst hb
      simp only [EndpointQueue.enqueue, Function.update_self, Dict.mem_keys_set]
      split
      · rename_i hk
        rw [valid.mem_robin]
        constructor
        · exact Or.inr
        · rintro (rfl | h)
          · exact hk
          · exact h
      · rw [List.mem_append, List.mem_singleton, valid.mem_robin, or_comm]
    · simpa [EndpointQueue.enqueue, hb, Function.update_of_ne] using valid.mem_robin b a
  ne_nil := by
    intro b a q hq
    by_cases hb : b = req.band
    · subst hb
      simp only [EndpointQueue.enqueue, Function.update_self, Dict.get?_set] at hq
      split at hq
      · rw [← Option.some.inj hq]
        simp
      · exact valid.ne_nil _ a q hq
    · rw [EndpointQueue.enqueue] at hq
      simp only [Function.update_of_ne hb] at hq
      exact valid.ne_nil b a q hq
  labelled := by
    intro b a q hq r hr
    have hdeque : (eq.enqueue req).deque b a = q := by simp [deque, hq]
    rw [← hdeque, deque_enqueue] at hr
    split at hr
    · rename_i h
      rcases List.mem_append.mp hr with hr | hr
      · exact valid.band_agent hr
      · rw [List.mem_singleton] at hr
        exact hr ▸ ⟨h.1.symm, h.2.symm⟩
    · exact valid.band_agent hr

/-! ### Taking requests out -/

theorem deque_writeBack (eq : EndpointQueue) (b b' : PriorityBand) (a a' : String)
    (rest : List QueuedRequest) :
    (eq.writeBack b a rest).deque b' a' =
      if b' = b ∧ a' = a then rest else eq.deque b' a' := by
  by_cases hb : b' = b
  · subst hb
    by_cases ha : a' = a
    · subst ha
      by_cases hr : rest = []
      · simp [writeBack, deque, hr]
      · simp [writeBack, deque, hr]
    · by_cases hr : rest = []
      · simp [writeBack, deque, hr, ha, Dict.get?_erase_of_ne]
      · simp [writeBack, deque, hr, ha, Dict.get?_set_of_ne]
  · simp [writeBack, deque, hb, Function.update_of_ne]

theorem bandContents_writeBack_of_ne (eq : EndpointQueue) {b b' : PriorityBand} (hb : b' ≠ b)
    (a : String) (rest : List QueuedRequest) :
    (eq.writeBack b a rest).bandContents b' = eq.bandContents b' := by
  simp [bandContents, writeBack, Function.update_of_ne hb]

/-- Writing back trades the old deque for what is left of it. -/
theorem bandContents_writeBack (eq : EndpointQueue) {a : String}
    {rest : List QueuedRequest} (subset : rest ⊆ eq.deque b a) :
    (eq.writeBack b a rest).bandContents b + (eq.deque b a : Multiset QueuedRequest) =
      eq.bandContents b + (rest : Multiset QueuedRequest) := by
  let stored : String → List QueuedRequest → Multiset QueuedRequest := fun _ q => q
  simp only [bandContents, writeBack, Function.update_self]
  cases hq : (eq.queues b).get? a with
  | none =>
      -- No deque: nothing can be left of it, and there is nothing to erase.
      have hdeque : eq.deque b a = [] := by simp [deque, hq]
      have hrest : rest = [] := List.subset_nil.mp (hdeque ▸ subset)
      rw [hdeque, hrest, if_pos rfl, Dict.erase_of_not_mem (Dict.get?_eq_none_iff.mp hq)]
  | some q =>
      have hdeque : eq.deque b a = q := by simp [deque, hq]
      rw [hdeque]
      split
      · rename_i hrest
        rw [hrest, Multiset.coe_nil, add_zero]
        exact Dict.sum_erase stored hq
      · exact Dict.sum_set_of_get? stored hq rest

theorem Valid.writeBack (valid : eq.Valid)
    {a : String} {rest : List QueuedRequest} (subset : rest ⊆ eq.deque b a) :
    (eq.writeBack b a rest).Valid where
  robin_nodup := by
    intro b'
    by_cases hb : b' = b
    · subst hb
      simp only [EndpointQueue.writeBack, Function.update_self]
      split
      · exact (valid.robin_nodup b').erase a
      · exact valid.robin_nodup b'
    · simpa [EndpointQueue.writeBack, Function.update_of_ne hb] using valid.robin_nodup b'
  mem_robin := by
    intro b' a'
    by_cases hb : b' = b
    · subst hb
      simp only [EndpointQueue.writeBack, Function.update_self]
      split
      · rw [(valid.robin_nodup b').mem_erase_iff, Dict.mem_keys_erase, valid.mem_robin]
      · rename_i hr
        -- A non-empty rest comes from a non-empty deque, so the agent was listed already.
        have listed : a ∈ (eq.queues b').keys := by
          obtain ⟨r, rs, rfl⟩ := List.exists_cons_of_ne_nil hr
          have mem := subset (List.mem_cons_self)
          rw [← valid.mem_robin, ← valid.deque_ne_nil_iff]
          exact List.ne_nil_of_mem mem
        rw [Dict.keys_set_of_mem listed, valid.mem_robin]
    · simpa [EndpointQueue.writeBack, Function.update_of_ne hb] using valid.mem_robin b' a'
  ne_nil := by
    intro b' a' q hq
    by_cases hb : b' = b
    · subst hb
      simp only [EndpointQueue.writeBack, Function.update_self] at hq
      split at hq
      · rw [Dict.get?_erase] at hq
        split at hq
        · simp at hq
        · exact valid.ne_nil b' a' q hq
      · rename_i hr
        rw [Dict.get?_set] at hq
        split at hq
        · exact Option.some.inj hq ▸ hr
        · exact valid.ne_nil b' a' q hq
    · simp only [EndpointQueue.writeBack, Function.update_of_ne hb] at hq
      exact valid.ne_nil b' a' q hq
  labelled := by
    intro b' a' q hq r hr
    have hdeque : (eq.writeBack b a rest).deque b' a' = q := by simp [deque, hq]
    rw [← hdeque, deque_writeBack] at hr
    split at hr
    · rename_i h
      rw [h.1, h.2]
      exact valid.band_agent (subset hr)
    · exact valid.band_agent hr

/-- What a dequeue does, for an agent with a deque. -/
theorem dequeue_of_deque {a : String}
    {req : QueuedRequest} {rest : List QueuedRequest} (h : eq.deque b a = req :: rest) :
    eq.dequeue b a = (some req, eq.writeBack b a rest) := by
  simp [dequeue, h]

/-- A dequeue returns the request `peek` showed. -/
theorem deque_of_peek {a : String} {req : QueuedRequest} (h : eq.peek b a = some req) :
    ∃ rest, eq.deque b a = req :: rest :=
  List.head?_eq_some_iff.mp h

theorem Valid.peek_isSome (valid : eq.Valid)
    {a : String} (h : a ∈ eq.agentsInBand b) : ∃ req, eq.peek b a = some req := by
  have hne := valid.deque_ne_nil_iff.mpr h
  exact ⟨_, List.head?_eq_some_head hne⟩

/-- A band with a request has an agent to serve. -/
theorem Valid.agentsInBand_ne_nil (valid : eq.Valid)
    (h : eq.bandDepth b ≠ 0) : eq.agentsInBand b ≠ [] := by
  rw [Ne, bandDepth_eq_zero_iff] at h
  obtain ⟨r, hr⟩ := Multiset.exists_mem_of_ne_zero h
  obtain ⟨a, ha⟩ := mem_bandContents_iff.mp hr
  have := valid.deque_ne_nil_iff.mp (List.ne_nil_of_mem ha)
  exact List.ne_nil_of_mem this

theorem Valid.rotateRobin (valid : eq.Valid) (b : PriorityBand) :
    (eq.rotateRobin b).Valid where
  robin_nodup := by
    intro b'
    by_cases hb : b' = b
    · subst hb
      simpa [EndpointQueue.rotateRobin] using valid.robin_nodup b'
    · simpa [EndpointQueue.rotateRobin, Function.update_of_ne hb] using valid.robin_nodup b'
  mem_robin := by
    intro b' a
    by_cases hb : b' = b
    · subst hb
      simpa [EndpointQueue.rotateRobin] using valid.mem_robin b' a
    · simpa [EndpointQueue.rotateRobin, Function.update_of_ne hb] using valid.mem_robin b' a
  ne_nil := valid.ne_nil
  labelled := valid.labelled

/-! ### Expiry -/

theorem deque_expireAgent (d : ℚ) (b b' : PriorityBand)
    (acc : EndpointQueue × List QueuedRequest) (a a' : String) :
    (expireAgent d b acc a).1.deque b' a' =
      if b' = b ∧ a' = a then (acc.1.deque b' a').dropWhile (isExpired d)
      else acc.1.deque b' a' := by
  simp only [expireAgent, deque_writeBack]
  split
  · rename_i h
    rw [h.1, h.2]
  · rfl

/-- The requests an expiry pass holds, queued or expired, stay the same; each
expired one has passed its deadline. -/
structure ExpiryInv (d : ℚ) (eq₀ : EndpointQueue) (acc : EndpointQueue × List QueuedRequest) :
    Prop where
  valid : acc.1.Valid
  contents : acc.1.contents + (acc.2 : Multiset QueuedRequest) = eq₀.contents
  expired : ∀ r ∈ acc.2, isExpired d r = true

theorem ExpiryInv.expireAgent {d : ℚ} {eq₀ : EndpointQueue}
    {acc : EndpointQueue × List QueuedRequest} (inv : ExpiryInv d eq₀ acc) (b : PriorityBand)
    (a : String) : ExpiryInv d eq₀ (expireAgent d b acc a) := by
  have subset := (List.dropWhile_suffix (isExpired d) (l := acc.1.deque b a)).subset
  refine ⟨inv.valid.writeBack subset, ?_, ?_⟩
  · have moved := contents_of_band _ _ b _ _
      (fun b' hb => acc.1.bandContents_writeBack_of_ne hb a _)
      (acc.1.bandContents_writeBack subset)
    have split : ((acc.1.deque b a : List QueuedRequest) : Multiset QueuedRequest) =
        ((acc.1.deque b a).takeWhile (isExpired d) : Multiset QueuedRequest) +
          ((acc.1.deque b a).dropWhile (isExpired d) : Multiset QueuedRequest) := by
      rw [Multiset.coe_add, List.takeWhile_append_dropWhile]
    rw [split, ← add_assoc] at moved
    have hkeep := add_right_cancel moved
    simp only [EndpointQueue.expireAgent, ← Multiset.coe_add]
    rw [← inv.contents, ← hkeep]
    abel
  · intro r hr
    rcases List.mem_append.mp hr with hr | hr
    · exact inv.expired r hr
    · exact List.mem_takeWhile_imp hr

theorem deque_foldl_expireAgent (d : ℚ) (b b' : PriorityBand) (a' : String) (as : List String)
    (acc : EndpointQueue × List QueuedRequest) :
    (as.foldl (expireAgent d b) acc).1.deque b' a' =
      if b' = b ∧ a' ∈ as then (acc.1.deque b' a').dropWhile (isExpired d)
      else acc.1.deque b' a' := by
  induction as generalizing acc with
  | nil => simp
  | cons a as ih =>
      rw [List.foldl_cons, ih, deque_expireAgent]
      by_cases hb : b' = b
      · by_cases ha : a' = a
        · -- Popping the expired head of a deque twice pops nothing more.
          simp [hb, ha, List.dropWhile_idempotent]
        · simp [hb, ha]
      · simp [hb]

theorem deque_expireBand (d : ℚ) (b b' : PriorityBand) (a : String)
    (acc : EndpointQueue × List QueuedRequest) :
    (expireBand d acc b).1.deque b' a =
      if b' = b then (acc.1.deque b' a).dropWhile (isExpired d) else acc.1.deque b' a := by
  rw [expireBand, deque_foldl_expireAgent]
  by_cases hb : b' = b
  · subst hb
    by_cases ha : a ∈ (acc.1.queues b').keys
    · simp [ha]
    · have hnil : acc.1.deque b' a = [] := by
        simp [deque, Dict.get?_eq_none_iff.mpr ha]
      simp [ha, hnil]
  · simp [hb]

theorem ExpiryInv.expireBand {d : ℚ} {eq₀ : EndpointQueue}
    {acc : EndpointQueue × List QueuedRequest} (inv : ExpiryInv d eq₀ acc) (b : PriorityBand) :
    ExpiryInv d eq₀ (expireBand d acc b) :=
  List.foldlRecOn _ _ inv fun _ inv a _ => inv.expireAgent b a

/-- `expire_before` splits the requests into those it returns and those it keeps. -/
theorem expireBefore_inv (valid : eq.Valid) (d : ℚ) :
    ExpiryInv d eq (eq.expireBefore d) := by
  have start : ExpiryInv d eq (eq, []) := ⟨valid, by simp, by simp⟩
  exact List.foldlRecOn _ _ start fun _ inv b _ => inv.expireBand b

/-- `expire_before` pops the expired requests at the *head* of each deque, and
nothing behind the first request that is still alive. -/
theorem deque_expireBefore (eq : EndpointQueue) (d : ℚ) (b : PriorityBand) (a : String) :
    (eq.expireBefore d).1.deque b a = (eq.deque b a).dropWhile (isExpired d) := by
  simp only [expireBefore, PriorityBand.all, List.foldl_cons, List.foldl_nil, deque_expireBand]
  cases b <;> simp

end EndpointQueue

end Roadstead
