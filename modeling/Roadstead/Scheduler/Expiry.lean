import Roadstead.Scheduler.Safety

/-!
# Expiry

`expire_before` is meant to remove *all* requests whose deadline has passed, but it
stops at the first request of a deque that is still alive.  Deadlines are per
request, so an expired request can stand behind a live one; it then stays queued,
and the dispatch loop may even start it.

`expiry_complete_iff` says exactly when a tick does what it is meant to do: when no
deque holds an expired request behind a live one.
-/

namespace Roadstead

open Scheduler

/-- Nothing expired is queued after the tick at `now`, the requests handed to
`on_timeout` are the expired ones that were queued before it, each once, and nothing
expired is dispatched. -/
def ExpiryComplete (cfg : ProxyConfig) (o : Oracles) (s : Scheduler) (now : ℚ) : Prop :=
  let out := tick cfg o s now
  (∀ r ∈ out.sched.queued, now < r.timeoutDeadline) ∧
    (out.timeouts : Multiset QueuedRequest) = s.queued.filter (fun r => r.timeoutDeadline ≤ now) ∧
    ∀ d ∈ out.decisions, now < d.request.timeoutDeadline

/-- In every deque, whatever stands before an expired request has expired too. -/
def ExpiredFirst (s : Scheduler) (now : ℚ) : Prop :=
  ∀ ep b a, ((s.queueOf ep).deque b a).Pairwise fun r r' =>
    r'.timeoutDeadline ≤ now → r.timeoutDeadline ≤ now

/-- Dropping the leading elements with `P` drops all of them exactly when none comes
after an element without. -/
theorem forall_dropWhile_iff_pairwise {α : Type*} (P : α → Bool) (l : List α) :
    (∀ x ∈ l.dropWhile P, P x = false) ↔
      l.Pairwise fun x y => P y = true → P x = true := by
  induction l with
  | nil => simp
  | cons a l ih =>
      cases ha : P a with
      | true => simp [ha, ih]
      | false =>
          -- Nothing is dropped: both sides say that `P` holds nowhere behind `a`.
          rw [List.dropWhile_cons_of_neg (by simp [ha]), List.pairwise_cons]
          constructor
          · intro none
            have behind : ∀ x ∈ l, P x = false := fun x hx => none x (List.mem_cons_of_mem a hx)
            refine ⟨?_, ih.mp fun x hx => behind x ((List.dropWhile_suffix P).subset hx)⟩
            intro x hx hpx
            exact absurd (behind x hx) (by simp [hpx])
          · rintro ⟨hhead, -⟩ x hx
            rcases List.mem_cons.mp hx with rfl | hx
            · exact ha
            · exact Bool.eq_false_iff.mpr fun hpx => absurd (hhead x hx hpx) (by simp [ha])

variable {cfg : ProxyConfig} {s : Scheduler}

theorem isExpired_eq_false_iff {now : ℚ} {r : QueuedRequest} :
    EndpointQueue.isExpired now r = false ↔ now < r.timeoutDeadline := by
  simp [EndpointQueue.isExpired]

/-- `ExpiredFirst` is what makes the expiry step complete. -/
theorem expiredFirst_iff (s : Scheduler) (now : ℚ) :
    ExpiredFirst s now ↔ ∀ r ∈ (s.afterExpiry now).queued, now < r.timeoutDeadline := by
  have deques : ∀ ep b a, ((s.afterExpiry now).queueOf ep).deque b a =
      ((s.queueOf ep).deque b a).dropWhile (EndpointQueue.isExpired now) :=
    fun ep b a => deque_expireQueues _ now ep b a
  have each : ∀ ep b a, (((s.queueOf ep).deque b a).Pairwise fun r r' =>
        r'.timeoutDeadline ≤ now → r.timeoutDeadline ≤ now) ↔
      ∀ r ∈ ((s.afterExpiry now).queueOf ep).deque b a, now < r.timeoutDeadline := by
    intro ep b a
    rw [deques]
    have := forall_dropWhile_iff_pairwise (EndpointQueue.isExpired now)
      ((s.queueOf ep).deque b a)
    simp only [isExpired_eq_false_iff] at this
    rw [this]
    simp [EndpointQueue.isExpired]
  constructor
  · intro first r hr
    obtain ⟨ep, b, hr⟩ := mem_queued_iff.mp hr
    obtain ⟨a, ha⟩ := EndpointQueue.mem_bandContents_iff.mp hr
    exact (each ep b a).mp (first ep b a) r ha
  · intro alive ep b a
    refine (each ep b a).mpr fun r hr => alive r ?_
    exact mem_queued_iff.mpr ⟨ep, b, EndpointQueue.mem_bandContents_iff.mpr ⟨a, hr⟩⟩

/-- The dispatch step neither hides nor revives a request: all that the expiry step
leaves is alive exactly when all that is queued or dispatched in the end is. -/
theorem alive_afterExpiry_iff (wf : s.WellFormed cfg) (o : Oracles) (now : ℚ) :
    (∀ r ∈ (s.afterExpiry now).queued, now < r.timeoutDeadline) ↔
      (∀ r ∈ (tick cfg o s now).sched.queued, now < r.timeoutDeadline) ∧
        ∀ d ∈ (tick cfg o s now).decisions, now < d.request.timeoutDeadline := by
  have conserved := (wf.afterExpiry now).dispatchAll_core o now
  rw [← tick_toPass] at conserved
  let deadline : ℕ × String × String × PriorityBand × ℚ → ℚ := fun c => c.2.2.2.2
  constructor
  · intro alive
    have every : ∀ c ∈ (s.afterExpiry now).queued.map QueuedRequest.core, now < deadline c := by
      intro c hc
      obtain ⟨r, hr, rfl⟩ := Multiset.mem_map.mp hc
      exact alive r hr
    rw [← conserved] at every
    constructor
    · intro r hr
      exact every r.core (Multiset.mem_add.mpr (.inl (Multiset.mem_map_of_mem _ hr)))
    · intro d hd
      have mem : d.request ∈ decided (tick cfg o s now).decisions :=
        List.mem_map_of_mem hd
      exact every d.request.core (Multiset.mem_add.mpr (.inr (Multiset.mem_map_of_mem _ mem)))
  · rintro ⟨queued, dispatched⟩ r hr
    have mem : r.core ∈ (s.afterExpiry now).queued.map QueuedRequest.core :=
      Multiset.mem_map_of_mem _ hr
    rw [← conserved] at mem
    rcases Multiset.mem_add.mp mem with mem | mem
    · obtain ⟨r', hr', hcore⟩ := Multiset.mem_map.mp mem
      have same : r'.timeoutDeadline = r.timeoutDeadline := congrArg deadline hcore
      exact same ▸ queued r' hr'
    · obtain ⟨r', hr', hcore⟩ := Multiset.mem_map.mp mem
      obtain ⟨d, hd, rfl⟩ := List.mem_map.mp hr'
      have same : d.request.timeoutDeadline = r.timeoutDeadline := congrArg deadline hcore
      exact same ▸ dispatched d hd

/-- If the expiry step leaves nothing expired, it reported all of it. -/
theorem timeouts_eq_filter (wf : s.WellFormed cfg) (o : Oracles) (now : ℚ)
    (alive : ∀ r ∈ (s.afterExpiry now).queued, now < r.timeoutDeadline) :
    ((tick cfg o s now).timeouts : Multiset QueuedRequest) =
      s.queued.filter (fun r => r.timeoutDeadline ≤ now) := by
  rw [← wf.queued_afterExpiry o now, Multiset.filter_add]
  have kept : (s.afterExpiry now).queued.filter (fun r => r.timeoutDeadline ≤ now) = 0 :=
    Multiset.filter_eq_nil.mpr fun r hr => not_le.mpr (alive r hr)
  have reported : ((tick cfg o s now).timeouts : Multiset QueuedRequest).filter
      (fun r => r.timeoutDeadline ≤ now) = (tick cfg o s now).timeouts := by
    refine Multiset.filter_eq_self.mpr fun r hr => ?_
    have := (wf.withBudgets (s.budgets.replenish now)).expired_of_mem hr
    simpa [EndpointQueue.isExpired] using this
  rw [kept, reported, zero_add]

/-- In every state the scheduler can reach, a tick handles every expired request
exactly when no deque holds one behind a live request. -/
theorem expiry_complete_iff (cfg : ProxyConfig) (cost : CostModel) (budgets : BudgetManager)
    (ops : List Op) (o : Oracles) (now : ℚ) :
    let s := (World.run cfg (World.init cfg cost budgets) ops).sched
    ExpiryComplete cfg o s now ↔ ExpiredFirst s now := by
  intro s
  have wf : s.WellFormed cfg := wellFormed_run cfg cost budgets ops
  rw [expiredFirst_iff, ExpiryComplete]
  constructor
  · rintro ⟨queued, -, dispatched⟩
    exact (alive_afterExpiry_iff wf o now).mpr ⟨queued, dispatched⟩
  · intro alive
    obtain ⟨queued, dispatched⟩ := (alive_afterExpiry_iff wf o now).mp alive
    exact ⟨queued, timeouts_eq_filter wf o now alive, dispatched⟩

/-- A request that expires behind one that does not: with a free slot it is
dispatched after its deadline, without one it stays queued. -/
theorem expired_behind_live :
    ¬ExpiryComplete smallFleet {}
      (World.run smallFleet (World.init smallFleet {} {})
        [.enqueue (localRequest "x" .interactive),
          .enqueue { localRequest "y" .interactive with timeoutDeadline := 5 }]).sched 10 := by
  rintro ⟨-, -, dispatched⟩
  have found : ∃ d ∈ (tick smallFleet {}
      (World.run smallFleet (World.init smallFleet {} {})
        [.enqueue (localRequest "x" .interactive),
          .enqueue { localRequest "y" .interactive with timeoutDeadline := 5 }]).sched
      10).decisions, ¬(10 : ℚ) < d.request.timeoutDeadline := by
    decide +kernel
  obtain ⟨d, hd, late⟩ := found
  exact late (dispatched d hd)

end Roadstead
