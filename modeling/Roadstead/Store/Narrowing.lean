import Roadstead.Gateway.Steps
import Roadstead.Store.Recovery

/-!
# Narrowing across a restart

A caller may decline a permission that the operator grants its agent, for one request:
`substitution.spill: false` and `substitution.degrade: false` become `allow_spill` and
`allow_degrade`.  Both gates, `_admit` and `Failover.plan`, ask the agent first and the
request second, so either *no* keeps the gate shut (`GatesKept`), in every run.

A row of `proxy_queue` has no column for either field, and the constructor call of
`recover_queued` leaves both at their default.  The *no* of the agent is in the
configuration and survives; the *no* of the caller does not.  So what a caller declined
stays declined after a restart when the operator does not grant it either
(`narrowing_survives`), and otherwise the recovered request is spilled and failed over like
any other (`spilled_after_restart`).

A later process is a run of the gateway that begins with its startup, which enqueues what
the restart gives back, in order.  The scheduler numbers its requests in the order of their
arrival, so the requests numbered below the length of that list are the recovered ones.
-/

namespace Roadstead

open Scheduler Gateway

variable {cfg : ProxyConfig} {policy : Policy} {g : Gateway}

/-! ### The two gates, in every run -/

/-- What the agent or the caller declined was not done. -/
structure QueuedRequest.GatesKept (cfg : ProxyConfig) (r : QueuedRequest) : Prop where
  spill : r.allowSpill = some false ∨ (cfg.agentConfig r.agentId).spillOk = false →
    r.spilledFrom = none
  degrade : r.allowDegrade = some false ∨ (cfg.agentConfig r.agentId).degradeOk = false →
    r.degradedFrom = none

namespace QueuedRequest.GatesKept

variable {r : QueuedRequest} {now : ℚ}

/-- A request that was never moved. -/
theorem of_unmoved (spilled : r.spilledFrom = none) (degraded : r.degradedFrom = none) :
    r.GatesKept cfg :=
  ⟨fun _ => spilled, fun _ => degraded⟩

/-- The identity of a request does not matter. -/
theorem identified (kept : r.GatesKept cfg) (w : World) : (w.identified r).GatesKept cfg :=
  ⟨kept.spill, kept.degrade⟩

/-- A spill passes the gate of `_admit`. -/
theorem moved (kept : r.GatesKept cfg) {target : String} (could : canSpillTo cfg target r = true)
    (s : Scheduler) : (Scheduler.moved cfg s r target).GatesKept cfg := by
  refine ⟨fun no => ?_, kept.degrade⟩
  unfold canSpillTo at could
  split at could
  · obtain ⟨-, -, -, -, granted, allowed, -⟩ := of_decide_eq_true could
    rcases no with declined | denied
    · exact absurd declined allowed
    · exact absurd (granted.symm.trans denied) (by simp)
  · exact absurd could (by simp)

/-- A reroute passes the gate of `Failover.plan`. -/
theorem apply (kept : r.GatesKept cfg) {f : Failover} {healthy : String → Bool} {target : String}
    (plan : f.plan cfg healthy r = .reroute target) : (Failover.apply cfg r target).GatesKept cfg := by
  obtain ⟨-, may⟩ := Failover.plan_eq_reroute_iff.mp plan
  refine ⟨kept.spill, fun no => ?_⟩
  rcases no with declined | denied
  · exact absurd declined may.willing
  · exact absurd (may.optedIn.symm.trans denied) (by simp)

/-- A submission that gets past the circuit breaker. -/
theorem admitted {s : Submission} {req₁ : QueuedRequest} {g₁ : Gateway} {source : Option String}
    {t : ℚ} (past : PastCircuit cfg g (s.create cfg t) now g₁ req₁ source) :
    (s.prepare req₁).GatesKept cfg := by
  have created : (s.create cfg t).GatesKept cfg := of_unmoved rfl rfl
  have kept : req₁.GatesKept cfg := by
    cases past with
    | closed _ | deferred _ _ _ => exact created
    | rerouted _ plan => exact created.apply plan
  obtain ⟨timeoutS, heq⟩ := s.prepare_eq req₁
  rw [heq]
  exact ⟨kept.spill, kept.degrade⟩

end QueuedRequest.GatesKept

/-! ### The requests of a startup -/

namespace PersistentQueue

/-- The rows a restart at the wall time `wall` rebuilds, in order. -/
def rowsBack (q : PersistentQueue) (wall : ℚ) : List QueueRow :=
  q.selected.rows.values.filter fun row => decide (row.status = .queued) && !row.isSpent wall

theorem recoverQueued_eq_map (q : PersistentQueue) (cfg : ProxyConfig) (codec : Codec)
    (wall now : ℚ) : (q.recoverQueued cfg codec wall now).1 =
      (q.rowsBack wall).map fun row =>
        row.rebuild cfg ((codec.loads row.payloadJson).getD {}) wall now := rfl

end PersistentQueue

/-- The end of startup: every request that was rebuilt is enqueued, with the payload the
JSON guard makes of its own. -/
def startup (last : Restart) (guarded : QueueRow → Payload) (rows : List QueueRow) :
    List GatewayEvent :=
  rows.map fun row => .recovered row (guarded row) last.wall last.now

/-- The request is the one its number says, if that is one of the startup. -/
def QueuedRequest.From (rows : List QueueRow) (r : QueuedRequest) : Prop :=
  ∀ row, rows[r.ref]? = some row → r.requestId = row.requestId ∧ r.agentId = row.agentId

/-- The invariant of a process that recovered `rows`. -/
structure Gateway.Restarted (cfg : ProxyConfig) (rows : List QueueRow) (g : Gateway) : Prop where
  wf : g.proxy.world.sched.WellFormed cfg
  created : LoadsCreated cfg g
  every : g.proxy.Every fun r => r.GatesKept cfg ∧ r.From rows

namespace Gateway.Restarted

variable {rows : List QueueRow}

theorem init (cfg : ProxyConfig) (rows : List QueueRow) (cost : CostModel) (budgets : BudgetManager)
    (shedDepth : ℕ) : Restarted cfg rows (Gateway.init cfg cost budgets shedDepth) where
  wf := wellFormed_init cfg cost budgets
  created := .init cfg cost budgets shedDepth
  every := .init cfg cost budgets

/-- Every turn keeps the gates; what it enqueues must be what its number says. -/
theorem step (inv : Restarted cfg rows g) {e : GatewayEvent}
    (numbered : ∀ req, Arrives cfg g e req → (g.proxy.world.identified req).From rows) :
    Restarted cfg rows (g.step cfg policy e) where
  wf := wellFormed_step inv.wf e
  created := inv.created.step e
  every := by
    refine every_step inv.every inv.wf (fun _ _ h => ⟨⟨h.1.spill, h.1.degrade⟩, h.2⟩)
      (fun req arrives _ => ⟨?_, numbered req arrives⟩) ?_ ?_
    · refine QueuedRequest.GatesKept.identified ?_ g.proxy.world
      cases arrives with
      | admitted same brings past =>
          obtain ⟨t, hreq, -⟩ := brings.created inv.created
          rw [hreq] at past
          exact .admitted past
      | recovered => exact .of_unmoved rfl rfl
    · rintro o now rfl m hm req target spilled ⟨kept, fromRow⟩
      exact ⟨kept.moved (inv.wf.tick_spilling m hm req target spilled).could m.before, fromRow⟩
    · rintro g' now req target plan ⟨kept, fromRow⟩
      exact ⟨kept.apply plan, fromRow⟩

/-- After the startup, no request is numbered as one of its own. -/
theorem run (inv : Restarted cfg rows g) (le : rows.length ≤ g.proxy.world.enqueued.length)
    (events : List GatewayEvent) : Restarted cfg rows (g.run cfg policy events) := by
  refine (Runs.run_forall (fun g => Restarted cfg rows g ∧
    rows.length ≤ g.proxy.world.enqueued.length) ?_ ⟨inv, le⟩ events).1
  rintro g e ⟨inv, le⟩
  refine ⟨inv.step fun req _ row found => ?_, enqueued_le _ g e le⟩
  have past : rows[g.proxy.world.enqueued.length]? = none := List.getElem?_eq_none le
  exact absurd (past.symm.trans found) (by simp)

/-- The startup numbers the recovered requests in the order of their rows. -/
theorem startup (inv : Restarted cfg rows g) (last : Restart) (guarded : QueueRow → Payload)
    {done rest : List QueueRow} (split : rows = done ++ rest)
    (numbered : g.proxy.world.enqueued.length = done.length) :
    Restarted cfg rows (g.run cfg policy (Roadstead.startup last guarded rest)) ∧
      (g.run cfg policy (Roadstead.startup last guarded rest)).proxy.world.enqueued.length =
        rows.length := by
  induction rest generalizing g done with
  | nil => exact ⟨inv, by rw [split, List.append_nil]; exact numbered⟩
  | cons row rest ih =>
      have next : Restarted cfg rows
          (g.step cfg policy (.recovered row (guarded row) last.wall last.now)) := by
        refine inv.step fun req arrives row' found => ?_
        have here : rows[g.proxy.world.enqueued.length]? = some row := by
          rw [split, numbered]
          simp
        obtain rfl := Option.some.inj (here.symm.trans found)
        cases arrives with
        | admitted _ brings _ => cases brings
        | recovered => exact ⟨rfl, rfl⟩
      refine ih next (show rows = (done ++ [row]) ++ rest by simpa using split) ?_
      simp [Gateway.step, Gateway.recovered, World.step, numbered]

end Gateway.Restarted

/-! ### The answers of the gates -/

/-- Both gates answer for `b` as they do for `req`, where `req` declined. -/
structure SameAnswers (cfg : ProxyConfig) (req b : QueuedRequest) : Prop where
  admission : req.allowSpill = some false → ∀ o site s epCfg occ available target,
    Scheduler.admission cfg o site s epCfg b occ available target =
      Scheduler.admission cfg o site s epCfg req occ available target
  plan : req.allowDegrade = some false →
    cfg.normalizeEndpoint b.endpoint = cfg.normalizeEndpoint req.endpoint →
    ∀ (f : Failover) healthy, f.plan cfg healthy b = f.plan cfg healthy req

/-- `_admit` never spills a request when its agent or its caller declined. -/
theorem Scheduler.admission_of_declined {r : QueuedRequest}
    (no : r.allowSpill = some false ∨ (cfg.agentConfig r.agentId).spillOk = false) {o : Oracles}
    {site : CallSite} {s : Scheduler} {epCfg : EndpointConfig} {occ : ℕ} {available : ℤ}
    {target : String} : admission cfg o site s epCfg r occ available target =
      if epCfg.maxSlots ≤ 0 then .defer
      else if 0 < available ∧ (occ : ℤ) < epCfg.effectiveMaxSlots then .dispatch
      else .defer := by
  cases answer : admission cfg o site s epCfg r occ available target with
  | dispatch =>
      obtain ⟨slots, free, below⟩ := admission_dispatch_iff.mp answer
      rw [if_neg (not_le.mpr slots), if_pos ⟨free, below⟩]
  | spill =>
      -- Either refusal closes the gate.
      obtain ⟨-, -, -, may⟩ := admission_spill answer
      rcases no with declined | denied
      · exact absurd declined may.allowed
      · exact absurd (may.spill_ok.symm.trans denied) (by simp)
  | defer =>
      split
      · rfl
      · rename_i slots
        split
        · rename_i room
          rw [admission_dispatch_iff.mpr ⟨not_le.mp slots, room⟩] at answer
          exact Admission.noConfusion answer
        · rfl

/-- A permission that the caller declined was not granted either. -/
structure Ungranted (cfg : ProxyConfig) (req : QueuedRequest) : Prop where
  spill : req.allowSpill = some false → (cfg.agentConfig req.agentId).spillOk = false
  degrade : req.allowDegrade = some false → (cfg.agentConfig req.agentId).degradeOk = false

theorem Ungranted.sameAnswers {req b : QueuedRequest} (ungranted : Ungranted cfg req)
    (same : b.agentId = req.agentId) : SameAnswers cfg req b where
  admission declined o site s epCfg occ available target := by
    have denied : (cfg.agentConfig b.agentId).spillOk = false := by
      rw [same]
      exact ungranted.spill declined
    rw [admission_of_declined (.inr denied), admission_of_declined (.inl declined)]
  plan declined source f healthy := by
    have denied := ungranted.degrade declined
    unfold Failover.plan
    rw [source, same]
    simp only [denied, if_true]

/-! ### The result -/

/-- A process that starts from the store. -/
structure Process where
  restart : Restart
  policy : Policy := {}
  cost : CostModel := {}
  budgets : BudgetManager := {}
  shedDepth : ℕ := 64
  /-- What `apply_json_object_guard` makes of the payload of a row. -/
  guarded : QueueRow → Payload := fun _ => {}
  /-- What happens after the startup. -/
  events : List GatewayEvent

/-- The gateway of the process, which recovered `rows`. -/
def Process.gateway (p : Process) (rows : List QueueRow) : Gateway :=
  Gateway.run p.restart.cfg p.policy (Gateway.init p.restart.cfg p.cost p.budgets p.shedDepth)
    (startup p.restart p.guarded rows ++ p.events)

/-- What the caller of a recovered request declined is still declined: both gates answer as
they did for the request that was persisted, and it is neither spilled nor failed over. -/
structure NarrowingSurvives (codec : Codec) (h : List StoreEvent) (p : Process) : Prop where
  answers : ∀ b ∈ PersistentQueue.givenBack codec h p.restart, ∀ req wall,
    .enqueue req wall ∈ h → req.requestId = b.requestId → SameAnswers p.restart.cfg req b
  unmoved :
    let rows := (PersistentQueue.after codec h).rowsBack p.restart.wall
    ∀ r ∈ (p.gateway rows).proxy.world.everywhere, r.ref < rows.length → ∀ req wall,
      .enqueue req wall ∈ h → req.requestId = r.requestId →
        (req.allowSpill = some false → r.spilledFrom = none) ∧
          (req.allowDegrade = some false → r.degradedFrom = none)

/-- A row that is rebuilt comes from the one request that was enqueued under its id. -/
theorem PersistentQueue.enqueued_of_rowsBack {codec : Codec} {h : List StoreEvent} {wall : ℚ}
    {row : QueueRow} (mem : row ∈ (after codec h).rowsBack wall) :
    ∃ req wall, .enqueue req wall ∈ h ∧ req.requestId = row.requestId ∧ req.agentId = row.agentId := by
  obtain ⟨mem, picked⟩ := List.mem_filter.mp mem
  obtain ⟨⟨id, row⟩, entry, rfl⟩ := List.mem_map.mp mem
  have queued : row.status = .queued := by
    simp only [Bool.and_eq_true, decide_eq_true_eq] at picked
    exact picked.1
  have found := (get?_selected.mp ⟨Dict.mem_entries_iff.mp entry, queued⟩).1
  obtain ⟨req, wall, enqueued, -, heq⟩ := exists_enqueued found
  exact ⟨req, wall, enqueued, by rw [heq]; rfl, by rw [heq]; rfl⟩

/-- **Narrowing after a restart.**  When no recovered request declined what its agent may do
in the new process, every recovered request is treated as its caller asked. -/
theorem narrowing_survives (codec : Codec) (h : List StoreEvent) (p : Process)
    (distinct : (enqueuedIds h).Nodup)
    (ungranted : ∀ req wall, .enqueue req wall ∈ h →
      req.requestId ∈ (PersistentQueue.givenBack codec h p.restart).map QueuedRequest.requestId →
        Ungranted p.restart.cfg req) :
    NarrowingSurvives codec h p := by
  -- The one request that was enqueued under the id of a recovered row.
  have original {row : QueueRow} {req : QueuedRequest} {wall : ℚ}
      (back : row ∈ (PersistentQueue.after codec h).rowsBack p.restart.wall)
      (enqueued : .enqueue req wall ∈ h) (named : req.requestId = row.requestId) :
      req.agentId = row.agentId ∧ Ungranted p.restart.cfg req := by
    obtain ⟨req', wall', enqueued', named', agent⟩ := PersistentQueue.enqueued_of_rowsBack back
    obtain rfl := enqueued_unique distinct enqueued' enqueued (named'.trans named.symm)
    refine ⟨agent, ungranted _ _ enqueued ?_⟩
    rw [PersistentQueue.givenBack, PersistentQueue.recoverQueued_eq_map, List.map_map]
    exact List.mem_map.mpr ⟨row, back, named.symm⟩
  constructor
  · intro b hb req wall enqueued named
    rw [PersistentQueue.givenBack, PersistentQueue.recoverQueued_eq_map] at hb
    obtain ⟨row, back, rfl⟩ := List.mem_map.mp hb
    obtain ⟨agent, ungranted⟩ := original back enqueued named
    exact ungranted.sameAnswers agent.symm
  · intro rows r hr recovered req wall enqueued named
    have started := @Restarted.startup p.restart.cfg p.policy _ rows
      (.init p.restart.cfg rows p.cost p.budgets p.shedDepth) p.restart p.guarded [] rows rfl rfl
    have inv : Restarted p.restart.cfg rows (p.gateway rows) := by
      rw [Process.gateway, Gateway.run, Runs.run, List.foldl_append]
      exact started.1.run started.2.ge p.events
    obtain ⟨kept, fromRow⟩ := inv.every.world r hr
    have here : rows[r.ref]? = some rows[r.ref] := List.getElem?_eq_getElem recovered
    obtain ⟨sameId, sameAgent⟩ := fromRow _ here
    obtain ⟨agent, ungranted⟩ := original (List.getElem_mem recovered) enqueued
      (named.trans sameId)
    have same : r.agentId = req.agentId := sameAgent.trans agent.symm
    refine ⟨fun declined => kept.spill (.inr ?_), fun declined => kept.degrade (.inr ?_)⟩
    · rw [same]
      exact ungranted.spill declined
    · rw [same]
      exact ungranted.degrade declined

/-! ### A small fleet -/

/-- One slot, with a remote endpoint to spill to and a spare one to fail over to. -/
def overflowFleet (granted : Bool) : ProxyConfig where
  endpoints := ⟨[("main",
      { endpointClass := "main", maxSlots := 1, spillTo := "remote", failoverTo := "spare" }),
    ("remote", { endpointClass := "remote", maxSlots := 1 }),
    ("spare", { endpointClass := "spare", maxSlots := 1 })], by decide⟩
  agents := ⟨[("agent", { agentId := "agent", spillOk := granted, degradeOk := granted })],
    by simp⟩
  stored_under_class := by simp
  class_ne_empty := by simp

/-- A request whose caller declined both substitutions. -/
def confidentialRequest (id : String) : QueuedRequest where
  requestId := id
  agentId := "agent"
  endpoint := "main"
  band := .interactive
  timeoutDeadline := 60
  timeoutS := 60
  allowSpill := some false
  allowDegrade := some false

/-- Two such requests are persisted. -/
def confidentialHistory : List StoreEvent :=
  [.enqueue (confidentialRequest "a") 100, .enqueue (confidentialRequest "b") 101]

/-- A process that dispatches what it recovered. -/
def busyProcess (granted : Bool) : Process where
  restart := ⟨overflowFleet granted, 110, 0⟩
  events := [.turn (.tick {} 1)]

/-- Where the operator grants the agent nothing, the requests wait for the one slot. -/
theorem narrowing_survives_ungranted :
    ((busyProcess false).gateway ((PersistentQueue.after emptyPayloadCodec confidentialHistory).rowsBack
        110)).proxy.world.sched.queued.map QueuedRequest.requestId = {"b"} ∧
      NarrowingSurvives emptyPayloadCodec confidentialHistory (busyProcess false) := by
  refine ⟨by decide +kernel, narrowing_survives _ _ _ (by decide) fun req wall enqueued _ => ?_⟩
  have agent : req.agentId = "agent" := by
    simp only [confidentialHistory, List.mem_cons, List.not_mem_nil, or_false,
      StoreEvent.enqueue.injEq] at enqueued
    rcases enqueued with ⟨rfl, -⟩ | ⟨rfl, -⟩
    · rfl
    · rfl
  constructor
  · intro _
    rw [agent]
    decide
  · intro _
    rw [agent]
    decide

/-- A recovered request that was spilled although its caller had declined. -/
theorem not_narrowingSurvives_of_spilled {codec : Codec} {h : List StoreEvent} {p : Process}
    {req : QueuedRequest} {wall : ℚ} (enqueued : .enqueue req wall ∈ h)
    (declined : req.allowSpill = some false)
    (spilled : let rows := (PersistentQueue.after codec h).rowsBack p.restart.wall
      0 < (p.gateway rows).proxy.world.everywhere.countP fun r =>
        r.ref < rows.length ∧ r.requestId = req.requestId ∧ r.spilledFrom.isSome) :
    ¬NarrowingSurvives codec h p := by
  intro survives
  obtain ⟨r, hr, recovered, named, some⟩ := Multiset.countP_pos.mp spilled
  have none := (survives.unmoved r hr recovered req wall enqueued named.symm).1 declined
  rw [none] at some
  exact absurd some (by simp)

/-- The operator grants the agent spilling; the second request finds the slot taken, and it
is spilled. -/
theorem spilled_after_restart :
    ¬NarrowingSurvives emptyPayloadCodec confidentialHistory (busyProcess true) :=
  not_narrowingSurvives_of_spilled
    (show .enqueue (confidentialRequest "b") 101 ∈ confidentialHistory by simp [confidentialHistory])
    rfl (by decide +kernel)

end Roadstead
