import Mathlib.Data.List.Induction
import Mathlib.Tactic.Linarith
import Roadstead.Store
import Roadstead.Lib.Run

/-!
# What a restart gives back

A history of the restart queue is a list of writes and restarts, in the order in which
they were applied.  A restart calls `recover_queued`, in a process with a catalog and
clocks of its own, and leaves the table without the rows it deleted.

The table after a history is described by the history alone (`found_iff`): of the rows
that a restart at the wall time `wall` would give back, there is one for each request that
was enqueued and not touched since (`Pending`), is neither streaming nor unstored, and has
budget left.  The induction is over the history from its end.  An earlier restart deletes
nothing that would come back later, because time does not run backwards (`comesBack_anti`).

The budget is not stored anywhere as it shrinks.  A row keeps the wall time of its
`persist_enqueue` and the original `timeout_s`, and no restart writes either, so however
many restarts lie in between, the last one subtracts the whole time since.
-/

namespace Roadstead

/-! ### Histories of the table -/

/-- A restart of the service. -/
structure Restart where
  /-- The configuration of the new process, with its catalog. -/
  cfg : ProxyConfig
  /-- `time.time()`. -/
  wall : ℚ
  /-- `time.monotonic()`. -/
  now : ℚ

/-- What happens to the table. -/
inductive StoreEvent where
  | enqueue (req : QueuedRequest) (wall : ℚ)
  | dispatch (requestId : String)
  | complete (requestId : String)
  | expire (requestId : String)
  | restart (r : Restart)

namespace StoreEvent

/-- The request a write is about. -/
def requestId? : StoreEvent → Option String
  | enqueue req _ => some req.requestId
  | dispatch id => some id
  | complete id => some id
  | expire id => some id
  | restart _ => none

/-- The request a write enqueues. -/
def enqueuedId? : StoreEvent → Option String
  | enqueue req _ => some req.requestId
  | _ => none

/-- The wall clock, where the event reads it. -/
def wall? : StoreEvent → Option ℚ
  | enqueue _ wall => some wall
  | restart r => some r.wall
  | _ => none

end StoreEvent

/-- The requests a history enqueues. -/
def enqueuedIds (h : List StoreEvent) : List String := h.filterMap StoreEvent.enqueuedId?

/-- `req` was enqueued at the wall time `wall`, and nothing was written for it since. -/
def Pending (h : List StoreEvent) (req : QueuedRequest) (wall : ℚ) : Prop :=
  ∃ before after, h = before ++ .enqueue req wall :: after ∧
    ∀ e ∈ after, e.requestId? ≠ some req.requestId

variable {h : List StoreEvent}

/-- A history that enqueues no id twice enqueues one request under each. -/
theorem enqueued_unique (distinct : (enqueuedIds h).Nodup)
    {req req' : QueuedRequest} {wall wall' : ℚ} (mem : .enqueue req wall ∈ h)
    (mem' : .enqueue req' wall' ∈ h) (same : req.requestId = req'.requestId) : req = req' := by
  induction h with
  | nil => exact absurd mem (by simp)
  | cons e h ih =>
      have tail : (enqueuedIds h).Nodup :=
        distinct.sublist ((List.sublist_cons_self e h).filterMap _)
      rcases List.mem_cons.mp mem with rfl | inner
      · rcases List.mem_cons.mp mem' with heq | inner'
        · exact (StoreEvent.enqueue.inj heq).1.symm
        · have seen : req'.requestId ∈ enqueuedIds h := List.mem_filterMap.mpr ⟨_, inner', rfl⟩
          exact absurd (same ▸ seen) (List.nodup_cons.mp distinct).1
      · rcases List.mem_cons.mp mem' with rfl | inner'
        · have seen : req.requestId ∈ enqueuedIds h := List.mem_filterMap.mpr ⟨_, inner, rfl⟩
          exact absurd (same ▸ seen) (List.nodup_cons.mp distinct).1
        · exact ih tail inner inner'

namespace PersistentQueue

variable (codec : Codec)

def step (q : PersistentQueue) : StoreEvent → PersistentQueue
  | .enqueue req wall => q.persistEnqueue codec req wall
  | .dispatch id => q.persistDispatch id
  | .complete id => q.persistComplete id
  | .expire id => q.persistExpire id
  | .restart r => (q.recoverQueued r.cfg codec r.wall r.now).2

/-- The table after a history. -/
def after (h : List StoreEvent) : PersistentQueue := Runs.run (step codec) {} h

/-- What the restart `last` gives back after a history. -/
def givenBack (h : List StoreEvent) (last : Restart) : List QueuedRequest :=
  ((after codec h).recoverQueued last.cfg codec last.wall last.now).1

end PersistentQueue

theorem pending_concat {e : StoreEvent} {req : QueuedRequest} {wall : ℚ} :
    Pending (h ++ [e]) req wall ↔
      e = .enqueue req wall ∨ Pending h req wall ∧ e.requestId? ≠ some req.requestId := by
  constructor
  · rintro ⟨before, after, heq, untouched⟩
    rcases List.eq_nil_or_concat after with rfl | ⟨middle, last, rfl⟩
    · exact .inl (List.singleton_inj.mp (List.append_inj' heq rfl).2)
    · rw [List.concat_eq_append] at heq untouched
      rw [← List.cons_append, ← List.append_assoc] at heq
      obtain ⟨rfl, hlast⟩ := List.append_inj' heq rfl
      obtain rfl := List.singleton_inj.mp hlast
      refine .inr ⟨⟨before, middle, rfl, fun e he => ?_⟩, untouched e (by simp)⟩
      exact untouched e (List.mem_append_left _ he)
  · rintro (rfl | ⟨⟨before, after, rfl, untouched⟩, other⟩)
    · exact ⟨h, [], rfl, by simp⟩
    · refine ⟨before, after ++ [e], by simp, fun e' he' => ?_⟩
      rcases List.mem_append.mp he' with he' | he'
      · exact untouched e' he'
      · obtain rfl := List.mem_singleton.mp he'
        exact other

theorem Pending.mem {req : QueuedRequest} {wall : ℚ}
    (pending : Pending h req wall) : .enqueue req wall ∈ h := by
  obtain ⟨before, after, rfl, -⟩ := pending
  simp

theorem mem_enqueuedIds {req : QueuedRequest} {wall : ℚ}
    (mem : .enqueue req wall ∈ h) : req.requestId ∈ enqueuedIds h :=
  List.mem_filterMap.mpr ⟨_, mem, rfl⟩

/-! ### The rows a restart gives back -/

namespace QueueRow

/-- A restart at the wall time `wall` gives the row back. -/
def comesBack (row : QueueRow) (wall : ℚ) : Bool :=
  decide (row.status = .queued) && !row.stream && !row.isSpent wall

/-- A budget that is spent stays spent. -/
theorem isSpent_mono {row : QueueRow} {wall wall' : ℚ} (later : wall ≤ wall')
    (spent : row.isSpent wall = true) : row.isSpent wall' = true := by
  unfold isSpent elapsed at *
  rw [decide_eq_true_eq] at *
  obtain ⟨stamped, gone⟩ := spent
  rw [if_pos stamped] at gone ⊢
  have elapsed := max_le_max (le_refl (0 : ℚ)) (sub_le_sub_right later row.enqueuedWall)
  exact ⟨stamped, by linarith⟩

/-- What comes back from a restart would have come back from an earlier one. -/
theorem comesBack_anti {row : QueueRow} {wall wall' : ℚ} (later : wall ≤ wall')
    (back : row.comesBack wall' = true) : row.comesBack wall = true := by
  unfold comesBack at *
  simp only [Bool.and_eq_true, Bool.not_eq_true'] at *
  refine ⟨back.1, ?_⟩
  by_contra spent
  rw [isSpent_mono later (by simpa using spent)] at back
  exact absurd back.2 (by simp)

end QueueRow

namespace PersistentQueue

variable {codec : Codec} {q : PersistentQueue} {id : String} {row : QueueRow}

theorem get?_deleteWhere (q : PersistentQueue) (p : QueueRow → Bool) (id : String) :
    (q.deleteWhere p).rows.get? id = (q.rows.get? id).filter fun row => !p row := by
  have folded : (q.deleteWhere p).rows =
      ((q.rows.entries.filter fun e => p e.2).map Prod.fst).foldl Dict.erase q.rows := by
    rw [List.foldl_map]
    rfl
  rw [folded, Dict.get?_foldl_erase]
  cases h : q.rows.get? id with
  | none => simp
  | some row =>
      have deleted : id ∈ (q.rows.entries.filter fun e => p e.2).map Prod.fst ↔ p row = true := by
        rw [List.mem_map]
        constructor
        · rintro ⟨⟨_, row'⟩, he, rfl⟩
          obtain ⟨mem, picked⟩ := List.mem_filter.mp he
          rw [Dict.mem_entries_iff, h] at mem
          obtain rfl := Option.some.inj mem
          exact picked
        · exact fun picked => ⟨(id, row), List.mem_filter.mpr ⟨Dict.mem_entries_iff.mpr h, picked⟩, rfl⟩
      by_cases picked : p row = true
      · rw [if_pos (deleted.mpr picked), Option.filter_some_neg]
        simp [picked]
      · rw [if_neg fun mem => picked (deleted.mp mem), Option.filter_some_pos]
        simp [picked]

theorem get?_selected : q.selected.rows.get? id = some row ∧ row.status = .queued ↔
    q.rows.get? id = some row ∧ row.status = .queued ∧ row.stream = false := by
  unfold selected
  rw [get?_deleteWhere, get?_deleteWhere, Option.filter_eq_some_iff, Option.filter_eq_some_iff]
  constructor
  · rintro ⟨⟨⟨found, -⟩, whole⟩, queued⟩
    exact ⟨found, queued, by simpa [queued] using whole⟩
  · rintro ⟨found, queued, whole⟩
    exact ⟨⟨⟨found, by simp [queued]⟩, by simp [whole]⟩, queued⟩

/-- A row is still there after a restart, and queued, when the restart gave it back. -/
theorem get?_recoverQueued {cfg : ProxyConfig} {wall now : ℚ} :
    (q.recoverQueued cfg codec wall now).2.rows.get? id = some row ∧ row.status = .queued ↔
      q.rows.get? id = some row ∧ row.comesBack wall = true := by
  simp only [recoverQueued, get?_deleteWhere, Option.filter_eq_some_iff, QueueRow.comesBack,
    Bool.and_eq_true, decide_eq_true_eq, Bool.not_eq_true']
  constructor
  · rintro ⟨⟨found, unspent⟩, queued⟩
    obtain ⟨here, -, whole⟩ := get?_selected.mp ⟨found, queued⟩
    exact ⟨here, ⟨queued, whole⟩, by simpa [queued] using unspent⟩
  · rintro ⟨here, ⟨queued, whole⟩, unspent⟩
    exact ⟨⟨(get?_selected.mpr ⟨here, queued, whole⟩).1, by simp [unspent]⟩, queued⟩

theorem mem_recoverQueued {cfg : ProxyConfig} {wall now : ℚ} {b : QueuedRequest} :
    b ∈ (q.recoverQueued cfg codec wall now).1 ↔
      ∃ id row, q.rows.get? id = some row ∧ row.comesBack wall = true ∧
        b = row.rebuild cfg ((codec.loads row.payloadJson).getD {}) wall now := by
  simp only [recoverQueued, Dict.values, List.mem_map, List.mem_filter, QueueRow.comesBack,
    Bool.and_eq_true, decide_eq_true_eq, Bool.not_eq_true']
  constructor
  · rintro ⟨row, ⟨⟨⟨id, _⟩, mem, rfl⟩, queued, unspent⟩, rfl⟩
    obtain ⟨here, -, whole⟩ := get?_selected.mp ⟨Dict.mem_entries_iff.mp mem, queued⟩
    exact ⟨id, _, here, ⟨⟨queued, whole⟩, unspent⟩, rfl⟩
  · rintro ⟨id, row, here, ⟨⟨queued, whole⟩, unspent⟩, rfl⟩
    have found := (get?_selected.mpr ⟨here, queued, whole⟩).1
    exact ⟨row, ⟨⟨(id, row), Dict.mem_entries_iff.mpr found, rfl⟩, queued, unspent⟩, rfl⟩

/-- Every row is stored under the request it is for. -/
def Keyed (q : PersistentQueue) : Prop :=
  ∀ id row, q.rows.get? id = some row → row.requestId = id

theorem Keyed.deleteWhere (keyed : q.Keyed) (p : QueueRow → Bool) : (q.deleteWhere p).Keyed := by
  intro id row h
  rw [get?_deleteWhere] at h
  exact keyed id row (Option.filter_eq_some_iff.mp h).1

theorem Keyed.erase (keyed : q.Keyed) (id : String) : Keyed ⟨q.rows.erase id⟩ := by
  intro id' row h
  exact keyed id' row (Dict.get?_of_get?_erase h)

theorem Keyed.step (keyed : q.Keyed) (e : StoreEvent) : (q.step codec e).Keyed := by
  cases e with
  | enqueue req wall =>
      simp only [PersistentQueue.step, persistEnqueue]
      split
      · exact keyed
      · intro id row h
        rw [Dict.get?_set] at h
        split at h
        · rename_i here
          obtain rfl := Option.some.inj h
          exact here.symm
        · exact keyed id row h
  | dispatch id =>
      intro id' row h
      simp only [PersistentQueue.step, persistDispatch, Dict.get?_modify] at h
      obtain ⟨row', found, rfl⟩ := Option.map_eq_some_iff.mp h
      have same := keyed id' row' found
      split
      · exact same
      · exact same
  | complete id | expire id => exact keyed.erase id
  | restart r => exact ((keyed.deleteWhere _).deleteWhere _).deleteWhere _

theorem keyed_after (h : List StoreEvent) : (after codec h).Keyed :=
  Runs.run_forall Keyed (fun _ e keyed => keyed.step e) (by intro id row h; simp at h) h

theorem after_concat (h : List StoreEvent) (e : StoreEvent) :
    after codec (h ++ [e]) = (after codec h).step codec e :=
  List.foldl_concat ..

/-- Every row was written by `persist_enqueue`, and only its status has changed since. -/
theorem exists_enqueued (found : (after codec h).rows.get? id = some row) :
    ∃ req wall, .enqueue req wall ∈ h ∧ req.requestId = id ∧
      row = { QueueRow.ofRequest codec req wall with status := row.status } := by
  induction h using List.reverseRecOn generalizing row with
  | nil => simp [after] at found
  | append_singleton h e ih =>
      have earlier {row : QueueRow} (found : (after codec h).rows.get? id = some row) :
          ∃ req wall, .enqueue req wall ∈ h ++ [e] ∧ req.requestId = id ∧
            row = { QueueRow.ofRequest codec req wall with status := row.status } := by
        obtain ⟨req, wall, mem, rest⟩ := ih found
        exact ⟨req, wall, List.mem_append_left _ mem, rest⟩
      rw [after_concat] at found
      cases e with
      | enqueue req wall =>
          simp only [PersistentQueue.step, persistEnqueue] at found
          split at found
          · exact earlier found
          · rw [Dict.get?_set] at found
            split at found
            · rename_i here
              obtain rfl := Option.some.inj found
              exact ⟨req, wall, by simp, here.symm, rfl⟩
            · exact earlier found
      | dispatch id' =>
          simp only [PersistentQueue.step, persistDispatch, Dict.get?_modify] at found
          obtain ⟨row', before, rfl⟩ := Option.map_eq_some_iff.mp found
          obtain ⟨req, wall, mem, named, heq⟩ := earlier before
          refine ⟨req, wall, mem, named, ?_⟩
          -- Only the status is written, and the statement leaves it open.
          generalize row'.status = status at heq
          subst heq
          split
          · rfl
          · rfl
      | complete id' | expire id' => exact earlier (Dict.get?_of_get?_erase found)
      | restart r =>
          simp only [PersistentQueue.step, recoverQueued, selected, get?_deleteWhere,
            Option.filter_eq_some_iff] at found
          exact earlier found.1.1.1

/-- A request that is not among the enqueued ones has no row. -/
theorem mem_enqueuedIds_of_found
    (found : (after codec h).rows.get? id = some row) : id ∈ enqueuedIds h := by
  obtain ⟨req, wall, mem, rfl, -⟩ := exists_enqueued found
  exact mem_enqueuedIds mem

/-- The row of a pending request that is stored. -/
def Awaiting (codec : Codec) (h : List StoreEvent) (id : String) (row : QueueRow) : Prop :=
  ∃ req wall, Pending h req wall ∧ req.requestId = id ∧ req.noStore = false ∧
    row = .ofRequest codec req wall

/-- What happens to other requests does not matter. -/
theorem awaiting_concat {e : StoreEvent} (other : e.requestId? ≠ some id) :
    Awaiting codec (h ++ [e]) id row ↔ Awaiting codec h id row := by
  refine exists_congr fun req => exists_congr fun wall => ?_
  constructor
  · rintro ⟨pending, rfl, rest⟩
    rcases pending_concat.mp pending with rfl | ⟨pending, -⟩
    · exact absurd rfl other
    · exact ⟨pending, rfl, rest⟩
  · rintro ⟨pending, rfl, rest⟩
    exact ⟨pending_concat.mpr (.inr ⟨pending, other⟩), rfl, rest⟩

/-- A request that was last dispatched or finished is not pending. -/
theorem not_awaiting_concat {e : StoreEvent} (about : e.requestId? = some id)
    (no_enqueue : e.enqueuedId? = none) : ¬Awaiting codec (h ++ [e]) id row := by
  rintro ⟨req, wall, pending, rfl, -⟩
  rcases pending_concat.mp pending with rfl | ⟨-, other⟩
  · exact absurd no_enqueue (by simp [StoreEvent.enqueuedId?])
  · exact other about

/-- A request that was enqueued last, and never before, is the pending one of its id. -/
theorem awaiting_concat_enqueue {req : QueuedRequest} {wall : ℚ}
    (unseen : req.requestId ∉ enqueuedIds h) :
    Awaiting codec (h ++ [.enqueue req wall]) req.requestId row ↔
      req.noStore = false ∧ row = .ofRequest codec req wall := by
  constructor
  · rintro ⟨req', wall', pending, same, stored, rfl⟩
    rcases pending_concat.mp pending with heq | ⟨pending, -⟩
    · obtain ⟨rfl, rfl⟩ := StoreEvent.enqueue.inj heq
      exact ⟨stored, rfl⟩
    · exact absurd (same ▸ mem_enqueuedIds pending.mem) unseen
  · rintro ⟨stored, rfl⟩
    exact ⟨req, wall, pending_concat.mpr (.inl rfl), rfl, stored, rfl⟩

/-- A write that deletes a row. -/
theorem get?_erased {e : StoreEvent} {id' : String}
    (about : e.requestId? = some id') (no_enqueue : e.enqueuedId? = none)
    (ih : q.rows.get? id = some row ↔ Awaiting codec h id row) :
    (q.rows.erase id').get? id = some row ↔ Awaiting codec (h ++ [e]) id row := by
  by_cases here : id = id'
  · subst here
    rw [Dict.get?_erase_self]
    exact iff_of_false (by simp) (not_awaiting_concat about no_enqueue)
  · have other : e.requestId? ≠ some id := by
      rw [about]
      exact fun same => here (Option.some.inj same).symm
    rw [awaiting_concat other, Dict.get?_erase_of_ne _ here, ih]

/-- The rows a restart at the wall time `wall` would give back after a history. -/
theorem found_iff {wall : ℚ} (distinct : (enqueuedIds h).Nodup)
    (past : ∀ e ∈ h, ∀ w, e.wall? = some w → w ≤ wall) (back : row.comesBack wall = true) :
    (after codec h).rows.get? id = some row ↔ Awaiting codec h id row := by
  induction h using List.reverseRecOn generalizing row with
  | nil => simp [after, Awaiting, Pending]
  | append_singleton h e ih =>
      have split := distinct
      rw [enqueuedIds, List.filterMap_append] at split
      obtain ⟨before, -, unseen⟩ := List.nodup_append.mp split
      have ih {row : QueueRow} (back : row.comesBack wall = true) :
          (after codec h).rows.get? id = some row ↔ Awaiting codec h id row :=
        ih before (fun e he => past e (List.mem_append_left _ he)) back
      rw [after_concat]
      cases e with
      | enqueue req w =>
          by_cases here : req.requestId = id
          · -- An id is enqueued once, so the table had no row under it.
            subst here
            have unseen : req.requestId ∉ enqueuedIds h :=
              fun seen => unseen _ seen _ (by simp [StoreEvent.enqueuedId?]) rfl
            rw [awaiting_concat_enqueue unseen]
            simp only [PersistentQueue.step, persistEnqueue]
            split
            · rename_i unstored
              simp only [unstored, Bool.true_eq_false, false_and, iff_false]
              exact fun found => unseen (mem_enqueuedIds_of_found found)
            · rename_i stored
              rw [Dict.get?_set_self, Option.some_inj, eq_comm]
              simp [stored]
          · rw [awaiting_concat (by simpa [StoreEvent.requestId?] using here), ← ih back]
            simp only [PersistentQueue.step, persistEnqueue]
            split
            · rfl
            · rw [Dict.get?_set_of_ne _ (Ne.symm here)]
      | dispatch id' =>
          by_cases here : id' = id
          · -- The row stays in the table, with a status that no restart gives back.
            refine iff_of_false (fun found => ?_)
              (not_awaiting_concat (by simp [StoreEvent.requestId?, here]) rfl)
            simp only [PersistentQueue.step, persistDispatch, Dict.get?_modify, if_pos here.symm] at found
            obtain ⟨row', -, rfl⟩ := Option.map_eq_some_iff.mp found
            exact absurd back (by simp [QueueRow.comesBack])
          · rw [awaiting_concat (by simpa [StoreEvent.requestId?] using here), ← ih back]
            simp only [PersistentQueue.step, persistDispatch, Dict.get?_modify, if_neg (Ne.symm here),
              Option.map_id']
      | complete id' | expire id' => exact get?_erased rfl rfl (ih back)
      | restart r =>
          have earlier : r.wall ≤ wall := past (.restart r) (by simp) r.wall rfl
          have queued : row.status = .queued := by
            simp only [QueueRow.comesBack, Bool.and_eq_true, decide_eq_true_eq] at back
            exact back.1.1
          rw [awaiting_concat (by simp [StoreEvent.requestId?]), ← ih back]
          -- An earlier restart kept whatever comes back from the last one.
          constructor
          · exact fun found => (get?_recoverQueued.mp ⟨found, queued⟩).1
          · exact fun found => (get?_recoverQueued.mpr ⟨found, row.comesBack_anti earlier back⟩).1

end PersistentQueue

/-! ### The round trip -/

/-- What `persist_enqueue` may rely on. -/
structure Persistable (codec : Codec) (req : QueuedRequest) (wall : ℚ) : Prop where
  /-- The payload survives `json.dumps` and `json.loads`. -/
  serialisable : codec.loads (codec.dumps req.payload) = some req.payload
  timeout_pos : 0 < req.timeoutS
  /-- As `QueuedRequest.create` sets it. -/
  band_eq : req.band = req.priority.band
  /-- The wall clock is past the epoch; a row without a wall time is an old one. -/
  wall_pos : 0 < wall

/-- A restart can give the request back. -/
structure Recoverable (h : List StoreEvent) (last : Restart) (req : QueuedRequest) (wall : ℚ) :
    Prop where
  pending : Pending h req wall
  whole : req.stream = false
  stored : req.noStore = false
  budget_left : 0 < req.timeoutS - (last.wall - wall)

/-- `b` is `req`, which was persisted at `wall`, as the restart `last` gives it back. -/
structure GivenBack (last : Restart) (req : QueuedRequest) (wall : ℚ) (b : QueuedRequest) :
    Prop where
  requestId : b.requestId = req.requestId
  agentId : b.agentId = req.agentId
  /-- The catalog of the new process has the last word. -/
  endpoint : b.endpoint = last.cfg.normalizeEndpoint req.endpoint
  priority : b.priority = req.priority
  band : b.band = req.band
  callSite : b.callSite = req.callSite
  payloadType : b.payloadType = req.payloadType
  payload : b.payload = req.payload
  timeoutS : b.timeoutS = req.timeoutS
  budget : b.timeoutDeadline - last.now = req.timeoutS - (last.wall - wall)

section RoundTrip

variable {codec : Codec} {h : List StoreEvent} {last : Restart} {req : QueuedRequest} {wall : ℚ}

namespace Persistable

theorem budget_ofRequest (may : Persistable codec req wall) :
    (QueueRow.ofRequest codec req wall).budget = req.timeoutS :=
  if_pos may.timeout_pos.ne'

theorem elapsed_ofRequest (may : Persistable codec req wall) {wall' : ℚ} (later : wall ≤ wall') :
    (QueueRow.ofRequest codec req wall).elapsed wall' = wall' - wall := by
  have stamped : (QueueRow.ofRequest codec req wall).enqueuedWall ≠ 0 := may.wall_pos.ne'
  rw [QueueRow.elapsed, if_pos stamped]
  exact max_eq_right (sub_nonneg.mpr later)

theorem comesBack_ofRequest (may : Persistable codec req wall) {wall' : ℚ} (later : wall ≤ wall') :
    (QueueRow.ofRequest codec req wall).comesBack wall' = true ↔
      req.stream = false ∧ 0 < req.timeoutS - (wall' - wall) := by
  have stamped : (QueueRow.ofRequest codec req wall).enqueuedWall ≠ 0 := may.wall_pos.ne'
  have queued : (QueueRow.ofRequest codec req wall).status = .queued := rfl
  have stream : (QueueRow.ofRequest codec req wall).stream = req.stream := rfl
  simp only [QueueRow.comesBack, QueueRow.isSpent, may.budget_ofRequest, may.elapsed_ofRequest later,
    queued, stream, stamped, Bool.and_eq_true, Bool.not_eq_true', decide_eq_false_iff_not,
    decide_true, ne_eq, not_false_eq_true, true_and, not_le]

theorem givenBack_rebuild (may : Persistable codec req wall) (later : wall ≤ last.wall) :
    GivenBack last req wall ((QueueRow.ofRequest codec req wall).rebuild last.cfg
      ((codec.loads (QueueRow.ofRequest codec req wall).payloadJson).getD {}) last.wall last.now) where
  requestId := rfl
  agentId := rfl
  endpoint := rfl
  priority := LLMPriority.coerce_value req.priority
  band := by
    show (LLMPriority.coerce req.priority.value).band = req.band
    rw [LLMPriority.coerce_value, may.band_eq]
  callSite := rfl
  payloadType := rfl
  payload := by
    show (codec.loads (codec.dumps req.payload)).getD {} = req.payload
    rw [may.serialisable, Option.getD_some]
  timeoutS := may.budget_ofRequest
  budget := by
    simp only [QueueRow.rebuild, may.budget_ofRequest, may.elapsed_ofRequest later]
    ring

end Persistable

/-- The ids of what a restart gives back are keys of the table. -/
theorem PersistentQueue.Keyed.nodup_recoverQueued {q : PersistentQueue} (keyed : q.Keyed)
    (cfg : ProxyConfig) (codec : Codec) (wall now : ℚ) :
    ((q.recoverQueued cfg codec wall now).1.map QueuedRequest.requestId).Nodup := by
  have selected : q.selected.Keyed := (keyed.deleteWhere _).deleteWhere _
  simp only [PersistentQueue.recoverQueued, List.map_map]
  have ids : q.selected.rows.values.map QueueRow.requestId = q.selected.rows.keys := by
    simp only [Dict.values, Dict.keys, List.map_map]
    exact List.map_congr_left fun e he => selected e.1 e.2 (Dict.mem_entries_iff.mp he)
  exact (ids ▸ q.selected.rows.nodup_keys).sublist (List.filter_sublist.map QueueRow.requestId)

/-- **The restart round trip.**  After any history of writes and restarts, a restart gives
back exactly the requests that were enqueued and not dispatched, completed or expired
since, that are neither streaming nor unstored, and that have budget left.  Each comes
back once, as it was persisted, on the endpoint the new catalog gives its own, and with
what the wall time since leaves of its timeout. -/
theorem recovery_round_trip (codec : Codec) (h : List StoreEvent) (last : Restart)
    (persistable : ∀ req wall, .enqueue req wall ∈ h → Persistable codec req wall)
    (distinct : (enqueuedIds h).Nodup)
    (clock : (h.filterMap StoreEvent.wall? ++ [last.wall]).Pairwise (· ≤ ·)) :
    ((PersistentQueue.givenBack codec h last).map QueuedRequest.requestId).Nodup ∧
      (∀ b ∈ PersistentQueue.givenBack codec h last, ∃ req wall,
        Recoverable h last req wall ∧ GivenBack last req wall b) ∧
      ∀ req wall, Recoverable h last req wall →
        ∃ b ∈ PersistentQueue.givenBack codec h last, GivenBack last req wall b := by
  have past : ∀ e ∈ h, ∀ w, e.wall? = some w → w ≤ last.wall := fun e he w hw =>
    (List.pairwise_append.mp clock).2.2 w (List.mem_filterMap.mpr ⟨e, he, hw⟩) last.wall (by simp)
  refine ⟨(PersistentQueue.keyed_after h).nodup_recoverQueued _ _ _ _, fun b hb => ?_,
    fun req wall may => ?_⟩
  · obtain ⟨id, row, found, back, rfl⟩ := PersistentQueue.mem_recoverQueued.mp hb
    obtain ⟨req, wall, pending, -, stored, rfl⟩ :=
      (PersistentQueue.found_iff distinct past back).mp found
    have sound := persistable req wall pending.mem
    have later := past _ pending.mem wall rfl
    obtain ⟨whole, left⟩ := (sound.comesBack_ofRequest later).mp back
    exact ⟨req, wall, ⟨pending, whole, stored, left⟩, sound.givenBack_rebuild later⟩
  · have sound := persistable req wall may.pending.mem
    have later := past _ may.pending.mem wall rfl
    have back := (sound.comesBack_ofRequest later).mpr ⟨may.whole, may.budget_left⟩
    have found : (PersistentQueue.after codec h).rows.get? req.requestId =
        some (.ofRequest codec req wall) :=
      (PersistentQueue.found_iff distinct past back).mpr ⟨req, wall, may.pending, rfl, may.stored, rfl⟩
    exact ⟨_, PersistentQueue.mem_recoverQueued.mpr ⟨_, _, found, back, rfl⟩,
      sound.givenBack_rebuild later⟩

end RoundTrip

/-! ### A class that was renamed -/

/-- The serialisation of the empty payload. -/
def emptyPayloadCodec : Codec where
  dumps _ := "{}"
  loads text := if text = "{}" then some {} else none

/-- A request for the class `tier3`, with a minute to go. -/
def tier3Request : QueuedRequest where
  requestId := "r1"
  agentId := "agent"
  endpoint := "tier3"
  priority := .p3Ingestion
  band := .background
  timeoutDeadline := 65
  enqueuedAt := 5
  timeoutS := 60

/-- A catalog in which `tier3` is an alias of the class `deep`. -/
def renamedFleet : ProxyConfig where
  endpoints := ⟨[("deep", { endpointClass := "deep", maxSlots := 1 })], by decide⟩
  stored_under_class := by simp
  class_ne_empty := by simp
  roleToClass := ⟨[("tier3", "deep"), ("deep", "deep")], by decide⟩

/-- The request is persisted, and the service restarts ten seconds later. -/
def tier3History : List StoreEvent := [.enqueue tier3Request 100, .restart ⟨renamedFleet, 110, 2⟩]

theorem tier3_persistable (req : QueuedRequest) (wall : ℚ) (mem : .enqueue req wall ∈ tier3History) :
    Persistable emptyPayloadCodec req wall := by
  simp only [tier3History, List.mem_cons, List.not_mem_nil, or_false, reduceCtorEq] at mem
  obtain ⟨rfl, rfl⟩ := StoreEvent.enqueue.inj mem
  exact ⟨by decide, by decide, rfl, by decide⟩

theorem recovery_round_trip_tier3 :
    ∃ b ∈ PersistentQueue.givenBack emptyPayloadCodec tier3History ⟨renamedFleet, 130, 7⟩,
      GivenBack ⟨renamedFleet, 130, 7⟩ tier3Request 100 b :=
  (recovery_round_trip emptyPayloadCodec tier3History ⟨renamedFleet, 130, 7⟩ tier3_persistable
    (by decide) (by decide)).2.2 tier3Request 100
    ⟨⟨[], [.restart ⟨renamedFleet, 110, 2⟩], rfl, by simp [StoreEvent.requestId?]⟩, rfl, rfl,
      by decide +kernel⟩

/-- A recovered request does not always come back on the endpoint it was persisted with. -/
theorem recovered_on_renamed_class :
    (∀ req wall, .enqueue req wall ∈ tier3History → Persistable emptyPayloadCodec req wall) ∧
      Recoverable tier3History ⟨renamedFleet, 130, 7⟩ tier3Request 100 ∧
      tier3Request.endpoint = "tier3" ∧
      (PersistentQueue.givenBack emptyPayloadCodec tier3History ⟨renamedFleet, 130, 7⟩).map
        (fun b => (b.requestId, b.endpoint)) = [(tier3Request.requestId, "deep")] := by
  refine ⟨tier3_persistable, ⟨⟨[], [.restart ⟨renamedFleet, 110, 2⟩], rfl, ?_⟩, rfl, rfl, ?_⟩, rfl, ?_⟩
  · simp [StoreEvent.requestId?]
  · decide +kernel
  · decide +kernel

end Roadstead
