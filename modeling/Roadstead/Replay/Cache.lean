import Mathlib.Algebra.Order.Field.Rat
import Roadstead.Replay

/-!
# An entry of the replay store over a run

`Holds cache key text deadline` says that a lookup of `key` finds `text` until `deadline`.
Storing a turn establishes it; a lookup, a whole restore and the storing of other turns keep it,
as long as the key is not among those that were evicted and no turn with the key is stored with
other reasoning.  `holds_run` is that, over a list of events.
-/

namespace Roadstead.Replay

open Json (Fields)

section Cache

variable {κ : Type} [DecidableEq κ]

/-! ### Lookups -/

theorem find?_remove_self (cache : Cache κ) (key : κ) : find? (remove cache key) key = none := by
  rw [find?, Option.map_eq_none_iff, List.find?_eq_none]
  intro e mem
  simpa [remove] using (List.mem_filter.mp mem).2

theorem find?_remove_of_ne (cache : Cache κ) {key key' : κ} (ne : key' ≠ key) :
    find? (remove cache key) key' = find? cache key' := by
  rw [find?, find?, remove, List.find?_filter]
  congr 2
  funext e
  by_cases here : e.1 = key'
  · simp [here, ne]
  · simp [here]

theorem find?_append (cache : Cache κ) (key key' : κ) (entry : Entry) :
    find? (cache ++ [(key', entry)]) key =
      (find? cache key).or (if key' = key then some entry else none) := by
  rw [find?, find?, List.find?_append]
  cases cache.find? fun e => e.1 = key with
  | some e => rfl
  | none =>
      by_cases here : key' = key <;> simp [here]

/-- A key that is not evicted keeps its entry. -/
theorem find?_evict (bounds : Bounds) {cache : Cache κ} {key : κ} (kept : key ∉ (evict bounds cache).2) :
    find? (evict bounds cache).1 key = find? cache key := by
  induction cache with
  | nil => rfl
  | cons e cache ih =>
      rw [evict] at kept ⊢
      split at kept
      · rename_i full
        rw [if_pos full]
        rw [List.mem_cons, not_or] at kept
        rw [ih kept.2, find?, find?, List.find?_cons_of_neg]
        simpa using Ne.symm kept.1
      · rename_i fits
        rw [if_neg fits]

/-- A lookup of `key` finds `text` until `deadline`. -/
def Holds (cache : Cache κ) (key : κ) (text : String) (deadline : ℚ) : Prop :=
  ∃ entry, find? cache key = some entry ∧ entry.reasoning = text ∧ deadline ≤ entry.expiresAt

variable {cache : Cache κ} {key : κ} {text : String} {deadline now : ℚ}

theorem Holds.get (holds : Holds cache key text deadline) (early : now ≤ deadline) :
    (get now cache key).2 = some text := by
  obtain ⟨entry, there, rfl, fresh⟩ := holds
  rw [Replay.get, there]
  simp only
  rw [if_neg (not_lt.mpr (early.trans fresh))]

theorem Holds.after_get (holds : Holds cache key text deadline) (early : now ≤ deadline) (key' : κ) :
    Holds (Replay.get now cache key').1 key text deadline := by
  obtain ⟨entry, there, same, fresh⟩ := holds
  refine ⟨entry, ?_, same, fresh⟩
  rw [Replay.get]
  by_cases here : key' = key
  · subst here
    rw [there]
    simp only
    rw [if_neg (not_lt.mpr (early.trans fresh)), find?_append, find?_remove_self, if_pos rfl,
      Option.none_or]
  · cases find? cache key' with
    | none => exact there
    | some other =>
        simp only
        split
        · rw [find?_remove_of_ne cache (Ne.symm here), there]
        · rw [find?_append, find?_remove_of_ne cache (Ne.symm here), there, Option.some_or]

/-- Storing puts the reasoning under its key. -/
theorem holds_put (bounds : Bounds) (cache : Cache κ) (nonempty : text ≠ "")
    (fits : text.utf8ByteSize ≤ bounds.maxBytes) (kept : key ∉ (put bounds now cache key text).2) :
    Holds (put bounds now cache key text).1 key text (now + bounds.ttl) := by
  have small : ¬ (text = "" ∨ bounds.maxBytes < text.utf8ByteSize) := by
    rw [not_or]
    exact ⟨nonempty, not_lt.mpr fits⟩
  rw [put, if_neg small] at kept ⊢
  refine ⟨⟨text, now + bounds.ttl, text.utf8ByteSize⟩, ?_, rfl, le_refl _⟩
  rw [find?_evict bounds kept, find?_append, find?_remove_self, if_pos rfl, Option.none_or]

/-- Storing another turn, or the same reasoning again, keeps an entry that is not evicted. -/
theorem Holds.after_put (holds : Holds cache key text deadline) {bounds : Bounds} {key' : κ}
    {text' : String} (again : key' = key → text' = text) (later : deadline ≤ now + bounds.ttl)
    (kept : key ∉ (put bounds now cache key' text').2) :
    Holds (put bounds now cache key' text').1 key text deadline := by
  rw [put] at kept ⊢
  split at kept
  · rename_i rejected
    rw [if_pos rejected]
    exact holds
  · rename_i stored
    rw [if_neg stored]
    rw [Holds, find?_evict bounds kept, find?_append]
    by_cases here : key' = key
    · rw [here, find?_remove_self, if_pos rfl, Option.none_or]
      exact ⟨_, rfl, again here, later⟩
    · obtain ⟨entry, there, same, fresh⟩ := holds
      rw [find?_remove_of_ne cache (Ne.symm here), there, Option.some_or]
      exact ⟨entry, rfl, same, fresh⟩

/-! ### The two hooks -/

theorem Holds.after_restoreMessage (holds : Holds cache key text deadline) (early : now ≤ deadline)
    (digest : Digest κ) (system : Json) (before : List Json) (m : Json) :
    Holds (restoreMessage digest now system cache before m).1 key text deadline := by
  unfold restoreMessage
  split
  · split
    · exact holds.after_get early _
    · exact holds
  · exact holds

theorem Holds.after_restoreFrom (holds : Holds cache key text deadline) (early : now ≤ deadline)
    (digest : Digest κ) (system : Json) (before messages : List Json) :
    Holds (restoreFrom digest now system cache before messages).1 key text deadline := by
  induction messages generalizing cache before with
  | nil => exact holds
  | cons m messages ih => exact ih (holds.after_restoreMessage early digest system before m) _

/-- A message of the history is restored from a store that holds what the store held. -/
theorem restoreFrom_at (holds : Holds cache key text deadline) (early : now ≤ deadline)
    (digest : Digest κ) (system : Json) (before history rest : List Json) (m : Json) :
    ∃ cache', Holds cache' key text deadline ∧
      (restoreFrom digest now system cache before (history ++ m :: rest)).2[history.length]? =
        some (restoreMessage digest now system cache' (before ++ history) m).2 := by
  induction history generalizing cache before with
  | nil =>
      refine ⟨cache, holds, ?_⟩
      rw [List.append_nil]
      rfl
  | cons first history ih =>
      obtain ⟨cache', holds', found⟩ :=
        ih (holds.after_restoreMessage early digest system before first) (before ++ [first])
      refine ⟨cache', holds', ?_⟩
      rw [List.cons_append, restoreFrom, List.length_cons, List.getElem?_cons_succ, found,
        List.append_assoc, List.singleton_append]

end Cache

/-! ### Runs -/

/-- A reply as the store is given it, or as the client has it. -/
structure Reply where
  content : Json
  toolCalls : Json
  reasoning : Json

/-- A request that restores its history, or a completed turn that is stored. -/
inductive Event where
  | restore (gate : Gate) (now : ℚ) (system : Json) (messages : List Json)
  | store (gate : Gate) (now : ℚ) (system : Json) (messages : List Json) (reply : Reply)

def Event.now : Event → ℚ
  | .restore _ now _ _ => now
  | .store _ now _ _ _ => now

section Run

variable {κ : Type} [DecidableEq κ] (digest : Digest κ) (bounds : Bounds)

/-- The cache after an event, and the keys that it evicted. -/
def Event.step (cache : Cache κ) : Event → Cache κ × List κ
  | .restore gate now system messages => ((Replay.restore digest gate now system cache messages).1, [])
  | .store gate now system messages reply =>
      Replay.store digest bounds gate now system cache messages reply.content reply.toolCalls reply.reasoning

/-- The cache after a list of events, and all keys that they evicted. -/
def runEvents : Cache κ → List Event → Cache κ × List κ
  | cache, [] => (cache, [])
  | cache, event :: events =>
      let first := event.step digest bounds cache
      let rest := runEvents first.1 events
      (rest.1, first.2 ++ rest.2)

/-- What an event stores: the key of the turn, and its reasoning. -/
def Event.stored? : Event → Option (κ × String)
  | .restore .. => none
  | .store _ _ system messages reply =>
      reply.reasoning.asStr?.map fun text =>
        (replayKey digest messages system reply.content reply.toolCalls, text)

variable {cache : Cache κ} {key : κ} {text : String} {deadline : ℚ}

theorem holds_step (holds : Holds cache key text deadline) {event : Event}
    (early : event.now ≤ deadline) (later : deadline ≤ event.now + bounds.ttl)
    (again : ∀ text', event.stored? digest = some (key, text') → text' = text)
    (kept : key ∉ (event.step digest bounds cache).2) :
    Holds (event.step digest bounds cache).1 key text deadline := by
  cases event with
  | restore gate now system messages =>
      change Holds (Replay.restore digest gate now system cache messages).1 key text deadline
      unfold Replay.restore
      split
      · exact holds.after_restoreFrom early digest system [] messages
      · exact holds
  | store gate now system messages reply =>
      obtain ⟨content, toolCalls, reasoning⟩ := reply
      cases reasoning with
      | str text' =>
          rw [Event.step, Replay.store] at kept ⊢
          by_cases opened : (gate.open && decide (Text.strip text'.toList ≠ [])) = true
          · rw [if_pos opened] at kept ⊢
            refine holds.after_put (fun same => again text' ?_) later kept
            rw [Event.stored?, same]
            rfl
          · rw [if_neg opened]
            exact holds
      | _ => exact holds

/-- What was stored stays until its deadline, unless it is evicted or stored again with other
reasoning. -/
theorem holds_run {events : List Event} (holds : Holds cache key text deadline)
    (times : ∀ event ∈ events, event.now ≤ deadline ∧ deadline ≤ event.now + bounds.ttl)
    (again : ∀ event ∈ events, ∀ text', event.stored? digest = some (key, text') → text' = text)
    (kept : key ∉ (runEvents digest bounds cache events).2) :
    Holds (runEvents digest bounds cache events).1 key text deadline := by
  induction events generalizing cache with
  | nil => exact holds
  | cons event events ih =>
      rw [runEvents, List.mem_append, not_or] at kept
      have here := times event (List.mem_cons_self ..)
      have first := holds_step digest bounds holds here.1 here.2 (again event (List.mem_cons_self ..)) kept.1
      exact ih first (fun event mem => times event (List.mem_cons_of_mem _ mem))
        (fun event mem => again event (List.mem_cons_of_mem _ mem)) kept.2

end Run

end Roadstead.Replay
