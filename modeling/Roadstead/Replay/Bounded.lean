import Roadstead.Lib.Recency
import Roadstead.Lib.Run
import Roadstead.Replay.Cache

/-!
# The bounds of the replay store

`ReasoningReplayStore` keeps its bytes in a running total.  `put_eq` and `get_eq` say that, as long as
the total is right, the store does what `put` and `get` of a cache do, which add the bytes up.

`Books` is what every run keeps: the total is right, both caps hold, and the entries stand in the order
of their last use.  A lookup finds the reasoning that was put last under its key, but for one case: a
`put` that the store rejects leaves an entry that stands under the key and has not expired.
-/

namespace Roadstead.Replay

variable {κ : Type}

/-! ### Eviction -/

@[simp] theorem totalBytes_append (cache cache' : Cache κ) :
    totalBytes (cache ++ cache') = totalBytes cache + totalBytes cache' := by
  rw [totalBytes, List.map_append, List.sum_append]
  rfl

theorem totalBytes_perm {cache cache' : Cache κ} (perm : cache.Perm cache') :
    totalBytes cache = totalBytes cache' := (perm.map _).sum_eq

theorem totalBytes_singleton (e : κ × Entry) : totalBytes [e] = e.2.size := by
  simp [totalBytes]

/-- What is evicted stood at the front. -/
theorem evict_front (bounds : Bounds) (cache : Cache κ) :
    ∃ gone, cache = gone ++ (evict bounds cache).1 ∧ (evict bounds cache).2 = gone.map Prod.fst := by
  induction cache with
  | nil => exact ⟨[], rfl, rfl⟩
  | cons e cache ih =>
      rw [evict]
      split
      · obtain ⟨gone, front, keys⟩ := ih
        exact ⟨e :: gone, congrArg (e :: ·) front, congrArg (e.1 :: ·) keys⟩
      · exact ⟨[], rfl, rfl⟩

theorem evict_subset (bounds : Bounds) (cache : Cache κ) : (evict bounds cache).1 ⊆ cache := by
  obtain ⟨gone, front, -⟩ := evict_front bounds cache
  have tail := List.subset_append_right gone (evict bounds cache).1
  rwa [← front] at tail

/-- Eviction goes on until both caps hold. -/
theorem evict_fits (bounds : Bounds) (cache : Cache κ) :
    (evict bounds cache).1.length ≤ bounds.maxEntries ∧
      totalBytes (evict bounds cache).1 ≤ bounds.maxBytes := by
  induction cache with
  | nil => exact ⟨Nat.zero_le _, Nat.zero_le _⟩
  | cons e cache ih =>
      rw [evict]
      split
      · exact ih
      · next fits =>
          rw [not_or, not_lt, not_lt] at fits
          exact fits

/-- The last entry is not evicted if it is within the caps. -/
theorem evict_last {bounds : Bounds} (cache : Cache κ) {e : κ × Entry} (room : 1 ≤ bounds.maxEntries)
    (small : e.2.size ≤ bounds.maxBytes) : ∃ kept, (evict bounds (cache ++ [e])).1 = kept ++ [e] := by
  induction cache with
  | nil =>
      refine ⟨[], ?_⟩
      have fits : ¬(bounds.maxEntries < [e].length ∨ bounds.maxBytes < totalBytes [e]) := by
        rw [totalBytes_singleton, List.length_singleton]
        omega
      rw [List.nil_append, evict, if_neg fits]
  | cons first cache ih =>
      rw [List.cons_append, evict]
      split
      · exact ih
      · exact ⟨first :: cache, rfl⟩

variable [DecidableEq κ]

/-! ### The store -/

/-- `ReasoningReplayStore`, with its running total. -/
structure ReasoningReplayStore (κ : Type) where
  cache : Cache κ := []
  totalBytes : ℤ := 0

/-- What `put` does not store. -/
def Bounds.Rejects (bounds : Bounds) (reasoning : String) : Prop :=
  reasoning = "" ∨ bounds.maxBytes < reasoning.utf8ByteSize

instance (bounds : Bounds) (reasoning : String) : Decidable (bounds.Rejects reasoning) :=
  inferInstanceAs (Decidable (_ ∨ _))

namespace ReasoningReplayStore

/-- `_evict`: the store, and the keys that went. -/
def evict (bounds : Bounds) : Cache κ → ℤ → ReasoningReplayStore κ × List κ
  | [], total => (⟨[], total⟩, [])
  | e :: cache, total =>
      if bounds.maxEntries < (e :: cache).length ∨ (bounds.maxBytes : ℤ) < total then
        ((evict bounds cache (total - e.2.size)).1, e.1 :: (evict bounds cache (total - e.2.size)).2)
      else (⟨e :: cache, total⟩, [])

/-- An entry that stands under a key goes, and its bytes with it. -/
def pop (s : ReasoningReplayStore κ) (key : κ) : ReasoningReplayStore κ :=
  match find? s.cache key with
  | some existing => ⟨remove s.cache key, s.totalBytes - existing.size⟩
  | none => s

/-- `put`: the store, and the keys that were evicted. -/
def put (bounds : Bounds) (now : ℚ) (s : ReasoningReplayStore κ) (key : κ) (reasoning : String) :
    ReasoningReplayStore κ × List κ :=
  if bounds.Rejects reasoning then (s, [])
  else
    let size := reasoning.utf8ByteSize
    evict bounds ((s.pop key).cache ++ [(key, ⟨reasoning, now + bounds.ttl, size⟩)])
      ((s.pop key).totalBytes + size)

/-- `get`. -/
def get (now : ℚ) (s : ReasoningReplayStore κ) (key : κ) : ReasoningReplayStore κ × Option String :=
  match find? s.cache key with
  | none => (s, none)
  | some entry =>
      if entry.expiresAt < now then (s.pop key, none)
      else (⟨remove s.cache key ++ [(key, entry)], s.totalBytes⟩, some entry.reasoning)

/-- The keys of the entries, least recently used first. -/
def keys (s : ReasoningReplayStore κ) : List κ := s.cache.map Prod.fst

/-- The running total is the number of bytes that are stored, under distinct keys. -/
structure Exact (s : ReasoningReplayStore κ) : Prop where
  total : s.totalBytes = Replay.totalBytes s.cache
  nodup : s.keys.Nodup

end ReasoningReplayStore

/-! ### The running total -/

variable {cache : Cache κ}

section Total

theorem map_fst_remove (cache : Cache κ) (key : κ) :
    (remove cache key).map Prod.fst = (cache.map Prod.fst).filter fun a => decide (a ≠ key) := by
  rw [remove, List.filter_map]
  rfl

theorem mem_remove_iff {key : κ} {e : κ × Entry} :
    e ∈ remove cache key ↔ e ∈ cache ∧ e.1 ≠ key := by
  rw [remove, List.mem_filter, decide_eq_true_eq]

theorem mem_of_find? {key : κ} {entry : Entry} (found : find? cache key = some entry) :
    (key, entry) ∈ cache := by
  obtain ⟨e, there, rfl⟩ := Option.map_eq_some_iff.mp found
  have same : e.1 = key := by simpa using List.find?_some there
  rw [← same]
  exact List.mem_of_find?_eq_some there

theorem find?_of_mem (nodup : (cache.map Prod.fst).Nodup) {e : κ × Entry}
    (mem : e ∈ cache) : find? cache e.1 = some e.2 := by
  induction cache with
  | nil => cases mem
  | cons first cache ih =>
      rw [List.map_cons, List.nodup_cons] at nodup
      rw [find?, List.find?_cons]
      rcases List.mem_cons.mp mem with rfl | later
      · simp
      · have other : first.1 ≠ e.1 := by
          intro same
          exact nodup.1 (same ▸ List.mem_map_of_mem later)
        rw [decide_eq_false other]
        exact ih nodup.2 later

/-- A key that is not there is removed already. -/
theorem remove_of_absent {key : κ} (absent : key ∉ cache.map Prod.fst) :
    remove cache key = cache := by
  refine List.filter_eq_self.mpr fun e mem => decide_eq_true fun same => absent ?_
  rw [← same]
  exact List.mem_map_of_mem mem

theorem absent_of_find? (nodup : (cache.map Prod.fst).Nodup) {key : κ}
    (missing : find? cache key = none) : key ∉ cache.map Prod.fst := by
  rw [List.mem_map]
  rintro ⟨e, mem, rfl⟩
  rw [find?_of_mem nodup mem] at missing
  cases missing

/-- An entry that is moved to the end is all that moves. -/
theorem remove_append_perm (nodup : (cache.map Prod.fst).Nodup) {key : κ} {entry : Entry}
    (found : find? cache key = some entry) : (remove cache key ++ [(key, entry)]).Perm cache := by
  induction cache with
  | nil => cases found
  | cons first cache ih =>
      rw [List.map_cons, List.nodup_cons] at nodup
      rw [find?, List.find?_cons] at found
      by_cases here : first.1 = key
      · -- the key stands nowhere else
        rw [decide_eq_true here] at found
        obtain rfl : first.2 = entry := Option.some.inj found
        subst here
        rw [remove, List.filter_cons_of_neg (by simp), ← remove, remove_of_absent nodup.1]
        exact List.perm_append_singleton first cache
      · rw [decide_eq_false here] at found
        rw [remove, List.filter_cons_of_pos (by simpa using here), ← remove, List.cons_append]
        exact (ih nodup.2 found).cons first

end Total

/-! ### The cache -/

section Cache

variable {bounds : Bounds} {reasoning : String}

theorem put_of_rejected (rejected : bounds.Rejects reasoning) (now : ℚ) (cache : Cache κ) (key : κ) :
    put bounds now cache key reasoning = (cache, []) := if_pos rejected

theorem put_of_stored (stored : ¬bounds.Rejects reasoning) (now : ℚ) (cache : Cache κ) (key : κ) :
    put bounds now cache key reasoning = evict bounds
      (remove cache key ++ [(key, ⟨reasoning, now + bounds.ttl, reasoning.utf8ByteSize⟩)]) :=
  if_neg stored

end Cache

/-! ### The store against the cache -/

namespace ReasoningReplayStore

omit [DecidableEq κ] in
/-- `_evict` with the right total is the eviction of the cache. -/
theorem evict_eq (bounds : Bounds) (cache : Cache κ) :
    evict bounds cache (Replay.totalBytes cache) =
      (⟨(Replay.evict bounds cache).1, Replay.totalBytes (Replay.evict bounds cache).1⟩,
        (Replay.evict bounds cache).2) := by
  induction cache with
  | nil => rfl
  | cons e cache ih =>
      have rest : (Replay.totalBytes (e :: cache) : ℤ) - e.2.size = Replay.totalBytes cache := by
        simp [Replay.totalBytes]
      rw [evict, Replay.evict, rest, ih]
      by_cases full : bounds.maxEntries < (e :: cache).length ∨
          bounds.maxBytes < Replay.totalBytes (e :: cache)
      · rw [if_pos (full.imp_right Int.ofNat_lt.mpr), if_pos full]
      · rw [if_neg fun other => full (other.imp_right Int.ofNat_lt.mp), if_neg full]

variable {s : ReasoningReplayStore κ}

theorem Exact.pop_eq (exact : s.Exact) (key : κ) :
    s.pop key = ⟨remove s.cache key, Replay.totalBytes (remove s.cache key)⟩ := by
  rw [pop]
  cases found : find? s.cache key with
  | none =>
      rw [remove_of_absent (absent_of_find? exact.nodup found), ← exact.total]
  | some existing =>
      have split := totalBytes_perm (remove_append_perm exact.nodup found)
      rw [totalBytes_append, totalBytes_singleton] at split
      change (⟨_, s.totalBytes - existing.size⟩ : ReasoningReplayStore κ) = _
      rw [exact.total, ← split, Nat.cast_add, add_sub_cancel_right]

theorem Exact.put_eq (exact : s.Exact) (bounds : Bounds) (now : ℚ) (key : κ) (reasoning : String) :
    s.put bounds now key reasoning =
      (⟨(Replay.put bounds now s.cache key reasoning).1,
        Replay.totalBytes (Replay.put bounds now s.cache key reasoning).1⟩,
        (Replay.put bounds now s.cache key reasoning).2) := by
  by_cases rejected : bounds.Rejects reasoning
  · rw [put, if_pos rejected, Replay.put_of_rejected rejected, ← exact.total]
  · rw [put, if_neg rejected, Replay.put_of_stored rejected, ← evict_eq]
    simp only [exact.pop_eq, totalBytes_append, totalBytes_singleton, Nat.cast_add]

theorem Exact.get_eq (exact : s.Exact) (now : ℚ) (key : κ) :
    s.get now key =
      (⟨(Replay.get now s.cache key).1, Replay.totalBytes (Replay.get now s.cache key).1⟩,
        (Replay.get now s.cache key).2) := by
  rw [get, Replay.get]
  cases found : find? s.cache key with
  | none => simp only [← exact.total]
  | some entry =>
      simp only [exact.pop_eq]
      by_cases late : entry.expiresAt < now
      · simp only [if_pos late]
      · simp only [if_neg late, totalBytes_perm (remove_append_perm exact.nodup found), exact.total]

end ReasoningReplayStore

/-! ### What every run keeps -/

section Cache

variable {bounds : Bounds} {uses : List κ} {cache : Cache κ}

/-- What an entry that is stored is like. -/
def Bounds.Stored (bounds : Bounds) (entry : Entry) : Prop :=
  entry.size = entry.reasoning.utf8ByteSize ∧ ¬bounds.Rejects entry.reasoning

/-- Both caps hold, and the entries stand in the order of their last use. -/
structure Books (bounds : Bounds) (uses : List κ) (cache : Cache κ) : Prop where
  entries : cache.length ≤ bounds.maxEntries
  bytes : totalBytes cache ≤ bounds.maxBytes
  order : (cache.map Prod.fst).Sublist uses.dedup
  stored : ∀ e ∈ cache, bounds.Stored e.2

theorem Books.nodup (books : Books bounds uses cache) : (cache.map Prod.fst).Nodup :=
  uses.nodup_dedup.sublist books.order

theorem Books.remove (books : Books bounds uses cache) (key : κ) :
    Books bounds uses (remove cache key) where
  entries := (List.length_filter_le _ _).trans books.entries
  bytes := (List.filter_sublist.map _).sum_le_sum (fun _ _ => Nat.zero_le _) |>.trans books.bytes
  order := by
    rw [map_fst_remove]
    exact List.filter_sublist.trans books.order
  stored e mem := books.stored e (mem_remove_iff.mp mem).1

/-- A lookup that finds an entry moves it to the end. -/
theorem Books.touch (books : Books bounds uses cache) {key : κ} {entry : Entry}
    (found : find? cache key = some entry) :
    Books bounds (uses ++ [key]) (Replay.remove cache key ++ [(key, entry)]) where
  entries := (remove_append_perm books.nodup found).length_eq.trans_le books.entries
  bytes := (totalBytes_perm (remove_append_perm books.nodup found)).trans_le books.bytes
  order := by
    rw [List.map_append, map_fst_remove]
    exact Recency.use_sublist books.order key
  stored e mem := books.stored e ((remove_append_perm books.nodup found).subset mem)

/-- Storing evicts down to the caps. -/
theorem Books.put (books : Books bounds uses cache) {reasoning : String}
    (stored : ¬bounds.Rejects reasoning) (now : ℚ) (key : κ) :
    Books bounds (uses ++ [key]) (Replay.put bounds now cache key reasoning).1 := by
  rw [put_of_stored stored]
  obtain ⟨gone, front, -⟩ := evict_front bounds
    (Replay.remove cache key ++ [(key, ⟨reasoning, now + bounds.ttl, reasoning.utf8ByteSize⟩)])
  obtain ⟨entries, bytes⟩ := evict_fits bounds
    (Replay.remove cache key ++ [(key, ⟨reasoning, now + bounds.ttl, reasoning.utf8ByteSize⟩)])
  have tail := List.sublist_append_right gone (evict bounds
    (Replay.remove cache key ++ [(key, ⟨reasoning, now + bounds.ttl, reasoning.utf8ByteSize⟩)])).1
  rw [← front] at tail
  refine ⟨entries, bytes, ?_, fun e mem => ?_⟩
  · refine (tail.map Prod.fst).trans ?_
    rw [List.map_append, map_fst_remove]
    exact Recency.use_sublist books.order key
  · rcases List.mem_append.mp (tail.subset mem) with old | new
    · exact books.stored e (mem_remove_iff.mp old).1
    · rw [List.mem_singleton.mp new]
      exact ⟨rfl, stored⟩

/-- What is evicted has been used less recently than what stays. -/
theorem Books.evicted (books : Books bounds uses cache) (now : ℚ) (key : κ) (reasoning : String) :
    ∀ a ∈ (Replay.put bounds now cache key reasoning).2,
      ∀ b ∈ (Replay.put bounds now cache key reasoning).1.map Prod.fst,
        Recency.UsedBefore (uses ++ [key]) a b := by
  intro a gone b stays
  by_cases rejected : bounds.Rejects reasoning
  · rw [put_of_rejected rejected] at gone
    cases gone
  · rw [put_of_stored rejected] at gone stays
    obtain ⟨front, split, keys⟩ := evict_front bounds
      (Replay.remove cache key ++ [(key, ⟨reasoning, now + bounds.ttl, reasoning.utf8ByteSize⟩)])
    have order := Recency.use_sublist books.order key
    rw [← map_fst_remove] at order
    have names := congrArg (List.map Prod.fst) split
    rw [List.map_append, List.map_append] at names
    rw [keys] at gone
    exact Recency.usedBefore_of_append (names ▸ order) gone stays

/-- The entry that is stored stays. -/
theorem not_evicted (cache : Cache κ) (room : 1 ≤ bounds.maxEntries)
    {reasoning : String} (small : reasoning.utf8ByteSize ≤ bounds.maxBytes) (now : ℚ) (key : κ) :
    key ∉ (Replay.put bounds now cache key reasoning).2 := by
  intro gone
  by_cases rejected : bounds.Rejects reasoning
  · rw [put_of_rejected rejected] at gone
    cases gone
  · rw [put_of_stored rejected] at gone
    obtain ⟨front, split, keys⟩ := evict_front bounds
      (Replay.remove cache key ++ [(key, ⟨reasoning, now + bounds.ttl, reasoning.utf8ByteSize⟩)])
    obtain ⟨kept, last⟩ := evict_last (Replay.remove cache key)
      (e := (key, ⟨reasoning, now + bounds.ttl, reasoning.utf8ByteSize⟩)) room small
    rw [last, ← List.append_assoc] at split
    have rest := List.append_cancel_right split
    rw [keys, List.mem_map] at gone
    obtain ⟨e, mem, same⟩ := gone
    have there : e ∈ Replay.remove cache key := by
      rw [rest]
      exact List.mem_append_left _ mem
    exact (mem_remove_iff.mp there).2 same

end Cache

/-! ### Calls -/

/-- A call of the store, and when it is made. -/
inductive Call (κ : Type) where
  | put (now : ℚ) (key : κ) (reasoning : String)
  | get (now : ℚ) (key : κ)

namespace Call

def now : Call κ → ℚ
  | .put now _ _ => now
  | .get now _ => now

def step (bounds : Bounds) (s : ReasoningReplayStore κ) : Call κ → ReasoningReplayStore κ
  | .put now key reasoning => (s.put bounds now key reasoning).1
  | .get now key => (s.get now key).1

/-- The key that a call uses: a `put` that stores, or a `get` that finds. -/
def uses (bounds : Bounds) (s : ReasoningReplayStore κ) : Call κ → List κ
  | .put _ key reasoning => if bounds.Rejects reasoning then [] else [key]
  | .get now key => if (s.get now key).2 = none then [] else [key]

/-- What was put last under `key`, and when. -/
def putUnder (key : κ) (last : Option (String × ℚ)) : Call κ → Option (String × ℚ)
  | .put now key' reasoning => if key' = key then some (reasoning, now) else last
  | .get .. => last

/-- A `put` that the store rejects finds no entry under its key that a `get` would return. -/
def Replaces (bounds : Bounds) (s : ReasoningReplayStore κ) : Call κ → Prop
  | .put now key reasoning => bounds.Rejects reasoning → (s.get now key).2 = none
  | .get .. => True

instance (bounds : Bounds) (s : ReasoningReplayStore κ) : ∀ call, Decidable (Replaces bounds s call)
  | .put _ _ reasoning => inferInstanceAs (Decidable (bounds.Rejects reasoning → _))
  | .get .. => isTrue trivial

end Call

/-- The store after a list of calls. -/
def after (bounds : Bounds) (calls : List (Call κ)) : ReasoningReplayStore κ :=
  Runs.run (Call.step bounds) {} calls

/-- The keys that a list of calls uses, one after the other. -/
def used (bounds : Bounds) (calls : List (Call κ)) : List κ :=
  Runs.emitted (Call.step bounds) (Call.uses bounds) {} calls

/-- The reasoning that was put last under `key`, stored or not, and when. -/
def lastPut (calls : List (Call κ)) (key : κ) : Option (String × ℚ) :=
  Runs.run (Call.putUnder key) none calls

/-- What the store promises after a list of calls. -/
structure Lawful (bounds : Bounds) (calls : List (Call κ)) : Prop where
  /-- `_total_bytes` is the number of bytes of all entries. -/
  total : (after bounds calls).totalBytes =
    ((after bounds calls).cache.map fun e => (e.2.reasoning.utf8ByteSize : ℤ)).sum
  entries : (after bounds calls).cache.length ≤ bounds.maxEntries
  bytes : (after bounds calls).totalBytes ≤ bounds.maxBytes
  /-- A `get` returns what was put last under its key, and not beyond its lifetime. -/
  latest (now : ℚ) (clock : Runs.Clocked Call.now calls now) (key : κ) (reasoning : String) :
    ((after bounds calls).get now key).2 = some reasoning →
      ∃ t, lastPut calls key = some (reasoning, t) ∧ now ≤ t + bounds.ttl
  /-- A `put` evicts what has been used least recently. -/
  evicted (now : ℚ) (key : κ) (reasoning : String) :
    ∀ a ∈ ((after bounds calls).put bounds now key reasoning).2,
      ∀ b ∈ ((after bounds calls).put bounds now key reasoning).1.keys,
        Recency.UsedBefore (used bounds (calls ++ [.put now key reasoning])) a b
  /-- It does not evict what it stores. -/
  stays (now : ℚ) (key : κ) (reasoning : String) :
    1 ≤ bounds.maxEntries → reasoning.utf8ByteSize ≤ bounds.maxBytes →
      key ∉ ((after bounds calls).put bounds now key reasoning).2

/-! ### One call -/

section Step

variable {bounds : Bounds} {s : ReasoningReplayStore κ} {uses : List κ} {calls : List (Call κ)}

theorem get_eq_some {now : ℚ} {key : κ} {reasoning : String} :
    (get now cache key).2 = some reasoning ↔
      ∃ entry, find? cache key = some entry ∧ now ≤ entry.expiresAt ∧ entry.reasoning = reasoning := by
  rw [get]
  cases found : find? cache key with
  | none => simp
  | some entry =>
      simp only [Option.some.injEq, exists_eq_left']
      split
      · next late => simpa using fun early => absurd late (not_lt.mpr early)
      · next early => simpa using fun _ => not_lt.mp early

theorem get_subset (now : ℚ) (nodup : (cache.map Prod.fst).Nodup) (key : κ) :
    (get now cache key).1 ⊆ cache := by
  rw [get]
  cases found : find? cache key with
  | none => exact List.Subset.refl cache
  | some entry =>
      simp only
      split
      · exact List.filter_subset_self _
      · exact (remove_append_perm nodup found).subset

/-- The total is right, the caps hold, and the order is that of the last use. -/
structure Keeps (bounds : Bounds) (uses : List κ) (s : ReasoningReplayStore κ) : Prop where
  exact : s.Exact
  books : Books bounds uses s.cache

theorem Books.keeps (books : Books bounds uses cache) :
    Keeps bounds uses ⟨cache, totalBytes cache⟩ := ⟨⟨rfl, books.nodup⟩, books⟩

theorem Keeps.step (keeps : Keeps bounds uses s) (call : Call κ) :
    Keeps bounds (uses ++ call.uses bounds s) (call.step bounds s) := by
  cases call with
  | put now key reasoning =>
      rw [Call.step, keeps.exact.put_eq, Call.uses]
      by_cases rejected : bounds.Rejects reasoning
      · rw [if_pos rejected, List.append_nil, put_of_rejected rejected]
        exact keeps.books.keeps
      · rw [if_neg rejected]
        exact (keeps.books.put rejected now key).keeps
  | get now key =>
      rw [Call.step, Call.uses, keeps.exact.get_eq, get]
      cases found : find? s.cache key with
      | none =>
          rw [if_pos rfl, List.append_nil]
          exact keeps.books.keeps
      | some entry =>
          by_cases late : entry.expiresAt < now
          · simp only [if_pos late]
            rw [if_pos trivial, List.append_nil]
            exact (keeps.books.remove key).keeps
          · simp only [if_neg late]
            rw [if_neg (by simp)]
            exact (keeps.books.touch found).keeps

theorem lastPut_concat (calls : List (Call κ)) (call : Call κ) (key : κ) :
    lastPut (calls ++ [call]) key = call.putUnder key (lastPut calls key) := by
  rw [lastPut, Runs.run_append]
  rfl

/-- Every entry that has not expired is what was put last under its key. -/
def Current (bounds : Bounds) (calls : List (Call κ)) (cache : Cache κ) (now : ℚ) : Prop :=
  ∀ e ∈ cache, now ≤ e.2.expiresAt →
    ∃ t, lastPut calls e.1 = some (e.2.reasoning, t) ∧ e.2.expiresAt = t + bounds.ttl

theorem Current.step {call : Call κ} (current : Current bounds calls s.cache call.now)
    (keeps : Keeps bounds uses s) (replaces : call.Replaces bounds s) :
    Current bounds (calls ++ [call]) (call.step bounds s).cache call.now := by
  intro e mem early
  rw [lastPut_concat]
  cases call with
  | put now key reasoning =>
      rw [Call.putUnder]
      rw [Call.step, keeps.exact.put_eq] at mem
      by_cases rejected : bounds.Rejects reasoning
      · rw [put_of_rejected rejected] at mem
        by_cases here : key = e.1
        · -- the entry that stands under the key would be returned
          have missing := replaces rejected
          rw [keeps.exact.get_eq, here] at missing
          have found := find?_of_mem keeps.books.nodup mem
          have returned := get_eq_some.mpr ⟨e.2, found, early, rfl⟩
          exact absurd (returned.symm.trans missing) (Option.some_ne_none _)
        · rw [if_neg here]
          exact current e mem early
      · rw [put_of_stored rejected] at mem
        rcases List.mem_append.mp (evict_subset bounds _ mem) with old | new
        · obtain ⟨stood, other⟩ := mem_remove_iff.mp old
          rw [if_neg (Ne.symm other)]
          exact current e stood early
        · obtain rfl := List.mem_singleton.mp new
          rw [if_pos rfl]
          exact ⟨now, rfl, rfl⟩
  | get now key =>
      rw [Call.step, keeps.exact.get_eq] at mem
      exact current e (get_subset now keeps.books.nodup key mem) early

end Step

/-! ### Runs -/

section Run

variable (bounds : Bounds)

theorem used_concat (calls : List (Call κ)) (call : Call κ) :
    used bounds (calls ++ [call]) = used bounds calls ++ call.uses bounds (after bounds calls) :=
  Runs.emitted_concat _ _ _ _

theorem after_concat (calls : List (Call κ)) (call : Call κ) :
    after bounds (calls ++ [call]) = call.step bounds (after bounds calls) :=
  Runs.run_append _ _ _ _

theorem keeps_after (calls : List (Call κ)) :
    Keeps bounds (used bounds calls) (after bounds calls) := by
  induction calls using List.reverseRecOn with
  | nil =>
      have empty : Books bounds ([] : List κ) [] :=
        ⟨Nat.zero_le _, Nat.zero_le _, List.Sublist.refl _, fun _ mem => absurd mem List.not_mem_nil⟩
      exact empty.keeps
  | append_singleton calls call ih =>
      rw [used_concat, after_concat]
      exact ih.step call

variable {bounds}

theorem current_after {calls : List (Call κ)} {now : ℚ} (clock : Runs.Clocked Call.now calls now)
    (replaces : Runs.Along (Call.step bounds) (Call.Replaces bounds) {} calls) :
    Current bounds calls (after bounds calls).cache now := by
  refine Runs.run_clocked (fun calls (s : ReasoningReplayStore κ) now =>
    Runs.Along (Call.step bounds) (Call.Replaces bounds) {} calls → Current bounds calls s.cache now)
    ?_ ?_ ?_ clock replaces
  · intro now _ e mem
    cases mem
  · intro calls s now now' current later along e mem early
    exact current along e mem (later.trans early)
  · intro calls call current along
    obtain ⟨before, last⟩ := Runs.along_append.mp along
    exact (current before).step (keeps_after bounds calls) last.1

/-- The order of use and the running total do not depend on what is put. -/
theorem lawful_of_latest {calls : List (Call κ)}
    (latest : ∀ now, Runs.Clocked Call.now calls now → ∀ key reasoning,
      ((after bounds calls).get now key).2 = some reasoning →
        ∃ t, lastPut calls key = some (reasoning, t) ∧ now ≤ t + bounds.ttl) :
    Lawful bounds calls := by
  have keeps := keeps_after bounds calls
  constructor
  case total =>
    rw [keeps.exact.total]
    refine (map_list_sum (Nat.castAddMonoidHom ℤ) _).trans ?_
    rw [List.map_map]
    refine congrArg List.sum (List.map_congr_left fun e mem => ?_)
    exact congrArg Nat.cast (keeps.books.stored e mem).1
  case entries => exact keeps.books.entries
  case bytes =>
    rw [keeps.exact.total]
    exact Int.ofNat_le.mpr keeps.books.bytes
  case latest => exact fun now clock key reasoning => latest now clock key reasoning
  case evicted =>
    intro now key reasoning a gone b kept
    have stored : ¬bounds.Rejects reasoning := by
      intro rejected
      rw [keeps.exact.put_eq, put_of_rejected rejected] at gone
      cases gone
    rw [used_concat, Call.uses, if_neg stored]
    rw [keeps.exact.put_eq] at gone
    rw [ReasoningReplayStore.keys, keeps.exact.put_eq] at kept
    exact keeps.books.evicted now key reasoning a gone b kept
  case stays =>
    intro now key reasoning room small
    rw [keeps.exact.put_eq]
    exact not_evicted _ room small now key

/-- A `put` that is rejected over an entry that stands makes the next `get` wrong. -/
theorem replaces_of_lawful {calls : List (Call κ)} {call : Call κ}
    (lawful : Lawful bounds (calls ++ [call])) (clock : Runs.Clocked Call.now calls call.now) :
    call.Replaces bounds (after bounds calls) := by
  cases call with
  | get now key => trivial
  | put now key reasoning =>
      intro rejected
      by_contra found
      obtain ⟨old, found⟩ := Option.ne_none_iff_exists'.mp found
      have keeps := keeps_after bounds calls
      have same : after bounds (calls ++ [.put now key reasoning]) = after bounds calls := by
        rw [after_concat, Call.step, ReasoningReplayStore.put, if_pos rejected]
      obtain ⟨t, last, -⟩ := lawful.latest now (Runs.clocked_concat.mpr ⟨clock, le_rfl⟩) key old
        (same ▸ found)
      rw [lastPut_concat, Call.putUnder, if_pos rfl] at last
      rw [keeps.exact.get_eq] at found
      obtain ⟨entry, there, -, rfl⟩ := get_eq_some.mp found
      -- what stands has not been rejected
      have stored := (keeps.books.stored _ (mem_of_find? there)).2
      simp only [Option.some.injEq, Prod.mk.injEq] at last
      exact stored (last.1 ▸ rejected)

/-- The store keeps its promise throughout a run exactly if no `put` that it rejects finds an entry
that still stands under its key. -/
theorem lawful_iff {calls : List (Call κ)} {now : ℚ} (clock : Runs.Clocked Call.now calls now) :
    (∀ before, before <+: calls → Lawful bounds before) ↔
      Runs.Along (Call.step bounds) (Call.Replaces bounds) {} calls := by
  constructor
  · intro lawful
    refine Runs.along_of_split fun before call rest split => ?_
    have front : before ++ [call] <+: calls := ⟨rest, by rw [split, ← List.append_cons]⟩
    rw [split] at clock
    exact replaces_of_lawful (lawful _ front) clock.split
  · rintro replaces before ⟨rest, rfl⟩
    refine lawful_of_latest fun now clock key reasoning found => ?_
    rw [(keeps_after bounds before).exact.get_eq] at found
    obtain ⟨entry, there, early, rfl⟩ := get_eq_some.mp found
    have current := current_after clock (Runs.along_append.mp replaces).1
    obtain ⟨t, last, lifetime⟩ := current _ (mem_of_find? there) early
    exact ⟨t, last, lifetime ▸ early⟩

theorem lawful_iff_reread :
    Lawful (κ := ℕ) ⟨2, 10, 60⟩ [.put 0 1 "so", .get 30 1, .put 60 2 "thus"] := by
  have clock : Runs.Clocked Call.now [Call.put 0 1 "so", .get 30 1, .put 60 2 "thus"] 60 := by
    decide
  exact (lawful_iff clock).mpr (by decide) _ (List.prefix_refl _)

end Run

/-- The second text is too long to be stored, and the first one stays. -/
theorem rejected_put_leaves_the_old :
    Runs.Clocked Call.now [Call.put 0 1 "so", .put 1 1 "much too long"] 2 ∧
      ((after (κ := ℕ) ⟨2, 10, 60⟩ [.put 0 1 "so", .put 1 1 "much too long"]).get 2 1).2 = some "so" ∧
      lastPut [Call.put 0 1 "so", .put 1 1 "much too long"] 1 = some ("much too long", 1) ∧
      ¬Lawful (κ := ℕ) ⟨2, 10, 60⟩ [.put 0 1 "so", .put 1 1 "much too long"] := by
  have clock : Runs.Clocked Call.now [Call.put 0 1 "so", .put 1 1 "much too long"] 2 := by decide
  have old : ((after (κ := ℕ) ⟨2, 10, 60⟩ [.put 0 1 "so", .put 1 1 "much too long"]).get 2 1).2 =
      some "so" := by decide +kernel
  have last : lastPut [Call.put 0 1 "so", .put 1 1 "much too long"] 1 = some ("much too long", 1) := by
    decide
  refine ⟨clock, old, last, fun lawful => ?_⟩
  obtain ⟨t, same, -⟩ := lawful.latest 2 clock 1 "so" old
  rw [last] at same
  simp at same

end Roadstead.Replay
