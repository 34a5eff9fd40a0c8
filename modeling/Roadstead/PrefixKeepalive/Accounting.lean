import Mathlib.Algebra.Order.Ring.Rat
import Roadstead.PrefixKeepalive

/-!
# What a tracked prefix has counted

`tokensSince` reads the count of a prefix off the history: the uncached tokens of the completions on its
endpoint after the last event that reset it.  `Sound` says that every prefix has that count, and that a
bucket lists the keys of its prefixes in the order of the last completion that refreshed them, the last
`prefix_keepalive_max_prefixes` of them and no others.  A step keeps it, and so does every run.
-/

namespace Roadstead.PrefixKeepalive

open PrefixKeepaliveTracker

variable {κ : Type} [DecidableEq κ]

/-! ### The history -/

section History

variable (settings : Settings κ)

/-- The tracker after a list of calls. -/
def after (events : List Event) : PrefixKeepaliveTracker κ :=
  Runs.run (PrefixKeepaliveTracker.step settings) {} events

/-- The tokens that a completion counts: none unless both counts are known. -/
def Completion.counted (c : Completion) : ℤ := max 0 (c.uncached?.getD 0)

/-- The tokens that a call counts on an endpoint. -/
def countedOn (epName : String) : Event → ℤ
  | .observeCompletion c => if c.epName = epName then c.counted else 0
  | _ => 0

/-- The key that a call refreshes on an endpoint. -/
def refreshedOn (epName : String) : Event → Option κ
  | .observeCompletion c => if c.epName = epName then matchedKey settings c else none
  | _ => none

/-- The keys that are refreshed on an endpoint, one after the other. -/
def refreshes (epName : String) (events : List Event) : List κ :=
  events.filterMap (refreshedOn settings epName)

/-- Whether a call resets the count of a prefix: a completion that refreshes or makes it, or a touch. -/
def resets (epName : String) (key : κ) (entry : ℕ) : Event → Bool
  | .observeCompletion c =>
      decide (c.epName = epName) && decide (matchedKey settings c = some key)
  | .recordDispatch touched => decide (touched = entry)
  | .recordResult .. => false

/-- The tokens that were counted on an endpoint since the count of a prefix was last reset. -/
def tokensSince (epName : String) (key : κ) (entry : ℕ) (events : List Event) : ℤ :=
  ((events.rtakeWhile fun e => !resets settings epName key entry e).map (countedOn epName)).sum

theorem tokensSince_concat (epName : String) (key : κ) (entry : ℕ) (events : List Event) (e : Event) :
    tokensSince settings epName key entry (events ++ [e]) =
      if resets settings epName key entry e then 0
      else tokensSince settings epName key entry events + countedOn epName e := by
  rw [tokensSince, List.rtakeWhile_concat]
  cases resets settings epName key entry e with
  | true => rfl
  | false =>
      rw [Bool.not_false, if_pos rfl, List.map_append, List.sum_append, if_neg Bool.false_ne_true]
      exact congrArg (_ + ·) (List.sum_singleton)

omit [DecidableEq κ] in
theorem refreshes_concat (epName : String) (events : List Event) (e : Event) :
    refreshes settings epName (events ++ [e]) =
      refreshes settings epName events ++ (refreshedOn settings epName e).toList := by
  rw [refreshes, List.filterMap_append, List.filterMap_cons, List.filterMap_nil]
  cases refreshedOn settings epName e <;> rfl

end History

/-- A call that is about one endpoint, and about a prefix that was made for it. -/
def Event.On (s : PrefixKeepaliveTracker κ) (epName : String) : Event → Prop
  | .observeCompletion c => c.epName = epName
  | .recordDispatch entry => ∃ o ∈ s.heap[entry]?, o.1 = epName
  | .recordResult name entry _ => name = epName ∧ ∀ i ∈ entry, ∃ o ∈ s.heap[i]?, o.1 = epName

/-- What the tracker promises after a list of calls. -/
structure Lawful (settings : Settings κ) (events : List Event) : Prop where
  /-- A prefix has counted the tokens since it was last reset. -/
  tokens (epName : String) (key : κ) (entry : ℕ) :
    ((after settings events).bucket epName).get? key = some entry →
      ∃ o ∈ (after settings events).heap[entry]?, o.1 = epName ∧ o.2.key = key ∧
        o.2.tokensSinceTouch = tokensSince settings epName key entry events
  room (epName : String) :
    (((after settings events).bucket epName).size : ℤ) ≤ (settings.policy epName).maxPrefixes
  /-- A prefix that is evicted was refreshed less recently than every other. -/
  evicted (e : Event) (epName : String) (gone key : κ) :
    gone ∈ ((after settings events).bucket epName).keys →
      gone ∉ ((after settings (events ++ [e])).bucket epName).keys → key ≠ gone →
      (key ∈ ((after settings events).bucket epName).keys ∨
        key ∈ ((after settings (events ++ [e])).bucket epName).keys) →
      Recency.UsedBefore (refreshes settings epName (events ++ [e])) gone key
  /-- A call about one endpoint changes nothing of another. -/
  frame (e : Event) (epName other : String) : e.On (after settings events) epName → other ≠ epName →
    (after settings (events ++ [e])).bucket other = (after settings events).bucket other ∧
      ∀ entry ∈ ((after settings events).bucket other).values,
        (after settings (events ++ [e])).heap[entry]? = (after settings events).heap[entry]?

/-! ### The loop over a bucket -/

variable {entry : ℕ}

section Advance

variable {uncached : ℤ} {refreshed : Option κ} {heap : List (String × TrackedPrefix κ)}

/-- Uncached tokens go by. -/
def seen (uncached : ℤ) (o : String × TrackedPrefix κ) : String × TrackedPrefix κ :=
  (o.1, { o.2 with tokensSinceTouch := o.2.tokensSinceTouch + uncached })

theorem advance_cons (e : κ × ℕ) (entries : List (κ × ℕ)) :
    advance uncached refreshed heap (e :: entries) = advance uncached refreshed
      (if refreshed = some e.1 then heap else heap.modify e.2 (seen uncached)) entries := rfl

theorem advance_of_forall {entries : List (κ × ℕ)}
    (spared : ∀ e ∈ entries, e.2 = entry → refreshed = some e.1) :
    (advance uncached refreshed heap entries)[entry]? = heap[entry]? := by
  induction entries generalizing heap with
  | nil => rfl
  | cons e entries ih =>
      rw [advance_cons, ih fun e' mem => spared e' (List.mem_cons_of_mem e mem)]
      split
      · rfl
      · next advanced =>
          exact List.getElem?_modify_ne _ heap fun same => advanced (spared e List.mem_cons_self same)

/-- A prefix that the loop comes to counts the tokens once. -/
theorem advance_of_mem {entries : List (κ × ℕ)} (nodup : (entries.map Prod.snd).Nodup) {e : κ × ℕ}
    (mem : e ∈ entries) (other : refreshed ≠ some e.1) :
    (advance uncached refreshed heap entries)[e.2]? = heap[e.2]?.map (seen uncached) := by
  induction entries generalizing heap with
  | nil => cases mem
  | cons first entries ih =>
      rw [List.map_cons, List.nodup_cons] at nodup
      rw [advance_cons]
      rcases List.mem_cons.mp mem with rfl | later
      · have once : ∀ e' ∈ entries, e'.2 = e.2 → refreshed = some e'.1 := by
          intro e' mem' same
          exact absurd (same ▸ List.mem_map_of_mem mem') nodup.1
        rw [advance_of_forall once, if_neg other]
        exact List.getElem?_modify_eq (seen uncached) e.2 heap
      · have apart : first.2 ≠ e.2 := by
          intro same
          exact nodup.1 (same ▸ List.mem_map_of_mem later)
        rw [ih nodup.2 later]
        split
        · rfl
        · rw [List.getElem?_modify_ne _ heap apart]

end Advance

/-! ### One completion -/

theorem get?_of_evict {bucket : Dict κ ℕ} {maxPrefixes : ℤ} {key : κ}
    (here : (evict bucket maxPrefixes).get? key = some entry) : bucket.get? key = some entry := by
  rw [evict] at here
  split at here
  · exact here
  · exact Dict.get?_of_popFirst here

section Completion

variable {settings : Settings κ} {c : Completion} {bucket : Dict κ ℕ}
  {heap : List (String × TrackedPrefix κ)}

/-- The entries of a bucket stand in the heap, made for its endpoint and under their keys. -/
def Stands (heap : List (String × TrackedPrefix κ)) (epName : String) (bucket : Dict κ ℕ) : Prop :=
  ∀ key entry, bucket.get? key = some entry →
    ∃ o, heap[entry]? = some o ∧ o.1 = epName ∧ o.2.key = key

theorem Stands.key_unique {epName : String} (stands : Stands heap epName bucket) {key key' : κ}
    (here : bucket.get? key = some entry) (here' : bucket.get? key' = some entry) :
    key = key' := by
  obtain ⟨o, there, -, rfl⟩ := stands key entry here
  obtain ⟨o', there', -, rfl⟩ := stands key' entry here'
  rw [there] at there'
  rw [Option.some.inj there']

theorem Stands.nodup_values {epName : String} (stands : Stands heap epName bucket) :
    (bucket.entries.map Prod.snd).Nodup := by
  refine List.Nodup.map_on ?_ (List.Nodup.of_map _ bucket.nodup)
  rintro ⟨key, entry⟩ mem ⟨key', entry'⟩ mem' (rfl : entry = entry')
  rw [stands.key_unique (Dict.mem_entries_iff.mp mem) (Dict.mem_entries_iff.mp mem')]

/-- The tokens of a completion go to an entry that it does not refresh. -/
theorem account_of_other {epName : String} (stands : Stands heap epName bucket) {key : κ}
    (here : bucket.get? key = some entry) (other : matchedKey settings c ≠ some key) :
    (account settings c bucket heap)[entry]? = heap[entry]?.map (seen c.counted) := by
  have advanced (uncached : ℤ) :
      (advance uncached (matchedKey settings c) heap bucket.entries)[entry]? =
        heap[entry]?.map (seen uncached) :=
    advance_of_mem stands.nodup_values (Dict.mem_entries_iff.mpr here) other
  have still : heap[entry]? = heap[entry]?.map (seen 0) := by
    cases heap[entry]? <;> simp [seen]
  rw [account, Completion.counted]
  cases c.uncached? with
  | none => exact still
  | some uncached =>
      simp only [Option.getD_some]
      split
      · next none_left => rw [max_eq_left none_left, ← still]
      · next some_left => rw [max_eq_right (le_of_not_ge some_left), advanced uncached]

/-- The tokens of a completion go nowhere else. -/
theorem account_of_spared
    (spared : ∀ key, bucket.get? key = some entry → matchedKey settings c = some key) :
    (account settings c bucket heap)[entry]? = heap[entry]? := by
  rw [account]
  cases c.uncached? with
  | none => rfl
  | some uncached =>
      simp only
      split
      · rfl
      · refine advance_of_forall fun e mem same => spared e.1 ?_
        rw [← same]
        exact Dict.mem_entries_iff.mp mem

variable (settings c)

omit [DecidableEq κ] in
theorem matchedKey_of_skeleton {skeleton : Skeleton} (matched : skeleton? settings c = some skeleton) :
    matchedKey settings c = some (settings.skeletonKey skeleton) := congrArg _ matched

omit [DecidableEq κ] in
theorem matchedKey_of_none (unmatched : skeleton? settings c = none) : matchedKey settings c = none :=
  congrArg _ unmatched

variable {settings c}

/-- A completion refreshes the entry of its key, and leaves the others where they were. -/
theorem capture_entry (stands : Stands heap c.epName bucket) {key : κ}
    (here : (capture settings c bucket heap).1.get? key = some entry) :
    ∃ o, (capture settings c bucket heap).2[entry]? = some o ∧ o.1 = c.epName ∧ o.2.key = key ∧
      (matchedKey settings c = some key → o.2.tokensSinceTouch = 0) ∧
      (matchedKey settings c ≠ some key → bucket.get? key = some entry ∧ heap[entry]? = some o) := by
  unfold capture at here ⊢
  cases matched : skeleton? settings c with
  | none =>
      simp only [matched] at here ⊢
      obtain ⟨o, there, made, named⟩ := stands key entry here
      refine ⟨o, there, made, named, fun same => ?_, fun _ => ⟨here, there⟩⟩
      rw [matchedKey_of_none settings c matched] at same
      cases same
  | some skeleton =>
      simp only [matched] at here ⊢
      rw [matchedKey_of_skeleton settings c matched]
      cases found : bucket.get? (settings.skeletonKey skeleton) with
      | some entry' =>
          simp only [found, Dict.get?_moveToEnd] at here ⊢
          obtain ⟨o, there, made, named⟩ := stands key entry here
          by_cases same : settings.skeletonKey skeleton = key
          · obtain rfl : entry' = entry := by
              rw [same, here] at found
              exact (Option.some.inj found).symm
            rw [List.getElem?_modify_eq, there]
            exact ⟨_, rfl, made, named, fun _ => rfl, fun other => absurd (congrArg some same) other⟩
          · have apart : entry' ≠ entry := by
              rintro rfl
              exact same (stands.key_unique found here)
            rw [List.getElem?_modify_ne _ _ apart]
            exact ⟨o, there, made, named, fun same' => absurd (Option.some.inj same') same,
              fun _ => ⟨here, there⟩⟩
      | none =>
          simp only [found, Dict.get?_moveToEnd] at here ⊢
          have set := get?_of_evict here
          by_cases same : settings.skeletonKey skeleton = key
          · subst same
            rw [Dict.get?_set_self, Option.some.injEq] at set
            subst set
            rw [List.getElem?_concat_length]
            exact ⟨_, rfl, rfl, rfl, fun _ => rfl, fun other => absurd rfl other⟩
          · rw [Dict.get?_set_of_ne _ (Ne.symm same)] at set
            obtain ⟨o, there, made, named⟩ := stands key entry set
            have old := (List.getElem?_eq_some_iff.mp there).1
            rw [List.getElem?_append_left old]
            exact ⟨o, there, made, named, fun same' => absurd (Option.some.inj same') same,
              fun _ => ⟨set, there⟩⟩

/-- Nothing that was made for another endpoint changes. -/
theorem capture_other (stands : Stands heap c.epName bucket) {o : String × TrackedPrefix κ}
    (there : heap[entry]? = some o) (other : o.1 ≠ c.epName) :
    (capture settings c bucket heap).2[entry]? = some o := by
  unfold capture
  cases skeleton? settings c with
  | none => exact there
  | some skeleton =>
      simp only
      cases found : bucket.get? (settings.skeletonKey skeleton) with
      | some entry' =>
          have apart : entry' ≠ entry := by
            rintro rfl
            obtain ⟨o', there', made, -⟩ := stands _ _ found
            rw [there] at there'
            exact other (Option.some.inj there' ▸ made)
          simp only
          rw [List.getElem?_modify_ne _ _ apart, there]
      | none =>
          have old := (List.getElem?_eq_some_iff.mp there).1
          simp only
          rw [List.getElem?_append_left old, there]

/-- A bucket lists its keys by the last completion that refreshed them. -/
theorem keys_capture {n : ℕ} (cap : (settings.policy c.epName).maxPrefixes = n + 1)
    (room : bucket.keys.length ≤ n + 1) :
    (capture settings c bucket heap).1.keys = match matchedKey settings c with
      | some key => (bucket.keys.filter (fun k => decide (k ≠ key)) ++ [key]).rtake (n + 1)
      | none => bucket.keys := by
  unfold capture
  cases matched : skeleton? settings c with
  | none => rw [matchedKey_of_none settings c matched]
  | some skeleton =>
      rw [matchedKey_of_skeleton settings c matched]
      simp only
      generalize settings.skeletonKey skeleton = key
      cases found : bucket.get? key with
      | some entry =>
          have there : key ∈ bucket.keys := Dict.mem_keys_iff.mpr ⟨entry, found⟩
          have fewer : (bucket.keys.filter fun k => decide (k ≠ key)).length < bucket.keys.length :=
            List.length_filter_lt_length_iff_exists.mpr ⟨key, there, by simp⟩
          have fits : (bucket.keys.filter (fun k => decide (k ≠ key)) ++ [key]).length - (n + 1) = 0 := by
            rw [List.length_append, List.length_singleton]
            omega
          rw [List.rtake, fits, List.drop_zero]
          exact Dict.keys_moveToEnd there
      | none =>
          have absent : key ∉ bucket.keys := Dict.get?_eq_none_iff.mp found
          have apart : ∀ k ∈ bucket.keys, k ≠ key := fun k mem same => absent (same ▸ mem)
          have all : bucket.keys.filter (fun k => decide (k ≠ key)) = bucket.keys :=
            List.filter_eq_self.mpr fun k mem => decide_eq_true (apart k mem)
          have added : (bucket.set key heap.length).keys = bucket.keys ++ [key] := by
            rw [Dict.keys, Dict.entries_set_of_not_mem absent, List.map_append]
            rfl
          have evicted : (evict (bucket.set key heap.length) (n + 1)).keys =
              bucket.keys.rtake n ++ [key] := by
            have pos : ¬(n + 1 : ℤ) ≤ 0 := by omega
            have size : (bucket.set key heap.length).size = (bucket.keys ++ [key]).length := by
              rw [← added, Dict.keys, List.length_map, Dict.size]
            rw [evict, if_neg pos, Dict.keys_popFirst, added, size, ← List.rtake_concat_succ]
            rfl
          have last : key ∈ (evict (bucket.set key heap.length) (n + 1)).keys := by
            rw [evicted]
            exact List.mem_append_right _ (List.mem_singleton_self key)
          have kept : (bucket.keys.rtake n).filter (fun k => decide (k ≠ key)) = bucket.keys.rtake n :=
            List.filter_eq_self.mpr fun k mem => decide_eq_true (apart k (List.mem_of_mem_drop mem))
          rw [cap, Dict.keys_moveToEnd last, evicted, all, List.rtake_concat_succ, List.filter_append,
            kept]
          simp

end Completion

/-! ### Runs -/

section Run

variable (settings : Settings κ)

/-- What every run keeps. -/
structure Sound (events : List Event) (s : PrefixKeepaliveTracker κ) : Prop where
  keys (epName : String) : (s.bucket epName).keys =
    (refreshes settings epName events).dedup.rtake (settings.policy epName).maxPrefixes.toNat
  stands (epName : String) : Stands s.heap epName (s.bucket epName)
  tokens (epName : String) (key : κ) (entry : ℕ) (o : String × TrackedPrefix κ) :
    (s.bucket epName).get? key = some entry → s.heap[entry]? = some o →
      o.2.tokensSinceTouch = tokensSince settings epName key entry events

variable {settings} {s : PrefixKeepaliveTracker κ} {events : List Event} {c : Completion}

theorem bucket_observe (enabled : (settings.policy c.epName).enabled = true) (epName : String) :
    (observeCompletion settings s c).bucket epName =
      if epName = c.epName then (capture settings c (s.bucket c.epName) s.heap).1
      else s.bucket epName := by
  rw [observeCompletion, enabled]
  simp only [Bool.not_true, Bool.false_eq_true, if_false, bucket, Dict.get?_set]
  split <;> rfl

theorem heap_observe (enabled : (settings.policy c.epName).enabled = true) :
    (observeCompletion settings s c).heap = account settings c
      (capture settings c (s.bucket c.epName) s.heap).1
      (capture settings c (s.bucket c.epName) s.heap).2 := by
  rw [observeCompletion, enabled]
  rfl

/-- A completion leaves every entry of another endpoint as it is. -/
theorem heap_observe_other (stands : ∀ epName, Stands s.heap epName (s.bucket epName))
    (enabled : (settings.policy c.epName).enabled = true) {o : String × TrackedPrefix κ}
    (there : s.heap[entry]? = some o) (other : o.1 ≠ c.epName) :
    (observeCompletion settings s c).heap[entry]? = some o := by
  have captured : (capture settings c (s.bucket c.epName) s.heap).2[entry]? = some o :=
    capture_other (stands c.epName) there other
  rw [heap_observe enabled, account_of_spared, captured]
  intro key here
  obtain ⟨o', there', made, -⟩ := capture_entry (stands c.epName) here
  rw [captured] at there'
  exact absurd (Option.some.inj there' ▸ made) other

theorem observe_entry (stands : ∀ epName, Stands s.heap epName (s.bucket epName))
    (enabled : (settings.policy c.epName).enabled = true) {key : κ}
    (here : ((observeCompletion settings s c).bucket c.epName).get? key = some entry) :
    ∃ o, (observeCompletion settings s c).heap[entry]? = some o ∧ o.1 = c.epName ∧ o.2.key = key ∧
      (matchedKey settings c = some key → o.2.tokensSinceTouch = 0) ∧
      (matchedKey settings c ≠ some key → ∃ o', (s.bucket c.epName).get? key = some entry ∧
        s.heap[entry]? = some o' ∧ o.2.tokensSinceTouch = o'.2.tokensSinceTouch + c.counted) := by
  rw [bucket_observe enabled, if_pos rfl] at here
  have captured : Stands (capture settings c (s.bucket c.epName) s.heap).2 c.epName
      (capture settings c (s.bucket c.epName) s.heap).1 := by
    intro key entry here
    obtain ⟨o, there, made, named, -⟩ := capture_entry (stands c.epName) here
    exact ⟨o, there, made, named⟩
  obtain ⟨o, there, made, named, refreshed, left⟩ := capture_entry (stands c.epName) here
  rw [heap_observe enabled]
  by_cases matched : matchedKey settings c = some key
  · refine ⟨o, ?_, made, named, refreshed, fun other => absurd matched other⟩
    rw [account_of_spared, there]
    intro key' here'
    rw [matched, captured.key_unique here here']
  · obtain ⟨before, stood⟩ := left matched
    refine ⟨seen c.counted o, ?_, made, named, fun same => absurd same matched, fun _ => ?_⟩
    · rw [account_of_other captured here matched, there, Option.map_some]
    · exact ⟨o, before, stood, rfl⟩

theorem Sound.observe (sound : Sound settings events s)
    (enabled : (settings.policy c.epName).enabled = true)
    (cap : 1 ≤ (settings.policy c.epName).maxPrefixes) :
    Sound settings (events ++ [.observeCompletion c]) (observeCompletion settings s c) where
  keys epName := by
    rw [bucket_observe enabled, refreshes_concat]
    by_cases here : epName = c.epName
    · subst here
      obtain ⟨n, capped⟩ := Int.le.dest cap
      rw [add_comm] at capped
      have some_room : (settings.policy c.epName).maxPrefixes.toNat = n + 1 := by omega
      have keys := sound.keys c.epName
      rw [some_room] at keys ⊢
      have room : (s.bucket c.epName).keys.length ≤ n + 1 := by
        rw [keys, Window.length_rtake]
        exact Nat.min_le_left _ _
      rw [if_pos rfl, keys_capture capped.symm room, refreshedOn, if_pos rfl]
      cases matchedKey settings c with
      | none =>
          rw [Option.toList_none, List.append_nil]
          exact keys
      | some key => exact Recency.use_eq_rtake keys key
    · rw [if_neg here, refreshedOn, if_neg (Ne.symm here), Option.toList_none, List.append_nil]
      exact sound.keys epName
  stands epName key entry here := by
    by_cases same : epName = c.epName
    · subst same
      obtain ⟨o, there, made, named, -⟩ := observe_entry sound.stands enabled here
      exact ⟨o, there, made, named⟩
    · rw [bucket_observe enabled, if_neg same] at here
      obtain ⟨o, there, made, named⟩ := sound.stands epName key entry here
      have kept := heap_observe_other sound.stands enabled there (made ▸ same)
      exact ⟨o, kept, made, named⟩
  tokens epName key entry o here there := by
    rw [tokensSince_concat]
    by_cases same : epName = c.epName
    · subst same
      obtain ⟨o', there', -, -, refreshed, left⟩ := observe_entry sound.stands enabled here
      obtain rfl := Option.some.inj (there.symm.trans there')
      by_cases matched : matchedKey settings c = some key
      · rw [resets, decide_eq_true rfl, decide_eq_true matched, refreshed matched]
        rfl
      · obtain ⟨old, before, stood, counted⟩ := left matched
        rw [resets, decide_eq_false matched, Bool.and_false, if_neg Bool.false_ne_true, countedOn,
          if_pos rfl, counted, sound.tokens _ key entry old before stood]
    · rw [bucket_observe enabled, if_neg same] at here
      obtain ⟨old, stood, made, -⟩ := sound.stands epName key entry here
      have kept := heap_observe_other sound.stands enabled stood (made ▸ same)
      obtain rfl := Option.some.inj (there.symm.trans kept)
      rw [resets, decide_eq_false (Ne.symm same), Bool.false_and, if_neg Bool.false_ne_true, countedOn,
        if_neg (Ne.symm same), add_zero]
      exact sound.tokens epName key entry o here stood

/-- A call that only writes to objects, and counts no tokens. -/
theorem Sound.write (sound : Sound settings events s) {e : Event} {s' : PrefixKeepaliveTracker κ}
    (f : ℕ → TrackedPrefix κ → TrackedPrefix κ) (buckets : ∀ epName, s'.bucket epName = s.bucket epName)
    (heap : ∀ i, s'.heap[i]? = s.heap[i]?.map fun o => (o.1, f i o.2))
    (named : ∀ i entry, (f i entry).key = entry.key)
    (quiet : ∀ epName, refreshedOn settings epName e = none ∧ countedOn epName e = 0)
    (count : ∀ epName key i entry, (f i entry).tokensSinceTouch =
      if resets settings epName key i e then 0 else entry.tokensSinceTouch) :
    Sound settings (events ++ [e]) s' where
  keys epName := by
    rw [buckets, refreshes_concat, (quiet epName).1, Option.toList_none, List.append_nil]
    exact sound.keys epName
  stands epName key entry here := by
    rw [buckets] at here
    obtain ⟨o, there, made, rfl⟩ := sound.stands epName key entry here
    exact ⟨(o.1, f entry o.2), by rw [heap, there, Option.map_some], made, named entry o.2⟩
  tokens epName key entry o here there := by
    rw [buckets] at here
    rw [heap, Option.map_eq_some_iff] at there
    obtain ⟨old, stood, rfl⟩ := there
    rw [tokensSince_concat, (quiet epName).2, add_zero, ← sound.tokens epName key entry old here stood]
    exact count epName key entry old.2

theorem Sound.step (sound : Sound settings events s) (e : Event)
    (enabled : ∀ epName, (settings.policy epName).enabled = true)
    (cap : ∀ epName, 1 ≤ (settings.policy epName).maxPrefixes) :
    Sound settings (events ++ [e]) (PrefixKeepaliveTracker.step settings s e) := by
  cases e with
  | observeCompletion c => exact sound.observe (enabled c.epName) (cap c.epName)
  | recordDispatch touched =>
      refine sound.write (fun i entry => if touched = i then
        { entry with touchInFlight := true, tokensSinceTouch := 0 } else entry)
        (fun _ => rfl) (fun i => ?_) (fun i entry => ?_) (fun _ => ⟨rfl, rfl⟩)
        (fun epName key i entry => ?_)
      · refine (List.getElem?_modify _ touched s.heap i).trans ?_
        refine congrArg (fun f => Option.map f s.heap[i]?) ?_
        funext o
        split <;> rfl
      · split <;> rfl
      · simp only [resets, decide_eq_true_eq]
        split <;> rfl
  | recordResult epName entry result =>
      refine sound.write (fun i prefix' => if entry = some i then
        { prefix' with touchInFlight := false } else prefix')
        (fun _ => rfl) (fun i => ?_) (fun i prefix' => ?_) (fun _ => ⟨rfl, rfl⟩)
        (fun epName key i prefix' => ?_)
      · cases entry with
        | none => simp [PrefixKeepaliveTracker.step, recordResult]
        | some touched =>
            refine (List.getElem?_modify _ touched s.heap i).trans ?_
            refine congrArg (fun f => Option.map f s.heap[i]?) ?_
            funext o
            simp only [Option.some.injEq]
            split <;> rfl
      · split <;> rfl
      · rw [resets, if_neg Bool.false_ne_true]
        split <;> rfl

theorem after_concat (events : List Event) (e : Event) :
    after settings (events ++ [e]) = PrefixKeepaliveTracker.step settings (after settings events) e :=
  Runs.run_append _ _ _ _

theorem sound_after (enabled : ∀ epName, (settings.policy epName).enabled = true)
    (cap : ∀ epName, 1 ≤ (settings.policy epName).maxPrefixes) (events : List Event) :
    Sound settings events (after settings events) := by
  induction events using List.reverseRecOn with
  | nil =>
      refine ⟨fun epName => ?_, fun epName key entry here => ?_, fun epName key entry o here => ?_⟩
      · exact List.drop_nil.symm
      · cases here
      · cases here
  | append_singleton events e ih =>
      rw [after_concat]
      exact ih.step e enabled cap

/-- An object that was made for another endpoint is not the one that a call is about. -/
theorem Stands.ne_of_other {epName other : String} {bucket : Dict κ ℕ}
    (stands : Stands s.heap other bucket) {i j : ℕ} (mem : i ∈ bucket.values)
    (here : ∃ o ∈ s.heap[j]?, o.1 = epName) (apart : other ≠ epName) : j ≠ i := by
  rintro rfl
  obtain ⟨⟨key, entry⟩, there, rfl⟩ := List.mem_map.mp mem
  obtain ⟨o, stood, made, -⟩ := stands key entry (Dict.mem_entries_iff.mp there)
  obtain ⟨o', stood', made'⟩ := here
  rw [Option.mem_def, stood] at stood'
  exact apart (made.symm.trans (Option.some.inj stood' ▸ made'))

theorem Sound.frame (sound : Sound settings events s)
    (enabled : ∀ epName, (settings.policy epName).enabled = true) (e : Event) {epName other : String}
    (about : e.On s epName) (apart : other ≠ epName) :
    (PrefixKeepaliveTracker.step settings s e).bucket other = s.bucket other ∧
      ∀ entry ∈ (s.bucket other).values,
        (PrefixKeepaliveTracker.step settings s e).heap[entry]? = s.heap[entry]? := by
  cases e with
  | observeCompletion c =>
      obtain rfl : c.epName = epName := about
      refine ⟨?_, fun entry mem => ?_⟩
      · exact (bucket_observe (enabled c.epName) other).trans (if_neg apart)
      · obtain ⟨⟨key, entry⟩, there, rfl⟩ := List.mem_map.mp mem
        obtain ⟨o, stood, made, -⟩ := sound.stands other key entry (Dict.mem_entries_iff.mp there)
        rw [stood]
        exact heap_observe_other sound.stands (enabled c.epName) stood (made ▸ apart)
  | recordDispatch touched =>
      refine ⟨rfl, fun entry mem => ?_⟩
      exact List.getElem?_modify_ne _ _ ((sound.stands other).ne_of_other mem about apart)
  | recordResult name touched result =>
      refine ⟨rfl, fun entry mem => ?_⟩
      cases touched with
      | none => rfl
      | some touched =>
          have here := about.2 touched rfl
          exact List.getElem?_modify_ne _ _ ((sound.stands other).ne_of_other mem here apart)

/-- With every policy enabled and bounded, the tracker keeps its promise after any calls. -/
theorem keepalive_lawful (enabled : ∀ epName, (settings.policy epName).enabled = true)
    (cap : ∀ epName, 1 ≤ (settings.policy epName).maxPrefixes) (events : List Event) :
    Lawful settings events := by
  have sound := sound_after enabled cap
  constructor
  case tokens =>
    intro epName key entry here
    obtain ⟨o, there, made, named⟩ := (sound events).stands epName key entry here
    exact ⟨o, there, made, named, (sound events).tokens epName key entry o here there⟩
  case room =>
    intro epName
    have few := congrArg List.length ((sound events).keys epName)
    rw [Window.length_rtake, Dict.keys, List.length_map] at few
    have := cap epName
    rw [Dict.size]
    omega
  case evicted =>
    intro e epName gone key stood left other there
    rw [(sound (events ++ [e])).keys, refreshes_concat] at left there
    rw [refreshes_concat]
    have before := (sound events).keys epName
    obtain ⟨n, capped⟩ := Int.le.dest (cap epName)
    have some_room : (settings.policy epName).maxPrefixes.toNat = n + 1 := by omega
    rw [some_room] at before left there
    cases refreshed : refreshedOn settings epName e with
    | none =>
        rw [refreshed, Option.toList_none, List.append_nil, ← before] at left
        exact absurd stood left
    | some k =>
        rw [refreshed] at left there
        exact Recency.usedBefore_of_evicted before stood left other there
  case frame =>
    intro e epName other about apart
    rw [after_concat]
    exact (sound events).frame enabled e about apart

theorem keepalive_lawful_one :
    Lawful (⟨fun callSite pattern => callSite == pattern, id,
        fun _ => { callSites := ["chat"], triggerTokens := 100, maxPrefixes := 1 }⟩ : Settings Skeleton)
      [.observeCompletion ⟨"tier3", "chat", .obj [("system", .str "Be brief.")], "ok", some 90, some 10, 0⟩,
        .observeCompletion ⟨"tier3", "batch", .null, "error", some 70, some 20, 1⟩,
        .recordDispatch 0,
        .observeCompletion ⟨"tier3", "chat", .obj [("system", .str "Be exact.")], "ok", some 80, none, 2⟩] :=
  keepalive_lawful (fun _ => rfl) (fun _ => le_refl (1 : ℤ)) _

/-- A touch is due for the prefixes that have seen `prefix_keepalive_trigger_tokens` go by. -/
theorem mem_dueForTouch_iff (enabled : ∀ epName, (settings.policy epName).enabled = true)
    (cap : ∀ epName, 1 ≤ (settings.policy epName).maxPrefixes) (events : List Event) (epName : String)
    (now : ℚ) (entry : ℕ) :
    entry ∈ (after settings events).dueForTouch epName (settings.policy epName) now ↔
      ∃ key o, ((after settings events).bucket epName).get? key = some entry ∧
        (after settings events).heap[entry]? = some o ∧ o.2.touchInFlight = false ∧
        (settings.policy epName).triggerTokens ≤ tokensSince settings epName key entry events ∧
        ((settings.policy epName).idleS ≤ 0 ∨
          now - o.2.lastRealSeen ≤ (settings.policy epName).idleS) := by
  have sound := sound_after enabled cap events
  have positive : ¬(settings.policy epName).triggerTokens ≤ 0 := by
    have := enabled epName
    simp only [Policy.enabled, Bool.and_eq_true, decide_eq_true_eq] at this
    omega
  rw [dueForTouch, if_neg positive, List.mem_filter]
  constructor
  · rintro ⟨mem, due⟩
    obtain ⟨⟨key, i⟩, there, rfl⟩ := List.mem_map.mp mem
    have here := Dict.mem_entries_iff.mp there
    obtain ⟨o, stood, -⟩ := sound.stands epName key i here
    have counted := sound.tokens epName key i o here stood
    refine ⟨key, o, here, stood, ?_⟩
    simpa [stood, counted, and_assoc, imp_iff_not_or] using due
  · rintro ⟨key, o, here, stood, quiet, enough, recent⟩
    refine ⟨List.mem_map.mpr ⟨(key, entry), Dict.mem_entries_iff.mpr here, rfl⟩, ?_⟩
    rw [← sound.tokens epName key entry o here stood] at enough
    simpa [stood, quiet, enough, imp_iff_not_or] using recent

/-- A prefix is due after a hundred and fifty tokens of others. -/
theorem mem_dueForTouch_iff_one :
    let settings : Settings Skeleton := ⟨fun callSite pattern => callSite == pattern, id,
      fun _ => { callSites := ["chat"], triggerTokens := 100, maxPrefixes := 1 }⟩
    let events : List Event :=
      [.observeCompletion ⟨"tier3", "chat", .obj [("system", .str "Be brief.")], "ok", some 90, some 10, 0⟩,
        .observeCompletion ⟨"tier3", "batch", .null, "error", some 170, some 20, 1⟩]
    ∃ key, ((after settings events).bucket "tier3").get? key = some 0 ∧
      100 ≤ tokensSince settings "tier3" key 0 events := by
  intro settings events
  have due : 0 ∈ (after settings events).dueForTouch "tier3" (settings.policy "tier3") 2 := by
    decide
  obtain ⟨key, o, here, -, -, enough, -⟩ :=
    (mem_dueForTouch_iff (fun _ => rfl) (fun _ => le_refl (1 : ℤ)) events "tier3" 2 0).mp due
  exact ⟨key, here, enough⟩

end Run

end Roadstead.PrefixKeepalive
