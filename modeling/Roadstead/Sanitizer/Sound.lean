import Roadstead.Lib.Json.Plain
import Roadstead.Sanitizer

/-!
# What the sanitizer emits

Every call that a client reads off the sanitized stream has a name and complete arguments, no
slot is emitted twice, and the rest of the stream is as it was: `sanitizer_sound`.

One relation carries the induction.  `Emits slots slots' keys` says that between two states the
calls of `keys` were emitted: none of them was done before, all are done and named after, and
no slot lost its state.  It composes over the fragments of a choice, the choices of a chunk and
the chunks of a stream.
-/

namespace Roadstead.ToolCallStreamSanitizer

open Json (Fields)

/-! ### Emission -/

/-- The slot was emitted or dropped. -/
def Done (slots : Slots) (key : Json × Json) : Prop :=
  ∃ st, slots.get? key = some st ∧ st.done = true

/-- The slot was closed with a name. -/
def Ready (slots : Slots) (key : Json × Json) : Prop :=
  ∃ st, slots.get? key = some st ∧ st.done = true ∧ st.name.isSome = true

/-- No slot is lost, opened again or renamed. -/
def Grows (slots slots' : Slots) : Prop :=
  ∀ key st, slots.get? key = some st → ∃ st', slots'.get? key = some st' ∧
    (st.done = true → st'.done = true) ∧ (st.name.isSome = true → st'.name.isSome = true)

structure Emits (slots slots' : Slots) (keys : List (Json × Json)) : Prop where
  grows : Grows slots slots'
  fresh : ∀ key ∈ keys, ¬ Done slots key
  ready : ∀ key ∈ keys, Ready slots' key
  nodup : keys.Nodup

theorem Grows.refl (slots : Slots) : Grows slots slots :=
  fun _ st here => ⟨st, here, id, id⟩

theorem Grows.trans {s₁ s₂ s₃ : Slots} (first : Grows s₁ s₂) (second : Grows s₂ s₃) :
    Grows s₁ s₃ := by
  intro key st here
  obtain ⟨st₂, here₂, done₂, named₂⟩ := first key st here
  obtain ⟨st₃, here₃, done₃, named₃⟩ := second key st₂ here₂
  exact ⟨st₃, here₃, fun h => done₃ (done₂ h), fun h => named₃ (named₂ h)⟩

theorem Grows.done {slots slots' : Slots} (grows : Grows slots slots') {key : Json × Json}
    (done : Done slots key) : Done slots' key := by
  obtain ⟨st, here, isDone⟩ := done
  obtain ⟨st', here', done', -⟩ := grows key st here
  exact ⟨st', here', done' isDone⟩

theorem Grows.ready {slots slots' : Slots} (grows : Grows slots slots') {key : Json × Json}
    (ready : Ready slots key) : Ready slots' key := by
  obtain ⟨st, here, isDone, named⟩ := ready
  obtain ⟨st', here', done', named'⟩ := grows key st here
  exact ⟨st', here', done' isDone, named' named⟩

theorem Ready.done {slots : Slots} {key : Json × Json} (ready : Ready slots key) : Done slots key := by
  obtain ⟨st, here, isDone, -⟩ := ready
  exact ⟨st, here, isDone⟩

namespace Emits

variable {s₁ s₂ s₃ : Slots} {keys keys' : List (Json × Json)}

theorem none (grows : Grows s₁ s₂) : Emits s₁ s₂ [] :=
  ⟨grows, nofun, nofun, List.nodup_nil⟩

theorem trans (first : Emits s₁ s₂ keys) (second : Emits s₂ s₃ keys') :
    Emits s₁ s₃ (keys ++ keys') where
  grows := first.grows.trans second.grows
  fresh key mem := by
    rcases List.mem_append.mp mem with mem | mem
    · exact first.fresh key mem
    · exact fun done => second.fresh key mem (first.grows.done done)
  ready key mem := by
    rcases List.mem_append.mp mem with mem | mem
    · exact second.grows.ready (first.ready key mem)
    · exact second.ready key mem
  nodup := by
    refine List.nodup_append.mpr ⟨first.nodup, second.nodup, ?_⟩
    rintro key mem _ mem' rfl
    exact second.fresh key mem' (first.ready key mem).done

end Emits

/-- Writing a slot that continues what was there. -/
theorem grows_set {slots : Slots} {key : Json × Json} {st : Slot}
    (done : ((slots.get? key).getD {}).done = true → st.done = true)
    (named : ((slots.get? key).getD {}).name.isSome = true → st.name.isSome = true) :
    Grows slots (slots.set key st) := by
  intro key' st' here
  by_cases same : key' = key
  · subst same
    rw [here] at done named
    exact ⟨st, Dict.get?_set_self slots _ st, done, named⟩
  · exact ⟨st', by rw [Dict.get?_set_of_ne slots same, here], id, id⟩

theorem Slot.add_name {st : Slot} {tc : Fields} (named : st.name.isSome = true) :
    (st.add tc).name.isSome = true := by
  cases h : st.name with
  | none => simp [h] at named
  | some name => simp [add, nameAfter, h]

/-! ### Arguments -/

/-- The text is one JSON value and nothing else. -/
def CompleteValue (text : List Char) : Prop := ∃ v, Json.rawDecode text = some (v, [])

theorem completeValue?_complete {text args : List Char} (found : completeValue? text = some args) :
    CompleteValue args := by
  unfold completeValue? at found
  split at found
  · cases found
  · obtain ⟨⟨v, rest⟩, read, rfl⟩ := Option.map_eq_some_iff.mp found
    obtain ⟨front, rfl, alone⟩ := Json.rawDecode_alone read
    refine ⟨v, ?_⟩
    rw [List.length_append, Nat.add_sub_cancel, List.take_left]
    exact alone

/-- What a call has to be when it is emitted. -/
def CompleteCall (tc : Json) : Prop :=
  ∃ name args, (tc.get "function").get "name" = .str name ∧ name ≠ "" ∧
    (tc.get "function").get "arguments" = .str args ∧ CompleteValue args.toList

theorem callJson_complete {slots : Slots} {key : Json × Json} (ready : Ready slots key)
    {args : List Char} (complete : CompleteValue args) :
    CompleteCall (callJson ((slots.get? key).getD {}) key.2 args) := by
  obtain ⟨st, here, -, named⟩ := ready
  obtain ⟨name, is_name⟩ := Option.isSome_iff_exists.mp named
  have nonempty : name ≠ "" := by
    rintro rfl
    exact st.named is_name
  refine ⟨name, String.ofList args, ?_, nonempty, rfl, by rwa [String.toList_ofList]⟩
  rw [here, Option.getD_some]
  change (st.name.map Json.str).getD .null = .str name
  rw [is_name]
  rfl

/-! ### The three steps -/

/-- The keys of the calls to emit on a choice. -/
def Emit.keys (ci : Json) (emit : Emit) : List (Json × Json) := emit.map fun call => (ci, call.1)

theorem Emit.keys_append (ci : Json) (emit emit' : Emit) :
    Emit.keys ci (emit ++ emit') = Emit.keys ci emit ++ Emit.keys ci emit' := List.map_append

/-- The arguments of the calls to emit are complete. -/
def Emit.Complete (emit : Emit) : Prop := ∀ call ∈ emit, CompleteValue call.2

/-- A fragment whose slot has a key. -/
def HashableFragment (tc : Json) : Prop := ∀ fields, tc = .obj fields → hashable (Fields.get fields "index")

section Steps

variable {ci : Json} (hashableChoice : hashable ci = true)

include hashableChoice

theorem bufferOne_emits {tc : Json} (hashableIndex : HashableFragment tc) (state : Slots × Emit) :
    ∃ slots' new, bufferOne ci state tc = some (slots', state.2 ++ new) ∧
      Emits state.1 slots' (Emit.keys ci new) ∧ Emit.Complete new := by
  cases tc with
  | obj fields =>
      have key_ok : (hashable ci && hashable (Fields.get fields "index")) = true := by
        rw [hashableChoice, hashableIndex fields rfl]
        rfl
      simp only [bufferOne, key_ok, if_true]
      set key := (ci, Fields.get fields "index") with key_def
      set st := ((state.1.get? key).getD {}).add fields with st_def
      split
      · rename_i args found
        split at found
        · cases found
        · rename_i open_named
          simp only [Bool.or_eq_true, not_or, Bool.not_eq_true] at open_named
          obtain ⟨is_open, has_name⟩ := open_named
          refine ⟨_, [(key.2, args)], rfl, ?_, ?_⟩
          · have grows : Grows state.1 (state.1.set key st.close) :=
              grows_set (fun _ => rfl) Slot.add_name
            refine ⟨grows, ?_, ?_, List.nodup_singleton _⟩
            · rintro _ mem ⟨st', here, isDone⟩
              obtain rfl := List.mem_singleton.mp mem
              have same : st.done = st'.done := by
                rw [st_def, here]
                rfl
              rw [same, isDone] at is_open
              cases is_open
            · intro _ mem
              obtain rfl := List.mem_singleton.mp mem
              refine ⟨st.close, Dict.get?_set_self _ _ _, rfl, ?_⟩
              cases named : st.name with
              | none => simp [named] at has_name
              | some name => simp [Slot.close, named]
          · intro call mem
            obtain rfl := List.mem_singleton.mp mem
            exact completeValue?_complete found
      · have grows : Grows state.1 (state.1.set key st) := grows_set id Slot.add_name
        exact ⟨_, [], by rw [List.append_nil], Emits.none grows, nofun⟩
  | _ => exact ⟨state.1, [], by simp [bufferOne], Emits.none (Grows.refl _), nofun⟩

theorem buffer_emits {tcs : List Json} (hashableIndices : ∀ tc ∈ tcs, HashableFragment tc)
    (state : Slots × Emit) :
    ∃ new, (buffer ci tcs state).2 = some (state.2 ++ new) ∧
      Emits state.1 (buffer ci tcs state).1 (Emit.keys ci new) ∧ Emit.Complete new := by
  induction tcs generalizing state with
  | nil => exact ⟨[], by simp [buffer], Emits.none (Grows.refl _), nofun⟩
  | cons tc tcs ih =>
      obtain ⟨slots', first, one, emits, complete⟩ :=
        bufferOne_emits hashableChoice (hashableIndices tc List.mem_cons_self) state
      obtain ⟨rest, result, emits', complete'⟩ :=
        ih (fun tc mem => hashableIndices tc (List.mem_cons_of_mem _ mem)) (slots', state.2 ++ first)
      have unfolded : buffer ci (tc :: tcs) state = buffer ci tcs (slots', state.2 ++ first) := by
        rw [buffer, one]
      refine ⟨first ++ rest, ?_, ?_, ?_⟩
      · rw [unfolded, result, List.append_assoc]
      · rw [unfolded, Emit.keys_append]
        exact emits.trans emits'
      · intro call mem
        exact (List.mem_append.mp mem).elim (complete call) (complete' call)

end Steps

/-- The arguments of a call without any. -/
theorem completeValue_empty : CompleteValue "{}".toList := ⟨.obj [], by decide⟩

theorem finalize_emits (ci : Json) (slots : Slots) :
    Emits slots (finalize ci slots).1 (Emit.keys ci (finalize ci slots).2.1) ∧
      Emit.Complete (finalize ci slots).2.1 := by
  have closed : ∀ key st, slots.get? key = some st →
      (finalize ci slots).1.get? key = some (if key.1 = ci then st.close else st) := by
    intro key st here
    simp only [finalize]
    rw [Dict.get?_map, here]
    rfl
  -- the calls to emit are entries of pending slots with a name
  have emitted : ∀ entry : (Json × Json) × Slot,
      entry ∈ ((pendingOf ci slots).filter fun entry => entry.2.name.isSome).filter
        (fun entry => decide (Text.strip entry.2.buf = [])) →
      entry.1.1 = ci ∧ entry.2.done = false ∧ entry.2.name.isSome = true ∧
        slots.get? entry.1 = some entry.2 := by
    intro entry mem
    obtain ⟨mem, -⟩ := List.mem_filter.mp mem
    obtain ⟨mem, named⟩ := List.mem_filter.mp mem
    obtain ⟨mem, mine⟩ := List.mem_filter.mp mem
    simp only [Bool.and_eq_true, decide_eq_true_eq, Bool.not_eq_true'] at mine
    exact ⟨mine.1, mine.2, named, Dict.mem_entries_iff.mp mem⟩
  have keys_eq : Emit.keys ci (finalize ci slots).2.1 =
      (((pendingOf ci slots).filter fun entry => entry.2.name.isSome).filter
        fun entry => decide (Text.strip entry.2.buf = [])).map Prod.fst := by
    simp only [Emit.keys, finalize, List.map_map]
    refine List.map_congr_left fun entry mem => ?_
    obtain ⟨rfl, -⟩ := emitted entry mem
    rfl
  refine ⟨⟨?_, ?_, ?_, ?_⟩, ?_⟩
  · intro key st here
    refine ⟨_, closed key st here, ?_, ?_⟩ <;> split
    · exact fun _ => rfl
    · exact id
    · exact id
    · exact id
  · rw [keys_eq]
    rintro key mem ⟨st, here, isDone⟩
    obtain ⟨entry, entry_mem, rfl⟩ := List.mem_map.mp mem
    obtain ⟨-, is_open, -, there⟩ := emitted entry entry_mem
    rw [there] at here
    cases here
    rw [is_open] at isDone
    cases isDone
  · rw [keys_eq]
    intro key mem
    obtain ⟨entry, entry_mem, rfl⟩ := List.mem_map.mp mem
    obtain ⟨mine, -, named, there⟩ := emitted entry entry_mem
    refine ⟨entry.2.close, ?_, rfl, named⟩
    rw [closed _ _ there, if_pos mine]
  · rw [keys_eq]
    exact slots.nodup.sublist (((List.filter_sublist.trans List.filter_sublist).trans
      List.filter_sublist).map Prod.fst)
  · intro call mem
    obtain ⟨entry, -, rfl⟩ := List.mem_map.mp mem
    exact completeValue_empty

/-! ### A choice -/

/-- The calls of a choice: where each belongs, and the call. -/
def callsOf : Json → List ((Json × Json) × Json)
  | .obj ch => ((fragments? ch).getD []).map fun tc => ((choiceIndex ch, tc.get "index"), tc)
  | _ => []

/-- The calls of a chunk. -/
def toolCalls (chunk : Json) : List ((Json × Json) × Json) :=
  (((chunk.get "choices").asArr?).getD []).flatMap callsOf

def isInt : Json → Bool
  | .int _ => true
  | _ => false

/-- The index of the choice and those of its fragments are integers. -/
def integerChoice : Json → Bool
  | .obj ch => isInt (choiceIndex ch) && ((fragments? ch).getD []).all fun tc =>
      match tc with
      | .obj fields => isInt (Fields.get fields "index")
      | _ => true
  | _ => true

/-- All indices of a chunk are integers. -/
def integerIndices (chunk : Json) : Bool := (((chunk.get "choices").asArr?).getD []).all integerChoice

/-- A `finish_reason` that is the same, or relabelled. -/
def FinishKept (finish finish' : Json) : Prop :=
  finish' = finish ∨ (finish = .str "tool_calls" ∨ finish = .str "stop") ∧ finish' = .str "length"

/-- A delta that is the same but for its tool calls. -/
def DeltaKept (delta delta' : Json) : Prop :=
  delta' = delta ∨ ∃ fields fields', delta = .obj fields ∧ delta' = .obj fields' ∧
    Fields.erase fields' "tool_calls" = Fields.erase fields "tool_calls"

/-- A choice that is the same but for the tool calls and a relabelled `finish_reason`. -/
def ChoiceKept (ch ch' : Json) : Prop :=
  ch' = ch ∨ ∃ fields fields', ch = .obj fields ∧ ch' = .obj fields' ∧
    DeltaKept (Fields.get fields "delta") (Fields.get fields' "delta") ∧
    FinishKept (Fields.get fields "finish_reason") (Fields.get fields' "finish_reason") ∧
    Fields.erase (Fields.erase fields' "delta") "finish_reason" =
      Fields.erase (Fields.erase fields "delta") "finish_reason"

/-- A chunk that is the same but for the tool calls and relabelled `finish_reason`s. -/
def ChunkKept (chunk chunk' : Json) : Prop :=
  chunk' = chunk ∨ ∃ fields fields' chs chs', chunk = .obj fields ∧ chunk' = .obj fields' ∧
    Fields.erase fields' "choices" = Fields.erase fields "choices" ∧
    Fields.get fields "choices" = .arr chs ∧ Fields.get fields' "choices" = .arr chs' ∧
    List.Forall₂ ChoiceKept chs chs'

theorem hashable_of_isInt {idx : Json} (integer : isInt idx = true) : hashable idx = true := by
  cases idx <;> simp_all [isInt, hashable]

theorem integerChoice_obj {ch : Fields} (integer : integerChoice (.obj ch) = true) :
    hashable (choiceIndex ch) = true ∧ ∀ tc ∈ (fragments? ch).getD [], HashableFragment tc := by
  rw [integerChoice, Bool.and_eq_true, List.all_eq_true] at integer
  refine ⟨hashable_of_isInt integer.1, fun tc mem fields same => ?_⟩
  have := integer.2 tc mem
  rw [same] at this
  exact hashable_of_isInt this

theorem choiceIndex_set {ch : Fields} {key : String} (ne : "index" ≠ key) (value : Json) :
    choiceIndex (ch.set key value) = choiceIndex ch := by
  rw [choiceIndex, Fields.get?_set_of_ne ch ne, choiceIndex]

theorem relabel_spec (cut : Bool) (ch : Fields) :
    choiceIndex (relabel cut ch) = choiceIndex ch ∧
      (relabel cut ch).get "delta" = ch.get "delta" ∧
      Fields.erase (relabel cut ch) "finish_reason" = Fields.erase ch "finish_reason" := by
  unfold relabel
  split
  · exact ⟨choiceIndex_set (by decide) _, Fields.get_set_of_ne _ (by decide) _,
      Fields.erase_set_self _ _ _⟩
  · exact ⟨rfl, rfl, rfl⟩

theorem relabel_finish {cut : Bool} {ch : Fields}
    (allowed : cut = true → relabelled (ch.get "finish_reason") = true) :
    FinishKept (ch.get "finish_reason") ((relabel cut ch).get "finish_reason") := by
  unfold relabel
  split
  · rename_i isCut
    have label := allowed isCut
    simp only [relabelled, Bool.or_eq_true, decide_eq_true_eq] at label
    exact .inr ⟨label, Fields.get_set_self _ _ _⟩
  · exact .inl rfl

theorem finish_emits (ci reason : Json) (slots : Slots) :
    Emits slots (finish ci reason slots).1 (Emit.keys ci (finish ci reason slots).2.1) ∧
      Emit.Complete (finish ci reason slots).2.1 := by
  unfold finish
  split
  · exact ⟨Emits.none (Grows.refl slots), nofun⟩
  · exact finalize_emits ci slots

/-- The calls of a choice whose delta was rebuilt. -/
theorem callsOf_rebuild {slots : Slots} {ci : Json} {emit : Emit} {ch delta : Fields}
    (index : choiceIndex ch = ci) (rebuilt : Fields.get ch "delta" = .obj (rebuild slots ci emit delta).1) :
    callsOf (.obj ch) = emit.map fun call =>
      ((ci, call.1), callJson ((slots.get? (ci, call.1)).getD {}) call.1 call.2) := by
  rw [callsOf, index, fragments?, rebuilt, rebuild]
  split
  · rw [Json.get_obj, Fields.get_set_self]
    simp only [Json.asArr?, Option.getD_some, List.map_map, Function.comp_def]
    rfl
  · rename_i nothing
    have empty : emit = [] := by simpa using nothing
    subst empty
    split
    · simp [Fields.get, Json.asArr?]
    · rename_i absent
      have none_there : Fields.get? delta "tool_calls" = none := by simpa [Fields.has] using absent
      simp [Fields.get, none_there, Json.asArr?]

/-- A delta that the third step leaves alone has nothing to emit and had no calls. -/
theorem rebuild_unchanged {slots : Slots} {ci : Json} {emit : Emit} {delta : Fields}
    (unchanged : (rebuild slots ci emit delta).2 = false) : (rebuild slots ci emit delta).1 = delta := by
  unfold rebuild at unchanged ⊢
  split_ifs at unchanged ⊢
  rfl

theorem rebuild_kept (slots : Slots) (ci : Json) (emit : Emit) (delta : Fields) :
    Fields.erase (rebuild slots ci emit delta).1 "tool_calls" = Fields.erase delta "tool_calls" := by
  unfold rebuild
  split_ifs
  · exact Fields.erase_set_self _ _ _
  · exact Fields.erase_erase_self _ _
  · rfl

/-- The third step writes the calls to emit into a delta that is a mapping. -/
theorem callsOf_rebuildChoice (slots : Slots) {ci : Json} (emit : Emit) {ch delta : Fields}
    (index : choiceIndex ch = ci) (mapping : Fields.get ch "delta" = .obj delta) :
    callsOf (.obj (rebuildChoice slots ci emit ch).1) = emit.map fun call =>
      ((ci, call.1), callJson ((slots.get? (ci, call.1)).getD {}) call.1 call.2) := by
  simp only [rebuildChoice, mapping]
  split
  · exact callsOf_rebuild (by rw [choiceIndex_set (by decide), index]) (Fields.get_set_self _ _ _)
  · rename_i unchanged
    rw [Bool.not_eq_true] at unchanged
    exact callsOf_rebuild index (by rw [mapping, rebuild_unchanged unchanged])

/-- What the third step does to a choice. -/
theorem rebuildChoice_spec (slots : Slots) {ci : Json} (emit : Emit) {ch : Fields}
    (index : choiceIndex ch = ci) :
    (callsOf (.obj (rebuildChoice slots ci emit ch).1) = [] ∨
        callsOf (.obj (rebuildChoice slots ci emit ch).1) = emit.map fun call =>
          ((ci, call.1), callJson ((slots.get? (ci, call.1)).getD {}) call.1 call.2)) ∧
      DeltaKept (ch.get "delta") ((rebuildChoice slots ci emit ch).1.get "delta") ∧
      Fields.erase (rebuildChoice slots ci emit ch).1 "delta" = Fields.erase ch "delta" ∧
      ((rebuildChoice slots ci emit ch).2 = false → (rebuildChoice slots ci emit ch).1 = ch) := by
  cases mapping : ch.get "delta" with
  | obj delta =>
      have unfolded : rebuildChoice slots ci emit ch =
          (if (rebuild slots ci emit delta).2 then
              ch.set "delta" (.obj (rebuild slots ci emit delta).1) else ch,
            (rebuild slots ci emit delta).2) := by
        simp only [rebuildChoice, mapping]
      refine ⟨.inr (callsOf_rebuildChoice slots emit index mapping), ?_⟩
      rw [unfolded]
      by_cases changed : (rebuild slots ci emit delta).2 = true
      · simp only [changed, if_true]
        refine ⟨?_, Fields.erase_set_self _ _ _, nofun⟩
        rw [Fields.get_set_self]
        exact .inr ⟨_, _, rfl, rfl, rebuild_kept slots ci emit delta⟩
      · simp only [changed, if_false, mapping, Bool.false_eq_true]
        exact ⟨.inl rfl, trivial, fun _ => trivial⟩
  | _ =>
      have unfolded : rebuildChoice slots ci emit ch = (ch, false) := by
        simp only [rebuildChoice, mapping]
      rw [unfolded]
      refine ⟨.inl ?_, .inl mapping, rfl, fun _ => rfl⟩
      simp [callsOf, fragments?, mapping, Json.get, Json.get?, Json.asArr?]

theorem rebuildChoice_finish (slots : Slots) (ci : Json) (emit : Emit) (ch : Fields) :
    Fields.get (rebuildChoice slots ci emit ch).1 "finish_reason" = ch.get "finish_reason" := by
  unfold rebuildChoice
  split
  · dsimp only
    split
    · exact Fields.get_set_of_ne _ (by decide) _
    · rfl
  · rfl

/-- The three steps of a choice that did not raise. -/
theorem feedChoice_eq {slots slots₁ : Slots} {ch : Fields} {emit : Emit}
    (buffered : buffer (choiceIndex ch) ((fragments? ch).getD []) (slots, []) = (slots₁, some emit)) :
    feedChoice slots (.obj ch) =
      let final := finish (choiceIndex ch) (Fields.get ch "finish_reason") slots₁
      let cut := final.2.2 && relabelled (Fields.get ch "finish_reason")
      let rebuilt := rebuildChoice final.1 (choiceIndex ch) (emit ++ final.2.1) (relabel cut ch)
      (final.1, some (.obj rebuilt.1, cut || rebuilt.2)) := by
  simp only [feedChoice, buffered]

/-- One choice: what is emitted, and that the rest is as it was. -/
theorem feedChoice_emits (slots : Slots) {ch : Json} (integer : integerChoice ch = true) :
    ∃ ch' changed, (feedChoice slots ch).2 = some (ch', changed) ∧
      Emits slots (feedChoice slots ch).1 ((callsOf ch').map Prod.fst) ∧
      (∀ call ∈ callsOf ch', CompleteCall call.2) ∧ ChoiceKept ch ch' ∧
      (changed = false → ch' = ch) := by
  cases ch with
  | obj ch =>
      obtain ⟨hashableChoice, fragments⟩ := integerChoice_obj integer
      obtain ⟨first, buffered, emits, complete⟩ := buffer_emits hashableChoice fragments (slots, [])
      rw [List.nil_append] at buffered
      obtain ⟨emits', complete'⟩ := finish_emits (choiceIndex ch) (Fields.get ch "finish_reason")
        (buffer (choiceIndex ch) ((fragments? ch).getD []) (slots, [])).1
      set slots₁ := (buffer (choiceIndex ch) ((fragments? ch).getD []) (slots, [])).1 with slots₁_def
      have stepped : buffer (choiceIndex ch) ((fragments? ch).getD []) (slots, []) =
          (slots₁, some first) := Prod.ext rfl buffered
      set final := finish (choiceIndex ch) (Fields.get ch "finish_reason") slots₁ with final_def
      set cut := final.2.2 && relabelled (Fields.get ch "finish_reason") with cut_def
      set rebuilt := rebuildChoice final.1 (choiceIndex ch) (first ++ final.2.1) (relabel cut ch)
        with rebuilt_def
      have unfolded : feedChoice slots (.obj ch) =
          (final.1, some (.obj rebuilt.1, cut || rebuilt.2)) := feedChoice_eq stepped
      obtain ⟨index, delta, erased⟩ := relabel_spec cut ch
      obtain ⟨calls, deltaKept, others, unchanged⟩ :=
        rebuildChoice_spec final.1 (first ++ final.2.1) index
      rw [← rebuilt_def] at calls deltaKept others unchanged
      have whole := emits.trans emits'
      rw [← Emit.keys_append] at whole
      rw [unfolded]
      refine ⟨_, _, rfl, ?_, ?_, .inr ⟨ch, rebuilt.1, rfl, rfl, ?_, ?_, ?_⟩, ?_⟩
      · rcases calls with none_there | all
        · rw [none_there]
          exact Emits.none whole.grows
        · rw [all, List.map_map]
          exact whole
      · intro call mem
        rcases calls with none_there | all
        · rw [none_there] at mem
          cases mem
        · rw [all] at mem
          obtain ⟨emitted, there, rfl⟩ := List.mem_map.mp mem
          have ready := whole.ready (choiceIndex ch, emitted.1) (List.mem_map.mpr ⟨emitted, there, rfl⟩)
          exact callJson_complete ready ((List.mem_append.mp there).elim (complete _) (complete' _))
      · rwa [delta] at deltaKept
      · rw [rebuilt_def, rebuildChoice_finish]
        exact relabel_finish fun isCut => (Bool.and_eq_true_iff.mp isCut).2
      · rw [others, Fields.erase_comm, erased, Fields.erase_comm]
      · intro same
        rw [Bool.or_eq_false_iff] at same
        rw [unchanged same.2, relabel, same.1]
        rfl
  | _ => exact ⟨_, false, rfl, Emits.none (Grows.refl _), nofun, .inl rfl, fun _ => rfl⟩

/-! ### A chunk -/

theorem feedChoices_emits (slots : Slots) {chs : List Json} (integer : chs.all integerChoice = true) :
    ∃ chs' changed, (feedChoices slots chs).2 = some (chs', changed) ∧
      Emits slots (feedChoices slots chs).1 ((chs'.flatMap callsOf).map Prod.fst) ∧
      (∀ call ∈ chs'.flatMap callsOf, CompleteCall call.2) ∧ List.Forall₂ ChoiceKept chs chs' ∧
      (changed = false → chs' = chs) := by
  induction chs generalizing slots with
  | nil => exact ⟨[], false, rfl, Emits.none (Grows.refl _), nofun, .nil, fun _ => rfl⟩
  | cons ch chs ih =>
      rw [List.all_cons, Bool.and_eq_true] at integer
      obtain ⟨ch', changed, one, emits, complete, kept, unchanged⟩ := feedChoice_emits slots integer.1
      obtain ⟨chs', changed', others, emits', complete', kept', unchanged'⟩ :=
        ih (feedChoice slots ch).1 integer.2
      have stepped : feedChoice slots ch = ((feedChoice slots ch).1, some (ch', changed)) :=
        Prod.ext rfl one
      have unfolded : feedChoices slots (ch :: chs) =
          ((feedChoices (feedChoice slots ch).1 chs).1, some (ch' :: chs', changed || changed')) := by
        rw [feedChoices, stepped]
        simp only [others, Option.map_some]
      rw [unfolded]
      refine ⟨_, _, rfl, ?_, ?_, .cons kept kept', ?_⟩
      · rw [List.flatMap_cons, List.map_append]
        exact emits.trans emits'
      · intro call mem
        rw [List.flatMap_cons] at mem
        exact (List.mem_append.mp mem).elim (complete call) (complete' call)
      · intro same
        rw [Bool.or_eq_false_iff] at same
        rw [unchanged same.1, unchanged' same.2]

/-- What an output is to the chunk that was fed. -/
def OutputKept (data : List Char) (out : Output) : Prop :=
  ∃ chunk chunk', Json.loads false data = some chunk ∧ out.json? = some chunk' ∧ ChunkKept chunk chunk'

/-- The calls that a reader of the output gets. -/
def Output.calls (out : Output) : List ((Json × Json) × Json) := (out.json?.map toolCalls).getD []

/-- A chunk is JSON, writes no key with an escape, and its indices are integers. -/
def wellFormed (data : List Char) : Bool := (Json.loads true data).any integerIndices

theorem mem_of_get? {fields : Fields} {key : String} {v : Json} (found : fields.get? key = some v) :
    (key, v) ∈ fields := by
  obtain ⟨field, there, rfl⟩ := Option.map_eq_some_iff.mp found
  have name : field.1 = key := by simpa using List.find?_some there
  exact name ▸ List.mem_of_find?_eq_some there

theorem get?_of_get {fields : Fields} {key : String} (ne : fields.get key ≠ .null) :
    fields.get? key = some (fields.get key) := by
  rw [Fields.get] at ne ⊢
  cases found : fields.get? key with
  | none => simp [found] at ne
  | some v => rfl

/-- A chunk that has calls has the key. -/
theorem mentions_of_toolCalls {chunk : Json} {call : (Json × Json) × Json}
    (mem : call ∈ toolCalls chunk) : Json.Mentions "tool_calls" chunk := by
  obtain ⟨ch, chMem, callMem⟩ := List.mem_flatMap.mp mem
  cases chunk with
  | obj fields =>
      cases list : Fields.get fields "choices" with
      | arr chs =>
          rw [Json.get_obj, list] at chMem
          have choices := mem_of_get? (@get?_of_get fields "choices" (by rw [list]; nofun))
          rw [list] at choices
          refine .field choices (.item chMem ?_)
          cases ch with
          | obj ch =>
              cases mapping : Fields.get ch "delta" with
              | obj delta =>
                  have inCh := mem_of_get? (@get?_of_get ch "delta" (by rw [mapping]; nofun))
                  rw [mapping] at inCh
                  refine .field inCh ?_
                  have some_call : ∃ items, Fields.get delta "tool_calls" = .arr items := by
                    rw [callsOf, fragments?, mapping, Json.get_obj] at callMem
                    cases found : (Fields.get delta "tool_calls").asArr? with
                    | none => simp [found] at callMem
                    | some items => exact ⟨items, Json.asArr?_eq_some.mp found⟩
                  obtain ⟨items, found⟩ := some_call
                  exact .here (mem_of_get? (get?_of_get (by rw [found]; nofun)))
              | _ => simp [callsOf, fragments?, mapping, Json.get, Json.get?, Json.asArr?] at callMem
          | _ => cases callMem
      | _ => simp [list, Json.asArr?] at chMem
  | _ => simp [Json.get, Json.get?, Json.asArr?] at chMem

theorem quoted_tool_calls : Json.quoted "tool_calls" = toolCallsMark := by decide

/-- The fast path is taken by chunks without calls only. -/
theorem toolCalls_of_passes {slots : Slots} {data : List Char} {chunk : Json}
    (read : Json.loads true data = some chunk) (fast : passes slots data = true) :
    toolCalls chunk = [] := by
  rw [passes, Bool.and_eq_true, Bool.not_eq_true', decide_eq_false_iff_not] at fast
  rw [List.eq_nil_iff_forall_not_mem]
  intro call mem
  have inside := (Json.loads_plain read).2 "tool_calls" (mentions_of_toolCalls mem)
  rw [quoted_tool_calls] at inside
  exact fast.1 inside

/-- One chunk: what is emitted, and that the rest is as it was. -/
theorem feed_emits (slots : Slots) {data : List Char} (formed : wellFormed data = true) :
    Emits slots (feed slots data).1 ((feed slots data).2.calls.map Prod.fst) ∧
      (∀ call ∈ (feed slots data).2.calls, CompleteCall call.2) ∧ OutputKept data (feed slots data).2 := by
  obtain ⟨chunk, read, integer⟩ := (Option.any_eq_true _ _).mp formed
  have read' := (Json.loads_plain read).1
  have raw_kept : OutputKept data (.raw data) := ⟨chunk, chunk, read', read', .inl rfl⟩
  have raw_calls : (Output.raw data).calls = toolCalls chunk := by
    simp [Output.calls, Output.json?, read']
  have untouched : feed slots data = (slots, .raw data) → toolCalls chunk = [] →
      Emits slots (feed slots data).1 ((feed slots data).2.calls.map Prod.fst) ∧
        (∀ call ∈ (feed slots data).2.calls, CompleteCall call.2) ∧
        OutputKept data (feed slots data).2 := by
    intro fed no_calls
    rw [fed, raw_calls, no_calls]
    exact ⟨Emits.none (Grows.refl slots), nofun, raw_kept⟩
  by_cases fast : passes slots data = true
  · exact untouched (by rw [feed, if_pos fast]) (toolCalls_of_passes read fast)
  · -- a chunk without a list of choices has no calls
    cases chunk with
    | obj fields =>
        cases list : Fields.get fields "choices" with
        | arr chs =>
            rw [integerIndices, Json.get_obj, list] at integer
            obtain ⟨chs', changed, rebuilt, emits, complete, kept, unchanged⟩ :=
              feedChoices_emits slots integer
            have stepped : feedChoices slots chs = ((feedChoices slots chs).1, some (chs', changed)) :=
              Prod.ext rfl rebuilt
            cases changed with
            | true =>
                have fed : feed slots data = ((feedChoices slots chs).1,
                    .dumped (.obj (Fields.set fields "choices" (.arr chs')))) := by
                  rw [feed, if_neg fast, read']
                  simp only [list]
                  rw [stepped]
                have calls : (Output.dumped (.obj (Fields.set fields "choices" (.arr chs')))).calls =
                    chs'.flatMap callsOf := by
                  rw [Output.calls, Output.json?, Option.map_some, Option.getD_some, toolCalls,
                    Json.get_obj, Fields.get_set_self]
                  rfl
                rw [fed, calls]
                exact ⟨emits, complete, _, _, read', rfl, .inr ⟨fields, _, chs, chs', rfl, rfl,
                  Fields.erase_set_self _ _ _, list, Fields.get_set_self _ _ _, kept⟩⟩
            | false =>
                have fed : feed slots data = ((feedChoices slots chs).1, .raw data) := by
                  rw [feed, if_neg fast, read']
                  simp only [list]
                  rw [stepped]
                have calls : toolCalls (.obj fields) = chs'.flatMap callsOf := by
                  rw [unchanged rfl, toolCalls, Json.get_obj, list]
                rw [fed, raw_calls, calls]
                exact ⟨emits, complete, raw_kept⟩
        | _ =>
            refine untouched ?_ ?_
            · rw [feed, if_neg fast, read']
              simp only [list]
            · simp [toolCalls, list, Json.asArr?]
    | _ =>
        refine untouched ?_ ?_
        · rw [feed, if_neg fast, read']
        · simp [toolCalls, Json.get, Json.get?, Json.asArr?]

/-! ### A stream -/

/-- The calls that a reader of a sanitized stream gets. -/
def emittedCalls (outs : List Output) : List ((Json × Json) × Json) := outs.flatMap Output.calls

theorem feedAll_emits (slots : Slots) {chunks : List (List Char)}
    (formed : ∀ data ∈ chunks, wellFormed data = true) :
    (∃ slots', Emits slots slots' ((emittedCalls (feedAll slots chunks)).map Prod.fst)) ∧
      (∀ call ∈ emittedCalls (feedAll slots chunks), CompleteCall call.2) ∧
      List.Forall₂ OutputKept chunks (feedAll slots chunks) := by
  induction chunks generalizing slots with
  | nil => exact ⟨⟨slots, Emits.none (Grows.refl slots)⟩, nofun, .nil⟩
  | cons data chunks ih =>
      obtain ⟨emits, complete, kept⟩ := feed_emits slots (formed data List.mem_cons_self)
      obtain ⟨⟨slots', emits'⟩, complete', kept'⟩ :=
        ih (feed slots data).1 fun data mem => formed data (List.mem_cons_of_mem _ mem)
      rw [feedAll]
      refine ⟨⟨slots', ?_⟩, ?_, .cons kept kept'⟩
      · rw [emittedCalls, List.flatMap_cons, List.map_append]
        exact emits.trans emits'
      · intro call mem
        rw [emittedCalls, List.flatMap_cons] at mem
        exact (List.mem_append.mp mem).elim (complete call) (complete' call)

/-- In the whole sanitized stream every call has a name and one complete JSON value for
arguments, no slot is emitted twice, and each chunk is as it was but for its tool calls and a
relabelled `finish_reason`. -/
theorem sanitizer_sound (chunks : List (List Char)) (formed : ∀ data ∈ chunks, wellFormed data = true) :
    (∀ call ∈ emittedCalls (feedAll ∅ chunks), CompleteCall call.2) ∧
      ((emittedCalls (feedAll ∅ chunks)).map Prod.fst).Nodup ∧
      List.Forall₂ OutputKept chunks (feedAll ∅ chunks) := by
  obtain ⟨⟨_, emits⟩, complete, kept⟩ := feedAll_emits ∅ formed
  exact ⟨complete, emits.nodup, kept⟩

section Samples

/-- A call whose arguments come in two pieces with a bracket too many, beside a call without a
name; then the finish chunk. -/
def phantomStream : List (List Char) :=
  [r#"{"choices":[{"delta":{"tool_calls":[{"index":0,"function":"# ++
      r#"{"name":"ls","arguments":"["}},{"index":1}]}}]}"#,
    r#"{"choices":[{"delta":{"tool_calls":[{"index":0,"function":{"arguments":"]]"}}]}}]}"#,
    r#"{"choices":[{"delta":{},"finish_reason":"stop"}]}"#].map String.toList

/-- One call is emitted, with the arguments cut where the value ends. -/
theorem sanitizer_sound_phantom :
    (∀ call ∈ emittedCalls (feedAll ∅ phantomStream), CompleteCall call.2) ∧
      ((emittedCalls (feedAll ∅ phantomStream)).map Prod.fst).Nodup ∧
      List.Forall₂ OutputKept phantomStream (feedAll ∅ phantomStream) :=
  sanitizer_sound phantomStream (by decide +kernel)

example : ((emittedCalls (feedAll ∅ phantomStream)).map fun call =>
    (call.1, (call.2.get "function").get "arguments")) = [((.int 0, .int 0), .str "[]")] := by
  decide +kernel

end Samples

end Roadstead.ToolCallStreamSanitizer
