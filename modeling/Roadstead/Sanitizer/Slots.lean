import Roadstead.Lib.Json.Extend
import Roadstead.Sanitizer.Sound

/-!
# One slot of the sanitizer

The fragments of a choice come interleaved, and each is buffered in the slot of its own index.
What happens to one slot depends on its own fragments only: `Slot.run` is the sanitizer for a
single slot, and `buffer_run`, `finalize_run` say that the sanitizer is this for every index.

`Slot.Tracks` says what a slot is after its fragments.  The point is `Tracks.done_iff`: the slot
is asked after each fragment whether its buffer begins with a value, but the answers add up to
one question about the whole text, since a text that begins with a value keeps doing so.
-/

namespace Roadstead.ToolCallStreamSanitizer

open Json (Fields)

/-! ### The sanitizer for one slot -/

/-- The slot of a key; a key that was not seen has an empty one. -/
def slotAt (slots : Slots) (key : Json × Json) : Slot := (slots.get? key).getD {}

/-- The arguments that a slot has to emit. -/
def Slot.offer (st : Slot) : Option (List Char) :=
  if st.done || st.name.isNone then none else completeValue? st.buf

/-- One fragment: the slot, and the arguments that are emitted. -/
def Slot.step (st : Slot) (tc : Fields) : Slot × List (List Char) :=
  match (st.add tc).offer with
  | some args => ((st.add tc).close, [args])
  | none => (st.add tc, [])

/-- The fragments one after the other. -/
def Slot.run (st : Slot) : List Fields → Slot × List (List Char)
  | [] => (st, [])
  | tc :: tcs => (((st.step tc).1.run tcs).1, (st.step tc).2 ++ ((st.step tc).1.run tcs).2)

/-- A pending slot with a name. -/
def Slot.waits (st : Slot) : Bool := !st.done && st.name.isSome

/-- What the finish chunk emits. -/
def Slot.ending (st : Slot) : List (List Char) :=
  if st.waits && decide (Text.strip st.buf = []) then ["{}".toList] else []

/-- Whether the finish chunk drops the slot. -/
def Slot.cut (st : Slot) : Bool := st.waits && !decide (Text.strip st.buf = [])

theorem Slot.run_append (st : Slot) (tcs tcs' : List Fields) :
    st.run (tcs ++ tcs') =
      (((st.run tcs).1.run tcs').1, (st.run tcs).2 ++ ((st.run tcs).1.run tcs').2) := by
  induction tcs generalizing st with
  | nil => rfl
  | cons tc tcs ih => simp only [List.cons_append, run, ih, List.append_assoc]

/-! ### The sanitizer is this for every index -/

/-- The fragments of one index. -/
def own (idx : Json) (tcs : List Json) : List Fields :=
  (tcs.filterMap Json.asObj?).filter fun tc => decide (Fields.get tc "index" = idx)

/-- The arguments to emit for one index. -/
def Emit.argsAt (emit : Emit) (idx : Json) : List (List Char) :=
  (emit.filter fun call => decide (call.1 = idx)).map Prod.snd

theorem Emit.argsAt_append (emit emit' : Emit) (idx : Json) :
    Emit.argsAt (emit ++ emit') idx = Emit.argsAt emit idx ++ Emit.argsAt emit' idx := by
  rw [argsAt, List.filter_append, List.map_append, argsAt, argsAt]

theorem Emit.argsAt_map_self (idx : Json) (args : List (List Char)) :
    Emit.argsAt (args.map fun a => (idx, a)) idx = args := by
  simp [argsAt, List.filter_map, Function.comp_def]

theorem Emit.argsAt_map_of_ne {idx idx' : Json} (ne : idx ≠ idx') (args : List (List Char)) :
    Emit.argsAt (args.map fun a => (idx, a)) idx' = [] := by
  simp [argsAt, List.filter_map, Function.comp_def, ne]

theorem own_cons_self {tc : Fields} {idx : Json} (index : tc.get "index" = idx) (tcs : List Json) :
    own idx (.obj tc :: tcs) = tc :: own idx tcs := by
  simp [own, Json.asObj?, index]

theorem own_cons_of_ne {tc : Fields} {idx : Json} (index : tc.get "index" ≠ idx) (tcs : List Json) :
    own idx (.obj tc :: tcs) = own idx tcs := by
  simp [own, Json.asObj?, index]

theorem bufferOne_step {ci : Json} {tc : Fields} (hashableChoice : hashable ci = true)
    (hashableIndex : hashable (tc.get "index") = true) (state : Slots × Emit) :
    let stepped := (slotAt state.1 (ci, tc.get "index")).step tc
    bufferOne ci state (.obj tc) = some (state.1.set (ci, tc.get "index") stepped.1,
      state.2 ++ stepped.2.map fun a => (tc.get "index", a)) := by
  intro stepped
  set st := slotAt state.1 (ci, tc.get "index") with st_def
  have unfolded : bufferOne ci state (.obj tc) =
      match (st.add tc).offer with
      | some args => some (state.1.set (ci, tc.get "index") (st.add tc).close,
          state.2 ++ [(tc.get "index", args)])
      | none => some (state.1.set (ci, tc.get "index") (st.add tc), state.2) := by
    simp only [bufferOne, hashableChoice, hashableIndex, Bool.and_self, if_true]
    rfl
  rw [unfolded]
  cases offered : (st.add tc).offer with
  | none => simp only [stepped, ← st_def, Slot.step, offered, List.map_nil, List.append_nil]
  | some args => simp only [stepped, ← st_def, Slot.step, offered, List.map_cons, List.map_nil]

/-- What the first step does to the slot of every index. -/
theorem buffer_run {ci : Json} (hashableChoice : hashable ci = true) {tcs : List Json}
    (hashableIndices : ∀ tc ∈ tcs, HashableFragment tc) (state : Slots × Emit) :
    ∃ slots emit, buffer ci tcs state = (slots, some emit) ∧ ∀ idx,
      slotAt slots (ci, idx) = ((slotAt state.1 (ci, idx)).run (own idx tcs)).1 ∧
        Emit.argsAt emit idx =
          Emit.argsAt state.2 idx ++ ((slotAt state.1 (ci, idx)).run (own idx tcs)).2 := by
  induction tcs generalizing state with
  | nil =>
      refine ⟨state.1, state.2, rfl, fun idx => ⟨rfl, ?_⟩⟩
      exact (List.append_nil _).symm
  | cons tc tcs ih =>
      have rest : ∀ tc ∈ tcs, HashableFragment tc :=
        fun tc mem => hashableIndices tc (List.mem_cons_of_mem _ mem)
      by_cases object : ∃ fields, tc = .obj fields
      · obtain ⟨fields, rfl⟩ := object
        have index := hashableIndices _ List.mem_cons_self fields rfl
        have one := bufferOne_step hashableChoice index state
        set key := (ci, Fields.get fields "index") with key_def
        set stepped := (slotAt state.1 key).step fields with stepped_def
        obtain ⟨slots, emit, all, each⟩ := ih rest (state.1.set key stepped.1,
          state.2 ++ stepped.2.map fun a => (Fields.get fields "index", a))
        refine ⟨slots, emit, by rw [buffer, one]; exact all, fun idx => ?_⟩
        obtain ⟨slot, args⟩ := each idx
        rw [slot, args, Emit.argsAt_append]
        by_cases here : Fields.get fields "index" = idx
        · -- the fragment is for this slot
          subst here
          rw [slotAt, Dict.get?_set_self, own_cons_self rfl, Emit.argsAt_map_self,
            List.append_assoc]
          exact ⟨rfl, rfl⟩
        · have other : (ci, idx) ≠ key := fun same => here (Prod.ext_iff.mp same).2.symm
          rw [slotAt, Dict.get?_set_of_ne _ other, ← slotAt, own_cons_of_ne here,
            Emit.argsAt_map_of_ne here, List.append_nil]
          exact ⟨rfl, rfl⟩
      · have skipped : bufferOne ci state tc = some state := by
          cases tc <;> first | rfl | exact absurd ⟨_, rfl⟩ object
        have none_own : ∀ idx, own idx (tc :: tcs) = own idx tcs := by
          intro idx
          cases tc <;> first | rfl | exact absurd ⟨_, rfl⟩ object
        obtain ⟨slots, emit, all, each⟩ := ih rest state
        refine ⟨slots, emit, by rw [buffer, skipped]; exact all, fun idx => ?_⟩
        rw [none_own]
        exact each idx

theorem finalize_run (ci : Json) (slots : Slots) :
    (∀ idx, Emit.argsAt (finalize ci slots).2.1 idx = (slotAt slots (ci, idx)).ending) ∧
      ((finalize ci slots).2.2 = true ↔ ∃ idx, (slotAt slots (ci, idx)).cut = true) := by
  constructor
  · intro idx
    -- all filters together keep at most the entry of this key
    have entry : (((((pendingOf ci slots).filter fun entry => entry.2.name.isSome).filter
          fun entry => decide (Text.strip entry.2.buf = [])).filter
            fun entry => decide (entry.1.2 = idx))) =
        (slots.entries.filter fun entry => decide (entry.1 = (ci, idx))).filter
          fun entry => entry.2.waits && decide (Text.strip entry.2.buf = []) := by
      simp only [pendingOf, List.filter_filter]
      refine List.filter_congr fun entry _ => ?_
      obtain ⟨⟨c, i⟩, st⟩ := entry
      simp only [Slot.waits, Prod.mk.injEq, Bool.decide_and]
      cases decide (i = idx) <;> cases decide (c = ci) <;> cases st.done <;>
        cases st.name.isSome <;> cases decide (Text.strip st.buf = []) <;> rfl
    have args : Emit.argsAt (finalize ci slots).2.1 idx =
        ((slots.entries.filter fun entry => decide (entry.1 = (ci, idx))).filter
          fun entry => entry.2.waits && decide (Text.strip entry.2.buf = [])).map
            fun _ => "{}".toList := by
      rw [← entry]
      simp only [Emit.argsAt, finalize, List.filter_map, List.map_map, Function.comp_def]
    rw [args, Dict.entries_filter_key, slotAt, Slot.ending]
    cases slots.get? (ci, idx) with
    | none => rfl
    | some st =>
        simp only [Option.map_some, Option.toList_some, Option.getD_some]
        by_cases blank : (st.waits && decide (Text.strip st.buf = [])) = true
        · rw [List.filter_cons_of_pos (by exact blank), if_pos blank]
          rfl
        · rw [List.filter_cons_of_neg (by exact blank), if_neg blank]
          rfl
  · simp only [finalize, List.any_eq_true, List.mem_filter, pendingOf]
    constructor
    · rintro ⟨⟨⟨c, idx⟩, st⟩, ⟨⟨mem, mine⟩, named⟩, text⟩
      simp only [Bool.and_eq_true, decide_eq_true_eq] at mine
      obtain ⟨rfl, pending⟩ := mine
      refine ⟨idx, ?_⟩
      rw [slotAt, Dict.mem_entries_iff.mp mem, Option.getD_some, Slot.cut, Slot.waits, pending,
        named]
      exact text
    · rintro ⟨idx, isCut⟩
      cases there : slots.get? (ci, idx) with
      | none =>
          rw [slotAt, there] at isCut
          cases isCut
      | some st =>
          rw [slotAt, there, Option.getD_some, Slot.cut, Slot.waits, Bool.and_eq_true,
            Bool.and_eq_true] at isCut
          obtain ⟨⟨pending, named⟩, text⟩ := isCut
          refine ⟨((ci, idx), st), ⟨⟨Dict.mem_entries_iff.mpr there, ?_⟩, named⟩, text⟩
          rw [Bool.and_eq_true]
          exact ⟨decide_eq_true rfl, pending⟩

/-! ### One choice -/

/-- The arguments of the calls of one key. -/
def argsAt (key : Json × Json) (calls : List ((Json × Json) × Json)) : List Json :=
  (calls.filter fun call => decide (call.1 = key)).map fun call =>
    (call.2.get "function").get "arguments"

/-- Arguments as they are sent. -/
def sent (args : List (List Char)) : List Json := args.map fun a => .str (String.ofList a)

theorem argsAt_append (key : Json × Json) (calls calls' : List ((Json × Json) × Json)) :
    argsAt key (calls ++ calls') = argsAt key calls ++ argsAt key calls' := by
  rw [argsAt, List.filter_append, List.map_append, argsAt, argsAt]

/-- What the fragments of a choice do to the slot of an index. -/
def ran (slots : Slots) (ch : Fields) (idx : Json) : Slot × List (List Char) :=
  (slotAt slots (choiceIndex ch, idx)).run (own idx ((fragments? ch).getD []))

/-- Whether the delta of a choice is a mapping. -/
def hasDelta (ch : Fields) : Bool := (ch.get "delta").asObj?.isSome

theorem argsAt_calls (slots : Slots) (ci idx : Json) (emit : Emit) :
    argsAt (ci, idx) (emit.map fun call =>
      ((ci, call.1), callJson ((slots.get? (ci, call.1)).getD {}) call.1 call.2)) =
        sent (Emit.argsAt emit idx) := by
  have arguments : ∀ (st : Slot) (call : Json × List Char),
      ((callJson st call.1 call.2).get "function").get "arguments" = .str (String.ofList call.2) :=
    fun _ _ => rfl
  simp only [argsAt, Emit.argsAt, sent, List.filter_map, List.map_map, Function.comp_def, arguments,
    Prod.mk.injEq, true_and]

/-- A choice that did not raise: its slots after the first step, and what is written. -/
structure Fed (slots slots' : Slots) (ch ch' : Fields) : Prop where
  /-- Before the finish chunk. -/
  slot : Fields.get ch "finish_reason" = .null →
    ∀ idx, slotAt slots' (choiceIndex ch, idx) = (ran slots ch idx).1
  args : ∀ idx, argsAt (choiceIndex ch, idx) (callsOf (.obj ch')) =
    if Fields.get ch "finish_reason" = .null then sent (ran slots ch idx).2
    else if hasDelta ch then sent ((ran slots ch idx).2 ++ (ran slots ch idx).1.ending)
    else []
  finish : Fields.get ch' "finish_reason" = .str "length" ∧
      relabelled (Fields.get ch "finish_reason") = true ∧ (∃ idx, (ran slots ch idx).1.cut = true) ∨
    Fields.get ch' "finish_reason" = Fields.get ch "finish_reason" ∧
      ¬ (relabelled (Fields.get ch "finish_reason") = true ∧ ∃ idx, (ran slots ch idx).1.cut = true)

theorem feedChoice_run (slots : Slots) {ch : Fields}
    (hashableChoice : hashable (choiceIndex ch) = true)
    (hashableIndices : ∀ tc ∈ (fragments? ch).getD [], HashableFragment tc) :
    ∃ slots' ch' changed, feedChoice slots (.obj ch) = (slots', some (.obj ch', changed)) ∧
      Fed slots slots' ch ch' ∧ (changed = false → ch' = ch) := by
  obtain ⟨slots₁, emit, buffered, each⟩ := buffer_run hashableChoice hashableIndices (slots, [])
  have fed := feedChoice_eq buffered
  set reason := Fields.get ch "finish_reason" with reason_def
  set final := finish (choiceIndex ch) reason slots₁ with final_def
  set cut := final.2.2 && relabelled reason with cut_def
  obtain ⟨index, delta, erased⟩ := relabel_spec cut ch
  obtain ⟨calls, -, -, unchanged⟩ := rebuildChoice_spec final.1 (emit ++ final.2.1) index
  have slot : ∀ idx, slotAt slots₁ (choiceIndex ch, idx) = (ran slots ch idx).1 :=
    fun idx => (each idx).1
  have args : ∀ idx, Emit.argsAt emit idx = (ran slots ch idx).2 := fun idx => (each idx).2
  refine ⟨_, _, _, fed, ⟨?_, fun idx => ?_, ?_⟩, ?_⟩
  · intro unfinished idx
    rw [final_def, finish, if_pos unfinished]
    exact slot idx
  · -- what is emitted for the index, when there is a delta to write it into
    have emitted : Emit.argsAt (emit ++ final.2.1) idx =
        if reason = .null then (ran slots ch idx).2
        else (ran slots ch idx).2 ++ (ran slots ch idx).1.ending := by
      rw [Emit.argsAt_append, args idx, final_def, finish]
      split
      · exact List.append_nil _
      · rw [(finalize_run (choiceIndex ch) slots₁).1 idx, slot idx]
    cases mapping : Fields.get ch "delta" with
    | obj fields =>
        rw [callsOf_rebuildChoice _ _ index (delta.trans mapping), argsAt_calls, emitted,
          hasDelta, mapping]
        split
        · rfl
        · rfl
    | _ =>
        -- without a delta there were no fragments, and nothing is written
        have nothing : (fragments? ch).getD [] = [] := by
          rw [fragments?, mapping]
          rfl
        have none_ran : (ran slots ch idx).2 = [] := by
          rw [ran, nothing]
          rfl
        have unwritten : (rebuildChoice final.1 (choiceIndex ch) (emit ++ final.2.1)
            (relabel cut ch)).1 = relabel cut ch := by
          simp only [rebuildChoice, delta, mapping]
        have no_calls : callsOf (.obj (relabel cut ch)) = [] := by
          simp [callsOf, fragments?, delta, mapping, Json.get, Json.get?, Json.asArr?]
        rw [unwritten, no_calls, none_ran, hasDelta, mapping]
        split <;> rfl
  · have cut_iff : cut = true ↔
        relabelled reason = true ∧ ∃ idx, (ran slots ch idx).1.cut = true := by
      rw [cut_def, Bool.and_eq_true, and_comm, final_def, finish]
      refine and_congr_right fun label => ?_
      rw [if_neg]
      · rw [(finalize_run (choiceIndex ch) slots₁).2]
        simp only [slot]
      · rintro unfinished
        rw [unfinished] at label
        cases label
    rw [rebuildChoice_finish]
    by_cases isCut : cut = true
    · refine .inl ⟨?_, cut_iff.mp isCut⟩
      rw [relabel, if_pos isCut]
      exact Fields.get_set_self _ _ _
    · refine .inr ⟨?_, fun both => isCut (cut_iff.mpr both)⟩
      rw [relabel, if_neg isCut]
  · intro same
    rw [Bool.or_eq_false_iff] at same
    have uncut : cut = false := same.1
    rw [unchanged same.2, relabel, uncut]
    rfl

/-! ### A slot after its fragments -/

/-- The name that a fragment brings. -/
def fragmentName (tc : Fields) : Option String :=
  ((tc.get "function").get "name").asStr?.filter fun name => decide (name ≠ "")

/-- The arguments that a fragment brings. -/
def fragmentArgs (tc : Fields) : List Char :=
  (((tc.get "function").get "arguments").asStr?.getD "").toList

/-- The text of the value stays what it is while the text grows. -/
theorem completeValue?_append {front args : List Char} (found : completeValue? front = some args)
    (more : List Char) : ∃ args', completeValue? (front ++ more) = some args' ∧
      ∀ v r, Json.rawDecode (front ++ more) = some (v, r) → v.isClosed = true → args' = args := by
  unfold completeValue? at found ⊢
  split at found
  · cases found
  · rename_i text
    obtain ⟨⟨v, r⟩, read, rfl⟩ := Option.map_eq_some_iff.mp found
    have text' : ¬ Text.strip (front ++ more) = [] := by
      rw [Text.strip_eq_nil_iff] at text ⊢
      exact fun blank => text fun c mem => blank c (List.mem_append_left _ mem)
    obtain ⟨v', r', read', same_kind, same⟩ := Json.rawDecode_append read more
    rw [if_neg text', read']
    refine ⟨_, rfl, fun w t again closed => ?_⟩
    cases again
    rw [same_kind] at closed
    obtain ⟨-, rfl⟩ := same closed
    have length : (front ++ more).length - (r ++ more).length = front.length - r.length := by
      simp only [List.length_append]
      omega
    change List.take ((front ++ more).length - (r ++ more).length) (front ++ more) = _
    rw [length, List.take_append_of_le_length (by omega)]

namespace Slot

/-- What a slot and the arguments that it emitted are after its fragments. -/
structure Tracks (tcs : List Fields) (st : Slot) (emitted : List (List Char)) : Prop where
  name : st.name = tcs.findSome? fragmentName
  buf : st.buf = tcs.flatMap fragmentArgs
  /-- A slot that is not done emitted nothing, and has no complete arguments. -/
  waiting : st.done = false → emitted = [] ∧ (st.name.isSome = true → completeValue? st.buf = none)
  /-- A slot that is done has a name, and emitted what its text was complete with at some time. -/
  sent : st.done = true → st.name.isSome = true ∧
    ∃ args front more, emitted = [args] ∧ st.buf = front ++ more ∧ completeValue? front = some args

theorem nameAfter_eq (st : Slot) (tc : Fields) :
    st.nameAfter (tc.get "function") = st.name.or (fragmentName tc) := by
  unfold nameAfter
  cases named : st.name with
  | some name => simp
  | none =>
      cases fn : (tc.get "function").get "name" with
      | str name => by_cases empty : name = "" <;>
          simp [fragmentName, fn, Json.asStr?, Option.filter, empty]
      | _ => simp [fragmentName, fn, Json.asStr?]

theorem tracks_nil : Tracks [] {} [] where
  name := rfl
  buf := rfl
  waiting _ := ⟨rfl, nofun⟩
  sent := nofun

/-- One more fragment. -/
theorem Tracks.step {tcs : List Fields} {st : Slot} {emitted : List (List Char)}
    (tracks : Tracks tcs st emitted) (tc : Fields) :
    Tracks (tcs ++ [tc]) (st.step tc).1 (emitted ++ (st.step tc).2) := by
  have name : (st.add tc).name = (tcs ++ [tc]).findSome? fragmentName := by
    change st.nameAfter _ = _
    rw [nameAfter_eq, tracks.name, List.findSome?_append, List.findSome?_singleton]
  have buf : (st.add tc).buf = (tcs ++ [tc]).flatMap fragmentArgs := by
    change st.buf ++ _ = _
    rw [tracks.buf, List.flatMap_append, List.flatMap_singleton]
    rfl
  have grown : (st.add tc).buf = st.buf ++ fragmentArgs tc := rfl
  cases offered : (st.add tc).offer with
  | some args =>
      simp only [Slot.step, offered]
      unfold offer at offered
      split at offered
      · cases offered
      · rename_i ready
        simp only [Bool.or_eq_true, not_or, Bool.not_eq_true, Option.isNone_eq_false_iff] at ready
        obtain ⟨nothing, -⟩ := tracks.waiting ready.1
        refine ⟨name, buf, nofun, fun _ => ⟨ready.2, args, (st.add tc).buf, [], ?_, ?_, offered⟩⟩
        · rw [nothing, List.nil_append]
        · exact (List.append_nil _).symm
  | none =>
      simp only [Slot.step, offered, List.append_nil]
      refine ⟨name, buf, fun pending => ?_, fun isDone => ?_⟩
      · refine ⟨(tracks.waiting pending).1, fun named => ?_⟩
        unfold offer at offered
        rwa [if_neg (by simp [pending, Option.ne_none_iff_isSome, named])] at offered
      · -- later fragments are buffered and emit nothing
        obtain ⟨named, args, front, more, only, split, found⟩ := tracks.sent isDone
        refine ⟨add_name named, args, front, more ++ fragmentArgs tc, only, ?_, found⟩
        rw [grown, split, List.append_assoc]

theorem tracks_run (tcs : List Fields) :
    Tracks tcs (({} : Slot).run tcs).1 (({} : Slot).run tcs).2 := by
  induction tcs using List.reverseRecOn with
  | nil => exact tracks_nil
  | append_singleton tcs tc ih =>
      rw [run_append]
      simp only [run, List.append_nil]
      exact ih.step tc

section Tracks

variable {tcs : List Fields} {st : Slot} {emitted : List (List Char)}
  (tracks : Tracks tcs st emitted)

include tracks

/-- A slot is done when it has a name and its whole text begins with a value. -/
theorem Tracks.done_iff :
    st.done = true ↔ st.name.isSome = true ∧ (completeValue? st.buf).isSome = true := by
  constructor
  · intro isDone
    obtain ⟨named, args, front, more, -, split, found⟩ := tracks.sent isDone
    obtain ⟨args', found', -⟩ := completeValue?_append found more
    rw [split, found']
    exact ⟨named, rfl⟩
  · rintro ⟨named, complete⟩
    by_contra pending
    rw [((tracks.waiting (by simpa using pending)).2 named)] at complete
    cases complete

/-- What is emitted is the value that the whole text begins with, if that has its own end. -/
theorem Tracks.emitted_eq {v : Json} {r args : List Char} (named : st.name.isSome = true)
    (found : completeValue? st.buf = some args) (read : Json.rawDecode st.buf = some (v, r))
    (closed : v.isClosed = true) : emitted = [args] := by
  have isDone := tracks.done_iff.mpr ⟨named, by rw [found]; rfl⟩
  obtain ⟨-, sent, front, more, only, split, early⟩ := tracks.sent isDone
  obtain ⟨args', late, same⟩ := completeValue?_append early more
  rw [split] at found read
  rw [only, ← same v r read closed, Option.some.inj (late.symm.trans found)]

theorem Tracks.emitted_of_done (isDone : st.done = true) : ∃ args, emitted = [args] := by
  obtain ⟨-, args, -, -, only, -⟩ := tracks.sent isDone
  exact ⟨args, only⟩

end Tracks

end Slot

end Roadstead.ToolCallStreamSanitizer
