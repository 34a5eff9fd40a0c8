import Roadstead.Replay
import Roadstead.Sanitizer.Slots

/-!
# A streamed turn, read before and after the sanitizer

The replay store is given the calls of a stream as the backend sent them, and the client has
them as the sanitizer emits them.  `readStream_sanitized`: the two normalise alike when no call
of the stream is one that the sanitizer changes (`cleanStream`).

Both readers fold over the same fragments.  `pieces`, `names` and `args` are what a list of
fragments says of one call; `Sim` ties the sanitizer's slots and the calls emitted so far to
them, and `Client` the client's own list.
-/

namespace Roadstead.Replay

open Json (Fields)
open ToolCallStreamSanitizer

/-! ### What fragments say of a call -/

/-- The name that a fragment brings. -/
def nameText (d : Fields) : String := ((d.get "function").get "name").asStr?.getD ""

/-- The arguments that a fragment brings. -/
def argText (d : Fields) : String := ((d.get "function").get "arguments").asStr?.getD ""

/-- The fragments of one call. -/
def pieces (fs : List Fields) (i : ℤ) : List Fields := fs.filter fun d => deltaIndex d = i

/-- The names that the fragments of a call bring. -/
def names (fs : List Fields) (i : ℤ) : List String :=
  ((pieces fs i).map nameText).filter fun name => name ≠ ""

/-- The arguments of a call so far. -/
def args (fs : List Fields) (i : ℤ) : List Char := (pieces fs i).flatMap fun d => (argText d).toList

theorem pieces_snoc (fs : List Fields) (d : Fields) (i : ℤ) :
    pieces (fs ++ [d]) i = if deltaIndex d = i then pieces fs i ++ [d] else pieces fs i := by
  rw [pieces, List.filter_append]
  by_cases same : deltaIndex d = i <;> simp [pieces, same]

theorem pieces_snoc_self (fs : List Fields) (d : Fields) :
    pieces (fs ++ [d]) (deltaIndex d) = pieces fs (deltaIndex d) ++ [d] := by
  rw [pieces_snoc, if_pos rfl]

theorem pieces_snoc_of_ne (fs : List Fields) {d : Fields} {i : ℤ} (ne : i ≠ deltaIndex d) :
    pieces (fs ++ [d]) i = pieces fs i := by
  rw [pieces_snoc, if_neg (Ne.symm ne)]

theorem names_snoc_self (fs : List Fields) (d : Fields) :
    names (fs ++ [d]) (deltaIndex d) =
      names fs (deltaIndex d) ++ if nameText d = "" then [] else [nameText d] := by
  rw [names, pieces_snoc_self, List.map_append, List.filter_append]
  by_cases empty : nameText d = "" <;> simp [names, empty]

theorem args_snoc_self (fs : List Fields) (d : Fields) :
    args (fs ++ [d]) (deltaIndex d) = args fs (deltaIndex d) ++ (argText d).toList := by
  rw [args, pieces_snoc_self, List.flatMap_append, List.flatMap_singleton, args]

theorem names_head_append {fs : List Fields} {i : ℤ} {name : String} (more : List Fields)
    (head : (names fs i).head? = some name) : (names (fs ++ more) i).head? = some name := by
  rw [names, pieces, List.filter_append, List.map_append, List.filter_append, List.head?_append]
  rw [names, pieces] at head
  rw [head]
  rfl

/-- Folding fragments into a list of calls gives each call its names and arguments. -/
theorem get?_accumulate (fs : List Fields) (i : ℤ) :
    (fs.foldl (fun acc d => accumulateDelta acc (.obj d)) ∅).get? i = none ∧ pieces fs i = [] ∨
      ∃ entry, (fs.foldl (fun acc d => accumulateDelta acc (.obj d)) ∅).get? i = some entry ∧
        pieces fs i ≠ [] ∧ entry.name.toList = (names fs i).flatMap String.toList ∧
        entry.arguments.toList = args fs i := by
  induction fs using List.reverseRecOn with
  | nil => exact .inl ⟨rfl, rfl⟩
  | append_singleton fs d ih =>
      rw [List.foldl_append, List.foldl_cons, List.foldl_nil, accumulateDelta]
      by_cases here : i = deltaIndex d
      · subst here
        right
        refine ⟨_, Dict.get?_set_self _ _ _, by rw [pieces_snoc_self]; simp, ?_, ?_⟩
        · have before : (((fs.foldl (fun acc d => accumulateDelta acc (.obj d)) ∅).get?
              (deltaIndex d)).getD {}).name.toList = (names fs (deltaIndex d)).flatMap String.toList := by
            rcases ih with ⟨absent, none_there⟩ | ⟨entry, there, -, same, -⟩
            · rw [absent, names, none_there]
              rfl
            · rw [there]
              exact same
          rw [CallEntry.add, String.toList_append, before, names_snoc_self, List.flatMap_append]
          rw [← nameText]
          by_cases empty : nameText d = ""
          · simp [empty]
          · rw [if_neg empty]
            simp
        · have before : (((fs.foldl (fun acc d => accumulateDelta acc (.obj d)) ∅).get?
              (deltaIndex d)).getD {}).arguments.toList = args fs (deltaIndex d) := by
            rcases ih with ⟨absent, none_there⟩ | ⟨entry, there, -, -, same⟩
            · rw [absent, args, none_there]
              rfl
            · rw [there]
              exact same
          rw [CallEntry.add, String.toList_append, before, args_snoc_self, argText]
      · rw [Dict.get?_set_of_ne _ here, names, args, pieces_snoc_of_ne fs here]
        exact ih

/-! ### The sanitizer over fragments -/

/-- The key of a slot of the first choice. -/
def slotKey (i : ℤ) : Json × Json := (.int 0, .int i)

theorem slotKey_ne {i j : ℤ} (ne : i ≠ j) : slotKey i ≠ slotKey j := by
  intro same
  exact ne (Json.int.inj (Prod.ext_iff.mp same).2)

/-- The slots and the emitted calls after the fragments `fs`, while no call has been dropped. -/
structure Sim (fs : List Fields) (slots : Slots) (emitted : List (ℤ × List Char)) : Prop where
  slot : ∀ i, slots.get? (slotKey i) = none ∧ pieces fs i = [] ∨
    ∃ st, slots.get? (slotKey i) = some st ∧ pieces fs i ≠ [] ∧
      st.name = (names fs i).head? ∧ st.buf = args fs i
  /-- An emitted call is done and named; its arguments are what its text was when it was emitted. -/
  sent : ∀ i a, (i, a) ∈ emitted →
    (∃ st, slots.get? (slotKey i) = some st ∧ st.done = true ∧ st.name.isSome = true) ∧
      ∃ gs, gs <+: fs ∧ completeValue? (args gs i) = some a
  done : ∀ i st, slots.get? (slotKey i) = some st → st.done = true → i ∈ emitted.map Prod.fst
  waiting : ∀ i st, slots.get? (slotKey i) = some st → st.done = false → st.name.isSome = true →
    completeValue? st.buf = none
  keys : ∀ key st, slots.get? key = some st → ∃ i, key = slotKey i
  once : (emitted.map Prod.fst).Nodup

/-- What is emitted, with the indices as the sanitizer has them. -/
def emitOf (sent : List (ℤ × List Char)) : Emit := sent.map fun call => (.int call.1, call.2)

theorem emitOf_append (sent sent' : List (ℤ × List Char)) :
    emitOf (sent ++ sent') = emitOf sent ++ emitOf sent' := List.map_append

theorem sim_empty : Sim [] ∅ [] where
  slot _ := .inl ⟨rfl, rfl⟩
  sent := nofun
  done := nofun
  waiting := nofun
  keys := nofun
  once := List.nodup_nil

theorem fragmentName_eq (d : Fields) :
    fragmentName d = if nameText d = "" then none else some (nameText d) := by
  rw [fragmentName, nameText]
  cases ((d.get "function").get "name").asStr? with
  | none => rfl
  | some name => by_cases empty : name = "" <;> simp [Option.filter, empty]

section Fragment

variable {fs : List Fields} {slots : Slots} {emitted : List (ℤ × List Char)}

/-- The slot of a fragment, with the fragment. -/
theorem Sim.add_slot (sim : Sim fs slots emitted) (d : Fields) :
    let st := ((slots.get? (slotKey (deltaIndex d))).getD {}).add d
    st.name = (names (fs ++ [d]) (deltaIndex d)).head? ∧ st.buf = args (fs ++ [d]) (deltaIndex d) := by
  intro st
  have before : ((slots.get? (slotKey (deltaIndex d))).getD {}).name =
        (names fs (deltaIndex d)).head? ∧
      ((slots.get? (slotKey (deltaIndex d))).getD {}).buf = args fs (deltaIndex d) := by
    rcases sim.slot (deltaIndex d) with ⟨absent, none_there⟩ | ⟨st, there, -, name, buf⟩
    · rw [absent, names, args, none_there]
      exact ⟨rfl, rfl⟩
    · rw [there]
      exact ⟨name, buf⟩
  constructor
  · change Slot.nameAfter _ _ = _
    rw [Slot.nameAfter_eq, fragmentName_eq, before.1, names_snoc_self, List.head?_append]
    split <;> rfl
  · change _ ++ _ = _
    rw [before.2, args_snoc_self, argText]

/-- Writing the slot of a fragment, done or not. -/
theorem Sim.write (sim : Sim fs slots emitted) (d : Fields) {st : Slot}
    (name : st.name = (names (fs ++ [d]) (deltaIndex d)).head?)
    (buf : st.buf = args (fs ++ [d]) (deltaIndex d)) {new : List (ℤ × List Char)}
    (sent : ∀ i a, (i, a) ∈ new → i = deltaIndex d ∧ st.done = true ∧ st.name.isSome = true ∧
      completeValue? st.buf = some a)
    (fresh : ∀ i ∈ new.map Prod.fst, i ∉ emitted.map Prod.fst) (once : (new.map Prod.fst).Nodup)
    (kept : deltaIndex d ∈ emitted.map Prod.fst → st.done = true)
    (done : st.done = true → deltaIndex d ∈ (emitted ++ new).map Prod.fst)
    (waiting : st.done = false → st.name.isSome = true → completeValue? st.buf = none) :
    Sim (fs ++ [d]) (slots.set (slotKey (deltaIndex d)) st) (emitted ++ new) where
  slot i := by
    by_cases here : i = deltaIndex d
    · subst here
      exact .inr ⟨st, Dict.get?_set_self _ _ _, by rw [pieces_snoc_self]; simp, name, buf⟩
    · rw [Dict.get?_set_of_ne _ (slotKey_ne here), names, args, pieces_snoc_of_ne fs here]
      exact sim.slot i
  sent i a mem := by
    rcases List.mem_append.mp mem with mem | mem
    · obtain ⟨⟨st', there, isDone, named⟩, gs, short, complete⟩ := sim.sent i a mem
      refine ⟨?_, gs, short.trans (List.prefix_append _ _), complete⟩
      by_cases here : i = deltaIndex d
      · subst here
        refine ⟨st, Dict.get?_set_self _ _ _, kept (List.mem_map.mpr ⟨_, mem, rfl⟩), ?_⟩
        rcases sim.slot (deltaIndex d) with ⟨absent, -⟩ | ⟨st'', there', -, name', -⟩
        · rw [absent] at there
          cases there
        · rw [there] at there'
          cases there'
          rw [name'] at named
          obtain ⟨first, head⟩ := Option.isSome_iff_exists.mp named
          rw [name, names_head_append [d] head]
          rfl
      · exact ⟨st', by rw [Dict.get?_set_of_ne _ (slotKey_ne here), there], isDone, named⟩
    · obtain ⟨rfl, isDone, named, complete⟩ := sent i a mem
      rw [buf] at complete
      exact ⟨⟨st, Dict.get?_set_self _ _ _, isDone, named⟩, fs ++ [d], List.prefix_rfl, complete⟩
  done i st' there isDone := by
    by_cases here : i = deltaIndex d
    · subst here
      rw [Dict.get?_set_self] at there
      cases there
      exact done isDone
    · rw [Dict.get?_set_of_ne _ (slotKey_ne here)] at there
      rw [List.map_append]
      exact List.mem_append_left _ (sim.done i st' there isDone)
  waiting i st' there isOpen named := by
    by_cases here : i = deltaIndex d
    · subst here
      rw [Dict.get?_set_self] at there
      cases there
      exact waiting isOpen named
    · rw [Dict.get?_set_of_ne _ (slotKey_ne here)] at there
      exact sim.waiting i st' there isOpen named
  keys key st' there := by
    by_cases here : key = slotKey (deltaIndex d)
    · exact ⟨_, here⟩
    · rw [Dict.get?_set_of_ne _ here] at there
      exact sim.keys key st' there
  once := by
    rw [List.map_append]
    refine List.nodup_append.mpr ⟨sim.once, once, ?_⟩
    rintro i mem _ mem' rfl
    exact fresh i mem' mem

/-- One fragment whose index is an integer. -/
theorem Sim.bufferOne (sim : Sim fs slots emitted) {d : Fields} {i : ℤ}
    (index : d.get "index" = .int i) (emit : Emit) :
    ∃ slots' new, ToolCallStreamSanitizer.bufferOne (.int 0) (slots, emit) (.obj d) =
        some (slots', emit ++ emitOf new) ∧ Sim (fs ++ [d]) slots' (emitted ++ new) := by
  have index' : deltaIndex d = i := by
    have there := @get?_of_get d "index" (by rw [index]; exact Json.noConfusion)
    rw [deltaIndex, there, index]
    rfl
  obtain ⟨name, buf⟩ := sim.add_slot d
  have key_eq : ((Json.int 0, Json.int i) : Json × Json) = slotKey (deltaIndex d) := by
    rw [index']
    rfl
  simp only [ToolCallStreamSanitizer.bufferOne, index, hashable, Bool.and_self, if_true]
  rw [key_eq]
  set st := ((slots.get? (slotKey (deltaIndex d))).getD {}).add d with st_def
  -- a slot that was emitted stays done
  have kept : deltaIndex d ∈ emitted.map Prod.fst → st.done = true := by
    intro mem
    obtain ⟨⟨i, a⟩, mem, same⟩ := List.mem_map.mp mem
    obtain ⟨⟨st', there, isDone, -⟩, -⟩ := sim.sent i a mem
    rw [show i = deltaIndex d from same] at there
    rw [st_def, there]
    exact isDone
  have done : st.done = true → deltaIndex d ∈ emitted.map Prod.fst := by
    intro isDone
    cases there : slots.get? (slotKey (deltaIndex d)) with
    | none =>
        rw [st_def, there] at isDone
        cases isDone
    | some st' =>
        rw [st_def, there] at isDone
        exact sim.done _ st' there isDone
  split
  · rename_i a found
    split at found
    · cases found
    · rename_i ready
      simp only [Bool.or_eq_true, not_or, Bool.not_eq_true] at ready
      obtain ⟨isOpen, unnamed⟩ := ready
      have named : st.name.isSome = true := by
        cases h : st.name with
        | none => simp [h] at unnamed
        | some name => rfl
      have fresh : deltaIndex d ∉ emitted.map Prod.fst := by
        intro mem
        rw [kept mem] at isOpen
        cases isOpen
      have once : ([(deltaIndex d, a)].map Prod.fst).Nodup := List.nodup_singleton _
      refine ⟨_, [(deltaIndex d, a)], by rw [emitOf, List.map_singleton, index'], ?_⟩
      rw [← index']
      refine @Sim.write _ _ _ sim d st.close name buf _ ?_ ?_ once (fun _ => rfl) ?_
        Bool.noConfusion
      · intro j b mem
        cases List.mem_singleton.mp mem
        exact ⟨rfl, rfl, named, found⟩
      · intro j mem
        rw [List.map_singleton, List.mem_singleton] at mem
        rwa [mem]
      · intro _
        simp
  · rename_i nothing
    refine ⟨_, [], by rw [emitOf, List.map_nil, List.append_nil], ?_⟩
    refine sim.write d name buf ?_ ?_ List.nodup_nil kept ?_ ?_
    · intro i a mem
      cases mem
    · intro i mem
      cases mem
    · rwa [List.append_nil]
    · intro isOpen named
      split at nothing
      · rename_i blocked
        cases h : st.name with
        | none => simp [h] at named
        | some name => simp [isOpen, h] at blocked
      · exact nothing

/-- The fragments of a choice whose indices are integers. -/
theorem Sim.buffer {tcs : List Json} (sim : Sim fs slots emitted)
    (integer : ∀ tc ∈ tcs, ∀ d, tc = .obj d → isInt (Fields.get d "index") = true) (emit : Emit) :
    ∃ slots' new, ToolCallStreamSanitizer.buffer (.int 0) tcs (slots, emit) =
        (slots', some (emit ++ emitOf new)) ∧
      Sim (fs ++ tcs.filterMap Json.asObj?) slots' (emitted ++ new) := by
  induction tcs generalizing fs slots emitted emit with
  | nil =>
      refine ⟨slots, [], by simp [ToolCallStreamSanitizer.buffer, emitOf], ?_⟩
      rwa [List.filterMap_nil, List.append_nil, List.append_nil]
  | cons tc tcs ih =>
      have rest : ∀ tc ∈ tcs, ∀ d, tc = .obj d → isInt (Fields.get d "index") = true :=
        fun tc mem => integer tc (List.mem_cons_of_mem _ mem)
      by_cases object : ∃ d, tc = .obj d
      · obtain ⟨d, rfl⟩ := object
        obtain ⟨i, index⟩ : ∃ i, Fields.get d "index" = .int i := by
          have isIndex := integer _ (List.mem_cons_self ..) d rfl
          cases here : Fields.get d "index" with
          | int i => exact ⟨i, rfl⟩
          | _ => simp [here, isInt] at isIndex
        obtain ⟨slots₁, first, one, sim₁⟩ := sim.bufferOne index emit
        obtain ⟨slots₂, more, all, sim₂⟩ := ih sim₁ rest (emit ++ emitOf first)
        refine ⟨slots₂, first ++ more, ?_, ?_⟩
        · rw [ToolCallStreamSanitizer.buffer, one]
          simp only
          rw [all, emitOf_append, List.append_assoc]
        · rw [List.filterMap_cons_some (show Json.asObj? (.obj d) = some d from rfl),
            List.append_cons, ← List.append_assoc]
          exact sim₂
      · have skip : Json.asObj? tc = none := by
          cases here : Json.asObj? tc with
          | none => rfl
          | some d => exact absurd ⟨d, Json.asObj?_eq_some.mp here⟩ object
        have same : ToolCallStreamSanitizer.bufferOne (.int 0) (slots, emit) tc = some (slots, emit) := by
          cases tc <;> first | rfl | exact absurd ⟨_, rfl⟩ object
        obtain ⟨slots₂, more, all, sim₂⟩ := ih sim rest emit
        refine ⟨slots₂, more, ?_, ?_⟩
        · rw [ToolCallStreamSanitizer.buffer, same]
          exact all
        · rwa [List.filterMap_cons_none skip]

theorem Sim.congr {slots' : Slots} (sim : Sim fs slots emitted)
    (same : ∀ key, slots'.get? key = slots.get? key) : Sim fs slots' emitted where
  slot i := by
    rw [same]
    exact sim.slot i
  sent i a mem := by
    rw [same]
    exact sim.sent i a mem
  done i := by
    rw [same]
    exact sim.done i
  waiting i := by
    rw [same]
    exact sim.waiting i
  keys key := by
    rw [same]
    exact sim.keys key
  once := sim.once

/-- A call that the sanitizer can emit. -/
def Settled (fs : List Fields) (i : ℤ) : Prop := names fs i ≠ [] ∧ completeValue? (args fs i) ≠ none

/-- A settled call has been emitted. -/
theorem Sim.done_of_settled (sim : Sim fs slots emitted) {i : ℤ} {st : Slot}
    (there : slots.get? (slotKey i) = some st) (settled : Settled fs i) : st.done = true := by
  rcases sim.slot i with ⟨absent, -⟩ | ⟨st', there', -, name, buf⟩
  · rw [absent] at there
    cases there
  · rw [there'] at there
    cases there
    by_contra isOpen
    have named : st.name.isSome = true := by
      rw [name, List.isSome_head?]
      exact settled.1
    have nothing := sim.waiting i st there' (by simpa using isOpen) named
    rw [buf] at nothing
    exact settled.2 nothing

/-- A finish chunk drops nothing when every call is settled. -/
theorem Sim.finish {reason : Json} (sim : Sim fs slots emitted)
    (settled : reason ≠ .null → ∀ i, pieces fs i ≠ [] → Settled fs i) :
    ∃ slots', ToolCallStreamSanitizer.finish (.int 0) reason slots = (slots', [], false) ∧
      Sim fs slots' emitted := by
  unfold ToolCallStreamSanitizer.finish
  split
  · exact ⟨slots, rfl, sim⟩
  · rename_i finished
    have allDone : ∀ key st, slots.get? key = some st → st.done = true := by
      intro key st there
      obtain ⟨i, rfl⟩ := sim.keys key st there
      rcases sim.slot i with ⟨absent, -⟩ | ⟨-, -, seen, -, -⟩
      · rw [absent] at there
        cases there
      · exact sim.done_of_settled there (settled finished i seen)
    have nothing : pendingOf (.int 0) slots = [] := by
      rw [pendingOf, List.filter_eq_nil_iff]
      rintro ⟨key, st⟩ mem
      simp [allDone key st (Dict.mem_entries_iff.mp mem)]
    refine ⟨_, by simp only [finalize, nothing]; rfl, sim.congr fun key => ?_⟩
    rw [Dict.get?_map]
    cases there : slots.get? key with
    | none => rfl
    | some st =>
        rw [Option.map_some]
        congr 1
        split
        · cases st
          cases allDone key _ there
          rfl
        · rfl

end Fragment

/-! ### The chunks that the client gets -/

/-- The fragments of calls that a reader takes from a chunk. -/
def fragmentsOf (chunk : Json) : List Fields :=
  ((((firstDelta chunk).get "tool_calls").asArr?).getD []).filterMap Json.asObj?

/-- The fragments that the client got, one for each emitted call. -/
def Received (fs : List Fields) (emitted : List (ℤ × List Char)) (cs : List Fields) : Prop :=
  List.Forall₂ (fun call d => deltaIndex d = call.1 ∧ (argText d).toList = call.2 ∧
    (names fs call.1).head? = some (nameText d)) emitted cs

theorem Received.mono {fs : List Fields} {emitted : List (ℤ × List Char)} {cs : List Fields}
    (received : Received fs emitted cs) (more : List Fields) : Received (fs ++ more) emitted cs :=
  received.imp fun _ _ same => ⟨same.1, same.2.1, names_head_append more same.2.2⟩

/-- The fragment of an emitted call. -/
def callFields (slots : Slots) (call : ℤ × List Char) : Fields :=
  ((callJson ((slots.get? (slotKey call.1)).getD {}) (.int call.1) call.2).asObj?).getD []

theorem received_new {fs : List Fields} {slots : Slots} {emitted new : List (ℤ × List Char)}
    (sim : Sim fs slots (emitted ++ new)) : Received fs new (new.map (callFields slots)) := by
  rw [Received, List.forall₂_map_right_iff, List.forall₂_same]
  rintro ⟨i, a⟩ mem
  obtain ⟨⟨st, there, -, named⟩, -⟩ := sim.sent i a (List.mem_append_right _ mem)
  rcases sim.slot i with ⟨absent, -⟩ | ⟨st', there', -, name, -⟩
  · rw [absent] at there
    cases there
  · rw [there] at there'
    cases there'
    obtain ⟨text, is_text⟩ := Option.isSome_iff_exists.mp named
    refine ⟨rfl, ?_, ?_⟩
    · simp [callFields, callJson, argText, Json.asObj?, Json.asStr?, Fields.get, Fields.get?_cons]
    · rw [← name, is_text]
      simp [callFields, callJson, nameText, Json.asObj?, Json.asStr?, Fields.get, Fields.get?_cons,
        there, is_text]

/-- At most one choice, and its index is zero. -/
def soleChoice (chunk : Json) : Bool :=
  match chunk.get "choices" with
  | .arr [] => true
  | .arr [.obj ch] => decide (choiceIndex ch = .int 0)
  | .arr _ => false
  | _ => true

/-- Whether the chunk ends its choice. -/
def finishes (chunk : Json) : Bool :=
  match chunk.get "choices" with
  | .arr (ch :: _) => decide (ch.get "finish_reason" ≠ .null)
  | _ => false

theorem soleChoice_cases {chunk : Json} (sole : soleChoice chunk = true) :
    (∃ ch, chunk.get "choices" = .arr [.obj ch] ∧ choiceIndex ch = .int 0) ∨
      firstDelta chunk = .null ∧ ∀ chs, chunk.get "choices" = .arr chs → chs = [] := by
  unfold soleChoice at sole
  split at sole
  · rename_i list
    refine .inr ⟨by simp only [firstDelta, list], fun chs same => ?_⟩
    rw [list] at same
    cases same
    rfl
  · rename_i ch list
    exact .inl ⟨ch, list, by simpa using sole⟩
  · cases sole
  · rename_i none_there _ other
    refine .inr ⟨?_, fun chs same => ?_⟩
    · unfold firstDelta
      split
      · rename_i list
        exact absurd list (other _)
      · rfl
    · exact absurd same (other chs)

theorem fragmentsOf_sole {chunk : Json} {ch : Fields} (list : chunk.get "choices" = .arr [.obj ch]) :
    fragmentsOf chunk = ((fragments? ch).getD []).filterMap Json.asObj? := by
  simp only [fragmentsOf, firstDelta, list]
  rfl

theorem fragmentsOf_null {chunk : Json} (nothing : firstDelta chunk = .null) : fragmentsOf chunk = [] := by
  rw [fragmentsOf, nothing]
  rfl

theorem fragments_of_callsOf {ch : Fields} :
    (fragments? ch).getD [] = (callsOf (.obj ch)).map Prod.snd := by
  simp [callsOf, Function.comp_def]

/-- The third step writes one fragment for each call to emit. -/
theorem fragments_rebuildChoice (slots : Slots) {new : List (ℤ × List Char)} {ch : Fields}
    (index : choiceIndex ch = .int 0) (mapping : new ≠ [] → ∃ delta, Fields.get ch "delta" = .obj delta) :
    ((fragments? (rebuildChoice slots (.int 0) (emitOf new) ch).1).getD []).filterMap Json.asObj? =
      new.map (callFields slots) := by
  have written : callsOf (.obj (rebuildChoice slots (.int 0) (emitOf new) ch).1) =
      (emitOf new).map fun call =>
        ((.int 0, call.1), callJson ((slots.get? (.int 0, call.1)).getD {}) call.1 call.2) := by
    by_cases empty : new = []
    · subst empty
      exact (rebuildChoice_spec slots [] index).1.elim id id
    · obtain ⟨delta, mapping⟩ := mapping empty
      exact callsOf_rebuildChoice slots (emitOf new) index mapping
  rw [fragments_of_callsOf, written, emitOf, List.map_map, List.map_map, List.filterMap_map]
  exact List.filterMap_eq_map'.symm ▸ rfl

/-- A choice with index zero. -/
theorem Sim.choice {fs : List Fields} {slots : Slots} {emitted : List (ℤ × List Char)}
    (sim : Sim fs slots emitted) {ch : Fields} (index : choiceIndex ch = .int 0)
    (integer : integerChoice (.obj ch) = true)
    (settled : Fields.get ch "finish_reason" ≠ .null →
      ∀ i, pieces (fs ++ ((fragments? ch).getD []).filterMap Json.asObj?) i ≠ [] →
        Settled (fs ++ ((fragments? ch).getD []).filterMap Json.asObj?) i) :
    ∃ slots' ch' changed new, feedChoice slots (.obj ch) = (slots', some (.obj ch', changed)) ∧
      Sim (fs ++ ((fragments? ch).getD []).filterMap Json.asObj?) slots' (emitted ++ new) ∧
      ((fragments? ch').getD []).filterMap Json.asObj? = new.map (callFields slots') ∧
      (changed = false → ch' = ch) := by
  rw [integerChoice, Bool.and_eq_true, List.all_eq_true] at integer
  have indices : ∀ tc ∈ (fragments? ch).getD [], ∀ d, tc = .obj d →
      isInt (Fields.get d "index") = true := by
    rintro tc mem d rfl
    exact integer.2 _ mem
  obtain ⟨slots₁, new, buffered, sim₁⟩ := sim.buffer indices []
  obtain ⟨slots₂, finished, sim₂⟩ := sim₁.finish settled
  rw [← index, List.nil_append] at buffered
  have mapping : new ≠ [] → ∃ delta, Fields.get ch "delta" = .obj delta := by
    intro some_new
    cases delta : Fields.get ch "delta" with
    | obj fields => exact ⟨fields, rfl⟩
    | _ =>
        have nothing : (fragments? ch).getD [] = [] := by
          rw [fragments?, delta]
          rfl
        rw [nothing] at buffered
        have none_new := (Prod.ext_iff.mp buffered).2
        simp only [ToolCallStreamSanitizer.buffer, emitOf, Option.some.injEq] at none_new
        exact absurd (List.map_eq_nil_iff.mp none_new.symm) some_new
  have fed := feedChoice_eq buffered
  simp only [index, finished, List.append_nil, Bool.false_and, relabel, Bool.false_or] at fed
  exact ⟨_, _, _, new, fed, sim₂, fragments_rebuildChoice slots₂ index mapping,
    (rebuildChoice_spec slots₂ (emitOf new) index).2.2.2⟩

/-- One chunk through the sanitizer. -/
theorem Sim.feed {fs cs : List Fields} {slots : Slots} {emitted : List (ℤ × List Char)}
    (sim : Sim fs slots emitted) (received : Received fs emitted cs) {data : List Char} {chunk : Json}
    (read : Json.loads true data = some chunk) (integer : integerIndices chunk = true)
    (sole : soleChoice chunk = true)
    (settled : finishes chunk = true →
      ∀ i, pieces (fs ++ fragmentsOf chunk) i ≠ [] → Settled (fs ++ fragmentsOf chunk) i) :
    ∃ chunk' emitted', (ToolCallStreamSanitizer.feed slots data).2.json? = some chunk' ∧
      Sim (fs ++ fragmentsOf chunk) (ToolCallStreamSanitizer.feed slots data).1 emitted' ∧
      Received (fs ++ fragmentsOf chunk) emitted' (cs ++ fragmentsOf chunk') := by
  have read' := (Json.loads_plain read).1
  have untouched : ToolCallStreamSanitizer.feed slots data = (slots, .raw data) →
      fragmentsOf chunk = [] →
      ∃ chunk' emitted', (ToolCallStreamSanitizer.feed slots data).2.json? = some chunk' ∧
        Sim (fs ++ fragmentsOf chunk) (ToolCallStreamSanitizer.feed slots data).1 emitted' ∧
        Received (fs ++ fragmentsOf chunk) emitted' (cs ++ fragmentsOf chunk') := by
    intro fed nothing
    rw [fed, nothing, List.append_nil]
    refine ⟨chunk, emitted, read', sim, ?_⟩
    rwa [nothing, List.append_nil]
  rcases soleChoice_cases sole with ⟨ch, list, index⟩ | ⟨nothing, no_choice⟩
  · have same := fragmentsOf_sole list
    by_cases fast : passes slots data = true
    · refine untouched (by rw [ToolCallStreamSanitizer.feed, if_pos fast]) ?_
      have no_calls := toolCalls_of_passes read fast
      rw [toolCalls, list, Json.asArr?, Option.getD_some, List.flatMap_singleton] at no_calls
      rw [same, fragments_of_callsOf, no_calls]
      rfl
    · have ends : finishes chunk = true ↔ Fields.get ch "finish_reason" ≠ .null := by
        rw [finishes, list]
        exact decide_eq_true_iff
      rw [integerIndices, list, Json.asArr?, Option.getD_some, List.all_cons, List.all_nil,
        Bool.and_true] at integer
      rw [ends, same] at settled
      obtain ⟨slots', ch', changed, new, chosen, sim', calls, unchanged⟩ :=
        sim.choice index integer settled
      have got : Received (fs ++ fragmentsOf chunk) (emitted ++ new) (cs ++ new.map (callFields slots')) := by
        rw [same]
        exact List.rel_append (received.mono _) (received_new sim')
      cases chunk with
      | obj fields =>
          rw [Json.get_obj] at list
          have stepped : feedChoices slots [.obj ch] = (slots', some ([.obj ch'], changed)) := by
            simp [feedChoices, chosen]
          rw [same]
          rw [same] at got
          cases changed with
          | true =>
              have fed : ToolCallStreamSanitizer.feed slots data =
                  (slots', .dumped (.obj (Fields.set fields "choices" (.arr [.obj ch'])))) := by
                rw [ToolCallStreamSanitizer.feed, if_neg fast, read']
                simp only [list, stepped]
              rw [fed]
              refine ⟨_, emitted ++ new, rfl, sim', ?_⟩
              rw [@fragmentsOf_sole (.obj _) ch' (Fields.get_set_self _ _ _), calls]
              exact got
          | false =>
              have fed : ToolCallStreamSanitizer.feed slots data = (slots', .raw data) := by
                rw [ToolCallStreamSanitizer.feed, if_neg fast, read']
                simp only [list, stepped]
              rw [fed]
              refine ⟨_, emitted ++ new, read', sim', ?_⟩
              rw [unchanged rfl] at calls
              rw [same]
              exact calls ▸ got
      | _ => cases list
  · refine untouched ?_ (fragmentsOf_null nothing)
    unfold ToolCallStreamSanitizer.feed
    split
    · rfl
    · rw [read']
      cases chunk with
      | obj fields =>
          cases list : Fields.get fields "choices" with
          | arr chs =>
              cases no_choice chs (by rw [Json.get_obj, list])
              simp only [list, feedChoices]
          | _ => simp only [list]
      | _ => rfl

/-! ### The calls of the two readers -/

/-- The arguments are a value, and white space after it. -/
def whole (text : List Char) : Bool :=
  (completeValue? text).any fun front => (text.drop front.length).all Json.isWs

/-- Every call so far is one that the sanitizer can emit. -/
def settledCalls (fs : List Fields) : Bool :=
  fs.all fun d => decide (names fs (deltaIndex d) ≠ []) &&
    (completeValue? (args fs (deltaIndex d))).isSome

/-- Every call has its name in one fragment, and its arguments are whole and never were another
value while they came. -/
def wholeCalls (fs : List Fields) : Bool :=
  fs.all fun d => decide ((names fs (deltaIndex d)).length = 1) && whole (args fs (deltaIndex d)) &&
    fs.inits.all fun gs => (completeValue? (args gs (deltaIndex d))).all fun a =>
      decide (completeValue? (args fs (deltaIndex d)) = some a)

theorem exists_of_pieces {fs : List Fields} {i : ℤ} (seen : pieces fs i ≠ []) :
    ∃ d ∈ fs, deltaIndex d = i := by
  obtain ⟨d, mem⟩ := List.exists_mem_of_ne_nil _ seen
  obtain ⟨mem, same⟩ := List.mem_filter.mp mem
  exact ⟨d, mem, by simpa using same⟩

theorem settledCalls_spec {fs : List Fields} (settled : settledCalls fs = true) (i : ℤ)
    (seen : pieces fs i ≠ []) : Settled fs i := by
  obtain ⟨d, mem, rfl⟩ := exists_of_pieces seen
  have here := List.all_eq_true.mp settled d mem
  rw [Bool.and_eq_true, decide_eq_true_eq, Option.isSome_iff_ne_none] at here
  exact here

/-- What was emitted reads as the whole does. -/
theorem loads_front {text front : List Char} (found : completeValue? text = some front)
    (blank : (text.drop front.length).all Json.isWs = true) :
    Json.loads false front = Json.loads false text ∧ (Json.loads false text).isSome := by
  unfold completeValue? at found
  split at found
  · cases found
  · obtain ⟨⟨v, rest⟩, read, rfl⟩ := Option.map_eq_some_iff.mp found
    obtain ⟨front, rfl, alone⟩ := Json.rawDecode_alone read
    have cut : (front ++ rest).take ((front ++ rest).length - rest.length) = front := by
      rw [List.length_append, Nat.add_sub_cancel, List.take_left]
    rw [cut, List.drop_left] at blank
    rw [cut, Json.loads_of_rawDecode read blank, Json.loads_of_rawDecode alone rfl]
    exact ⟨rfl, rfl⟩

theorem pieces_received {fs : List Fields} {emitted : List (ℤ × List Char)} {cs : List Fields}
    (received : Received fs emitted cs) (once : (emitted.map Prod.fst).Nodup) (i : ℤ) :
    i ∉ emitted.map Prod.fst ∧ pieces cs i = [] ∨
      ∃ a d, (i, a) ∈ emitted ∧ pieces cs i = [d] ∧ (argText d).toList = a ∧
        (names fs i).head? = some (nameText d) := by
  induction received with
  | nil => exact .inl ⟨nofun, rfl⟩
  | @cons call d emitted cs same received ih =>
      obtain ⟨index, arguments, name⟩ := same
      rw [List.map_cons, List.nodup_cons] at once
      rcases ih once.2 with ⟨absent, nothing⟩ | ⟨a, d', mem, only, rest⟩
      · by_cases here : call.1 = i
        · subst here
          refine .inr ⟨call.2, d, List.mem_cons_self .., ?_, arguments, name⟩
          rw [pieces] at nothing
          rw [pieces, List.filter_cons_of_pos (by simpa using index), nothing]
        · refine .inl ⟨?_, ?_⟩
          · rw [List.map_cons, List.mem_cons, not_or]
            exact ⟨Ne.symm here, absent⟩
          · rw [pieces] at nothing
            rw [pieces, List.filter_cons_of_neg (by simpa [index] using here), nothing]
      · have ne : call.1 ≠ i := by
          rintro rfl
          exact once.1 (List.mem_map.mpr ⟨_, mem, rfl⟩)
        refine .inr ⟨a, d', List.mem_cons_of_mem _ mem, ?_, rest⟩
        rw [pieces] at only
        rw [pieces, List.filter_cons_of_neg (by simpa [index] using ne), only]

section Calls

variable {κ : Type} (digest : Digest κ)

/-- A list of calls is normalised by its indices. -/
theorem normalize_callList {acc acc' : Dict ℤ CallEntry}
    (same : ∀ i, (acc.get? i).map (fun entry => normalizeToolCall digest entry.json) =
      (acc'.get? i).map fun entry => normalizeToolCall digest entry.json) :
    normalizeToolCalls digest (callList acc) = normalizeToolCalls digest (callList acc') := by
  have keys : acc.keys.Perm acc'.keys := by
    refine (List.perm_ext_iff_of_nodup acc.nodup_keys acc'.nodup_keys).mpr fun i => ?_
    rw [← not_iff_not, ← Dict.get?_eq_none_iff, ← Dict.get?_eq_none_iff]
    rw [← Option.map_eq_none_iff, same, Option.map_eq_none_iff]
  have sorted : acc.keys.insertionSort (· ≤ ·) = acc'.keys.insertionSort (· ≤ ·) := by
    refine List.Perm.eq_of_pairwise ?_ (List.pairwise_insertionSort _ _) (List.pairwise_insertionSort _ _)
      (((List.perm_insertionSort _ _).trans keys).trans (List.perm_insertionSort _ _).symm)
    exact fun a b _ _ => le_antisymm
  have normal : ∀ acc : Dict ℤ CallEntry, normalizeToolCalls digest (callList acc) =
      if acc.keys = [] then .null else .arr ((acc.keys.insertionSort (· ≤ ·)).map fun i =>
        normalizeToolCall digest ((acc.get? i).getD {}).json) := by
    intro acc
    unfold callList
    split
    · rfl
    · rename_i some_key
      have some_call : acc.keys.insertionSort (· ≤ ·) ≠ [] := fun nothing =>
        some_key (List.perm_nil.mp (nothing ▸ (List.perm_insertionSort (· ≤ ·) acc.keys).symm))
      obtain ⟨i, rest, split⟩ := List.exists_cons_of_ne_nil some_call
      rw [split, List.map_cons, normalizeToolCalls, List.map_cons, List.map_cons, List.map_map]
      · rfl
      · nofun
  rw [normal, normal]
  by_cases empty : acc.keys = []
  · rw [if_pos empty, if_pos (List.nil_perm.mp (empty ▸ keys))]
  · have nonempty : acc'.keys ≠ [] := fun empty' => empty (List.perm_nil.mp (empty' ▸ keys))
    rw [if_neg empty, if_neg nonempty, sorted]
    congr 1
    refine List.map_congr_left fun i mem => ?_
    have here : i ∈ acc'.keys := (List.perm_insertionSort _ _).mem_iff.mp mem
    obtain ⟨entry', there'⟩ := Dict.mem_keys_iff.mp here
    obtain ⟨entry, there⟩ := Dict.mem_keys_iff.mp (keys.mem_iff.mpr here)
    have both := same i
    rw [there, there', Option.map_some, Option.map_some, Option.some.injEq] at both
    rw [there, there']
    exact both

/-- The calls of a list of fragments. -/
def gather (fs : List Fields) : Dict ℤ CallEntry :=
  fs.foldl (fun acc d => accumulateDelta acc (.obj d)) ∅

/-- A call whose arguments read as a value is normalised to its name and that value. -/
theorem normalize_entry {entry : CallEntry} {name : String} {v : Json}
    (named : entry.name = name) (read : Json.loads false entry.arguments.toList = some v) :
    normalizeToolCall digest entry.json = .arr [.str name, v] := by
  have fields : (entry.json).get "function" =
      .obj [("name", .str entry.name), ("arguments", .str entry.arguments)] := rfl
  simp only [normalizeToolCall, fields, Fields.get, Fields.get?_cons]
  simp [normalizeArguments, read, named]

/-- The fragments that were sent and those that were received make the same calls. -/
theorem Sim.gather {fs cs : List Fields} {slots : Slots} {emitted : List (ℤ × List Char)}
    (sim : Sim fs slots emitted) (received : Received fs emitted cs) (clean : wholeCalls fs = true) :
    normalizeToolCalls digest (callList (Replay.gather fs)) =
      normalizeToolCalls digest (callList (Replay.gather cs)) := by
  refine normalize_callList digest fun i => ?_
  rcases get?_accumulate fs i with ⟨absent, unseen⟩ | ⟨entry, there, seen, name, arguments⟩
  · -- a call without fragments has not been emitted
    have unsent : i ∉ emitted.map Prod.fst := by
      intro mem
      obtain ⟨⟨_, a⟩, sent, rfl⟩ := List.mem_map.mp mem
      obtain ⟨⟨st, there, -⟩, -⟩ := sim.sent _ a sent
      rcases sim.slot _ with ⟨none_there, -⟩ | ⟨-, -, seen, -⟩
      · rw [none_there] at there
        cases there
      · exact seen unseen
    rcases pieces_received received sim.once i with ⟨-, nothing⟩ | ⟨a, -, mem, -⟩
    · rcases get?_accumulate cs i with ⟨absent', -⟩ | ⟨-, -, seen', -⟩
      · rw [Replay.gather, Replay.gather, absent, absent']
      · exact absurd nothing seen'
    · exact absurd (List.mem_map.mpr ⟨_, mem, rfl⟩) unsent
  · obtain ⟨d, mem, rfl⟩ := exists_of_pieces seen
    have here := List.all_eq_true.mp clean d mem
    simp only [Bool.and_eq_true, decide_eq_true_eq, List.all_eq_true, Option.all_eq_true] at here
    obtain ⟨⟨one_name, is_whole⟩, stable⟩ := here
    obtain ⟨front, found, blank⟩ := (Option.any_eq_true _ _).mp is_whole
    obtain ⟨text, only_name⟩ := List.length_eq_one_iff.mp one_name
    -- the call has been emitted, as it was settled
    have settled : Settled fs (deltaIndex d) := ⟨by simp [only_name], by simp [found]⟩
    have sent : deltaIndex d ∈ emitted.map Prod.fst := by
      rcases sim.slot (deltaIndex d) with ⟨-, unseen⟩ | ⟨st, slot_there, -⟩
      · exact absurd unseen seen
      · exact sim.done _ st slot_there (sim.done_of_settled slot_there settled)
    rcases pieces_received received sim.once (deltaIndex d) with
      ⟨unsent, -⟩ | ⟨a, c, mem_sent, only, text_of, name_of⟩
    · exact absurd sent unsent
    · obtain ⟨-, gs, short, complete⟩ := sim.sent _ a mem_sent
      have same := stable gs (List.mem_inits _ _ |>.mpr short) a complete
      rw [found, Option.some.injEq] at same
      obtain ⟨reads, v, value⟩ := And.imp_right Option.isSome_iff_exists.mp (loads_front found blank)
      rw [only_name, List.head?_cons, Option.some.injEq] at name_of
      have entry_name : entry.name = text := by
        rw [← String.toList_inj, name, only_name, List.flatMap_singleton]
      have named : text ≠ "" := by
        have member : text ∈ names fs (deltaIndex d) := by simp [only_name]
        simpa using (List.mem_filter.mp member).2
      rcases get?_accumulate cs (deltaIndex d) with ⟨-, nothing⟩ | ⟨entry', there', -, name', arguments'⟩
      · rw [nothing] at only
        cases only
      · have entry_name' : entry'.name = text := by
          rw [← String.toList_inj, name', names, only, List.map_singleton, ← name_of]
          simp [named]
        rw [Replay.gather, Replay.gather, there, there', Option.map_some, Option.map_some,
          normalize_entry digest entry_name (by rw [arguments, value]),
          normalize_entry digest entry_name' (v := v) ?_]
        rw [arguments', args, only, List.flatMap_singleton, text_of, ← same, reads, value]

end Calls

/-! ### A stream -/

/-- Every chunk has at most one choice, no finish chunk comes before a call is complete, and all
calls end whole; `fs` are the fragments so far. -/
def cleanFrom : List Fields → List Json → Bool
  | fs, [] => wholeCalls fs
  | fs, chunk :: chunks =>
      let fs' := fs ++ fragmentsOf chunk
      soleChoice chunk && (!finishes chunk || settledCalls fs') && cleanFrom fs' chunks

/-- What a sanitized stream reads as, as far as it reads. -/
def readings (texts : List (List Char)) : List Json := texts.filterMap (Json.loads false)

theorem Sim.run {texts : List (List Char)} {fs cs : List Fields} {slots : Slots}
    {emitted : List (ℤ × List Char)} (sim : Sim fs slots emitted) (received : Received fs emitted cs)
    (formed : ∀ data ∈ texts, wellFormed data = true) (clean : cleanFrom fs (readings texts) = true) :
    ∃ chunks slots' emitted', (feedAll slots texts).filterMap Output.json? = chunks ∧
      List.Forall₂ ChunkKept (readings texts) chunks ∧
      Sim (fs ++ (readings texts).flatMap fragmentsOf) slots' emitted' ∧
      Received (fs ++ (readings texts).flatMap fragmentsOf) emitted' (cs ++ chunks.flatMap fragmentsOf) ∧
      wholeCalls (fs ++ (readings texts).flatMap fragmentsOf) = true := by
  induction texts generalizing fs cs slots emitted with
  | nil =>
      refine ⟨[], slots, emitted, rfl, .nil, ?_⟩
      rw [readings, List.filterMap_nil, List.flatMap_nil, List.append_nil, List.append_nil]
      exact ⟨sim, received, clean⟩
  | cons data texts ih =>
      have here := formed data (List.mem_cons_self ..)
      obtain ⟨chunk, read, integer⟩ := (Option.any_eq_true _ _).mp here
      have read' := (Json.loads_plain read).1
      have first : readings (data :: texts) = chunk :: readings texts := by
        rw [readings, List.filterMap_cons_some read', readings]
      rw [first, cleanFrom] at clean
      simp only [Bool.and_eq_true, Bool.or_eq_true, Bool.not_eq_true'] at clean
      obtain ⟨⟨sole, settled⟩, clean⟩ := clean
      obtain ⟨chunk', emitted₁, out, sim₁, received₁⟩ := sim.feed received read integer sole (by
        intro ends i seen
        refine settledCalls_spec (settled.resolve_left ?_) i seen
        simp [ends])
      obtain ⟨chunk₀, chunk₀', read₀, out₀, kept⟩ := (feed_emits slots here).2.2
      rw [read'] at read₀
      rw [out] at out₀
      cases read₀
      cases out₀
      obtain ⟨chunks, slots', emitted', outs, keptAll, sim', received', wholes⟩ :=
        ih sim₁ received₁ (fun data mem => formed data (List.mem_cons_of_mem _ mem)) clean
      refine ⟨chunk' :: chunks, slots', emitted', ?_, ?_, ?_⟩
      · rw [feedAll, List.filterMap_cons_some out, outs]
      · rw [first]
        exact .cons kept keptAll
      · rw [first, List.flatMap_cons, List.flatMap_cons, ← List.append_assoc, ← List.append_assoc]
        exact ⟨sim', received', wholes⟩

/-- A kept chunk differs in the calls of its delta only. -/
theorem firstDelta_kept {chunk chunk' : Json} (kept : ChunkKept chunk chunk') {key : String}
    (ne : key ≠ "tool_calls") : (firstDelta chunk').get key = (firstDelta chunk).get key := by
  rcases kept with rfl | ⟨fields, fields', chs, chs', rfl, rfl, -, list, list', kept⟩
  · rfl
  · simp only [firstDelta, Json.get_obj, list, list']
    cases kept with
    | nil => rfl
    | cons choice _ =>
        rcases choice with rfl | ⟨ch, ch', rfl, rfl, delta, -, -⟩
        · rfl
        · simp only [Json.get_obj]
          rcases delta with same | ⟨d, d', old, new, erased⟩
          · rw [same]
          · rw [old, new, Json.get_obj, Json.get_obj, ← Fields.get_erase_of_ne d' ne, erased,
              Fields.get_erase_of_ne d ne]

/-- Two readings with the same text. -/
def SameText (reading reading' : Reading) : Prop :=
  reading.content = reading'.content ∧ reading.reasoning = reading'.reasoning

theorem SameText.add {reading reading' : Reading} (same : SameText reading reading') {chunk chunk' : Json}
    (kept : ChunkKept chunk chunk') : SameText (reading.add chunk) (reading'.add chunk') := by
  have content := @firstDelta_kept chunk chunk' kept "content" (by decide)
  have reasoning := @firstDelta_kept chunk chunk' kept "reasoning" (by decide)
  have other := @firstDelta_kept chunk chunk' kept "reasoning_content" (by decide)
  simp only [SameText, Reading.add, content, reasoning, other, same.1, same.2, and_self]

theorem SameText.foldl {chunks chunks' : List Json} (kept : List.Forall₂ ChunkKept chunks chunks')
    {reading reading' : Reading} (same : SameText reading reading') :
    SameText (chunks.foldl Reading.add reading) (chunks'.foldl Reading.add reading') := by
  induction kept generalizing reading reading' with
  | nil => exact same
  | cons kept _ ih => exact ih (same.add kept)

theorem accumulate_fragments (acc : Dict ℤ CallEntry) (chunk : Json) :
    accumulateToolCallDeltas acc ((firstDelta chunk).get "tool_calls") =
      (fragmentsOf chunk).foldl (fun acc d => accumulateDelta acc (.obj d)) acc := by
  rw [fragmentsOf]
  cases (firstDelta chunk).get "tool_calls" with
  | arr deltas =>
      rw [accumulateToolCallDeltas, Json.asArr?, Option.getD_some]
      induction deltas generalizing acc with
      | nil => rfl
      | cons d deltas ih =>
          rw [List.foldl_cons, ih]
          cases d <;> rfl
  | _ => rfl

theorem calls_foldl (chunks : List Json) (reading : Reading) :
    (chunks.foldl Reading.add reading).calls =
      (chunks.flatMap fragmentsOf).foldl (fun acc d => accumulateDelta acc (.obj d)) reading.calls := by
  induction chunks generalizing reading with
  | nil => rfl
  | cons chunk chunks ih =>
      rw [List.foldl_cons, ih, List.flatMap_cons, List.foldl_append, Reading.add, accumulate_fragments]

theorem calls_readStream (chunks : List Json) :
    (readStream chunks).calls = gather (chunks.flatMap fragmentsOf) := calls_foldl chunks {}

/-! ### What is relayed -/

/-- A chunk of the backend and the texts that are relayed of it. -/
inductive Relayed : Json → List (List Char) → Prop
  | whole {chunk : Json} {data : List Char} : splitCoalescedFinishChunk chunk = none →
      Json.loads false data = some chunk → Relayed chunk [data]
  | halves {chunk head tail : Json} {data data' : List Char} :
      splitCoalescedFinishChunk chunk = some (head, tail) → Json.loads false data = some head →
      Json.loads false data' = some tail → Relayed chunk [data, data']
  /-- A chunk without choices that carries the usage. -/
  | usage {chunk : Json} : (chunk.get "choices").truthy = false → Relayed chunk []

theorem Reading.add_nothing (reading : Reading) {chunk : Json}
    (nothing : ∀ key, (firstDelta chunk).get key = .null) : reading.add chunk = reading := by
  simp [Reading.add, nothing, Json.asStr?, accumulateToolCallDeltas]

theorem Reading.add_congr (reading : Reading) {chunk chunk' : Json}
    (same : firstDelta chunk = firstDelta chunk') : reading.add chunk = reading.add chunk' := by
  rw [Reading.add, same, Reading.add]

/-- The first half of a split chunk has its text and calls, the second has none. -/
theorem split_deltas {chunk head tail : Json} (split : splitCoalescedFinishChunk chunk = some (head, tail)) :
    firstDelta head = firstDelta chunk ∧ firstDelta tail = .obj [] := by
  unfold splitCoalescedFinishChunk at split
  split at split
  · split at split
    · rename_i fields chs list
      split at split
      · rename_i found
        cases split
        rw [Bool.and_eq_true, List.all_eq_true, List.any_eq_true] at found
        obtain ⟨objects, ch, mem, -⟩ := found
        cases chs with
        | nil => cases mem
        | cons ch chs =>
            obtain ⟨f, object⟩ := Option.isSome_iff_exists.mp (objects ch (List.mem_cons_self ..))
            cases Json.asObj?_eq_some.mp object
            constructor
            · simp only [firstDelta, Json.get_obj, Fields.get_set_self, List.map_cons, headChoice, list]
              rw [Fields.get_set_of_ne _ (by decide)]
            · simp only [firstDelta, Json.get_obj, Fields.get_erase_of_ne _ (show "choices" ≠ "usage" by decide),
                Fields.get_set_self, List.map_cons, tailChoice]
      · cases split
    · cases split
  · cases split

/-- A reader gets the same from the relayed texts as from the backend's chunks. -/
theorem readStream_relayed {chunks : List Json} {texts : List (List (List Char))}
    (relayed : List.Forall₂ Relayed chunks texts) :
    readStream (readings texts.flatten) = readStream chunks := by
  have run : ∀ reading : Reading,
      (readings texts.flatten).foldl Reading.add reading = chunks.foldl Reading.add reading := by
    induction relayed with
    | nil => exact fun _ => rfl
    | @cons chunk data chunks texts one _ ih =>
        intro reading
        rw [List.flatten_cons, readings, List.filterMap_append, List.foldl_append, List.foldl_cons,
          ← readings, ← readings]
        have first : (readings data).foldl Reading.add reading = reading.add chunk := by
          cases one with
          | whole _ read => simp [readings, read]
          | halves split read read' =>
              obtain ⟨same, nothing⟩ := split_deltas split
              simp only [readings, List.filterMap_cons, read, read', List.filterMap_nil, List.foldl_cons,
                List.foldl_nil]
              rw [Reading.add_nothing _ fun key => by rw [nothing]; rfl]
              exact reading.add_congr same
          | usage falsy =>
              rw [reading.add_nothing]
              · rfl
              · intro key
                have absent : firstDelta chunk = .null := by
                  unfold firstDelta
                  split
                  · rename_i list
                    rw [list] at falsy
                    cases falsy
                  · rfl
                rw [absent]
                rfl
        rw [first]
        exact ih _
  exact run {}

/-- A clean stream reads the same before the sanitizer and after it. -/
theorem readStream_sanitized {κ : Type} (digest : Digest κ) {texts : List (List Char)}
    (formed : ∀ data ∈ texts, wellFormed data = true) (clean : cleanFrom [] (readings texts) = true) :
    SameText (readStream (readings texts)) (readStream ((feedAll ∅ texts).filterMap Output.json?)) ∧
      normalizeToolCalls digest (callList (readStream (readings texts)).calls) =
        normalizeToolCalls digest
          (callList (readStream ((feedAll ∅ texts).filterMap Output.json?)).calls) := by
  obtain ⟨chunks, slots, emitted, outs, kept, sim, received, wholes⟩ :=
    @Sim.run texts [] [] ∅ [] sim_empty .nil formed clean
  rw [outs, calls_readStream, calls_readStream]
  exact ⟨SameText.foldl kept ⟨rfl, rfl⟩, sim.gather digest received wholes⟩

end Roadstead.Replay
