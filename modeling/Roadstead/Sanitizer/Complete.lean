import Roadstead.Sanitizer.Slots

/-!
# What the sanitizer does not lose

A `Turn` is the stream of one choice up to its finish chunk.  `Turn.Complete` asks that every
call with a name arrives with the arguments it was given: once, and with exactly the value that
its text begins with, or `{}` when the text is blank; that only a call whose text never held a
value is dropped; and that a drop is what relabels the `finish_reason`.

`complete_iff` says when this holds.  Two kinds of call are lost although their arguments are
complete.

* Arguments that begin with white space.  `_complete_value` allows for it in its docstring, but
  `raw_decode` does not skip it, so the call is dropped as if it had been truncated.
* A call without arguments, when the finish chunk has no delta.  The second step closes its slot
  and the third, which writes into the delta, does not run.

The rest is `Turn.emitted_eq`: what is emitted for an index is what `Slot.run` emits for the
fragments of that index, so nothing depends on how they are spread over the chunks.
-/

namespace Roadstead.ToolCallStreamSanitizer

open Json (Fields)

/-! ### Arguments that are complete -/

/-- The value that a text begins with after white space, and its text. -/
def value? (text : List Char) : Option (Json × List Char) :=
  let text := text.dropWhile Json.isWs
  (Json.rawDecode text).map fun found => (found.1, text.take (text.length - found.2.length))

/-- The arguments of a call that can be sent: its object, array or string, or none at all. -/
def legalArguments? (text : List Char) : Option (List Char) :=
  if Text.strip text = [] then some "{}".toList
  else (value? text).bind fun found => if found.1.isClosed then some found.2 else none

/-- There are arguments, and no part of the text that came first is complete. -/
def NeverComplete (text : List Char) : Prop :=
  Text.strip text ≠ [] ∧ ∀ front, front <+: text → value? front = none

/-- Arguments that begin with white space. -/
def indented (text : List Char) : Bool := text.head?.any Json.isWs

theorem dropWhile_of_not_indented {text : List Char} (flush : indented text = false) :
    text.dropWhile Json.isWs = text := by
  cases text with
  | nil => rfl
  | cons c text =>
      have first : Json.isWs c = false := flush
      rw [List.dropWhile_cons, first]
      rfl

/-- The decoder does not skip white space. -/
theorem rawDecode_indented {text : List Char} (leading : indented text = true) :
    Json.rawDecode text = none := by
  by_contra read
  obtain ⟨⟨v, r⟩, found⟩ := Option.ne_none_iff_exists'.mp read
  obtain ⟨c, s, rfl, no_space, -⟩ := Json.rawDecode_head found
  have space : Json.isWs c = true := leading
  rw [space] at no_space
  cases no_space

theorem value?_isSome {text : List Char} :
    (value? text).isSome = (Json.rawDecode (text.dropWhile Json.isWs)).isSome := by
  rw [value?, Option.isSome_map]

/-- A text that was complete stays so. -/
theorem value?_of_prefix {front text : List Char} (short : front <+: text)
    (complete : (value? front).isSome = true) : (value? text).isSome = true := by
  obtain ⟨more, rfl⟩ := short
  rw [value?_isSome] at complete ⊢
  have text_left : front.dropWhile Json.isWs ≠ [] := by
    intro blank
    rw [blank] at complete
    cases complete
  rw [List.dropWhile_append, if_neg (by simpa [List.isEmpty_iff] using text_left)]
  exact Json.isSome_rawDecode_append complete more

/-- No value begins with white space of any kind. -/
theorem rawDecode_head_text {s r : List Char} {v : Json} (read : Json.rawDecode s = some (v, r)) :
    ∃ c s', s = c :: s' ∧ Text.isSpace c = false := by
  cases s with
  | nil => cases read
  | cons c s =>
      refine ⟨c, s, rfl, ?_⟩
      by_contra space
      rw [Bool.not_eq_false] at space
      have no_mark : c ∉ Json.marks := by
        have not_space : ∀ c ∈ Json.marks, Text.isSpace c = false :=
          List.all_iff_forall_prop.1 (by decide)
        intro mark
        rw [not_space c mark] at space
        cases space
      have no_digit : c.isDigit = false := by
        by_contra digit
        rw [Bool.not_eq_false, Char.isDigit_iff_toNat] at digit
        change 48 ≤ c.toNat ∧ c.toNat ≤ 57 at digit
        simp only [Text.isSpace, Bool.or_eq_true, Bool.and_eq_true, decide_eq_true_eq] at space
        omega
      have failed : Json.valueWith (Json.members false (c :: s).length)
          (Json.elements false (c :: s).length) c s = none := by
        rw [Json.valueWith_of_not_mark _ _ no_mark, no_digit]
        rfl
      cases failed.symm.trans read

/-- A blank text is not complete. -/
theorem value?_blank {text : List Char} (blank : Text.strip text = []) : value? text = none := by
  rw [Text.strip_eq_nil_iff] at blank
  cases found : Json.rawDecode (text.dropWhile Json.isWs) with
  | none => rw [value?, found, Option.map_none]
  | some read =>
      obtain ⟨c, s, cut, isText⟩ := rawDecode_head_text found
      have mem : c ∈ text := (List.dropWhile_suffix _).mem (by rw [cut]; exact List.mem_cons_self)
      rw [blank c mem] at isText
      cases isText

/-! ### The stream of one choice -/

/-- The only choice of a chunk. -/
def soleChoice? (chunk : Json) : Option Fields :=
  match chunk.get "choices" with
  | .arr [.obj ch] => some ch
  | _ => none

/-- An index that Python compares as it is compared here: `True` is `1` there. -/
def isIndex : Json → Bool
  | .int _ | .str _ | .null => true
  | _ => false

theorem isIndex_zero : isIndex (.int 0) = true :=
  rfl

/-- A chunk of a stream with one choice: JSON that writes no key with an escape, with this choice
or with none. -/
def chunkOf (ci : Json) (data : List Char) : Bool :=
  (Json.loads true data).any fun chunk =>
    match chunk.get "choices" with
    | .arr [] => true
    | .arr [.obj ch] => decide (choiceIndex ch = ci) &&
        ((fragments? ch).getD []).all fun tc => isIndex (tc.get "index")
    | .arr _ => false
    | _ => true

/-- The choice of a chunk. -/
def choiceOf (data : List Char) : Option Fields := (Json.loads false data).bind soleChoice?

/-- The fragments of a chunk. -/
def fragmentsOf (data : List Char) : List Json := ((choiceOf data).bind fragments?).getD []

/-- The `finish_reason` of a chunk. -/
def reasonOf (data : List Char) : Json :=
  ((choiceOf data).map fun ch => ch.get "finish_reason").getD .null

/-- The stream of one choice, up to its finish chunk. -/
structure Turn where
  choice : Json
  body : List (List Char)
  last : List Char
  index : isIndex choice = true
  chunks : ∀ data ∈ body ++ [last], chunkOf choice data = true
  unfinished : ∀ data ∈ body, reasonOf data = .null
  finished : reasonOf last ≠ .null

namespace Turn

variable (t : Turn)

def outputs : List Output := feedAll ∅ (t.body ++ [t.last])

/-- The fragments of one call. -/
def fragments (idx : Json) : List Fields := own idx ((t.body ++ [t.last]).flatMap fragmentsOf)

/-- A fragment brought a name. -/
def named (idx : Json) : Bool := (t.fragments idx).any fun tc => (fragmentName tc).isSome

/-- The arguments of a call, put together. -/
def text (idx : Json) : List Char := (t.fragments idx).flatMap fragmentArgs

/-- The arguments that the calls of one index have in the sanitized stream. -/
def emitted (idx : Json) : List Json := argsAt (t.choice, idx) (emittedCalls t.outputs)

/-- A call with a name that is not in the sanitized stream. -/
def Dropped (idx : Json) : Prop := t.named idx = true ∧ t.emitted idx = []

/-- The `finish_reason` of the finish chunk. -/
def reason : Json := reasonOf t.last

/-- The `finish_reason` that a reader of an output gets. -/
def outReason (out : Output) : Json :=
  ((out.json?.bind soleChoice?).map fun ch => ch.get "finish_reason").getD .null

/-- The `finish_reason` of the sanitized stream. -/
def reasonOut : Json := (t.outputs.getLast?.map outReason).getD .null

/-- Whether the finish chunk has a delta. -/
def carriesDelta : Bool := ((choiceOf t.last).map hasDelta).getD false

/-- No call is lost, and a call that is dropped is seen in the `finish_reason`. -/
structure Complete : Prop where
  emitted : ∀ idx args, t.named idx = true → legalArguments? (t.text idx) = some args →
    t.emitted idx = [.str (String.ofList args)]
  dropped : ∀ idx, t.Dropped idx → NeverComplete (t.text idx)
  relabelled : relabelled t.reason = true →
    (t.reasonOut = .str "length" ↔ ∃ idx, t.Dropped idx ∧ NeverComplete (t.text idx))

end Turn

/-! ### One chunk -/

theorem own_append (idx : Json) (tcs tcs' : List Json) :
    own idx (tcs ++ tcs') = own idx tcs ++ own idx tcs' := by
  rw [own, List.filterMap_append, List.filter_append, own, own]

theorem hashable_of_isIndex {idx : Json} (index : isIndex idx = true) : hashable idx = true := by
  cases idx <;> first | rfl | cases index

/-- What a chunk of the stream holds: this choice, or none. -/
theorem chunkOf_cases {ci : Json} {data : List Char} (formed : chunkOf ci data = true) :
    ∃ chunk, Json.loads true data = some chunk ∧
      ((∃ ch, chunk.get "choices" = .arr [.obj ch] ∧ choiceIndex ch = ci ∧
          ∀ tc ∈ (fragments? ch).getD [], isIndex (tc.get "index") = true) ∨
        soleChoice? chunk = none ∧ ∀ chs, chunk.get "choices" = .arr chs → chs = []) := by
  obtain ⟨chunk, read, formed⟩ := (Option.any_eq_true _ _).mp formed
  refine ⟨chunk, read, ?_⟩
  split at formed
  · rename_i list
    refine .inr ⟨by simp only [soleChoice?, list], fun chs same => ?_⟩
    rw [list] at same
    cases same
    rfl
  · rename_i ch list
    rw [Bool.and_eq_true, decide_eq_true_eq, List.all_eq_true] at formed
    exact .inl ⟨ch, list, formed.1, formed.2⟩
  · cases formed
  · rename_i none_there one_there other
    refine .inr ⟨?_, fun chs same => absurd same (other chs)⟩
    unfold soleChoice?
    split
    · rename_i ch list
      exact absurd list (one_there ch)
    · rfl

section Raw

variable {data : List Char} {chunk : Json} (read : Json.loads false data = some chunk)

include read

theorem choiceOf_eq : choiceOf data = soleChoice? chunk := by
  rw [choiceOf, read, Option.bind_some]

theorem raw_calls : (Output.raw data).calls = toolCalls chunk := by
  rw [Output.calls, Output.json?, read]
  rfl

theorem raw_reason : Turn.outReason (.raw data) = reasonOf data := by
  rw [Turn.outReason, Output.json?, read, reasonOf, choiceOf_eq read, Option.bind_some]

/-- A chunk without choices is passed on. -/
theorem feed_of_no_choice (slots : Slots)
    (no_choice : ∀ chs, chunk.get "choices" = .arr chs → chs = []) :
    feed slots data = (slots, .raw data) ∧ (Output.raw data).calls = [] := by
  rw [raw_calls read, toolCalls]
  cases list : chunk.get "choices" with
  | arr chs =>
      obtain rfl := no_choice chs list
      refine ⟨?_, rfl⟩
      unfold feed
      split
      · rfl
      · rw [read]
        cases chunk with
        | obj fields =>
            rw [Json.get_obj] at list
            simp only [list, feedChoices]
        | _ => rfl
  | _ =>
      refine ⟨?_, rfl⟩
      unfold feed
      split
      · rfl
      · rw [read]
        cases chunk with
        | obj fields =>
            rw [Json.get_obj] at list
            simp only [list]
        | _ => rfl

end Raw

theorem waits_of_not_pending {slots : Slots} (idle : pending slots = false) (key : Json × Json) :
    (slotAt slots key).waits = false := by
  rw [slotAt]
  cases there : slots.get? key with
  | none => rfl
  | some st =>
      have mem : st ∈ slots.values := List.mem_map.mpr ⟨_, Dict.mem_entries_iff.mpr there, rfl⟩
      have isDone := List.any_eq_false.mp idle st mem
      simp only [Bool.not_eq_true, Bool.not_eq_false'] at isDone
      rw [Option.getD_some, Slot.waits, isDone]
      rfl

/-- Without fragments, and with nothing pending, a choice changes nothing. -/
theorem fed_idle {slots : Slots} {ch : Fields} (nothing : (fragments? ch).getD [] = [])
    (idle : pending slots = false) : Fed slots slots ch ch := by
  have unchanged : ∀ idx, ran slots ch idx = (slotAt slots (choiceIndex ch, idx), []) := by
    intro idx
    rw [ran, nothing]
    rfl
  refine ⟨fun _ idx => by rw [unchanged], fun idx => ?_, .inr ⟨rfl, ?_⟩⟩
  · rw [callsOf, nothing, unchanged, Slot.ending, waits_of_not_pending idle]
    split
    · rfl
    · split <;> rfl
  · rintro ⟨-, idx, isCut⟩
    rw [unchanged, Slot.cut, waits_of_not_pending idle] at isCut
    cases isCut

/-- A chunk without a choice is passed on, and one with a choice is what the three steps make of
it, also when it takes the fast path. -/
theorem feed_run (slots : Slots) {ci : Json} {data : List Char} (index : isIndex ci = true)
    (formed : chunkOf ci data = true) :
    choiceOf data = none ∧ feed slots data = (slots, .raw data) ∧ (Output.raw data).calls = [] ∨
      ∃ ch ch', choiceOf data = some ch ∧ choiceIndex ch = ci ∧
        Fed slots (feed slots data).1 ch ch' ∧
        (feed slots data).2.calls = callsOf (.obj ch') ∧
        Turn.outReason (feed slots data).2 = Fields.get ch' "finish_reason" := by
  obtain ⟨chunk, read, ⟨ch, list, rfl, indices⟩ | ⟨nothing, no_choice⟩⟩ := chunkOf_cases formed
  · right
    have read' := (Json.loads_plain read).1
    have sole : choiceOf data = some ch := by
      rw [choiceOf_eq read']
      simp only [soleChoice?, list]
    have calls : (Output.raw data).calls = callsOf (.obj ch) := by
      rw [raw_calls read', toolCalls, list, Json.asArr?, Option.getD_some, List.flatMap_singleton]
    have reason : Turn.outReason (.raw data) = Fields.get ch "finish_reason" := by
      rw [raw_reason read', reasonOf, sole]
      rfl
    by_cases fast : passes slots data = true
    · have fed : feed slots data = (slots, .raw data) := by rw [feed, if_pos fast]
      have no_calls := toolCalls_of_passes read fast
      rw [← raw_calls read', calls, callsOf, List.map_eq_nil_iff] at no_calls
      rw [passes, Bool.and_eq_true, Bool.not_eq_true', Bool.not_eq_true'] at fast
      rw [fed]
      exact ⟨ch, ch, sole, rfl, fed_idle no_calls fast.2, calls, reason⟩
    · have fragments : ∀ tc ∈ (fragments? ch).getD [], HashableFragment tc := by
        rintro tc mem fields rfl
        exact hashable_of_isIndex (indices _ mem)
      obtain ⟨slots', ch', changed, chosen, fed_choice, unchanged⟩ :=
        feedChoice_run slots (hashable_of_isIndex index) fragments
      refine ⟨ch, ch', sole, rfl, ?_⟩
      cases chunk with
      | obj fields =>
          rw [Json.get_obj] at list
          have stepped : feedChoices slots [.obj ch] = (slots', some ([.obj ch'], changed)) := by
            simp [feedChoices, chosen]
          cases changed with
          | true =>
              have fed : feed slots data =
                  (slots', .dumped (.obj (Fields.set fields "choices" (.arr [.obj ch'])))) := by
                rw [feed, if_neg fast, read']
                simp only [list, stepped]
              have rebuilt :
                  (Json.obj (Fields.set fields "choices" (.arr [.obj ch']))).get "choices" =
                    .arr [.obj ch'] := Fields.get_set_self _ _ _
              rw [fed]
              refine ⟨fed_choice, ?_, ?_⟩
              · rw [Output.calls, Output.json?, Option.map_some, Option.getD_some, toolCalls,
                  rebuilt, Json.asArr?, Option.getD_some, List.flatMap_singleton]
              · simp only [Turn.outReason, Output.json?, Option.bind_some, soleChoice?, rebuilt,
                  Option.map_some, Option.getD_some]
          | false =>
              have fed : feed slots data = (slots', .raw data) := by
                rw [feed, if_neg fast, read']
                simp only [list, stepped]
              obtain rfl := unchanged rfl
              rw [fed]
              exact ⟨fed_choice, calls, reason⟩
      | _ => cases list
  · have read' := (Json.loads_plain read).1
    exact .inl ⟨(choiceOf_eq read').trans nothing, feed_of_no_choice read' slots no_choice⟩

/-! ### All chunks -/

/-- The slots after some chunks. -/
def feedSlots (slots : Slots) (chunks : List (List Char)) : Slots :=
  chunks.foldl (fun slots data => (feed slots data).1) slots

theorem feedAll_append (slots : Slots) (chunks chunks' : List (List Char)) :
    feedAll slots (chunks ++ chunks') =
      feedAll slots chunks ++ feedAll (feedSlots slots chunks) chunks' := by
  induction chunks generalizing slots with
  | nil => rfl
  | cons data chunks ih =>
      rw [List.cons_append, feedAll, ih, feedAll, List.cons_append]
      rfl

/-- Before the finish chunk, a slot and what was emitted for it are those of its fragments. -/
theorem body_run {ci : Json} (index : isIndex ci = true) {chunks : List (List Char)}
    (formed : ∀ data ∈ chunks, chunkOf ci data = true)
    (unfinished : ∀ data ∈ chunks, reasonOf data = .null)
    (slots : Slots) (idx : Json) :
    let run := (slotAt slots (ci, idx)).run (own idx (chunks.flatMap fragmentsOf))
    slotAt (feedSlots slots chunks) (ci, idx) = run.1 ∧
      argsAt (ci, idx) (emittedCalls (feedAll slots chunks)) = sent run.2 := by
  intro run
  induction chunks generalizing slots with
  | nil => exact ⟨rfl, rfl⟩
  | cons data chunks ih =>
      -- what the first chunk does to the slot
      have first : slotAt (feed slots data).1 (ci, idx) =
            ((slotAt slots (ci, idx)).run (own idx (fragmentsOf data))).1 ∧
          argsAt (ci, idx) (feed slots data).2.calls =
            sent ((slotAt slots (ci, idx)).run (own idx (fragmentsOf data))).2 := by
        rcases feed_run slots index (formed data List.mem_cons_self) with
          ⟨nothing, fed, no_calls⟩ | ⟨ch, ch', has, rfl, fed, calls, -⟩
        · rw [fragmentsOf, nothing, fed, no_calls]
          exact ⟨rfl, rfl⟩
        · have not_last := unfinished data List.mem_cons_self
          rw [reasonOf, has, Option.map_some, Option.getD_some] at not_last
          rw [fragmentsOf, has, Option.bind_some, fed.slot not_last idx, calls, fed.args idx,
            if_pos not_last]
          exact ⟨rfl, rfl⟩
      obtain ⟨slot, args⟩ := ih (fun data mem => formed data (List.mem_cons_of_mem _ mem))
        (fun data mem => unfinished data (List.mem_cons_of_mem _ mem)) (feed slots data).1
      have whole : run = (slotAt slots (ci, idx)).run
          (own idx (fragmentsOf data) ++ own idx (chunks.flatMap fragmentsOf)) := by
        rw [← own_append]
        rfl
      rw [whole, Slot.run_append, ← first.1]
      refine ⟨slot, ?_⟩
      rw [feedAll, emittedCalls, List.flatMap_cons, argsAt_append, first.2, ← emittedCalls, args]
      exact (List.map_append).symm

namespace Turn

variable (t : Turn)

/-- The slot of a call after all fragments, and the arguments that were emitted with them. -/
def run (idx : Json) : Slot × List (List Char) := ({} : Slot).run (t.fragments idx)

theorem tracks (idx : Json) : Slot.Tracks (t.fragments idx) (t.run idx).1 (t.run idx).2 :=
  Slot.tracks_run (t.fragments idx)

theorem named_iff (idx : Json) : t.named idx = true ↔ (t.run idx).1.name.isSome = true := by
  rw [(t.tracks idx).name, List.findSome?_isSome_iff, named, List.any_eq_true]

theorem buf_eq (idx : Json) : (t.run idx).1.buf = t.text idx := (t.tracks idx).buf

theorem choiceOf_last : ∃ ch, choiceOf t.last = some ch := by
  cases has : choiceOf t.last with
  | some ch => exact ⟨ch, rfl⟩
  | none =>
      refine absurd ?_ t.finished
      rw [reasonOf, has]
      rfl

/-- The whole stream: what was emitted with the fragments, and what the finish chunk adds if it
has a delta. -/
theorem stream_run :
    (∀ idx, t.emitted idx =
      sent ((t.run idx).2 ++ if t.carriesDelta then (t.run idx).1.ending else [])) ∧
    (t.reasonOut = .str "length" ∧ relabelled t.reason = true ∧
        (∃ idx, (t.run idx).1.cut = true) ∨
      t.reasonOut = t.reason ∧
        ¬ (relabelled t.reason = true ∧ ∃ idx, (t.run idx).1.cut = true)) := by
  have body : ∀ data ∈ t.body, chunkOf t.choice data = true :=
    fun data mem => t.chunks data (List.mem_append_left _ mem)
  have ending := t.chunks t.last (List.mem_append_right _ (List.mem_singleton_self _))
  set slots := feedSlots ∅ t.body with slots_def
  have before : ∀ idx, slotAt slots (t.choice, idx) =
        (({} : Slot).run (own idx (t.body.flatMap fragmentsOf))).1 ∧
      argsAt (t.choice, idx) (emittedCalls (feedAll ∅ t.body)) =
        sent (({} : Slot).run (own idx (t.body.flatMap fragmentsOf))).2 :=
    fun idx => body_run t.index body t.unfinished ∅ idx
  have outs : t.outputs = feedAll ∅ t.body ++ [(feed slots t.last).2] := by
    rw [outputs, feedAll_append]
    rfl
  obtain ⟨ch, has⟩ := t.choiceOf_last
  rcases feed_run slots t.index ending with
    ⟨nothing, -⟩ | ⟨ch', out, has', same, fed, calls, reason⟩
  · rw [has] at nothing
    cases nothing
  · rw [has] at has'
    cases has'
    have finished : Fields.get ch "finish_reason" = t.reason := by
      rw [Turn.reason, reasonOf, has]
      rfl
    have not_null : t.reason ≠ .null := t.finished
    -- the fragments of the finish chunk come last
    have whole : ∀ idx, t.run idx = ((ran slots ch idx).1,
        (({} : Slot).run (own idx (t.body.flatMap fragmentsOf))).2 ++ (ran slots ch idx).2) := by
      intro idx
      have split : t.fragments idx =
          own idx (t.body.flatMap fragmentsOf) ++ own idx ((fragments? ch).getD []) := by
        rw [fragments, List.flatMap_append, own_append, List.flatMap_singleton, fragmentsOf, has]
        rfl
      rw [run, split, Slot.run_append, ran, same, (before idx).1]
    constructor
    · intro idx
      have last_args := fed.args idx
      rw [finished, if_neg not_null, same] at last_args
      have delta : t.carriesDelta = hasDelta ch := by
        rw [carriesDelta, has]
        rfl
      rw [emitted, outs, emittedCalls, List.flatMap_append, List.flatMap_singleton, argsAt_append,
        ← emittedCalls, (before idx).2, calls, last_args, whole idx, delta]
      cases mapping : hasDelta ch with
      | true => simp only [if_true, sent, List.map_append, List.append_assoc]
      | false =>
          -- without a delta the finish chunk brought no fragments
          have nothing : (ran slots ch idx).2 = [] := by
            have none_there : (fragments? ch).getD [] = [] := by
              rw [hasDelta] at mapping
              rw [fragments?]
              cases delta : Fields.get ch "delta" with
              | obj fields =>
                  rw [delta] at mapping
                  cases mapping
              | _ => rfl
            rw [ran, none_there]
            rfl
          simp [nothing]
    · have out_reason : t.reasonOut = Fields.get out "finish_reason" := by
        rw [reasonOut, outs, List.getLast?_concat, Option.map_some, Option.getD_some, reason]
      have cuts : (∃ idx, (ran slots ch idx).1.cut = true) ↔ ∃ idx, (t.run idx).1.cut = true := by
        simp only [whole]
      rw [out_reason, ← finished, ← cuts]
      exact fed.finish

section Call

variable (idx : Json)

/-- A call is done with its last fragment if it has a name and its text begins with a value. -/
theorem done_iff : (t.run idx).1.done = true ↔
    t.named idx = true ∧ (completeValue? (t.text idx)).isSome = true := by
  rw [(t.tracks idx).done_iff, named_iff, buf_eq]

theorem emitted_of_done (isDone : (t.run idx).1.done = true) :
    ∃ args, t.emitted idx = sent [args] := by
  obtain ⟨args, only⟩ := (t.tracks idx).emitted_of_done isDone
  have no_ending : (t.run idx).1.ending = [] := by
    rw [Slot.ending, Slot.waits, isDone]
    rfl
  refine ⟨args, ?_⟩
  rw [t.stream_run.1 idx, no_ending, ite_self, List.append_nil]
  exact congrArg sent only

theorem emitted_of_waiting (pending : (t.run idx).1.done = false) :
    t.emitted idx = sent (if t.carriesDelta then (t.run idx).1.ending else []) := by
  have nothing : (t.run idx).2 = [] := ((t.tracks idx).waiting pending).1
  rw [t.stream_run.1 idx, nothing, List.nil_append]

/-- A call that is not done and has arguments is dropped. -/
theorem cut_iff : (t.run idx).1.cut = true ↔
    t.named idx = true ∧ Text.strip (t.text idx) ≠ [] ∧ completeValue? (t.text idx) = none := by
  rw [Slot.cut, Slot.waits, buf_eq, Bool.and_eq_true, Bool.and_eq_true, Bool.not_eq_true',
    Bool.not_eq_true', decide_eq_false_iff_not, ← named_iff, ← Bool.not_eq_true, done_iff]
  constructor
  · rintro ⟨⟨unfinished, named⟩, text⟩
    refine ⟨named, text, ?_⟩
    by_contra complete
    exact unfinished ⟨named, Option.isSome_iff_ne_none.mpr complete⟩
  · rintro ⟨named, text, nothing⟩
    refine ⟨⟨?_, named⟩, text⟩
    rw [nothing]
    exact fun both => absurd both.2 (by simp)

theorem emitted_of_cut (isCut : (t.run idx).1.cut = true) : t.emitted idx = [] := by
  obtain ⟨named, text, nothing⟩ := (t.cut_iff idx).mp isCut
  have pending : (t.run idx).1.done = false := by
    rw [← Bool.not_eq_true, done_iff, nothing]
    exact fun both => absurd both.2 (by simp)
  have no_ending : (t.run idx).1.ending = [] := by
    rw [Slot.ending, buf_eq, if_neg (by simp [text])]
  rw [t.emitted_of_waiting idx pending, no_ending, ite_self]
  rfl

theorem blank_pending (blank : Text.strip (t.text idx) = []) : (t.run idx).1.done = false := by
  rw [← Bool.not_eq_true, done_iff, completeValue?, if_pos blank]
  exact fun both => absurd both.2 (by simp)

/-- A call without arguments has an empty object, if there is a delta to write it into. -/
theorem emitted_of_blank (isNamed : t.named idx = true) (blank : Text.strip (t.text idx) = []) :
    t.emitted idx = if t.carriesDelta then [.str "{}"] else [] := by
  have ending : (t.run idx).1.ending = ["{}".toList] := by
    rw [Slot.ending, Slot.waits, t.blank_pending idx blank, (t.named_iff idx).mp isNamed, buf_eq,
      blank]
    rfl
  rw [t.emitted_of_waiting idx (t.blank_pending idx blank), ending]
  split <;> rfl

end Call

end Turn

/-! ### When nothing is lost -/

namespace Turn

variable (t : Turn)

/-- No call with a name has white space before arguments that are complete. -/
def Flush : Prop :=
  ∀ idx, t.named idx = true → indented (t.text idx) = true → value? (t.text idx) = none

/-- The finish chunk has a delta, or there is no call without arguments. -/
def Room : Prop := t.carriesDelta = true ∨ ∀ idx, t.named idx = true → Text.strip (t.text idx) ≠ []

variable {t}

/-- Complete arguments that are not indented are what the sanitizer takes for complete. -/
theorem completeValue?_of_value? {text : List Char} (flush : indented text = false) {v : Json}
    {args : List Char} (found : value? text = some (v, args)) :
    completeValue? text = some args ∧ ∃ r, Json.rawDecode text = some (v, r) := by
  have text_left : Text.strip text ≠ [] := by
    intro blank
    rw [value?_blank blank] at found
    cases found
  rw [value?, dropWhile_of_not_indented flush] at found
  obtain ⟨⟨w, r⟩, read, same⟩ := Option.map_eq_some_iff.mp found
  cases same
  rw [completeValue?, if_neg text_left, read]
  exact ⟨rfl, r, rfl⟩

theorem completeValue?_of_indented {text : List Char} (leading : indented text = true) :
    completeValue? text = none := by
  unfold completeValue?
  split
  · rfl
  · rw [rawDecode_indented leading, Option.map_none]

/-- A call with complete arguments is flush. -/
theorem Flush.not_indented (flush : t.Flush) {idx : Json} (isNamed : t.named idx = true)
    (complete : (value? (t.text idx)).isSome = true) : indented (t.text idx) = false := by
  by_contra leading
  rw [flush idx isNamed (by simpa using leading)] at complete
  cases complete

/-- A call that the finish chunk drops was never complete. -/
theorem Flush.neverComplete (flush : t.Flush) {idx : Json} (isCut : (t.run idx).1.cut = true) :
    NeverComplete (t.text idx) := by
  obtain ⟨isNamed, text, nothing⟩ := (t.cut_iff idx).mp isCut
  refine ⟨text, fun front short => ?_⟩
  by_contra complete
  have whole := value?_of_prefix short (Option.isSome_iff_ne_none.mpr complete)
  obtain ⟨⟨v, args⟩, found⟩ := Option.isSome_iff_exists.mp whole
  rw [(completeValue?_of_value? (flush.not_indented isNamed whole) found).1] at nothing
  cases nothing

/-- A call that is dropped is dropped by the finish chunk. -/
theorem Room.cut_of_dropped (room : t.Room) {idx : Json} (dropped : t.Dropped idx) :
    (t.run idx).1.cut = true := by
  obtain ⟨isNamed, nothing⟩ := dropped
  rw [cut_iff]
  refine ⟨isNamed, fun blank => ?_, ?_⟩
  · rcases room with delta | none_blank
    · rw [t.emitted_of_blank idx isNamed blank, delta] at nothing
      cases nothing
    · exact none_blank idx isNamed blank
  · by_contra complete
    obtain ⟨args, only⟩ := t.emitted_of_done idx
      ((t.done_iff idx).mpr ⟨isNamed, Option.isSome_iff_ne_none.mpr complete⟩)
    rw [only] at nothing
    cases nothing

theorem complete_of_flush (flush : t.Flush) (room : t.Room) : t.Complete where
  emitted idx args isNamed legal := by
    unfold legalArguments? at legal
    split at legal
    · rename_i blank
      cases legal
      rw [t.emitted_of_blank idx isNamed blank]
      rcases room with delta | none_blank
      · rw [if_pos delta, String.ofList_toList]
      · exact absurd blank (none_blank idx isNamed)
    · obtain ⟨⟨v, args'⟩, found, closed⟩ := Option.bind_eq_some_iff.mp legal
      dsimp only at closed
      split_ifs at closed with isClosed
      · cases closed
        have whole : (value? (t.text idx)).isSome = true := by rw [found]; rfl
        obtain ⟨complete, r, read⟩ :=
          completeValue?_of_value? (flush.not_indented isNamed whole) found
        have isDone := (t.done_iff idx).mpr ⟨isNamed, by rw [complete]; rfl⟩
        have no_ending : (t.run idx).1.ending = [] := by
          rw [Slot.ending, Slot.waits, isDone]
          rfl
        have only : (t.run idx).2 = [args] := by
          rw [← buf_eq] at complete read
          exact (t.tracks idx).emitted_eq ((t.named_iff idx).mp isNamed) complete read isClosed
        rw [t.stream_run.1 idx, no_ending, ite_self, List.append_nil, only]
        rfl
  dropped idx dropped := flush.neverComplete (room.cut_of_dropped dropped)
  relabelled label := by
    have dropped_iff : (∃ idx, t.Dropped idx ∧ NeverComplete (t.text idx)) ↔
        ∃ idx, (t.run idx).1.cut = true := by
      refine exists_congr fun idx => ⟨fun lost => room.cut_of_dropped lost.1, fun isCut => ?_⟩
      exact ⟨⟨((t.cut_iff idx).mp isCut).1, t.emitted_of_cut idx isCut⟩, flush.neverComplete isCut⟩
    rw [dropped_iff]
    rcases t.stream_run.2 with ⟨isLength, -, isCut⟩ | ⟨same, not_cut⟩
    · exact ⟨fun _ => isCut, fun _ => isLength⟩
    · rw [same]
      constructor
      · intro isLength
        rw [isLength] at label
        cases label
      · exact fun isCut => absurd ⟨label, isCut⟩ not_cut

/-- An indented call is dropped, however complete its arguments are. -/
theorem flush_of_complete (complete : t.Complete) : t.Flush := by
  intro idx isNamed leading
  have not_done := completeValue?_of_indented leading
  by_contra some_value
  have text : Text.strip (t.text idx) ≠ [] := fun blank => some_value (value?_blank blank)
  have isCut := (t.cut_iff idx).mpr ⟨isNamed, text, not_done⟩
  have never := complete.dropped idx ⟨isNamed, t.emitted_of_cut idx isCut⟩
  exact some_value (never.2 _ List.prefix_rfl)

/-- Without a delta a call without arguments is lost. -/
theorem room_of_complete (complete : t.Complete) : t.Room := by
  by_contra no_room
  rw [Room, not_or, Bool.not_eq_true] at no_room
  obtain ⟨no_delta, some_blank⟩ := no_room
  push Not at some_blank
  obtain ⟨idx, isNamed, blank⟩ := some_blank
  have sent := complete.emitted idx _ isNamed (by rw [legalArguments?, if_pos blank])
  rw [t.emitted_of_blank idx isNamed blank, no_delta] at sent
  cases sent

end Turn

/-- A stream loses nothing exactly when no named call has white space before complete arguments,
and the finish chunk has a delta or no named call is without arguments. -/
theorem complete_iff (t : Turn) :
    t.Complete ↔
      (∀ idx, t.named idx = true → indented (t.text idx) = true → value? (t.text idx) = none) ∧
      (t.carriesDelta = true ∨ ∀ idx, t.named idx = true → Text.strip (t.text idx) ≠ []) :=
  ⟨fun complete => ⟨Turn.flush_of_complete complete, Turn.room_of_complete complete⟩,
    fun both => Turn.complete_of_flush both.1 both.2⟩

section Samples

/-- A chunk with a call of `ls`. -/
def callChunk (arguments : String) : List Char :=
  (r#"{"choices":[{"delta":{"tool_calls":[{"index":0,"function":"# ++
    r#"{"name":"ls","arguments":""# ++ arguments ++ r#""}}]}}]}"#).toList

/-- A finish chunk with an empty delta. -/
def finishChunk : List Char :=
  r#"{"choices":[{"delta":{},"finish_reason":"tool_calls"}]}"#.toList

/-- A finish chunk without a delta. -/
def bareFinishChunk : List Char :=
  r#"{"choices":[{"finish_reason":"tool_calls"}]}"#.toList

/-- The arguments are a space and an empty object. -/
def indentedTurn : Turn where
  choice := .int 0
  body := [callChunk " {}"]
  last := finishChunk
  index := isIndex_zero
  chunks := by decide +kernel
  unfinished := by decide +kernel
  finished := by decide +kernel

/-- There are no arguments, and the finish chunk has no delta. -/
def bareTurn : Turn where
  choice := .int 0
  body := [callChunk ""]
  last := bareFinishChunk
  index := isIndex_zero
  chunks := by decide +kernel
  unfinished := by decide +kernel
  finished := by decide +kernel

/-- Neither call is in the sanitized stream. -/
theorem legal_calls_lost : ¬ indentedTurn.Complete ∧ ¬ bareTurn.Complete := by
  constructor
  · intro complete
    have sent := complete.emitted (.int 0) "{}".toList (by decide +kernel) (by decide +kernel)
    have nothing : indentedTurn.emitted (.int 0) = [] := by decide +kernel
    rw [nothing] at sent
    cases sent
  · intro complete
    have sent := complete.emitted (.int 0) "{}".toList (by decide +kernel) (by decide +kernel)
    have nothing : bareTurn.emitted (.int 0) = [] := by decide +kernel
    rw [nothing] at sent
    cases sent

end Samples

end Roadstead.ToolCallStreamSanitizer
