import Roadstead.Replay.Stream
import Roadstead.Sanitizer.Complete

/-!
# The gate on a cut tool turn

At the end of a stream that declared tools, `execute_streaming` looks at the calls it put together
from the raw chunks.  `has_cut_tool_call` asks of each whole call what the sanitizer asked of it
fragment by fragment.  `hasCutToolCall_iff`: the two agree on every stream of one choice.

The gate and the relabelled `finish_reason` agree less: the gate asks for any `finish_reason` but
`length`, and the sanitizer relabels `tool_calls` and `stop` only.  `gate_iff` has the difference.
-/

namespace Roadstead.ToolTurn

open Json (Fields)
open ToolCallStreamSanitizer (completeValue? relabelled)
open Replay (CallEntry Reading readStream readings)

/-! ### The predicates -/

/-- One turn of the loop of `has_cut_tool_call`: a call with a name whose arguments are cut. -/
def cutToolCall (tc : Json) : Bool :=
  match tc.get "function" with
  | .obj fn =>
      match Fields.get fn "name", Fields.get fn "arguments" with
      | .str name, .str args =>
          decide (Text.strip name.toList ≠ []) && decide (Text.strip args.toList ≠ []) &&
            (completeValue? args.toList).isNone
      | _, _ => false
  | _ => false

/-- `has_cut_tool_call`. -/
def hasCutToolCall (tcs : List Json) : Bool := tcs.any cutToolCall

/-- `request_declares_tools`. -/
def requestDeclaresTools (payload : Json) : Bool :=
  match payload.get "tools" with
  | .arr tools => !tools.isEmpty
  | _ => false

/-- `tool_call_is_complete`. -/
def toolCallIsComplete (tc : Json) : Bool :=
  match tc.get "function" with
  | .obj fn =>
      match Fields.get fn "name" with
      | .str name => decide (Text.strip name.toList ≠ []) &&
          match Fields.get fn "arguments" with
          | .obj _ => true
          | .str args => decide (Text.strip args.toList ≠ []) &&
              (Json.loads false args.toList).any fun v => v.asObj?.isSome
          | _ => false
      | _ => false
  | _ => false

/-- What the gate knows besides the chunks. -/
structure Request where
  payloadType : String
  payload : Json
  /-- The tokens that the backend counted. -/
  outputTokens : ℤ
  /-- An earlier guard has failed the stream. -/
  failed : Bool

/-- `is_truncated_tool_turn`. -/
def isTruncatedToolTurn (req : Request) (finish : Json) (calls : List Json) : Bool :=
  decide (req.payloadType = "chat_completion") && requestDeclaresTools req.payload &&
    if finish = .str "length" then !calls.any toolCallIsComplete
    else if relabelled finish && !calls.isEmpty then
      match req.payload.get "max_tokens" with
      | .int cap => decide (0 < cap ∧ cap ≤ req.outputTokens)
      | _ => false
    else false

/-- `tools_declared`. -/
def Request.toolsDeclared (req : Request) : Bool :=
  decide (req.payloadType = "chat_completion") && requestDeclaresTools req.payload

/-- The gate on a tool turn: the code of the error that ends the stream. -/
def toolTurnGate (req : Request) (finish : Json) (calls : List Json) : Option String :=
  if !req.failed && req.toolsDeclared then
    if isTruncatedToolTurn req finish calls then some "truncated_tool_turn"
    else if decide (finish ≠ .str "length") && hasCutToolCall calls then some "toolcall_truncated"
    else none
  else none

/-! ### What the gate is given -/

/-- `[stream_tool_calls[i] for i in sorted(stream_tool_calls)]`. -/
def sortedCalls (acc : Dict ℤ CallEntry) : List Json :=
  (acc.keys.insertionSort (· ≤ ·)).map fun i => ((acc.get? i).getD {}).json

/-- The `finish_reason` of the first choice. -/
def firstReason (chunk : Json) : Json :=
  match chunk.get "choices" with
  | .arr (ch :: _) => ch.get "finish_reason"
  | _ => .null

/-- `last_finish_reason`: what is false does not count. -/
def lastFinishReason (chunks : List Json) : Json :=
  chunks.foldl
    (fun last chunk => if (firstReason chunk).truthy then firstReason chunk else last) .null

/-- The gate at the end of a stream, given the chunks as the backend sent them. -/
def gate (req : Request) (chunks : List Json) : Option String :=
  toolTurnGate req (lastFinishReason chunks) (sortedCalls (readStream chunks).calls)

/-! ### The whole calls and the slots -/

section Agreement

variable (t : ToolCallStreamSanitizer.Turn)

/-- The texts of a stream. -/
def texts : List (List Char) := t.body ++ [t.last]

/-- All fragments of a stream. -/
def fragments : List Fields :=
  ((texts t).flatMap ToolCallStreamSanitizer.fragmentsOf).filterMap Json.asObj?

/-- Every fragment has an integer for an index. -/
def IntegerIndices : Prop :=
  ∀ tc ∈ fragments t, ToolCallStreamSanitizer.isInt (Fields.get tc "index") = true

/-- No fragment brings a name that is blank. -/
def TextNames : Prop :=
  ∀ tc ∈ fragments t, ((ToolCallStreamSanitizer.fragmentName tc).all fun name =>
    decide (Text.strip name.toList ≠ [])) = true

/-- A reader of the raw chunks takes the fragments that the sanitizer takes. -/
theorem fragments_eq : (readings (texts t)).flatMap Replay.fragmentsOf = fragments t := by
  have each : ∀ data ∈ texts t, ∃ chunk, Json.loads false data = some chunk ∧
      Replay.fragmentsOf chunk =
        (ToolCallStreamSanitizer.fragmentsOf data).filterMap Json.asObj? := by
    intro data mem
    obtain ⟨chunk, read, ⟨ch, list, -, -⟩ | ⟨nothing, no_choice⟩⟩ :=
      ToolCallStreamSanitizer.chunkOf_cases (t.chunks data mem)
    · have read' := (Json.loads_plain read).1
      refine ⟨chunk, read', ?_⟩
      rw [Replay.fragmentsOf_sole list, ToolCallStreamSanitizer.fragmentsOf,
        ToolCallStreamSanitizer.choiceOf_eq read']
      simp only [ToolCallStreamSanitizer.soleChoice?, list, Option.bind_some]
    · have read' := (Json.loads_plain read).1
      refine ⟨chunk, read', ?_⟩
      have no_delta : Replay.firstDelta chunk = .null := by
        unfold Replay.firstDelta
        split
        · rename_i ch chs list
          cases no_choice _ list
        · rfl
      rw [Replay.fragmentsOf_null no_delta, ToolCallStreamSanitizer.fragmentsOf,
        ToolCallStreamSanitizer.choiceOf_eq read', nothing]
      rfl
  rw [fragments]
  generalize texts t = chunks at each
  induction chunks with
  | nil => rfl
  | cons data chunks ih =>
      obtain ⟨chunk, read, same⟩ := each data List.mem_cons_self
      rw [readings, List.filterMap_cons_some read, List.flatMap_cons, List.flatMap_cons,
        List.filterMap_append, ← same, ← readings,
        ih fun data mem => each data (List.mem_cons_of_mem _ mem)]

variable {t}

/-- The fragments of a call are those of its slot. -/
theorem pieces_eq (integer : IntegerIndices t) (i : ℤ) :
    Replay.pieces (fragments t) i = t.fragments (.int i) := by
  refine List.filter_congr fun tc mem => ?_
  have isInt := integer tc mem
  cases index : Fields.get tc "index" with
  | int n =>
      have there := @ToolCallStreamSanitizer.get?_of_get tc "index" (by rw [index]; nofun)
      rw [Replay.deltaIndex, there, index]
      simp
  | _ => simp [index, ToolCallStreamSanitizer.isInt] at isInt

/-- The names of a call put together are not blank if there is one. -/
theorem text_names {tcs : List Fields} (names : ∀ tc ∈ tcs, ∀ name,
    ToolCallStreamSanitizer.fragmentName tc = some name → Text.strip name.toList ≠ []) :
    (∃ c ∈ ((tcs.map Replay.nameText).filter fun name => name ≠ "").flatMap String.toList,
        Text.isSpace c = false) ↔
      ∃ tc ∈ tcs, (ToolCallStreamSanitizer.fragmentName tc).isSome = true := by
  constructor
  · rintro ⟨c, mem, -⟩
    obtain ⟨name, mem, -⟩ := List.mem_flatMap.mp mem
    obtain ⟨mem, nonempty⟩ := List.mem_filter.mp mem
    obtain ⟨tc, there, rfl⟩ := List.mem_map.mp mem
    refine ⟨tc, there, ?_⟩
    rw [Replay.fragmentName_eq, if_neg (by simpa using nonempty)]
    rfl
  · rintro ⟨tc, there, named⟩
    obtain ⟨name, brought⟩ := Option.isSome_iff_exists.mp named
    have text := names tc there name brought
    rw [Ne, Text.strip_eq_nil_iff] at text
    push Not at text
    obtain ⟨c, mem, no_space⟩ := text
    rw [Replay.fragmentName_eq] at brought
    split at brought
    · cases brought
    · rename_i nonempty
      cases brought
      refine ⟨c, List.mem_flatMap.mpr ⟨_, ?_, mem⟩, by simpa using no_space⟩
      exact List.mem_filter.mpr ⟨List.mem_map.mpr ⟨tc, there, rfl⟩, by simpa using nonempty⟩

/-- What the two readers know of a call. -/
theorem entry_eq (integer : IntegerIndices t) (names : TextNames t) {i : ℤ} {entry : CallEntry}
    (there : (readStream (readings (texts t))).calls.get? i = some entry) :
    entry.arguments.toList = t.text (.int i) ∧
      (Text.strip entry.name.toList ≠ [] ↔ t.named (.int i) = true) := by
  rw [Replay.calls_readStream, fragments_eq, Replay.gather] at there
  rcases Replay.get?_accumulate (fragments t) i with ⟨absent, -⟩ | ⟨entry', here, -, name, args⟩
  · rw [absent] at there
    cases there
  · rw [here] at there
    cases there
    refine ⟨?_, ?_⟩
    · rw [args, Replay.args, pieces_eq integer, ToolCallStreamSanitizer.Turn.text]
      rfl
    · have brought : ∀ tc ∈ t.fragments (.int i), ∀ name,
          ToolCallStreamSanitizer.fragmentName tc = some name → Text.strip name.toList ≠ [] := by
        intro tc mem name isName
        have := names tc (List.mem_filter.mp mem).1
        rwa [isName, Option.all_some, decide_eq_true_eq] at this
      rw [Ne, Text.strip_eq_nil_iff, name, Replay.names, pieces_eq integer,
        ToolCallStreamSanitizer.Turn.named, List.any_eq_true, ← text_names brought]
      push Not
      simp only [Bool.not_eq_true]

theorem cutToolCall_json (entry : CallEntry) : cutToolCall entry.json = true ↔
    Text.strip entry.name.toList ≠ [] ∧ Text.strip entry.arguments.toList ≠ [] ∧
      completeValue? entry.arguments.toList = none := by
  have fields : cutToolCall entry.json =
      (decide (Text.strip entry.name.toList ≠ []) &&
        decide (Text.strip entry.arguments.toList ≠ []) &&
          (completeValue? entry.arguments.toList).isNone) := rfl
  rw [fields, Bool.and_eq_true, Bool.and_eq_true, decide_eq_true_eq, decide_eq_true_eq,
    Option.isNone_iff_eq_none, and_assoc]

theorem hasCutToolCall_sortedCalls (acc : Dict ℤ CallEntry) :
    hasCutToolCall (sortedCalls acc) = true ↔
      ∃ i entry, acc.get? i = some entry ∧ cutToolCall entry.json = true := by
  rw [hasCutToolCall, List.any_eq_true]
  constructor
  · rintro ⟨tc, mem, isCut⟩
    obtain ⟨i, key, rfl⟩ := List.mem_map.mp mem
    rw [List.mem_insertionSort] at key
    obtain ⟨entry, there⟩ := Dict.mem_keys_iff.mp key
    rw [there] at isCut
    exact ⟨i, entry, there, isCut⟩
  · rintro ⟨i, entry, there, isCut⟩
    refine ⟨entry.json, List.mem_map.mpr ⟨i, ?_, by rw [there]; rfl⟩, isCut⟩
    rw [List.mem_insertionSort]
    exact Dict.mem_keys_iff.mpr ⟨entry, there⟩

/-- A slot with fragments is a call of the reader. -/
theorem entry_of_named (integer : IntegerIndices t) {idx : Json} (named : t.named idx = true) :
    ∃ i entry, idx = .int i ∧ (readStream (readings (texts t))).calls.get? i = some entry := by
  obtain ⟨tc, mem, -⟩ := List.any_eq_true.mp named
  obtain ⟨all, index⟩ := List.mem_filter.mp mem
  rw [decide_eq_true_eq] at index
  have isInt := integer tc all
  rw [index] at isInt
  cases idx with
  | int i =>
      rw [Replay.calls_readStream, fragments_eq, Replay.gather]
      rcases Replay.get?_accumulate (fragments t) i with ⟨-, nothing⟩ | ⟨entry, there, -⟩
      · rw [pieces_eq integer] at nothing
        rw [nothing] at mem
        cases mem
      · exact ⟨i, entry, rfl, there⟩
  | _ => cases isInt

/-- The whole calls are cut if the finish chunk cuts a slot. -/
theorem hasCutToolCall_iff_cut (integer : IntegerIndices t) (names : TextNames t) :
    hasCutToolCall (sortedCalls (readStream (readings (texts t))).calls) = true ↔
      ∃ idx, (t.run idx).1.cut = true := by
  rw [hasCutToolCall_sortedCalls]
  constructor
  · rintro ⟨i, entry, there, isCut⟩
    obtain ⟨args, name⟩ := entry_eq integer names there
    rw [cutToolCall_json, args, name] at isCut
    exact ⟨.int i, (t.cut_iff (.int i)).mpr isCut⟩
  · rintro ⟨idx, isCut⟩
    have known := (t.cut_iff idx).mp isCut
    obtain ⟨i, entry, rfl, there⟩ := entry_of_named integer known.1
    obtain ⟨args, name⟩ := entry_eq integer names there
    refine ⟨i, entry, there, ?_⟩
    rwa [cutToolCall_json, args, name]

/-- With a delta in the finish chunk, the slots that it cuts are the calls that are dropped. -/
theorem cut_iff_dropped (delta : t.carriesDelta = true) :
    (∃ idx, (t.run idx).1.cut = true) ↔ ∃ idx, t.Dropped idx := by
  have room : t.Room := .inl delta
  refine exists_congr fun idx => ⟨fun isCut => ?_, room.cut_of_dropped⟩
  exact ⟨((t.cut_iff idx).mp isCut).1, t.emitted_of_cut idx isCut⟩

theorem firstReason_eq {data : List Char} (mem : data ∈ texts t) {chunk : Json}
    (read : Json.loads false data = some chunk) :
    firstReason chunk = ToolCallStreamSanitizer.reasonOf data := by
  rw [ToolCallStreamSanitizer.reasonOf, ToolCallStreamSanitizer.choiceOf_eq read]
  obtain ⟨chunk', read', sole⟩ := ToolCallStreamSanitizer.chunkOf_cases (t.chunks data mem)
  obtain rfl : chunk' = chunk := Option.some.inj ((Json.loads_plain read').1.symm.trans read)
  rcases sole with ⟨ch, list, -, -⟩ | ⟨nothing, no_choice⟩
  · simp only [firstReason, ToolCallStreamSanitizer.soleChoice?, list]
    rfl
  · rw [nothing]
    unfold firstReason
    split
    · rename_i ch chs list
      cases no_choice _ list
    · rfl

variable (t) in
/-- Only the finish chunk has a `finish_reason`. -/
theorem lastFinishReason_eq : lastFinishReason (readings (texts t)) =
    if t.reason.truthy then t.reason else .null := by
  have readable : ∀ data ∈ texts t, ∃ chunk, Json.loads false data = some chunk := by
    intro data mem
    obtain ⟨chunk, read, -⟩ := ToolCallStreamSanitizer.chunkOf_cases (t.chunks data mem)
    exact ⟨chunk, (Json.loads_plain read).1⟩
  have before : ∀ chunks, (∀ data ∈ chunks, data ∈ t.body) →
      lastFinishReason (readings chunks) = .null := by
    intro chunks inBody
    induction chunks with
    | nil => rfl
    | cons data chunks ih =>
        have here := inBody data List.mem_cons_self
        have mem : data ∈ texts t := List.mem_append_left _ here
        obtain ⟨chunk, read⟩ := readable data mem
        have nothing : firstReason chunk = .null :=
          (firstReason_eq mem read).trans (t.unfinished data here)
        rw [readings, List.filterMap_cons_some read, ← readings, lastFinishReason, List.foldl_cons,
          nothing]
        exact ih fun data mem => inBody data (List.mem_cons_of_mem _ mem)
  have last_mem : t.last ∈ texts t := List.mem_append_right _ (List.mem_singleton_self _)
  obtain ⟨chunk, read⟩ := readable t.last last_mem
  have split : readings (texts t) = readings t.body ++ [chunk] := by
    rw [texts, readings, List.filterMap_append, List.filterMap_cons_some read, List.filterMap_nil,
      readings]
  rw [split, lastFinishReason, List.foldl_append, ← lastFinishReason, before t.body fun _ => id,
    List.foldl_cons, List.foldl_nil, firstReason_eq last_mem read]
  rfl

/-- A `finish_reason` that the sanitizer changed is one that it relabels, and it dropped a call. -/
theorem reasonOut_ne_iff (delta : t.carriesDelta = true) :
    t.reasonOut ≠ t.reason ↔ relabelled t.reason = true ∧ ∃ idx, t.Dropped idx := by
  rw [← cut_iff_dropped delta]
  rcases t.stream_run.2 with ⟨isLength, label, isCut⟩ | ⟨same, not_cut⟩
  · refine iff_of_true ?_ ⟨label, isCut⟩
    rw [isLength]
    intro same
    rw [← same] at label
    cases label
  · exact iff_of_false (fun ne => ne same) not_cut

/-- The two tests agree. -/
theorem hasCutToolCall_iff (integer : IntegerIndices t) (names : TextNames t)
    (delta : t.carriesDelta = true) :
    hasCutToolCall (sortedCalls (readStream (readings (texts t))).calls) = true ↔
      ∃ idx, t.Dropped idx :=
  (hasCutToolCall_iff_cut integer names).trans (cut_iff_dropped delta)

/-- The gate ends a stream with an error if the turn ran out of tokens, if the sanitizer relabels
its `finish_reason`, or if a call is dropped at one that is neither relabelled nor `length`. -/
theorem gate_iff (integer : IntegerIndices t) (names : TextNames t) (delta : t.carriesDelta = true)
    {req : Request} (alive : req.failed = false) (declared : req.toolsDeclared = true) :
    (gate req (readings (texts t))).isSome = true ↔
      isTruncatedToolTurn req (lastFinishReason (readings (texts t)))
          (sortedCalls (readStream (readings (texts t))).calls) = true ∨
        t.reasonOut ≠ t.reason ∨
        (∃ idx, t.Dropped idx) ∧ relabelled t.reason = false ∧ t.reason ≠ .str "length" := by
  have not_length : lastFinishReason (readings (texts t)) ≠ .str "length" ↔
      t.reason ≠ .str "length" := by
    rw [lastFinishReason_eq]
    by_cases isLength : t.reason = .str "length"
    · rw [isLength]
      decide
    · refine iff_of_true ?_ isLength
      split
      · exact isLength
      · exact nofun
  have relabels : ∀ {reason : Json}, relabelled reason = true → reason ≠ .str "length" := by
    rintro _ label rfl
    cases label
  rw [gate, toolTurnGate, alive, declared, Bool.not_false, Bool.and_self, if_pos rfl]
  by_cases truncated : isTruncatedToolTurn req (lastFinishReason (readings (texts t)))
      (sortedCalls (readStream (readings (texts t))).calls) = true
  · rw [if_pos truncated]
    exact iff_of_true rfl (.inl truncated)
  · rw [if_neg truncated, or_iff_right truncated, reasonOut_ne_iff delta,
      ← hasCutToolCall_iff integer names delta]
    have fires : ∀ c : Bool, (if c = true then some "toolcall_truncated" else none).isSome = true ↔
        c = true := by decide
    rw [fires, Bool.and_eq_true, decide_eq_true_eq, not_length]
    constructor
    · rintro ⟨ne, isCut⟩
      cases label : relabelled t.reason with
      | true => exact .inl ⟨rfl, isCut⟩
      | false => exact .inr ⟨isCut, rfl, ne⟩
    · rintro (⟨label, isCut⟩ | ⟨isCut, -, ne⟩)
      · exact ⟨relabels label, isCut⟩
      · exact ⟨ne, isCut⟩

/-- The two tests agree.  Of a stream that declared tools and that no earlier guard failed, the
gate makes an error if the turn ran out of tokens, if the sanitizer relabels its `finish_reason`,
or if a call is dropped at a `finish_reason` that is not `tool_calls`, `stop` or `length`. -/
theorem cut_tests_agree (t : ToolCallStreamSanitizer.Turn) (integer : IntegerIndices t)
    (names : TextNames t) (delta : t.carriesDelta = true) :
    (hasCutToolCall (sortedCalls (readStream (readings (texts t))).calls) = true ↔
      ∃ idx, t.Dropped idx) ∧
    ∀ req : Request, req.failed = false → req.toolsDeclared = true →
      ((gate req (readings (texts t))).isSome = true ↔
        isTruncatedToolTurn req (lastFinishReason (readings (texts t)))
            (sortedCalls (readStream (readings (texts t))).calls) = true ∨
          t.reasonOut ≠ t.reason ∨
          (∃ idx, t.Dropped idx) ∧ relabelled t.reason = false ∧ t.reason ≠ .str "length") :=
  ⟨hasCutToolCall_iff integer names delta,
    fun _ alive declared => gate_iff integer names delta alive declared⟩

end Agreement

section Samples

/-- A stream whose finish chunk has this `finish_reason`; the arguments of its call are cut. -/
def filteredFinish : List Char :=
  (r#"{"choices":[{"delta":{},"finish_reason":"content_filter"}]}"#).toList

def filteredTurn : ToolCallStreamSanitizer.Turn where
  choice := .int 0
  body := [ToolCallStreamSanitizer.callChunk "["]
  last := filteredFinish
  index := ToolCallStreamSanitizer.isIndex_zero
  chunks := by decide +kernel
  unfinished := by decide +kernel
  finished := by decide +kernel

/-- A request with a tool, of which no token is counted. -/
def toolRequest : Request where
  payloadType := "chat_completion"
  payload := .obj [("tools", .arr [.null])]
  outputTokens := 0
  failed := false

theorem cut_tests_agree_filtered :
    (hasCutToolCall (sortedCalls (readStream (readings (texts filteredTurn))).calls) = true ↔
      ∃ idx, filteredTurn.Dropped idx) ∧
    ((gate toolRequest (readings (texts filteredTurn))).isSome = true ↔
      isTruncatedToolTurn toolRequest (lastFinishReason (readings (texts filteredTurn)))
          (sortedCalls (readStream (readings (texts filteredTurn))).calls) = true ∨
        filteredTurn.reasonOut ≠ filteredTurn.reason ∨
        (∃ idx, filteredTurn.Dropped idx) ∧ relabelled filteredTurn.reason = false ∧
          filteredTurn.reason ≠ .str "length") := by
  have agree := cut_tests_agree filteredTurn (by unfold IntegerIndices; decide +kernel)
    (by unfold TextNames; decide +kernel) (by decide +kernel)
  exact ⟨agree.1, agree.2 toolRequest rfl (by decide +kernel)⟩

/-- The gate makes an error of a stream whose `finish_reason` the sanitizer leaves as it is. -/
theorem gate_fires_unrelabelled :
    IntegerIndices filteredTurn ∧ TextNames filteredTurn ∧ filteredTurn.carriesDelta = true ∧
      ¬ ((gate toolRequest (readings (texts filteredTurn))).isSome = true ↔
        filteredTurn.reasonOut ≠ filteredTurn.reason) := by
  refine ⟨by unfold IntegerIndices; decide +kernel, by unfold TextNames; decide +kernel,
    by decide +kernel, fun agree => ?_⟩
  have fires : (gate toolRequest (readings (texts filteredTurn))).isSome = true := by
    decide +kernel
  exact agree.mp fires (by decide +kernel)

end Samples

end Roadstead.ToolTurn
