import Roadstead.Lib.Json.Loaded
import Roadstead.Sanitizer.Sound
import Roadstead.StreamWire.Received

/-!
# The text of a stream

`text_received`: the text that `text_stream` yields is that of the backend's own chunks, one by one, at
either of our doors and whether or not their tool calls are corrected on the way.

The sanitizer prints a chunk again when it changed its calls.  What it prints is read back, since what
it started from had been read (`Keyed.feed`), and it has the same text (`textOf_feed`).
-/

namespace Roadstead.StreamWire

open Json (Fields Exact ExactFields ExactItems dumps)
open ToolCallStreamSanitizer

/-! ### The sanitizer prints what can be read -/

theorem exact_get {fields : Fields} (exact : ExactFields fields) (key : String) :
    Exact (Fields.get fields key) := by
  rw [Fields.get]
  cases found : Fields.get? fields key with
  | none => trivial
  | some v => exact Json.exactFields_iff.mp exact _ (mem_of_get? found)

theorem exact_get_json {v : Json} (exact : Exact v) (key : String) : Exact (v.get key) := by
  cases v with
  | obj fields => exact exact_get exact.2 key
  | _ => trivial

theorem exact_asArr? {v : Json} (exact : Exact v) : ExactItems (v.asArr?.getD []) := by
  cases v with
  | arr items => exact exact
  | _ => trivial

/-- The calls to emit are printed with indices that can be read back. -/
def Readable (emit : Emit) : Prop := ∀ call ∈ emit, Exact call.1

/-- The slots are under keys that can be read back. -/
def Keyed (slots : Slots) : Prop := ∀ key ∈ slots.keys, Exact key.1 ∧ Exact key.2

theorem Keyed.empty : Keyed ∅ := fun _ mem => absurd mem List.not_mem_nil

theorem Keyed.set {slots : Slots} (keyed : Keyed slots) {ci idx : Json} (choice : Exact ci)
    (call : Exact idx) (st : Slot) : Keyed (slots.set (ci, idx) st) := by
  intro key mem
  rcases Dict.mem_keys_set.mp mem with rfl | old
  · exact ⟨choice, call⟩
  · exact keyed key old

theorem Keyed.bufferOne {slots slots' : Slots} {emit emit' : Emit} (keyed : Keyed slots)
    (readable : Readable emit) {ci tc : Json} (choice : Exact ci) (exact : Exact tc)
    (step : bufferOne ci (slots, emit) tc = some (slots', emit')) :
    Keyed slots' ∧ Readable emit' := by
  cases tc with
  | obj fields =>
      have index : Exact (Fields.get fields "index") := exact_get exact.2 "index"
      rw [ToolCallStreamSanitizer.bufferOne] at step
      by_cases keyable : (ToolCallStreamSanitizer.hashable ci &&
          ToolCallStreamSanitizer.hashable (Fields.get fields "index")) = true
      · rw [if_pos keyable] at step
        simp only at step
        split at step
        · obtain ⟨rfl, rfl⟩ := Prod.mk.inj (Option.some.inj step)
          refine ⟨keyed.set choice index _, List.forall_mem_append.mpr ⟨readable, ?_⟩⟩
          exact List.forall_mem_singleton.mpr index
        · obtain ⟨rfl, rfl⟩ := Prod.mk.inj (Option.some.inj step)
          exact ⟨keyed.set choice index _, readable⟩
      · rw [if_neg keyable] at step
        cases step
  | _ =>
      obtain ⟨rfl, rfl⟩ := Prod.mk.inj (Option.some.inj step)
      exact ⟨keyed, readable⟩

theorem Keyed.buffer {ci : Json} (choice : Exact ci) {tcs : List Json} (exact : ExactItems tcs) :
    ∀ {slots : Slots} {emit : Emit}, Keyed slots → Readable emit →
      Keyed (buffer ci tcs (slots, emit)).1 ∧
        ∀ emit' ∈ (buffer ci tcs (slots, emit)).2, Readable emit' := by
  induction tcs with
  | nil =>
      intro slots emit keyed readable
      refine ⟨keyed, fun emit' mem => ?_⟩
      rw [← Option.some.inj mem]
      exact readable
  | cons tc tcs ih =>
      intro slots emit keyed readable
      rw [ToolCallStreamSanitizer.buffer]
      cases step : ToolCallStreamSanitizer.bufferOne ci (slots, emit) tc with
      | none => exact ⟨keyed, fun _ mem => by cases mem⟩
      | some next =>
          obtain ⟨keyed', readable'⟩ := keyed.bufferOne readable choice exact.1 step
          exact ih exact.2 keyed' readable'

theorem Keyed.finish {slots : Slots} (keyed : Keyed slots) (ci reason : Json) :
    Keyed (finish ci reason slots).1 ∧ Readable (finish ci reason slots).2.1 := by
  rw [ToolCallStreamSanitizer.finish]
  split
  · exact ⟨keyed, fun _ mem => absurd mem List.not_mem_nil⟩
  · refine ⟨fun key mem => keyed key (by rwa [finalize, Dict.keys_map] at mem), fun call mem => ?_⟩
    rw [finalize] at mem
    obtain ⟨entry, there, rfl⟩ := List.mem_map.mp mem
    have entries := List.mem_of_mem_filter (List.mem_of_mem_filter (List.mem_of_mem_filter there))
    exact (keyed entry.1 (List.mem_map_of_mem entries)).2

theorem exact_callJson (st : Slot) {idx : Json} (index : Exact idx) (args : List Char) :
    Exact (callJson st idx args) := by
  have text (name : Option String) : Exact ((name.map Json.str).getD .null) := by
    cases name <;> trivial
  have function : Exact (.obj [("name", (st.name.map Json.str).getD .null),
      ("arguments", .str (String.ofList args))]) := ⟨by simp, text _, trivial, trivial⟩
  exact ⟨by simp, index, text _, trivial, function, trivial⟩

theorem exact_erase {fields : Fields} (exact : Exact (.obj fields)) (key : String) :
    Exact (.obj (fields.erase key)) :=
  ⟨exact.1.sublist (List.filter_sublist.map _), Json.exactFields_iff.mpr fun field mem =>
    Json.exactFields_iff.mp exact.2 field (List.mem_of_mem_filter mem)⟩

theorem exact_rebuild {slots : Slots} {ci : Json} {emit : Emit} (readable : Readable emit)
    {delta : Fields} (exact : Exact (.obj delta)) :
    Exact (.obj (rebuild slots ci emit delta).1) := by
  rw [rebuild]
  split_ifs
  · refine Json.exact_set exact _ (Json.exactItems_iff.mpr fun v mem => ?_)
    obtain ⟨call, there, rfl⟩ := List.mem_map.mp mem
    exact exact_callJson _ (readable call there) _
  · exact exact_erase exact _
  · exact exact

theorem exact_rebuildChoice {slots : Slots} {ci : Json} {emit : Emit} (readable : Readable emit)
    {ch : Fields} (exact : Exact (.obj ch)) :
    Exact (.obj (rebuildChoice slots ci emit ch).1) := by
  have delta := exact_get exact.2 "delta"
  rw [rebuildChoice]
  split
  · next delta' same =>
    rw [same] at delta
    simp only
    split
    · exact Json.exact_set exact _ (exact_rebuild readable delta)
    · exact exact
  · exact exact

theorem exact_relabel (cut : Bool) {ch : Fields} (exact : Exact (.obj ch)) :
    Exact (.obj (relabel cut ch)) := by
  rw [relabel]
  split
  · exact Json.exact_set exact _ trivial
  · exact exact

theorem exact_choiceIndex {ch : Fields} (exact : ExactFields ch) : Exact (choiceIndex ch) := by
  rw [choiceIndex]
  cases found : Fields.get? ch "index" with
  | none => trivial
  | some v => exact Json.exactFields_iff.mp exact _ (mem_of_get? found)

theorem Keyed.feedChoice {slots : Slots} (keyed : Keyed slots) {ch : Json} (exact : Exact ch) :
    Keyed (feedChoice slots ch).1 ∧ ∀ made ∈ (feedChoice slots ch).2, Exact made.1 := by
  cases ch with
  | obj fields =>
      have choice := exact_choiceIndex exact.2
      have tcs : ExactItems ((fragments? fields).getD []) :=
        exact_asArr? (exact_get_json (exact_get exact.2 "delta") "tool_calls")
      have none_yet : Readable [] := fun _ mem => absurd mem List.not_mem_nil
      obtain ⟨keyed', readable⟩ := Keyed.buffer choice tcs keyed none_yet
      rw [ToolCallStreamSanitizer.feedChoice]
      simp only
      generalize ToolCallStreamSanitizer.buffer (choiceIndex fields) ((fragments? fields).getD [])
        (slots, []) = buffered at keyed' readable
      obtain ⟨slots', emit?⟩ := buffered
      cases emit? with
      | none => exact ⟨keyed', fun _ mem => by cases mem⟩
      | some emit =>
          obtain ⟨keyed'', readable'⟩ :=
            keyed'.finish (choiceIndex fields) (Fields.get fields "finish_reason")
          refine ⟨keyed'', fun made mem => ?_⟩
          rw [← Option.some.inj mem]
          exact exact_rebuildChoice (List.forall_mem_append.mpr ⟨readable emit rfl, readable'⟩)
            (exact_relabel _ exact)
  | _ =>
      refine ⟨keyed, fun made mem => ?_⟩
      rw [← Option.some.inj mem]
      exact exact

theorem Keyed.feedChoices {chs : List Json} (exact : ExactItems chs) :
    ∀ {slots : Slots}, Keyed slots →
      Keyed (feedChoices slots chs).1 ∧ ∀ made ∈ (feedChoices slots chs).2, ExactItems made.1 := by
  induction chs with
  | nil =>
      intro slots keyed
      refine ⟨keyed, fun made mem => ?_⟩
      rw [← Option.some.inj mem]
      trivial
  | cons ch chs ih =>
      intro slots keyed
      obtain ⟨keyed', made'⟩ := keyed.feedChoice exact.1
      rw [ToolCallStreamSanitizer.feedChoices]
      generalize ToolCallStreamSanitizer.feedChoice slots ch = fed at keyed' made'
      obtain ⟨slots', ch?⟩ := fed
      cases ch? with
      | none => exact ⟨keyed', fun _ mem => by cases mem⟩
      | some ch' =>
          obtain ⟨keyed'', rest⟩ := ih exact.2 keyed'
          refine ⟨keyed'', fun made mem => ?_⟩
          obtain ⟨found, there, rfl⟩ := Option.map_eq_some_iff.mp mem
          exact ⟨made' ch' rfl, rest found there⟩

/-! ### The sanitizer leaves the text -/

theorem choiceText_congr {ch ch' : Fields} (same : Fields.get? ch' "delta" = Fields.get? ch "delta") :
    choiceText (.obj ch') = choiceText (.obj ch) := by
  rw [choiceText, choiceText, same]

theorem choiceText_relabel (cut : Bool) (ch : Fields) :
    choiceText (.obj (relabel cut ch)) = choiceText (.obj ch) := by
  rw [relabel]
  split
  · exact choiceText_congr (Fields.get?_set_of_ne ch (by decide) _)
  · rfl

theorem get_rebuild (slots : Slots) (ci : Json) (emit : Emit) (delta : Fields) :
    Fields.get (rebuild slots ci emit delta).1 "content" = Fields.get delta "content" := by
  rw [rebuild]
  split_ifs
  · exact Fields.get_set_of_ne delta (by decide) _
  · exact Fields.get_erase_of_ne delta (by decide)
  · rfl

theorem choiceText_rebuildChoice (slots : Slots) (ci : Json) (emit : Emit) (ch : Fields) :
    choiceText (.obj (rebuildChoice slots ci emit ch).1) = choiceText (.obj ch) := by
  rw [rebuildChoice]
  split
  · next delta same =>
    have there : Fields.get? ch "delta" = some (.obj delta) := by
      rw [get?_of_get (by rw [same]; exact fun other => by cases other), same]
    simp only
    split
    · rw [choiceText, choiceText, Fields.get?_set_self, there]
      simp only [get_rebuild]
    · rfl
  · rfl

theorem choiceText_feedChoice (slots : Slots) (ch : Json) :
    ∀ made ∈ (feedChoice slots ch).2, choiceText made.1 = choiceText ch := by
  intro made mem
  cases ch with
  | obj fields =>
      rw [feedChoice] at mem
      simp only at mem
      generalize buffer (choiceIndex fields) ((fragments? fields).getD []) (slots, []) = buffered at mem
      obtain ⟨slots', emit?⟩ := buffered
      cases emit? with
      | none => cases mem
      | some emit =>
          rw [← Option.some.inj mem]
          exact (choiceText_rebuildChoice _ _ _ _).trans (choiceText_relabel _ fields)
  | _ =>
      rw [← Option.some.inj mem]

theorem text_feedChoices (slots : Slots) (chs : List Json) :
    ∀ made ∈ (feedChoices slots chs).2, made.1.head?.map choiceText = chs.head?.map choiceText := by
  intro made mem
  cases chs with
  | nil =>
      rw [← Option.some.inj mem]
  | cons ch chs =>
      have first := choiceText_feedChoice slots ch
      rw [feedChoices] at mem
      generalize feedChoice slots ch = fed at first mem
      obtain ⟨slots', ch?⟩ := fed
      cases ch? with
      | none => cases mem
      | some ch' =>
          obtain ⟨rest, -, rfl⟩ := Option.map_eq_some_iff.mp mem
          simp only [List.head?_cons, Option.map_some, first ch' rfl]

theorem textOf_arr {fields : Fields} {chs : List Json} (list : Fields.get fields "choices" = .arr chs) :
    textOf (.obj fields) = (chs.head?.map choiceText).getD (some none) := by
  rw [textOf, Json.get_obj, list]
  cases chs <;> rfl

/-- The text of the chunk in a text; there is none if it is no JSON. -/
def chunkText (data : List Char) : Option (Option Json) :=
  match Json.loads false data with
  | some chunk => textOf chunk
  | none => some none

/-- What the sanitizer makes of a chunk is read with the same text, and so are the next ones. -/
theorem Keyed.feed {slots : Slots} (keyed : Keyed slots) (data : List Char) :
    Keyed (feed slots data).1 ∧ chunkText (Output.text (feed slots data).2) = chunkText data := by
  rw [ToolCallStreamSanitizer.feed]
  split
  · exact ⟨keyed, rfl⟩
  · split
    · next chunk read =>
      have exact : Exact (.obj chunk) := Json.exact_of_loads read
      split
      · next chs list =>
        have items : ExactItems chs := by
          have own := exact_get exact.2 "choices"
          rw [list] at own
          exact own
        obtain ⟨keyed', made⟩ := Keyed.feedChoices items keyed
        have texts := text_feedChoices slots chs
        split
        · next slots' chs' fed =>
          rw [fed] at keyed' made texts
          have whole : Exact (.obj (Fields.set chunk "choices" (.arr chs'))) :=
            Json.exact_set exact _ (made (chs', true) rfl)
          refine ⟨keyed', ?_⟩
          rw [Output.text, chunkText, Json.loads_dumps whole, chunkText, read]
          simp only
          rw [textOf_arr (Fields.get_set_self _ _ _), textOf_arr list, texts (chs', true) rfl]
        · next slots' other fed =>
          rw [fed] at keyed'
          exact ⟨keyed', rfl⟩
      · exact ⟨keyed, rfl⟩
    · exact ⟨keyed, rfl⟩

/-! ### The text that is delivered -/

/-- The text of the backend's chunks, up to the end of the stream or to a chunk that no reader can
take; `false` in that case. -/
def texts : List (Option Event) → List Json × Bool
  | some (.chunk data) :: events =>
      match chunkText data with
      | none => ([], false)
      | some delta => (delta.toList ++ (texts events).1, (texts events).2)
  | some (.admitted _) :: events => texts events
  | _ => ([], true)

theorem deltaOf_chunk (data : List Char) : deltaOf (Event.chunk data).fields = chunkText data := by
  have kind : Fields.get (Event.chunk data).fields "type" = .str "chunk" := rfl
  have text : (Fields.get (Event.chunk data).fields "data").asStr? = some (String.ofList data) := rfl
  rw [deltaOf, if_pos kind, text, Option.bind_some, String.toList_ofList]
  rfl

theorem deltaOf_other {frame : Fields} {kind : Json} (is : Fields.get frame "type" = kind)
    (other : kind ≠ .str "chunk") : deltaOf frame = some none := by
  rw [deltaOf, if_neg (by rw [is]; exact other)]

theorem textStream_delivered (d : Door) (events : List (Option Event)) : ∀ {slots : Slots},
    Keyed slots → textStream (d.delivered slots events).1 = texts events := by
  induction events with
  | nil => exact fun _ => rfl
  | cons next events ih =>
      intro slots keyed
      match next with
      | none | some (.error message code) => rfl
      | some (.done queueWaitMs backendLatencyMs ttftMs promptTokens completionTokens
          degradedFrom) =>
          show textStream [(d.frame slots (.done queueWaitMs backendLatencyMs ttftMs promptTokens
            completionTokens degradedFrom)).2] = _
          have is : Fields.get (d.frame slots (.done queueWaitMs backendLatencyMs ttftMs promptTokens
              completionTokens degradedFrom)).2 "type" = .str "done" := by
            rw [Door.frame]
            split <;> rfl
          rw [textStream, deltaOf_other is (by decide)]
          rfl
      | some (.admitted queueWaitMs) =>
          show textStream ((Event.admitted queueWaitMs).fields :: (d.delivered slots events).1) = _
          have is : Fields.get (Event.admitted queueWaitMs).fields "type" = .str "admitted" := rfl
          rw [textStream, deltaOf_other is (by decide), ih keyed]
          rfl
      | some (.chunk data) =>
          show textStream ((d.frame slots (.chunk data)).2 ::
            (d.delivered (d.frame slots (.chunk data)).1 events).1) = _
          have step : Keyed (d.frame slots (.chunk data)).1 ∧
              deltaOf (d.frame slots (.chunk data)).2 = chunkText data := by
            rw [Door.frame]
            split
            · have fed := keyed.feed data
              exact ⟨fed.1, (deltaOf_chunk _).trans fed.2⟩
            · exact ⟨keyed, deltaOf_chunk data⟩
          rw [textStream, step.2, texts]
          cases chunkText data with
          | none => rfl
          | some delta => simp only [ih step.1]

/-- The text that a client gets of a stream at one of our own doors, of which all has arrived, is the
text of the backend's chunks, whether or not their tool calls are corrected. -/
theorem text_received {str : Json → String} (strings : ∀ text, str (.str text) = text)
    (aiterLines : List (List Char) → List (List Char))
    (documented : ∀ parts, aiterLines parts = Lines.splitlines parts.flatten) {d : Door}
    (own : d.wire ≠ .openai) {events : List (Option Event)} {parts : List (List Char)}
    (all : parts.flatten = (d.streamGenerator events).flatten) :
    textStream (stream str (aiterLines parts)).1 = texts events := by
  rw [(received strings aiterLines documented own events parts).1 all]
  simp only
  cases opens : openingFrame d.wire d.opening d.predictedMs with
  | none => exact textStream_delivered d events Keyed.empty
  | some frame =>
      obtain ⟨kind, is, -, -, other⟩ := openingFrame_type opens
      show textStream (frame :: (d.delivered ∅ events).1) = _
      rw [textStream, deltaOf_other is other, textStream_delivered d events Keyed.empty]
      rfl

/-- A chunk with one choice, whose delta is `text`. -/
def spokenChunk (text : String) : Json :=
  .obj [("choices", .arr [.obj [("delta", .obj [("content", .str text)])]])]

/-- A stream with two pieces of text, corrected on the way. -/
def spoken : List (Option Event) :=
  [some (.admitted 3), some (.chunk (spokenChunk "a").dumps), some (.chunk "no JSON".toList),
    some (.chunk (spokenChunk "b").dumps), none]

theorem text_received_spoken :
    textStream (stream strText (Lines.splitlines
      ({ legacyDoor with uniform := true }.streamGenerator spoken).flatten)).1 =
        ([.str "a", .str "b"], true) :=
  (text_received (fun _ => rfl) (fun parts => Lines.splitlines parts.flatten)
    (fun _ => rfl) (d := { legacyDoor with uniform := true }) (by decide) rfl).trans (by decide +kernel)

end Roadstead.StreamWire
