import Roadstead.StreamWire

/-!
# What a client gets of a stream

The frames that the generator sends are read back by the client as they are, in whatever parts the
transport delivers them and whatever the strings in them are: `received`.  If the connection is cut,
at any character, the client has had a beginning of the frames and no other one.

`Door.delivered` says what the frames are and how the stream ends, event by event.
-/

namespace Roadstead.StreamWire

open Json (Fields Exact ExactFields dumps)
open ToolCallStreamSanitizer

/-! ### Frames can be printed -/

theorem decimal_roundTo (digits : ℕ) (q : ℚ) : Json.Decimal (roundTo digits q) :=
  Json.decimal_div_pow _ _

theorem exact_number (digits : ℕ) (q : ℚ) : Exact (number (roundTo digits q)) :=
  decimal_roundTo digits q

theorem exact_optional {α : Type} {f : α → Json} (exact : ∀ a, Exact (f a)) (value : Option α) :
    Exact (optional f value) := by
  cases value with
  | none => trivial
  | some a => exact exact a

theorem exact_str (text : String) : Exact (.str text) := trivial

section Blocks

variable (s : Served)

theorem exact_substitution : Exact (substitution s) := by
  rw [substitution]
  split_ifs <;> trivial

theorem exact_attribution : ExactFields (attribution s) :=
  ⟨trivial, trivial, trivial, trivial, exact_substitution s, trivial, trivial, trivial, trivial⟩

theorem exact_identityBlock : Exact (.obj (identityBlock s)) := by
  rw [identityBlock]
  split_ifs <;> exact ⟨by simp, by repeat constructor⟩

theorem exact_costBlock (inputTokens outputTokens : ℤ) :
    Exact (.obj (costBlock s inputTokens outputTokens)) := by
  have zero : Json.Decimal 0 := by simpa using Json.decimal_div_pow 0 0
  have price : Exact (.obj (priceDict s)) :=
    ⟨by simp [priceDict], s.decimal.1, s.decimal.2, trivial, trivial, trivial, trivial⟩
  refine ⟨by simp [costBlock], ?_, ?_, price, trivial⟩
  · show Json.Decimal (if _ then _ else _)
    split
    · exact decimal_roundTo 6 _
    · exact zero
  · show Json.Decimal (if _ then _ else _)
    split
    · exact zero
    · exact decimal_roundTo 6 _

theorem exact_timingBlock (queueWaitMs backendLatencyMs : ℚ) (ttftMs predictedMs : Option ℚ) :
    Exact (.obj (timingBlock s queueWaitMs backendLatencyMs ttftMs predictedMs)) :=
  ⟨by simp [timingBlock], exact_number 1 _, exact_number 1 _, exact_optional (exact_number 1) _,
    exact_number 1 _, exact_number 3 _, trivial, exact_optional (exact_number 1) _, trivial⟩

theorem exact_event (event : Event) : Exact (.obj event.fields) := by
  cases event with
  | admitted queueWaitMs => exact ⟨by simp [Event.fields], trivial, exact_number 1 _, trivial⟩
  | chunk data => exact ⟨by simp [Event.fields], trivial, trivial, trivial⟩
  | done queueWaitMs backendLatencyMs ttftMs promptTokens completionTokens degradedFrom =>
      have usage : Exact (.obj [("prompt_tokens", .int promptTokens),
          ("completion_tokens", .int completionTokens)]) := ⟨by simp, trivial, trivial, trivial⟩
      rw [Event.fields]
      split
      · exact ⟨by simp, trivial, exact_number 1 _, exact_number 1 _, exact_number 1 _, usage,
          trivial, exact_optional exact_str _, trivial⟩
      · exact ⟨by simp, trivial, exact_number 1 _, exact_number 1 _, exact_number 1 _, usage, trivial⟩
  | error message code =>
      rw [Event.fields]
      split
      · exact ⟨by simp, trivial, trivial, exact_optional exact_str _, trivial⟩
      · exact ⟨by simp, trivial, trivial, trivial⟩

theorem exact_enrichedDone (queueWaitMs backendLatencyMs ttftMs : ℚ)
    (promptTokens completionTokens : ℤ) : Exact (.obj (enrichedDone s queueWaitMs backendLatencyMs
      ttftMs promptTokens completionTokens)) := by
  have attributed : Exact (.obj (attribution s ++
      [("cost", .obj (costBlock s promptTokens completionTokens))])) :=
    ⟨by simp [attribution], trivial, trivial, trivial, trivial, exact_substitution s, trivial,
      trivial, trivial, exact_costBlock s _ _, trivial⟩
  have usage : Exact (.obj [("input_tokens", .int promptTokens),
      ("output_tokens", .int completionTokens),
      ("slot_seconds", number (roundTo 3 s.req.estimatedCostSs))]) :=
    ⟨by simp, trivial, trivial, exact_number 3 _, trivial⟩
  exact ⟨by simp [enrichedDone], trivial, trivial, attributed, exact_identityBlock s,
    exact_timingBlock s _ _ _ _, usage, trivial⟩

end Blocks

variable {frame : Fields}

theorem exact_openingFrame {wire : Wire} {s : Served} {predictedMs : Option ℚ}
    (opens : openingFrame wire s predictedMs = some frame) : Exact (.obj frame) := by
  have attributed : Exact (.obj (attribution s)) := ⟨by simp [attribution], exact_attribution s⟩
  cases wire with
  | enriched =>
      obtain rfl := Option.some.inj opens
      exact ⟨by simp, trivial, trivial, attributed, exact_timingBlock s _ _ _ _, trivial⟩
  | legacy =>
      obtain rfl := Option.some.inj opens
      exact ⟨by simp, trivial, trivial, trivial⟩
  | openai => cases opens

theorem Door.exact_frame (d : Door) (slots : Slots) (event : Event) :
    Exact (.obj (d.frame slots event).2) := by
  cases event with
  | chunk data =>
      rw [frame]
      split
      · exact exact_event (.chunk _)
      · exact exact_event (.chunk data)
  | done queueWaitMs backendLatencyMs ttftMs promptTokens completionTokens degradedFrom =>
      rw [frame]
      split
      · exact exact_enrichedDone d.closing _ _ _ _ _
      · exact exact_event (.done _ _ _ _ _ degradedFrom)
  | admitted queueWaitMs => exact exact_event (.admitted queueWaitMs)
  | error message code => exact exact_event (.error message code)

theorem Door.exact_frames (d : Door) (events : List (Option Event)) :
    ∀ slots, ∀ frame ∈ d.frames slots events, Exact (.obj frame) := by
  induction events with
  | nil => exact fun _ _ mem => absurd mem List.not_mem_nil
  | cons next events ih =>
      intro slots frame mem
      cases next with
      | none =>
          rw [frames, List.mem_singleton] at mem
          rw [mem]
          exact ⟨by simp, trivial, trivial, trivial⟩
      | some event =>
          rcases List.mem_cons.mp mem with rfl | later
          · exact d.exact_frame slots event
          · split at later
            · cases later
            · exact ih _ frame later

theorem Door.exact_sent (d : Door) {events : List (Option Event)}
    (mem : frame ∈ d.sent events) : Exact (.obj frame) := by
  rcases List.mem_append.mp mem with first | later
  · exact exact_openingFrame (Option.mem_toList.mp first)
  · exact d.exact_frames events ∅ frame later

/-! ### Lines -/

/-- The line that carries a frame. -/
def lineOf (frame : Fields) : List Char := dataPrefix ++ dumps (.obj frame)

theorem whole_lineOf (frame : Fields) : Lines.Whole (lineOf frame) := by
  have mark : Json.Printable dataPrefix := by decide
  exact (mark.append (Json.printable_dumps _)).whole

theorem Door.streamGenerator_flatten {d : Door} (own : d.wire ≠ .openai)
    (events : List (Option Event)) :
    (d.streamGenerator events).flatten = ((d.sent events).map lineOf).flatMap Lines.ended := by
  rw [streamGenerator, if_neg own, List.flatMap_map, List.flatMap_def]
  rfl

/-- Only at the end is there anything to be stripped. -/
theorem strip_prefix {cut : List Char} (front : cut <+: lineOf frame) :
    Text.strip cut <+: lineOf frame := by
  have start : Text.lstrip cut = cut := by
    match cut, front with
    | [], _ => rfl
    | c :: cut, front =>
        have first : c = 'd' := (List.cons_prefix_cons.mp front).1
        rw [Text.lstrip, List.dropWhile_cons_of_neg (by rw [first]; decide)]
  rw [Text.strip, start]
  exact (List.rdropWhile_prefix _ _).trans front

theorem strip_lineOf (frame : Fields) : Text.strip (lineOf frame) = lineOf frame := by
  have start : Text.lstrip (lineOf frame) = lineOf frame :=
    List.dropWhile_cons_of_neg (by decide)
  obtain ⟨body, braces⟩ := Json.dumps_obj frame
  have brace : lineOf frame = (dataPrefix ++ '{' :: body) ++ ['}'] := by
    rw [lineOf, braces, List.append_assoc]
    rfl
  rw [Text.strip, start, brace, Text.rstrip, List.rdropWhile_concat_neg _ _ _ (by decide)]

theorem ne_marker (frame : Fields) {text : List Char} (front : text <+: dumps (.obj frame)) :
    text ≠ "[DONE]".toList := by
  obtain ⟨body, braces⟩ := Json.dumps_obj frame
  rintro rfl
  rw [braces] at front
  exact absurd (List.cons_prefix_cons.mp front).1 (by decide)

theorem item?_lineOf (exact : Exact (.obj frame)) :
    item? (lineOf frame) = some (.frame (.obj frame)) := by
  have rest : (lineOf frame).drop dataPrefix.length = dumps (.obj frame) := List.drop_left
  have marked : dataPrefix <+: lineOf frame := List.prefix_append _ _
  rw [item?, strip_lineOf]
  simp only [rest]
  rw [if_pos marked, if_neg (ne_marker frame (List.prefix_refl _)),
    Json.loads_dumps exact]
  rfl

/-- A line that was cut carries nothing, unless it was cut after its last character. -/
theorem item?_of_prefix (exact : Exact (.obj frame)) {cut : List Char}
    (front : cut <+: lineOf frame) :
    item? cut = none ∨ item? cut = some (.frame (.obj frame)) := by
  have stripped := strip_prefix front
  rw [item?]
  generalize Text.strip cut = text at stripped
  simp only
  split_ifs with marked done
  · obtain ⟨raw, rfl⟩ := marked
    rw [List.drop_left] at done
    exact absurd done (ne_marker frame ((List.prefix_append_right_inj _).mp stripped))
  · obtain ⟨raw, rfl⟩ := marked
    have short : raw <+: dumps (.obj frame) := (List.prefix_append_right_inj _).mp stripped
    rw [List.drop_left]
    by_cases all : raw = dumps (.obj frame)
    · rw [all, Json.loads_dumps exact]
      exact Or.inr rfl
    · rw [Json.loads_of_prefix exact short all]
      exact Or.inl rfl
  · exact Or.inl rfl

theorem item?_newline (exact : Exact (.obj frame)) :
    (Lines.splitlines (lineOf frame ++ ['\n'])).filterMap item? = [.frame (.obj frame)] := by
  rw [Lines.splitlines_newline (whole_lineOf frame), List.filterMap_cons, item?_lineOf exact]
  rfl

/-! ### The reader -/

section Reader

variable (str : Json → String)

/-- What `stream` makes of the items that its lines carry. -/
def hear : List Item → List Fields × Ending
  | [] => ([], .exhausted)
  | .marker :: _ => ([], .marker)
  | .frame (.obj frame) :: items =>
      if Fields.get frame "type" = .str "error" then ([], .raised (errorOf str frame))
      else if Fields.get frame "type" = .str "done" then ([frame], .done)
      else (frame :: (hear items).1, (hear items).2)
  | .frame _ :: _ => ([], .crashed)

theorem stream_eq (lines : List (List Char)) : stream str lines = hear str (lines.filterMap item?) := by
  induction lines with
  | nil => rfl
  | cons line lines ih =>
      rw [stream, List.filterMap_cons]
      cases item? line with
      | none => exact ih
      | some item =>
          cases item with
          | marker => rfl
          | frame v => cases v <;> simp only [hear, ih]

/-- More lines change nothing of what was yielded. -/
theorem hear_prefix (items more : List Item) : (hear str items).1 <+: (hear str (items ++ more)).1 := by
  induction items with
  | nil => exact List.nil_prefix
  | cons item items ih =>
      match item with
      | .marker => exact List.prefix_refl _
      | .frame (.obj frame) =>
          rw [List.cons_append, hear, hear]
          split
          · exact List.prefix_refl _
          · split
            · exact List.prefix_refl _
            · exact List.cons_prefix_cons.mpr ⟨rfl, ih⟩
      | .frame .null | .frame (.bool _) | .frame (.int _) | .frame (.float _) | .frame (.str _)
      | .frame (.arr _) => exact List.prefix_refl _

/-- The items of frames. -/
def itemsOf (sent : List Fields) : List Item := sent.map fun frame => .frame (.obj frame)

theorem items_of_lines {sent : List Fields} (exact : ∀ frame ∈ sent, Exact (.obj frame))
    (text : List Char) :
    (Lines.splitlines ((sent.map lineOf).flatMap Lines.ended ++ text)).filterMap item? =
      itemsOf sent ++ (Lines.splitlines text).filterMap item? := by
  rw [Lines.filterMap_splitlines (by rfl) fun line mem => ?_, List.filterMap_map]
  · congr 1
    rw [itemsOf, ← List.filterMap_eq_map]
    exact List.filterMap_congr fun frame mem => item?_lineOf (exact frame mem)
  · obtain ⟨frame, -, rfl⟩ := List.mem_map.mp mem
    exact whole_lineOf frame

/-- The items of what arrived are the first ones of those that were sent. -/
theorem items_of_cut {sent : List Fields} (exact : ∀ frame ∈ sent, Exact (.obj frame))
    {got : List Char} (front : got <+: (sent.map lineOf).flatMap Lines.ended) :
    (Lines.splitlines got).filterMap item? <+: itemsOf sent := by
  obtain ⟨arrived, rest, cut, same, rfl, last⟩ := Lines.exists_of_prefix front
  obtain ⟨first, later, rfl, rfl, rfl⟩ := List.map_eq_append_iff.mp same
  rw [List.forall_mem_append] at exact
  rw [items_of_lines exact.1, itemsOf, itemsOf, List.map_append, List.prefix_append_right_inj]
  rcases last with rfl | ⟨line, next, short⟩
  · exact List.nil_prefix
  · match later, next with
    | frame :: later, next =>
        obtain rfl := Option.some.inj next
        have own := exact.2 frame List.mem_cons_self
        have one : [Item.frame (.obj frame)] <+:
            (frame :: later).map fun frame => Item.frame (.obj frame) :=
          List.cons_prefix_cons.mpr ⟨rfl, List.nil_prefix⟩
        rcases short with front' | rfl
        · have whole : Lines.Whole cut := (whole_lineOf frame).of_subset front'.subset
          rw [Lines.splitlines_whole whole]
          split
          · exact List.nil_prefix
          · rcases item?_of_prefix own front' with nothing | all
            · rw [List.filterMap_cons_none nothing]
              exact List.nil_prefix
            · rw [List.filterMap_cons_some all]
              exact one
        · rw [item?_newline own]
          exact one

/-! ### What is delivered -/

/-- The error that a reader gets for this event. -/
def raisedFor (message : String) (code : Option String) : RoadsteadError where
  message := if message = "" then "stream error" else message
  code := code.getD ""
  requestId := ""
  body := (Event.error message code).fields

/-- What a reader gets after the opening frame, event by event, and how its stream ends. -/
def Door.delivered (d : Door) : Slots → List (Option Event) → List Fields × Ending
  | _, [] => ([], .exhausted)
  | _, none :: _ => ([], .raised (raisedFor "timeout" none))
  | _, some (.error message code) :: _ => ([], .raised (raisedFor message code))
  | slots, some event :: events =>
      let made := d.frame slots event
      if event.isTerminal then ([made.2], .done)
      else
        let rest := d.delivered made.1 events
        (made.2 :: rest.1, rest.2)

variable {str}

theorem errorOf_event (strings : ∀ text, str (.str text) = text) (message : String)
    (code : Option String) : errorOf str (Event.error message code).fields = raisedFor message code := by
  have own : Fields.get (Event.error message code).fields "error" = .str message := rfl
  have id : Fields.get (Event.error message code).fields "request_id" = .null := by
    rw [Event.fields]
    split <;> rfl
  have kind : str (if (Fields.get (Event.error message code).fields "code").truthy
      then Fields.get (Event.error message code).fields "code" else .str "") = code.getD "" := by
    rw [Event.fields]
    split
    · next some_code =>
      obtain ⟨text, rfl⟩ : ∃ text, code = some text := by
        cases code with
        | none => exact absurd some_code (by decide)
        | some text => exact ⟨text, rfl⟩
      have is : Fields.get ([("type", .str "error"), ("error", .str message)] ++
          [("code", optional .str (some text))]) "code" = .str text := rfl
      rw [is, if_pos (by simpa [Json.truthy, filled] using some_code), strings]
      rfl
    · next no_code =>
      have is : Fields.get ([("type", .str "error"), ("error", .str message)] ++ []) "code" = .null := rfl
      have empty : code.getD "" = "" := by simpa [filled] using no_code
      rw [is, if_neg (by decide), strings, empty]
  rw [errorOf, own, id, kind, raisedFor]
  congr 1
  · by_cases empty : message = ""
    · rw [if_neg (by simp [Json.truthy, empty]), if_pos empty, strings]
    · rw [if_pos (by simp [Json.truthy, empty]), if_neg empty, strings]
  · rw [if_neg (by decide), strings]

theorem hear_frames (strings : ∀ text, str (.str text) = text) (d : Door)
    (events : List (Option Event)) : ∀ slots,
    hear str (itemsOf (d.frames slots events)) = d.delivered slots events := by
  induction events with
  | nil => exact fun _ => rfl
  | cons next events ih =>
      intro slots
      match next with
      | none =>
          have raised := errorOf_event strings "timeout" none
          have is : Fields.get (Event.error "timeout" none).fields "type" = .str "error" := rfl
          show hear str [.frame (.obj (Event.error "timeout" none).fields)] = _
          rw [hear, if_pos is, raised]
          rfl
      | some (.error message code) =>
          have is : Fields.get (Event.error message code).fields "type" = .str "error" := rfl
          show hear str [.frame (.obj (Event.error message code).fields)] = _
          rw [hear, if_pos is, errorOf_event strings]
          rfl
      | some (.done queueWaitMs backendLatencyMs ttftMs promptTokens completionTokens
          degradedFrom) =>
          have is : Fields.get (d.frame slots (.done queueWaitMs backendLatencyMs ttftMs promptTokens
              completionTokens degradedFrom)).2 "type" = .str "done" := by
            rw [Door.frame]
            split <;> rfl
          show hear str [.frame (.obj (d.frame slots (.done queueWaitMs backendLatencyMs ttftMs
            promptTokens completionTokens degradedFrom)).2)] = _
          rw [hear, if_neg (by rw [is]; decide), if_pos is]
          rfl
      | some (.admitted queueWaitMs) =>
          have is : Fields.get (Event.admitted queueWaitMs).fields "type" = .str "admitted" := rfl
          show hear str (.frame (.obj (Event.admitted queueWaitMs).fields) ::
            itemsOf (d.frames slots events)) = _
          rw [hear, if_neg (by rw [is]; decide), if_neg (by rw [is]; decide), ih slots]
          rfl
      | some (.chunk data) =>
          have is : Fields.get (d.frame slots (.chunk data)).2 "type" = .str "chunk" := by
            rw [Door.frame]
            split <;> rfl
          show hear str (.frame (.obj (d.frame slots (.chunk data)).2) ::
            itemsOf (d.frames (d.frame slots (.chunk data)).1 events)) = _
          rw [hear, if_neg (by rw [is]; decide), if_neg (by rw [is]; decide), ih]
          rfl

/-- The frame that opens a stream does not end it, and has no text. -/
theorem openingFrame_type {wire : Wire} {s : Served} {predictedMs : Option ℚ}
    (opens : openingFrame wire s predictedMs = some frame) : ∃ kind,
      Fields.get frame "type" = kind ∧
        kind ≠ .str "error" ∧ kind ≠ .str "done" ∧ kind ≠ .str "chunk" := by
  cases wire with
  | enriched =>
      obtain rfl := Option.some.inj opens
      exact ⟨.str "accepted", rfl, by decide, by decide, by decide⟩
  | legacy =>
      obtain rfl := Option.some.inj opens
      exact ⟨.str "queued", rfl, by decide, by decide, by decide⟩
  | openai => cases opens

theorem hear_sent (strings : ∀ text, str (.str text) = text) (d : Door)
    (events : List (Option Event)) : hear str (itemsOf (d.sent events)) =
      ((openingFrame d.wire d.opening d.predictedMs).toList ++ (d.delivered ∅ events).1,
        (d.delivered ∅ events).2) := by
  rw [Door.sent]
  cases opens : openingFrame d.wire d.opening d.predictedMs with
  | none => exact hear_frames strings d events ∅
  | some frame =>
      obtain ⟨kind, is, no_error, not_done, -⟩ := openingFrame_type opens
      show hear str (.frame (.obj frame) :: itemsOf (d.frames ∅ events)) = _
      rw [hear, if_neg (by rw [is]; exact no_error), if_neg (by rw [is]; exact not_done),
        hear_frames strings]
      rfl

/-- What a client gets of a stream at one of our own doors.  If all of it arrives, in whatever parts,
these are its frames, and the stream ends as the producer's did; of a stream that was cut off, at
whatever character, it has had a beginning of them.

`str` gives a string back, and the lines of the transport are those of the text that arrived. -/
theorem received (strings : ∀ text, str (.str text) = text)
    (aiterLines : List (List Char) → List (List Char))
    (documented : ∀ parts, aiterLines parts = Lines.splitlines parts.flatten) {d : Door}
    (own : d.wire ≠ .openai) (events : List (Option Event)) (parts : List (List Char)) :
    (parts.flatten = (d.streamGenerator events).flatten →
      stream str (aiterLines parts) =
        ((openingFrame d.wire d.opening d.predictedMs).toList ++ (d.delivered ∅ events).1,
          (d.delivered ∅ events).2)) ∧
    (parts.flatten <+: (d.streamGenerator events).flatten →
      (stream str (aiterLines parts)).1 <+:
        (openingFrame d.wire d.opening d.predictedMs).toList ++ (d.delivered ∅ events).1) := by
  have exact : ∀ frame ∈ d.sent events, Exact (.obj frame) := fun frame mem => d.exact_sent mem
  have spec := hear_sent strings d events
  rw [documented, stream_eq, Door.streamGenerator_flatten own]
  refine ⟨fun all => ?_, fun front => ?_⟩
  · have items := items_of_lines exact []
    have none_left : Lines.splitlines [] = [] := rfl
    rw [List.append_nil, none_left, List.filterMap_nil, List.append_nil] at items
    rw [all, items, spec]
  · obtain ⟨more, same⟩ := items_of_cut exact front
    have firsts := hear_prefix str ((Lines.splitlines parts.flatten).filterMap item?) more
    rw [same, spec] at firsts
    exact firsts

/-! ### A stream whose text looks like frames -/

/-- `str`, on strings. -/
def strText (v : Json) : String := v.asStr?.getD ""

/-- A request whose price is nothing. -/
def quickServed : Served where
  req :=
    { requestId := "r1"
      agentId := "chat"
      endpoint := "tier1"
      band := .interactive
      timeoutDeadline := 9 }
  price := {}
  decimal := by
    have zero : Json.Decimal 0 := by simpa using Json.decimal_div_pow 0 0
    exact ⟨zero, zero⟩

/-- The door of the older wire. -/
def legacyDoor : Door where
  wire := .legacy
  opening := quickServed
  closing := quickServed

/-- A backend that writes the end of a stream into its text, and then fails. -/
def forged : List (Option Event) :=
  [some (.chunk "x\n\ndata: [DONE]\n\n\u2028".toList), some (.error "boom" (some "backend_error"))]

theorem received_forged :
    stream strText (Lines.splitlines (legacyDoor.streamGenerator forged).flatten) =
      ([[("type", .str "queued"), ("request_id", .str "r1")],
        [("type", .str "chunk"), ("data", .str "x\n\ndata: [DONE]\n\n\u2028")]],
        .raised ⟨"boom", "backend_error", "", (Event.error "boom" (some "backend_error")).fields⟩) :=
  ((received (fun _ => rfl) (fun parts => Lines.splitlines parts.flatten)
    (fun _ => rfl) (d := legacyDoor) (by decide) forged (legacyDoor.streamGenerator forged)).1 rfl).trans
      rfl

end Reader

end Roadstead.StreamWire
