import Roadstead.Lib.Json
import Roadstead.Lib.Text

/-!
# Reasoning that leaks into content

The repair half of `think_bleed.py`: `_split` and `repair_message` for a whole response, and
`StreamRepair`, which does the same to a stream of chunks whose cuts may fall anywhere, also
inside a tag.  The definitions follow the source; nothing is proved here.

A frame is the chunk and the text that is relayed for it: the backend's own bytes, or
`json.dumps` of the chunk, which is `none`.  Texts are handled as lists of characters.  The
counters of characters are kept, the log lines are not.
-/

namespace Roadstead.ThinkBleed

open Text

def thinkOpen : List Char := "<think>".toList

def thinkClose : List Char := "</think>".toList

/-- `HOLD_LIMIT_CHARS`. -/
def holdLimitChars : ℕ := 65536

/-- `PREFIX_HOLD_CHARS`. -/
def prefixHoldChars : ℕ := 16

/-- `_REASONING_KEYS`. -/
def reasoningKeys : List String := ["reasoning", "reasoning_content"]

/-! ### Whole responses -/

inductive Shape where
  | openTag
  | unclosed
  | closeOnly
  deriving DecidableEq

/-- The characters of a string; none for another value. -/
def textOf : Json → List Char
  | .str s => s.toList
  | _ => []

/-- `_after_tag`: one newline between the tag and the answer is removed. -/
def afterTag : List Char → List Char
  | '\r' :: '\n' :: text => text
  | '\n' :: text => text
  | text => text

/-- The result of `_split`. -/
structure Parts where
  reasoning : List Char
  answer : List Char
  shape : Shape
  deriving DecidableEq

/-- `_split`. -/
def split (closeOnly : Bool) (content : List Char) : Option Parts :=
  let lead := lstrip content
  if thinkOpen <+: lead then
    let body := lead.drop thinkOpen.length
    match cut? thinkClose body with
    | none => some ⟨strip body, [], .unclosed⟩
    | some (trace, rest) => some ⟨strip trace, afterTag rest, .openTag⟩
  else if closeOnly then
    match cut? thinkClose content with
    | some (trace, rest) => some ⟨strip trace, afterTag rest, .closeOnly⟩
    | none => none
  else none

/-- `str(value or "").strip()` is not empty.  The text of a value that is no string is never
blank. -/
def hasText (value : Json) : Bool :=
  match value with
  | .str s => decide (strip s.toList ≠ [])
  | value => value.truthy

/-- `repair_message`, on the fields of a message: the message and what was found. -/
def repairMessage (msg : Json.Fields) (closeOnly : Bool) (defaultKey : String) :
    Option (Json.Fields × Parts) :=
  match msg.get "content" with
  | .str content =>
      if content = "" then none
      else if reasoningKeys.any fun key => hasText (msg.get key) then none
      else
        let key := (reasoningKeys.find? fun key => msg.has key).getD defaultKey
        (split closeOnly content.toList).map fun parts =>
          ((msg.set key (.str (.ofList parts.reasoning))).set "content"
            (.str (.ofList parts.answer)), parts)
  | _ => none

/-! ### Streams -/

/-- The states of the repair. -/
inductive Phase where
  | undecided
  | inThink
  | answerLead
  | pass
  deriving DecidableEq

/-- A chunk, and the bytes it came in; `none` for `json.dumps` of the chunk. -/
structure Frame where
  parsed : Json
  data : Option String
  deriving DecidableEq

/-- `StreamRepair`. -/
structure StreamRepair where
  holdClose : Bool
  key : String
  limit : ℕ := holdLimitChars
  phase : Phase := .undecided
  buf : List Char := []
  stripReasoningLead : Bool := false
  /-- The last chunk that was inspected. -/
  last : Json.Fields := []
  shape : Option Shape := none
  reasoningChars : ℕ := 0
  answerChars : ℕ := 0
  deriving DecidableEq

namespace StreamRepair

/-- `_frame`. -/
def frame (r : StreamRepair) (delta : Json.Fields) : Frame where
  parsed :=
    .obj (Json.Fields.set (r.last.filter fun field => field.1 ∉ ["choices", "usage"]) "choices"
      (.arr [.obj [("index", .int 0), ("delta", .obj delta), ("finish_reason", .null)]]))
  data := none

/-- `_reasoning`. -/
def reasoning (r : StreamRepair) (text : List Char) : List Frame × StreamRepair :=
  let text := if r.stripReasoningLead then lstrip text else text
  if text = [] then ([], r)
  else
    ([r.frame [(r.key, .str (.ofList text))]],
      { r with stripReasoningLead := false, reasoningChars := r.reasoningChars + text.length })

/-- `_content`. -/
def content (r : StreamRepair) (text : List Char) : List Frame :=
  if text = [] then [] else [r.frame [("content", .str (.ofList text))]]

/-- The answer begins: the newline after the tag has been seen, or cannot come. -/
def release (r : StreamRepair) (text : List Char) : List Frame × StreamRepair :=
  let r := { r with phase := .pass, answerChars := r.answerChars + (afterTag text).length }
  (r.content (afterTag text), r)

/-- `_answer`: a lone carriage return may be half a line end. -/
def answer (r : StreamRepair) (rest : List Char) : List Frame × StreamRepair :=
  if rest = [] ∨ rest = ['\r'] then ([], { r with phase := .answerLead, buf := rest })
  else r.release rest

/-- A trace and the answer that follows its tag. -/
def reasoningAnswer (r : StreamRepair) (trace rest : List Char) : List Frame × StreamRepair :=
  let (frames, r) := r.reasoning trace
  let (frames', r) := r.answer rest
  (frames ++ frames', r)

/-- `_think`. -/
def think (r : StreamRepair) (piece : List Char) : List Frame × StreamRepair :=
  let text := r.buf ++ piece
  match cut? thinkClose text with
  | some (trace, rest) => { r with buf := [] }.reasoningAnswer trace rest
  | none =>
      let keep := partialLen thinkClose text
      { r with buf := text.drop (text.length - keep) }.reasoning (text.take (text.length - keep))

/-- `_consume`; `none` in place of the frames when the chunk is relayed as it came. -/
def consume (r : StreamRepair) (piece : List Char) : Option (List Frame) × StreamRepair :=
  match r.phase with
  | .inThink =>
      let (frames, r) := r.think piece
      (some frames, r)
  | .undecided =>
      let buf := r.buf ++ piece
      let lead := lstrip buf
      let decided : Option (List Frame) × StreamRepair :=
        if r.buf ≠ [] then (some (r.content buf), { r with buf := [], phase := .pass })
        else (none, { r with buf := [], phase := .pass })
      if thinkOpen <+: lead then
        let (frames, r) := { r with
          phase := .inThink, shape := some .openTag, stripReasoningLead := true, buf := []
          }.think (lead.drop thinkOpen.length)
        (some frames, r)
      else if r.holdClose then
        match cut? thinkClose buf with
        | some (trace, rest) =>
            let (frames, r) := { r with
              shape := some .closeOnly, stripReasoningLead := true, buf := []
              }.reasoningAnswer trace rest
            (some frames, r)
        | none => if buf.length ≤ r.limit then (some [], { r with buf := buf }) else decided
      else if (lead = [] ∨ lead <+: thinkOpen) ∧ buf.length ≤ prefixHoldChars then
        (some [], { r with buf := buf })
      else decided
  | _ =>
      let text := r.buf ++ piece
      if text = ['\r'] then (some [], { r with buf := text })
      else
        let (frames, r) := { r with buf := [] }.release text
        (some frames, r)

/-- `_settle`. -/
def settle (r : StreamRepair) : List Frame × StreamRepair :=
  match r.phase with
  | .undecided => (r.content r.buf, { r with buf := [], phase := .pass })
  | .answerLead => (r.content r.buf, { r with buf := [], phase := .pass })
  | .inThink =>
      let shape := if r.shape = some .openTag then some .unclosed else r.shape
      let (frames, r) := { r with shape := shape }.reasoning r.buf
      (frames, { r with buf := [], phase := .pass })
  | .pass => ([], { r with buf := [] })

/-- The fields of `choices[0]`, where the chunk has such a mapping.  A `choices` that is a
mapping or a number other than zero cannot be indexed by `0`. -/
def firstChoice (fields : Json.Fields) : Except Unit (Option (Json.Fields × List Json)) :=
  match fields.get "choices" with
  | .arr (.obj choice :: others) => .ok (some (choice, others))
  | .arr _ => .ok none
  | .str _ => .ok none
  | choices => if choices.truthy then .error () else .ok none

/-- The `delta` of a choice; `{}` if it is no mapping. -/
def deltaOf (choice : Json.Fields) : Json.Fields := (choice.get "delta").asObj?.getD []

/-- The `content` of a delta, if it is a string. -/
def pieceOf (delta : Json.Fields) : List Char := textOf (delta.get "content")

/-- The delta carries reasoning: the engine is splitting. -/
def engineSplits (delta : Json.Fields) : Bool :=
  reasoningKeys.any fun key => decide (textOf (delta.get key) ≠ [])

/-- `feed`, from the first choice on. -/
def feedChoice (r : StreamRepair) (fields : Json.Fields) (data : String) (choice : Json.Fields)
    (others : List Json) : List Frame × StreamRepair :=
  let original : Frame := ⟨.obj fields, some data⟩
  let r := { r with last := fields }
  let delta := deltaOf choice
  let finish := (choice.get "finish_reason").truthy
  if engineSplits delta then
    let (frames, r) := if r.buf ≠ [] then r.settle else ([], r)
    (frames ++ [original], { r with phase := .pass })
  else
    let piece := pieceOf delta
    match if piece = [] then (some [], r) else r.consume piece with
    | (none, r) => ([original], r)
    | (some frames, r) =>
        let (settled, r) := if (delta.get "tool_calls").truthy ∨ finish then r.settle else ([], r)
        if piece = [] then (frames ++ settled ++ [original], r)
        else
          let residual := delta.erase "content"
          if residual ≠ [] ∨ finish then
            let choice := choice.set "delta" (.obj residual)
            let fields := fields.set "choices" (.arr (.obj choice :: others))
            (frames ++ settled ++ [⟨.obj fields, none⟩], r)
          else (frames ++ settled, r)

/-- `feed`. -/
def feed (r : StreamRepair) (parsed : Json) (data : String) :
    Except Unit (List Frame × StreamRepair) :=
  let original : Frame := ⟨parsed, some data⟩
  if r.phase = .pass then .ok ([original], r)
  else
    match parsed with
    | .obj fields =>
        if Json.Fields.has fields "error" then
          let (frames, r) := r.settle
          .ok (frames ++ [original], r)
        else do
          match ← firstChoice fields with
          | none => .ok ([original], r)
          | some (choice, others) =>
              if !((choice.get? "index").getD (.int 0)).eqInt 0 then .ok ([original], r)
              else .ok (r.feedChoice fields data choice others)
    | _ => .ok ([original], r)

/-- `finish`. -/
def finish (r : StreamRepair) : List Frame × StreamRepair := r.settle

/-- The chunks of a stream, one after the other. -/
def feedAll (r : StreamRepair) : List (Json × String) → Except Unit (List Frame × StreamRepair)
  | [] => .ok ([], r)
  | (parsed, data) :: chunks => do
      let (frames, r) ← r.feed parsed data
      let (frames', r) ← r.feedAll chunks
      .ok (frames ++ frames', r)

end StreamRepair

end Roadstead.ThinkBleed
