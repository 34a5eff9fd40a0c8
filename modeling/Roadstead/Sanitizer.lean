import Roadstead.Lib.Dict
import Roadstead.Lib.Json.Scan
import Roadstead.Lib.Text

/-!
# The tool-call sanitizer of a stream

`_ToolCallStreamSanitizer` of `correction.py`.  The definitions follow the source; nothing is
proved here.

A chunk is the text of one `data:` payload.  What `feed` returns is that text itself, or
`json.dumps` of a value, which is kept as the value.  An index may be any value that can be the
key of a mapping; one that cannot raises, and `feed` returns the text.
-/

namespace Roadstead.ToolCallStreamSanitizer

open Json (Fields)

theorem unnamed : (none : Option String) ≠ some "" := by
  decide

/-- One slot of `_slots`.  A name is never empty. -/
structure Slot where
  id : Option String := none
  type : Option String := none
  name : Option String := none
  buf : List Char := []
  done : Bool := false
  named : name ≠ some "" := by first | exact unnamed | decide

/-- `_slots`: by the index of the choice and of the tool call. -/
abbrev Slots := Dict (Json × Json) Slot

/-- `_complete_value`: the value that the text begins with. -/
def completeValue? (text : List Char) : Option (List Char) :=
  if Text.strip text = [] then none
  else (Json.rawDecode text).map fun found => text.take (text.length - found.2.length)

/-- `_pending`. -/
def pending (slots : Slots) : Bool := slots.values.any fun st => !st.done

/-- Whether a value can be the key of a mapping. -/
def hashable : Json → Bool
  | .arr _ => false
  | .obj _ => false
  | _ => true

/-- The name that a fragment brings to a slot that has none. -/
def Slot.nameAfter (st : Slot) (fn : Json) : Option String :=
  match st.name, fn.get "name" with
  | none, .str name => if name = "" then none else some name
  | name, _ => name

theorem Slot.nameAfter_ne_empty (st : Slot) (fn : Json) : st.nameAfter fn ≠ some "" := by
  unfold nameAfter
  split
  · split
    · exact nofun
    · rename_i ne
      exact fun h => ne (Option.some.inj h)
  · exact st.named

/-- A slot with one more fragment. -/
def Slot.add (st : Slot) (tc : Fields) : Slot where
  id := st.id.or (tc.get "id").asStr?
  type := st.type.or (tc.get "type").asStr?
  name := st.nameAfter (tc.get "function")
  buf := st.buf ++ (((tc.get "function").get "arguments").asStr?.getD "").toList
  done := st.done
  named := st.nameAfter_ne_empty _

/-- The slot, emitted or dropped. -/
def Slot.close (st : Slot) : Slot := { st with done := true }

/-- The calls to emit on one chunk: an index and the arguments. -/
abbrev Emit := List (Json × List Char)

/-- The first step, for one fragment; `none` if its slot has no key. -/
def bufferOne (ci : Json) (state : Slots × Emit) : Json → Option (Slots × Emit)
  | .obj tc =>
      let idx := Fields.get tc "index"
      if hashable ci && hashable idx then
        let st := ((state.1.get? (ci, idx)).getD {}).add tc
        match if st.done || st.name.isNone then none else completeValue? st.buf with
        | some args => some (state.1.set (ci, idx) st.close, state.2 ++ [(idx, args)])
        | none => some (state.1.set (ci, idx) st, state.2)
      else none
  | _ => some state

/-- The first step, for the fragments of a choice: the slots, and what to emit unless it raised. -/
def buffer (ci : Json) : List Json → Slots × Emit → Slots × Option Emit
  | [], state => (state.1, some state.2)
  | tc :: tcs, state =>
      match bufferOne ci state tc with
      | some state => buffer ci tcs state
      | none => (state.1, none)

/-- The slots of a choice that are still pending. -/
def pendingOf (ci : Json) (slots : Slots) : List ((Json × Json) × Slot) :=
  slots.entries.filter fun entry => decide (entry.1.1 = ci) && !entry.2.done

/-- The second step: the slots, the calls without arguments, and whether one was cut. -/
def finalize (ci : Json) (slots : Slots) : Slots × Emit × Bool :=
  let mine := (pendingOf ci slots).filter fun entry => entry.2.name.isSome
  let blank (entry : (Json × Json) × Slot) : Bool := decide (Text.strip entry.2.buf = [])
  (slots.map fun key st => if key.1 = ci then st.close else st,
    (mine.filter blank).map fun entry => (entry.1.2, "{}".toList),
    mine.any fun entry => !blank entry)

/-- A call as it is emitted. -/
def callJson (st : Slot) (idx : Json) (args : List Char) : Json :=
  .obj [("index", idx), ("id", (st.id.map Json.str).getD .null),
    ("type", .str ((st.type.filter fun t => decide (t ≠ "")).getD "function")),
    ("function", .obj [("name", (st.name.map Json.str).getD .null),
      ("arguments", .str (String.ofList args))])]

/-- The third step: the delta with the calls to emit, and whether it was rebuilt. -/
def rebuild (slots : Slots) (ci : Json) (emit : Emit) (delta : Fields) : Fields × Bool :=
  if emit ≠ [] then
    (delta.set "tool_calls"
      (.arr (emit.map fun call => callJson ((slots.get? (ci, call.1)).getD {}) call.1 call.2)), true)
  else if delta.has "tool_calls" then (delta.erase "tool_calls", true)
  else (delta, false)

/-- `fr in ("tool_calls", "stop")`. -/
def relabelled (finish : Json) : Bool := finish = .str "tool_calls" || finish = .str "stop"

/-- The choice, its `finish_reason` relabelled if a call was cut. -/
def relabel (cut : Bool) (ch : Fields) : Fields :=
  if cut then ch.set "finish_reason" (.str "length") else ch

/-- `ch.get("index", 0)`. -/
def choiceIndex (ch : Fields) : Json := (ch.get? "index").getD (.int 0)

/-- The list of a choice's fragments, if its delta has one. -/
def fragments? (ch : Fields) : Option (List Json) := ((ch.get "delta").get "tool_calls").asArr?

/-- The second step, if this is the finish chunk of the choice. -/
def finish (ci : Json) (reason : Json) (slots : Slots) : Slots × Emit × Bool :=
  if reason = .null then (slots, [], false) else finalize ci slots

/-- The third step, for a choice whose delta is a mapping. -/
def rebuildChoice (slots : Slots) (ci : Json) (emit : Emit) (ch : Fields) : Fields × Bool :=
  match ch.get "delta" with
  | .obj delta =>
      let rebuilt := rebuild slots ci emit delta
      (if rebuilt.2 then ch.set "delta" (.obj rebuilt.1) else ch, rebuilt.2)
  | _ => (ch, false)

/-- One choice: the slots, and the choice with whether it was changed, unless it raised. -/
def feedChoice (slots : Slots) : Json → Slots × Option (Json × Bool)
  | .obj ch =>
      let ci := choiceIndex ch
      match buffer ci ((fragments? ch).getD []) (slots, []) with
      | (slots, none) => (slots, none)
      | (slots, some emit) =>
          let reason := Fields.get ch "finish_reason"
          let final := finish ci reason slots
          let cut := final.2.2 && relabelled reason
          let rebuilt := rebuildChoice final.1 ci (emit ++ final.2.1) (relabel cut ch)
          (final.1, some (.obj rebuilt.1, cut || rebuilt.2))
  | other => (slots, some (other, false))

/-- The choices of a chunk. -/
def feedChoices : Slots → List Json → Slots × Option (List Json × Bool)
  | slots, [] => (slots, some ([], false))
  | slots, ch :: chs =>
      match feedChoice slots ch with
      | (slots, none) => (slots, none)
      | (slots, some (ch, changed)) =>
          let rest := feedChoices slots chs
          (rest.1, rest.2.map fun found => (ch :: found.1, changed || found.2))

/-- What `feed` returns. -/
inductive Output where
  /-- The text it was given. -/
  | raw (data : List Char)
  /-- `json.dumps` of a value. -/
  | dumped (chunk : Json)

/-- The value that a reader of the output gets. -/
def Output.json? : Output → Option Json
  | .raw data => Json.loads false data
  | .dumped chunk => some chunk

/-- `"tool_calls"`, with its quotes. -/
def toolCallsMark : List Char := "\"tool_calls\"".toList

/-- The fast path: no key in the text, and no slot pending. -/
def passes (slots : Slots) (data : List Char) : Bool :=
  !decide (toolCallsMark <:+: data) && !pending slots

/-- `feed`. -/
def feed (slots : Slots) (data : List Char) : Slots × Output :=
  if passes slots data then (slots, .raw data)
  else
    match Json.loads false data with
    | some (.obj chunk) =>
        match Fields.get chunk "choices" with
        | .arr chs =>
            match feedChoices slots chs with
            | (slots, some (chs, true)) => (slots, .dumped (.obj (Fields.set chunk "choices" (.arr chs))))
            | (slots, _) => (slots, .raw data)
        | _ => (slots, .raw data)
    | _ => (slots, .raw data)

/-- The outputs for a sequence of chunks. -/
def feedAll : Slots → List (List Char) → List Output
  | _, [] => []
  | slots, data :: chunks =>
      let fed := feed slots data
      fed.2 :: feedAll fed.1 chunks

end Roadstead.ToolCallStreamSanitizer
