import Roadstead.Replay
import Roadstead.ThinkBleed

/-!
# A finish that rides on a content chunk

`execute_streaming` relays a chunk with text and a `finish_reason` in one choice as two
(`_split_coalesced_finish_chunk`).  What a client makes of a stream is an `Accumulator`: it keeps a
state for each choice, and its laws say that an empty delta and a null `finish_reason` say nothing
and that the two do not mix.  `Accumulator.chunk_split` is for all of them: the second half gives
every `finish_reason` that the first half withheld, and past the texts of the choices behind it.
`Message` is the usual accumulator.
-/

namespace Roadstead.Replay

open Json (Fields)

/-! ### What a client keeps -/

/-- A client's accumulator of one choice. -/
structure Accumulator (σ : Type*) where
  delta : σ → Fields → σ
  finish : σ → Json → σ
  /-- An empty delta says nothing. -/
  delta_nil : ∀ s, delta s [] = s
  /-- A null `finish_reason` says nothing. -/
  finish_null : ∀ s, finish s .null = s
  /-- It does not matter which of the two comes first. -/
  delta_finish : ∀ s reason d, delta (finish s reason) d = finish (delta s d) reason

/-- The delta of a choice; `{}` if it is no mapping. -/
def choiceDelta (ch : Json) : Fields := (ch.get "delta").asObj?.getD []

/-- The choices of a chunk. -/
def choicesOf (chunk : Json) : List Json := (chunk.get "choices").asArr?.getD []

/-- The deltas of a chunk, each with the index of its choice. -/
def deltasOf (chunk : Json) : List (Json × Fields) :=
  (choicesOf chunk).map fun ch => (ch.get "index", choiceDelta ch)

/-- The `finish_reason`s of a chunk, each with the index of its choice. -/
def reasonsOf (chunk : Json) : List (Json × Json) :=
  (choicesOf chunk).map fun ch => (ch.get "index", ch.get "finish_reason")

/-- The usages of a stream. -/
def usages (chunks : List Json) : List Json :=
  (chunks.map fun chunk => chunk.get "usage").filter (· ≠ .null)

namespace Accumulator

variable {σ : Type*} (acc : Accumulator σ) (i : Json)

/-- One choice of a chunk, for the state of the choices with index `i`. -/
def choice (s : σ) (ch : Json) : σ :=
  if ch.get "index" = i then acc.finish (acc.delta s (choiceDelta ch)) (ch.get "finish_reason")
  else s

/-- One chunk. -/
def chunk (s : σ) (chunk : Json) : σ := (choicesOf chunk).foldl (acc.choice i) s

/-- A stream. -/
def stream (s : σ) (chunks : List Json) : σ := chunks.foldl (acc.chunk i) s

end Accumulator

/-- What the usual client has of one choice. -/
structure Message where
  role : Json := .null
  content : List Char := []
  reasoning : List Char := []
  toolCalls : Dict ℤ CallEntry := ∅
  finishReason : Json := .null

/-- A message with one more delta. -/
def Message.add (m : Message) (d : Fields) : Message where
  role := if d.get "role" = .null then m.role else d.get "role"
  content := m.content ++ ThinkBleed.textOf (d.get "content")
  reasoning := m.reasoning ++ ThinkBleed.textOf (d.get "reasoning") ++
    ThinkBleed.textOf (d.get "reasoning_content")
  toolCalls := accumulateToolCallDeltas m.toolCalls (d.get "tool_calls")
  finishReason := m.finishReason

/-- A message with its `finish_reason`; the last one that is not null stands. -/
def Message.finish (m : Message) (reason : Json) : Message :=
  if reason = .null then m else { m with finishReason := reason }

theorem Message.add_nil (m : Message) : m.add [] = m := by
  simp [Message.add, Fields.get, ThinkBleed.textOf, accumulateToolCallDeltas]

theorem Message.add_finish (m : Message) (reason : Json) (d : Fields) :
    (m.finish reason).add d = (m.add d).finish reason := by
  by_cases nothing : reason = .null
  · rw [Message.finish, Message.finish, if_pos nothing, if_pos nothing]
  · rw [Message.finish, Message.finish, if_neg nothing, if_neg nothing]
    rfl

/-- The accumulator of the usual client. -/
def Message.accumulator : Accumulator Message where
  delta := Message.add
  finish := Message.finish
  delta_nil := Message.add_nil
  finish_null _ := if_pos rfl
  delta_finish := Message.add_finish

/-! ### The two halves -/

/-- The chunk has text and a `finish_reason` in one choice, and is as chunks are. -/
def Coalesced (chunk : Json) : Prop :=
  (∀ ch ∈ choicesOf chunk, ch.asObj?.isSome = true) ∧ ∃ ch ∈ choicesOf chunk, coalesced ch = true

theorem choicesOf_obj {fields : Fields} {chs : List Json}
    (list : fields.get "choices" = .arr chs) : choicesOf (.obj fields) = chs := by
  rw [choicesOf, Json.get_obj, list]
  rfl

/-- Exactly the coalesced chunks are split, each into its head and its tail. -/
theorem splitCoalescedFinishChunk_eq_some {chunk head tail : Json} :
    splitCoalescedFinishChunk chunk = some (head, tail) ↔
      Coalesced chunk ∧ ∃ fields, chunk = .obj fields ∧
        head = .obj (Fields.set fields "choices" (.arr ((choicesOf chunk).map headChoice))) ∧
        tail = .obj (Fields.erase
          (Fields.set fields "choices" (.arr ((choicesOf chunk).map tailChoice))) "usage") := by
  unfold splitCoalescedFinishChunk
  split
  case h_1 fields =>
    split
    case h_1 chs list =>
      rw [Coalesced, choicesOf_obj list]
      split
      case isTrue found =>
        rw [Bool.and_eq_true, List.all_eq_true, List.any_eq_true] at found
        simp only [Option.some.injEq, Prod.mk.injEq, Json.obj.injEq]
        constructor
        · rintro ⟨rfl, rfl⟩
          exact ⟨found, fields, rfl, rfl, rfl⟩
        · rintro ⟨-, fields', rfl, rfl, rfl⟩
          exact ⟨rfl, rfl⟩
      case isFalse missed =>
        rw [Bool.and_eq_true, List.all_eq_true, List.any_eq_true] at missed
        simp only [reduceCtorEq, false_iff, not_and]
        exact fun found => absurd found missed
    case h_2 _ none =>
      have empty : choicesOf (.obj fields) = [] := by
        rw [choicesOf, Json.get_obj]
        cases choices : Fields.get fields "choices" with
        | arr chs => exact absurd choices (none chs)
        | _ => rfl
      simp [Coalesced, empty]
  case h_2 _ noObject =>
    simp only [reduceCtorEq, false_iff, not_and]
    rintro - ⟨fields, rfl, -⟩
    exact noObject fields rfl

section Choice

variable {ch : Json}

theorem headChoice_get {key : String} (ne : key ≠ "finish_reason") :
    (headChoice ch).get key = ch.get key := by
  cases ch with
  | obj fields => exact Fields.get_set_of_ne _ ne _
  | _ => rfl

theorem tailChoice_get {key : String} (ne : key ≠ "delta") : (tailChoice ch).get key = ch.get key := by
  cases ch with
  | obj fields => exact Fields.get_set_of_ne _ ne _
  | _ => rfl

theorem headChoice_reason : (headChoice ch).get "finish_reason" = .null := by
  cases ch with
  | obj fields => exact Fields.get_set_self ..
  | _ => rfl

theorem choiceDelta_headChoice : choiceDelta (headChoice ch) = choiceDelta ch := by
  rw [choiceDelta, headChoice_get (by decide), choiceDelta]

theorem choiceDelta_tailChoice : choiceDelta (tailChoice ch) = [] := by
  cases ch with
  | obj fields =>
      rw [choiceDelta, tailChoice, Json.get_obj, Fields.get_set_self]
      rfl
  | _ => rfl

end Choice

namespace Accumulator

variable {σ : Type*} (acc : Accumulator σ) (i : Json) (s : σ)

/-- The head of a choice gives its delta. -/
theorem choice_headChoice (ch : Json) : acc.choice i s (headChoice ch) =
    if ch.get "index" = i then acc.delta s (choiceDelta ch) else s := by
  rw [choice, headChoice_get (by decide), headChoice_reason, choiceDelta_headChoice,
    acc.finish_null]

/-- The tail of a choice gives its `finish_reason`. -/
theorem choice_tailChoice (ch : Json) : acc.choice i s (tailChoice ch) =
    if ch.get "index" = i then acc.finish s (ch.get "finish_reason") else s := by
  rw [choice, tailChoice_get (by decide), tailChoice_get (by decide), choiceDelta_tailChoice,
    acc.delta_nil]

/-- A `finish_reason` may wait for the deltas of all choices. -/
theorem foldl_headChoice_finish (reason : Json) (chs : List Json) :
    (chs.map headChoice).foldl (acc.choice i) (acc.finish s reason) =
      acc.finish ((chs.map headChoice).foldl (acc.choice i) s) reason := by
  induction chs generalizing s with
  | nil => rfl
  | cons ch chs ih =>
      simp only [List.map_cons, List.foldl_cons, choice_headChoice]
      by_cases mine : ch.get "index" = i
      · rw [if_pos mine, if_pos mine, acc.delta_finish, ih]
      · rw [if_neg mine, if_neg mine, ih]

/-- All heads, then all tails. -/
theorem foldl_split (chs : List Json) :
    (chs.map tailChoice).foldl (acc.choice i) ((chs.map headChoice).foldl (acc.choice i) s) =
      chs.foldl (acc.choice i) s := by
  induction chs generalizing s with
  | nil => rfl
  | cons ch chs ih =>
      simp only [List.map_cons, List.foldl_cons, choice_headChoice, choice_tailChoice]
      by_cases mine : ch.get "index" = i
      · rw [if_pos mine, if_pos mine, ← foldl_headChoice_finish, ih, choice, if_pos mine]
      · rw [if_neg mine, if_neg mine, ih, choice, if_neg mine]

end Accumulator

/-- What the two halves of a chunk are together, and which half has what. -/
structure Halves (chunk head tail : Json) : Prop where
  /-- Whatever a client has of a choice, the halves add to it what the chunk adds. -/
  same : ∀ {σ : Type} (acc : Accumulator σ) (i : Json) (s : σ),
    acc.stream i s [head, tail] = acc.stream i s [chunk]
  usage : usages [head, tail] = usages [chunk]
  /-- The texts and calls are in the head. -/
  deltas : deltasOf head = deltasOf chunk
  noDelta : ∀ d ∈ deltasOf tail, d.2 = []
  /-- The `finish_reason`s are in the tail. -/
  reasons : reasonsOf tail = reasonsOf chunk
  noReason : ∀ r ∈ reasonsOf head, r.2 = .null
  /-- What does not belong to a choice is in both, but for the usage. -/
  others : ∀ key, key ≠ "choices" → head.get? key = chunk.get? key ∧
    (key ≠ "usage" → tail.get? key = chunk.get? key)

theorem halves_of_split {chunk head tail : Json}
    (split : splitCoalescedFinishChunk chunk = some (head, tail)) : Halves chunk head tail := by
  obtain ⟨-, fields, rfl, rfl, rfl⟩ := splitCoalescedFinishChunk_eq_some.mp split
  set chs := choicesOf (.obj fields)
  have heads : choicesOf (.obj (Fields.set fields "choices" (.arr (chs.map headChoice)))) =
      chs.map headChoice := choicesOf_obj (Fields.get_set_self ..)
  have tails : choicesOf (.obj (Fields.erase
      (Fields.set fields "choices" (.arr (chs.map tailChoice))) "usage")) = chs.map tailChoice := by
    refine choicesOf_obj ?_
    rw [Fields.get_erase_of_ne _ (by decide), Fields.get_set_self]
  constructor
  case same =>
    intro σ acc i s
    simp only [Accumulator.stream, Accumulator.chunk, List.foldl_cons, List.foldl_nil, heads, tails]
    exact acc.foldl_split i s chs
  case usage =>
    have none : Json.get (.obj (Fields.erase
        (Fields.set fields "choices" (.arr (chs.map tailChoice))) "usage")) "usage" = .null := by
      rw [Json.get_obj, Fields.get, Fields.get?_erase_self]
      rfl
    have kept : Json.get (.obj (Fields.set fields "choices" (.arr (chs.map headChoice)))) "usage" =
        Json.get (.obj fields) "usage" := Fields.get_set_of_ne _ (by decide) _
    simp only [usages, List.map_cons, List.map_nil, none, kept, List.filter_cons]
    rfl
  case deltas =>
    simp only [deltasOf, heads, List.map_map, Function.comp_def, choiceDelta_headChoice,
      headChoice_get (show "index" ≠ "finish_reason" by decide)]
    rfl
  case noDelta =>
    simp only [deltasOf, tails, List.map_map, List.forall_mem_map, Function.comp_apply,
      choiceDelta_tailChoice, implies_true]
  case reasons =>
    simp only [reasonsOf, tails, List.map_map, Function.comp_def,
      tailChoice_get (show "index" ≠ "delta" by decide),
      tailChoice_get (show "finish_reason" ≠ "delta" by decide)]
    rfl
  case noReason =>
    simp only [reasonsOf, heads, List.map_map, List.forall_mem_map, Function.comp_apply,
      headChoice_reason, implies_true]
  case others =>
    intro key other
    simp only [Json.get?_obj]
    refine ⟨Fields.get?_set_of_ne _ other _, fun ne => ?_⟩
    rw [Fields.get?_erase_of_ne _ ne, Fields.get?_set_of_ne _ other]

/-! ### The relay -/

/-- What is relayed of a chunk: its own bytes, or the two halves as `json.dumps` writes them. -/
def relayed (frame : ThinkBleed.Frame) : List ThinkBleed.Frame :=
  match splitCoalescedFinishChunk frame.parsed with
  | none => [frame]
  | some (head, tail) => [⟨head, none⟩, ⟨tail, none⟩]

/-- **A split loses nothing.**  Every coalesced chunk is relayed as two halves that a client reads
as it reads the chunk: the same message of every choice, the same usage, each part in one half
only, and the `finish_reason`s in the second.  Every other chunk is relayed as it came. -/
theorem relayed_lossless (frame : ThinkBleed.Frame) :
    (Coalesced frame.parsed ∧ ∃ head tail, relayed frame = [⟨head, none⟩, ⟨tail, none⟩] ∧
      Halves frame.parsed head tail ∧ ∀ i m, Message.accumulator.stream i m [head, tail] =
        Message.accumulator.stream i m [frame.parsed]) ∨
    (¬Coalesced frame.parsed ∧ relayed frame = [frame]) := by
  cases split : splitCoalescedFinishChunk frame.parsed with
  | some halves =>
      have lossless := halves_of_split split
      refine .inl ⟨(splitCoalescedFinishChunk_eq_some.mp split).1, halves.1, halves.2, ?_, lossless,
        lossless.same Message.accumulator⟩
      rw [relayed, split]
  | none =>
      refine .inr ⟨fun found => ?_, by rw [relayed, split]⟩
      obtain ⟨ch, mem, -⟩ := found.2
      cases parsed : frame.parsed with
      | obj fields =>
          have both := splitCoalescedFinishChunk_eq_some.mpr ⟨found, fields, parsed, rfl, rfl⟩
          rw [split] at both
          cases both
      | _ =>
          rw [parsed] at mem
          cases mem

end Roadstead.Replay
