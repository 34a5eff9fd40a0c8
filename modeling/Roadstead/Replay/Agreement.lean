import Mathlib.Tactic.Linarith
import Roadstead.Replay.Cache
import Roadstead.Replay.Stream

/-!
# The store and the restore of a turn agree

A turn is stored under a key that is made of what the proxy has of it, and looked up under a key
that is made of what the client sends back.  `replayKey_eq_iff` says when two keys are equal.
`replay_agrees`: over any run, a stored turn that comes back in a history gets its reasoning, if
it was no stream or one that the sanitizer leaves as it is (`Turn.clean`).

Without the condition the lookup misses: `replay_misses` is a stream with a call whose arguments
are empty, which the sanitizer fills in for the client and the store does not see.
-/

namespace Roadstead.Replay

open Json (Fields Same)
open ToolCallStreamSanitizer (feedAll Output wellFormed)

/-! ### Keys -/

/-- The digests of values that differ are different. -/
def Digest.Injective {κ : Type} (digest : Digest κ) : Prop :=
  ∀ a b : Json, digest.sha256 a.canonical = digest.sha256 b.canonical → Same a b

/-- Two turns with the same normalised prefix, content and tool calls. -/
structure SameTurn {κ : Type} (digest : Digest κ) (messages messages' : List Json)
    (system system' : Json) (reply reply' : Reply) : Prop where
  messages : List.Forall₂ Same (messages.map normalizeMessage) (messages'.map normalizeMessage)
  system : Same system system'
  content : trimmedContent reply.content = trimmedContent reply'.content
  toolCalls : Same (normalizeToolCalls digest reply.toolCalls) (normalizeToolCalls digest reply'.toolCalls)

section Keys

variable {κ : Type} {digest : Digest κ} {messages messages' : List Json} {system system' : Json}
  {reply reply' : Reply}

theorem same_keyed (same : SameTurn digest messages messages' system system' reply reply') :
    Same (keyed digest messages system reply.content reply.toolCalls)
      (keyed digest messages' system' reply'.content reply'.toolCalls) := by
  rw [keyed, keyed, same.content]
  refine Json.same_obj (List.rel_append ?_ ?_)
  · exact .cons ⟨rfl, Json.same_arr.mpr same.messages⟩ (.cons ⟨rfl, .refl _⟩ (.cons ⟨rfl, same.toolCalls⟩ .nil))
  · by_cases absent : system = .null
    · have absent' : system' = .null := Json.same_null.mp (absent ▸ same.system)
      rw [if_pos absent, if_pos absent']
      exact .nil
    · have present : system' ≠ .null := fun absent' =>
        absent (Json.same_null.mp (absent' ▸ same.system.symm))
      rw [if_neg absent, if_neg present]
      exact .cons ⟨rfl, same.system⟩ .nil

theorem sameTurn_of_keyed (same : Same (keyed digest messages system reply.content reply.toolCalls)
      (keyed digest messages' system' reply'.content reply'.toolCalls)) :
    SameTurn digest messages messages' system system' reply reply' where
  messages := Json.same_arr.mp (Option.some.inj (same.get? "messages"))
  system := by
    have field := same.get? "system"
    rw [Fields.get?_append, Fields.get?_append] at field
    by_cases absent : system = .null <;> by_cases absent' : system' = .null
    · rw [absent, absent']
      exact .refl _
    · rw [if_pos absent, if_neg absent'] at field
      cases field
    · rw [if_neg absent, if_pos absent'] at field
      cases field
    · rw [if_neg absent, if_neg absent'] at field
      exact Option.some.inj field
  content := Json.str.inj (Option.some.inj (same.get? "content"))
  toolCalls := Option.some.inj (same.get? "tool_calls")

/-- Turns share a key exactly if they are the same up to normalisation. -/
theorem replayKey_eq_iff (injective : digest.Injective) :
    replayKey digest messages system reply.content reply.toolCalls =
        replayKey digest messages' system' reply'.content reply'.toolCalls ↔
      SameTurn digest messages messages' system system' reply reply' := by
  constructor
  · intro same
    exact sameTurn_of_keyed (injective _ _ same)
  · intro same
    rw [replayKey, replayKey, same_keyed same]

end Keys

/-! ### What a request sends -/

theorem normalizeMessage_set (m : Fields) (text : Json) :
    normalizeMessage (.obj (m.set "reasoning_content" text)) = normalizeMessage (.obj m) := by
  rw [normalizeMessage, normalizeMessage]
  congr 1
  induction m with
  | nil => rfl
  | cons field m ih =>
      rw [Fields.set]
      split
      · rename_i here
        rw [List.filter_cons, List.filter_cons]
        simp [here]
      · rw [List.filter_cons, List.filter_cons, ih]

section Requests

variable {κ : Type} [DecidableEq κ] (digest : Digest κ)

theorem normalize_restoreMessage (now : ℚ) (system : Json) (cache : Cache κ) (before : List Json)
    (m : Json) :
    normalizeMessage (restoreMessage digest now system cache before m).2 = normalizeMessage m := by
  unfold restoreMessage
  split
  · split
    · dsimp only
      split
      · exact normalizeMessage_set _ _
      · rfl
    · rfl
  · rfl

/-- What a request sends has the messages of its history, up to their reasoning. -/
theorem normalize_restore (gate : Gate) (now : ℚ) (system : Json) (cache : Cache κ)
    (messages : List Json) :
    (restore digest gate now system cache messages).2.map normalizeMessage =
      messages.map normalizeMessage := by
  have run : ∀ before, (restoreFrom digest now system cache before messages).2.map normalizeMessage =
      messages.map normalizeMessage := by
    induction messages generalizing cache with
    | nil => exact fun _ => rfl
    | cons m messages ih =>
        intro before
        rw [restoreFrom, List.map_cons, List.map_cons, normalize_restoreMessage, ih]
  unfold restore
  split
  · exact run []
  · rfl

end Requests

/-! ### Turns -/

/-- What a client makes of a stream, and what the proxy makes of it for the store. -/
def Reading.reply (reading : Reading) : Reply where
  content := .str reading.content
  toolCalls := callList reading.calls
  reasoning := .str reading.reasoning

/-- What the store is given of a body. -/
def bodyReply (body : Json) : Reply :=
  let message : Json :=
    match body.get "choices" with
    | .arr (ch :: _) => ch.get "message"
    | _ => .null
  { content := message.get "content"
    toolCalls := message.get "tool_calls"
    reasoning :=
      if (message.get "reasoning").truthy then message.get "reasoning"
      else message.get "reasoning_content" }

/-- A completed turn. -/
inductive Turn where
  /-- The body of a non-streaming response. -/
  | body (response : Json)
  /-- The chunks of the backend and, for each, the texts that are relayed. -/
  | relayed (chunks : List Json) (texts : List (List (List Char)))
  /-- The same, relayed through the sanitizer. -/
  | sanitized (chunks : List Json) (texts : List (List (List Char)))

/-- What the store is given. -/
def Turn.stored : Turn → Reply
  | .body response => bodyReply response
  | .relayed chunks _ | .sanitized chunks _ => (readStream chunks).reply

/-- What the client has. -/
def Turn.shown : Turn → Reply
  | .body response => bodyReply response
  | .relayed _ texts => (readStream (readings texts.flatten)).reply
  | .sanitized _ texts => (readStream ((feedAll ∅ texts.flatten).filterMap Output.json?)).reply

/-- The texts of a stream are those that are relayed of its chunks. -/
def Turn.Valid : Turn → Prop
  | .body _ => True
  | .relayed chunks texts | .sanitized chunks texts => List.Forall₂ Relayed chunks texts

/-- The sanitizer changes no call of the turn. -/
def Turn.clean : Turn → Bool
  | .body _ | .relayed .. => true
  | .sanitized _ texts => texts.flatten.all wellFormed && cleanFrom [] (readings texts.flatten)

/-- What is stored of a clean turn and what the client has of it are normalised alike. -/
theorem Turn.same {κ : Type} (digest : Digest κ) {turn : Turn} (valid : turn.Valid)
    (clean : turn.clean = true) :
    turn.stored.content = turn.shown.content ∧
      normalizeToolCalls digest turn.stored.toolCalls = normalizeToolCalls digest turn.shown.toolCalls := by
  cases turn with
  | body => exact ⟨rfl, rfl⟩
  | relayed chunks texts =>
      rw [stored, shown, readStream_relayed valid]
      exact ⟨rfl, rfl⟩
  | sanitized chunks texts =>
      rw [Turn.clean, Bool.and_eq_true, List.all_eq_true] at clean
      obtain ⟨⟨content, -⟩, calls⟩ := readStream_sanitized digest clean.1 clean.2
      rw [readStream_relayed valid] at content calls
      exact ⟨congrArg Json.str content, calls⟩

/-- The list of calls of a message. -/
def callsIn (toolCalls : Json) : List Json := toolCalls.asArr?.getD []

/-- A call as the client sends it back: with its name, and arguments that read the same.  Its
other fields may be gone, unless it is no function call. -/
def CallBack (call call' : Json) : Prop :=
  Same call call' ∧ call.get "function" = call'.get "function" ∨
    ∃ fn fn', call.get "function" = .obj fn ∧ call'.get "function" = .obj fn' ∧
      Same (Fields.get fn "name") (Fields.get fn' "name") ∧
      Same (normalizeArguments (Fields.get fn "arguments")) (normalizeArguments (Fields.get fn' "arguments"))

/-- A message of a history that is a turn as the client got it, without its reasoning. -/
structure SentBack (shown : Reply) (m : Fields) : Prop where
  role : Fields.get m "role" = .str "assistant"
  reasoning : (Fields.get m "reasoning").truthy = false ∧ (Fields.get m "reasoning_content").truthy = false
  content : trimmedContent shown.content = trimmedContent (Fields.get m "content")
  toolCalls : List.Forall₂ CallBack (callsIn shown.toolCalls) (callsIn (Fields.get m "tool_calls"))

theorem normalize_callsIn {κ : Type} (digest : Digest κ) (toolCalls : Json) :
    normalizeToolCalls digest toolCalls =
      if callsIn toolCalls = [] then .null
      else .arr ((callsIn toolCalls).map (normalizeToolCall digest)) := by
  cases toolCalls with
  | arr calls => cases calls <;> rfl
  | _ => rfl

theorem CallBack.normalize {κ : Type} (digest : Digest κ) {call call' : Json} (back : CallBack call call') :
    Same (normalizeToolCall digest call) (normalizeToolCall digest call') := by
  rcases back with ⟨same, fn⟩ | ⟨fn, fn', here, here', name, arguments⟩
  · rw [normalizeToolCall, normalizeToolCall, fn, Digest.canonical, Digest.canonical, same]
    split <;> rfl
  · rw [normalizeToolCall, normalizeToolCall, here, here']
    exact Json.same_arr.mpr (.cons name (.cons arguments .nil))

theorem SentBack.normalize {κ : Type} (digest : Digest κ) {shown : Reply} {m : Fields}
    (back : SentBack shown m) :
    Same (normalizeToolCalls digest shown.toolCalls)
      (normalizeToolCalls digest (Fields.get m "tool_calls")) := by
  rw [normalize_callsIn, normalize_callsIn]
  have calls := back.toolCalls
  generalize callsIn shown.toolCalls = shownCalls at calls
  generalize callsIn (Fields.get m "tool_calls") = sentCalls at calls
  cases calls with
  | nil => exact .refl _
  | cons first rest =>
      rw [if_neg (List.cons_ne_nil _ _), if_neg (List.cons_ne_nil _ _), Json.same_arr]
      exact List.forall₂_map_left_iff.mpr (List.forall₂_map_right_iff.mpr
        ((List.Forall₂.cons first rest).imp fun _ _ back => back.normalize digest))

theorem SentBack.wantsReasoning {shown : Reply} {m : Fields} (back : SentBack shown m) :
    wantsReasoning (.obj m) = true := by
  rw [Replay.wantsReasoning, back.role, back.reasoning.1, back.reasoning.2]
  rfl

/-! ### The result -/

section Result

variable {κ : Type} [DecidableEq κ] (digest : Digest κ)

/-- The message that a restore makes of a message whose key is held. -/
theorem restoreMessage_hit {cache : Cache κ} {key : κ} {text : String} {deadline now : ℚ}
    (holds : Holds cache key text deadline) (early : now ≤ deadline) {system : Json}
    {before : List Json} {m : Fields} (wanted : wantsReasoning (.obj m) = true)
    (same : replayKey digest before system (Fields.get m "content") (Fields.get m "tool_calls") = key) :
    (restoreMessage digest now system cache before (.obj m)).2 =
      .obj (Fields.set m "reasoning_content" (.str text)) := by
  simp only [restoreMessage, wanted, if_true, same, holds.get early]

end Result

/-- A turn that is stored, what happens until the client sends it back, and the request that does. -/
structure Exchange {κ : Type} [DecidableEq κ] (digest : Digest κ) (bounds : Bounds) where
  /-- The request that the turn answers: its history is restored from some state of the store. -/
  gate : Gate
  system : Json
  history : List Json
  cache : Cache κ
  restoredAt : ℚ
  turn : Turn
  reasoning : String
  /-- The store when the turn is stored, and the events after it. -/
  before : Cache κ
  storedAt : ℚ
  events : List Event
  /-- The request that sends it back: the same history, the turn, and whatever followed. -/
  gate' : Gate
  system' : Json
  history' : List Json
  m : Fields
  rest : List Json
  now : ℚ
  valid : turn.Valid
  reasoned : turn.stored.reasoning = .str reasoning ∧ Text.strip reasoning.toList ≠ []
  opened : gate.open = true ∧ gate'.open = true
  sameHistory : List.Forall₂ Same (history.map normalizeMessage) (history'.map normalizeMessage) ∧
    Same system system'
  back : SentBack turn.shown m
  times : ∀ event ∈ events, storedAt ≤ event.now ∧ event.now ≤ now
  ttl : storedAt ≤ now ∧ now ≤ storedAt + bounds.ttl
  fits : reasoning.utf8ByteSize ≤ bounds.maxBytes
  kept : replayKey digest (restore digest gate restoredAt system cache history).2 system
      turn.stored.content turn.stored.toolCalls ∉
    (runEvents digest bounds before (.store gate storedAt system
      (restore digest gate restoredAt system cache history).2 turn.stored :: events)).2

section Exchange

variable {κ : Type} [DecidableEq κ] {digest : Digest κ} {bounds : Bounds}

/-- The messages that the first request sends. -/
def Exchange.sent (ex : Exchange digest bounds) : List Json :=
  (restore digest ex.gate ex.restoredAt ex.system ex.cache ex.history).2

/-- The store when the second request comes. -/
def Exchange.after (ex : Exchange digest bounds) : Cache κ :=
  (runEvents digest bounds ex.before
    (.store ex.gate ex.storedAt ex.system ex.sent ex.turn.stored :: ex.events)).1

/-- What the second request sends in the place of the turn. -/
def Exchange.restored (ex : Exchange digest bounds) : Option Json :=
  (restore digest ex.gate' ex.now ex.system' ex.after (ex.history' ++ .obj ex.m :: ex.rest)).2[
    ex.history'.length]?

/-- The turn as it was sent back, with its reasoning. -/
def Exchange.expected (ex : Exchange digest bounds) : Json :=
  .obj (Fields.set ex.m "reasoning_content" (.str ex.reasoning))

/-- No turn that is the same up to normalisation is stored with other reasoning. -/
def Exchange.Alone (ex : Exchange digest bounds) : Prop :=
  ∀ event ∈ ex.events, ∀ gate now system messages reply text,
    event = .store gate now system messages reply → reply.reasoning = .str text →
    SameTurn digest messages ex.sent system ex.system reply ex.turn.stored → text = ex.reasoning

theorem Exchange.holds (ex : Exchange digest bounds) (injective : digest.Injective) (alone : ex.Alone) :
    Holds ex.after (replayKey digest ex.sent ex.system ex.turn.stored.content ex.turn.stored.toolCalls)
      ex.reasoning ex.now := by
  have kept := ex.kept
  rw [runEvents, List.mem_append, not_or] at kept
  have stored : (Event.store ex.gate ex.storedAt ex.system ex.sent ex.turn.stored).step digest bounds ex.before =
      put bounds ex.storedAt ex.before
        (replayKey digest ex.sent ex.system ex.turn.stored.content ex.turn.stored.toolCalls) ex.reasoning := by
    rw [Event.step, ex.reasoned.1, store, ex.opened.1]
    simp [ex.reasoned.2]
  have nonempty : ex.reasoning ≠ "" := by
    intro empty
    exact ex.reasoned.2 (by rw [empty]; rfl)
  have first := kept.1
  rw [← Exchange.sent, stored] at first
  obtain ⟨entry, there, same, fresh⟩ := holds_put bounds ex.before nonempty ex.fits first
  rw [Exchange.after, runEvents]
  refine holds_run digest bounds ?_ ?_ ?_ kept.2
  · rw [stored]
    exact ⟨entry, there, same, ex.ttl.2.trans fresh⟩
  · intro event mem
    have times := ex.times event mem
    exact ⟨times.2, ex.ttl.2.trans (by linarith)⟩
  · intro event mem text here
    cases event with
    | restore => cases here
    | store gate now system messages reply =>
        obtain ⟨text', reasoned, same⟩ := Option.map_eq_some_iff.mp here
        obtain ⟨oneKey, rfl⟩ := Prod.ext_iff.mp same
        exact alone _ mem gate now system messages reply text' rfl (Json.asStr?_eq_some.mp reasoned)
          ((replayKey_eq_iff injective).mp oneKey)

/-- The client's view of a clean turn and the proxy's are the same up to normalisation. -/
theorem Exchange.sameTurn (ex : Exchange digest bounds) (clean : ex.turn.clean = true) :
    SameTurn digest ex.history' ex.sent ex.system' ex.system
      ⟨Fields.get ex.m "content", Fields.get ex.m "tool_calls", .null⟩ ex.turn.stored := by
  obtain ⟨content, calls⟩ := ex.turn.same digest ex.valid clean
  refine ⟨?_, ex.sameHistory.2.symm, ?_, ?_⟩
  · rw [Exchange.sent, normalize_restore]
    exact ex.sameHistory.1.flip.imp fun _ _ same => same.symm
  · rw [content, ← ex.back.content]
  · rw [calls]
    exact (ex.back.normalize digest).symm

theorem Exchange.restored_eq (ex : Exchange digest bounds) (injective : digest.Injective)
    (clean : ex.turn.clean = true) (alone : ex.Alone) : ex.restored = some ex.expected := by
  have oneKey := (replayKey_eq_iff injective).mpr (ex.sameTurn clean)
  obtain ⟨cache, holds, found⟩ := restoreFrom_at (ex.holds injective alone) (le_refl _) digest
    ex.system' [] ex.history' ex.rest (.obj ex.m)
  rw [List.nil_append] at found
  rw [Exchange.restored, restore, if_pos ex.opened.2, found, Exchange.expected]
  exact congrArg some (restoreMessage_hit digest holds (le_refl _) ex.back.wantsReasoning oneKey)

/-- Over any run a clean turn that comes back gets its reasoning, and turns that differ after
normalisation have different keys. -/
theorem replay_agrees (injective : digest.Injective) :
    (∀ (bounds : Bounds) (ex : Exchange digest bounds), ex.turn.clean = true → ex.Alone →
        ex.restored = some ex.expected) ∧
      ∀ (messages messages' : List Json) (system system' : Json) (reply reply' : Reply),
        ¬ SameTurn digest messages messages' system system' reply reply' →
        replayKey digest messages system reply.content reply.toolCalls ≠
          replayKey digest messages' system' reply'.content reply'.toolCalls :=
  ⟨fun _ ex clean alone => ex.restored_eq injective clean alone,
    fun _ _ _ _ _ _ differ same => differ ((replayKey_eq_iff injective).mp same)⟩

end Exchange

section Samples

/-- A digest that keeps the value. -/
def plainDigest : Digest Json := ⟨fun _ => "", id⟩

theorem plainDigest_injective : plainDigest.Injective := fun _ _ same => same

/-- A call of `ls`, with what its one fragment has for arguments. -/
def callStream (arguments : String) : List (List Char) :=
  [r#"{"choices":[{"delta":{"reasoning":"look","tool_calls":[{"index":0,"# ++
      r#""function":{"name":"ls","arguments":""# ++ arguments ++ r#""}}]}}]}"#,
    r#"{"choices":[{"delta":{},"finish_reason":"stop"}]}"#].map String.toList

def callTurn (arguments : String) : Turn :=
  .sanitized (readings (callStream arguments)) ((callStream arguments).map fun data => [data])

/-- The chunks of that call. -/
def callChunks (arguments : String) : List Json :=
  [.obj [("choices", .arr [.obj [("delta", .obj [("reasoning", .str "look"), ("tool_calls",
      .arr [.obj [("index", .int 0), ("function", .obj [("name", .str "ls"),
        ("arguments", .str arguments)])]])])]])],
    .obj [("choices", .arr [.obj [("delta", .obj []), ("finish_reason", .str "stop")]])]]

/-- What its texts are read as; the rest of this section reads them no more. -/
theorem loads_filled : (callStream "{}").map (Json.loads false) = (callChunks "{}").map some := by
  decide +kernel

theorem loads_empty : (callStream "").map (Json.loads false) = (callChunks "").map some := by
  decide +kernel

theorem callTurn_eq {arguments : String}
    (read : (callStream arguments).map (Json.loads false) = (callChunks arguments).map some) :
    callTurn arguments = .sanitized (callChunks arguments)
      ((callStream arguments).map fun data => [data]) := by
  have chunks : readings (callStream arguments) = callChunks arguments := by
    have each := congrArg (List.filterMap id) read
    rwa [List.filterMap_map, List.filterMap_map, Function.id_comp, Function.id_comp, List.filterMap_some] at each
  rw [callTurn, chunks]

/-- Texts that are not split are relayed as they are. -/
theorem relayed_whole {texts : List (List Char)} {chunks : List Json}
    (read : texts.map (Json.loads false) = chunks.map some)
    (unsplit : ∀ chunk ∈ chunks, splitCoalescedFinishChunk chunk = none) :
    List.Forall₂ Relayed (readings texts) (texts.map fun data => [data]) := by
  induction texts generalizing chunks with
  | nil => exact .nil
  | cons data texts ih =>
      cases chunks with
      | nil => cases read
      | cons chunk chunks =>
          obtain ⟨here, later⟩ := List.cons.inj read
          rw [readings, List.filterMap_cons_some here, List.map_cons]
          exact .cons (.whole (unsplit chunk (List.mem_cons_self ..)) here)
            (ih later fun chunk mem => unsplit chunk (List.mem_cons_of_mem _ mem))

/-- The turn as a client sends it back: no id, and the arguments with a space. -/
def sentBack : Fields :=
  [("role", .str "assistant"), ("content", .str ""),
    ("tool_calls", .arr [.obj [("function", .obj [("name", .str "ls"), ("arguments", .str "{ }")])]])]

theorem fillings : Same (normalizeArguments (.str "{}")) (normalizeArguments (.str "{ }")) := by
  decide

theorem sentBack_callTurn {arguments : String} {entry : CallEntry}
    (shown : (callTurn arguments).shown.content = .str "" ∧
      (callTurn arguments).shown.toolCalls = .arr [entry.json])
    (name : entry.name = "ls") (empty : entry.arguments = "{}") :
    SentBack (callTurn arguments).shown sentBack where
  role := rfl
  reasoning := ⟨rfl, rfl⟩
  content := by rw [shown.1]; rfl
  toolCalls := by
    rw [shown.2]
    refine .cons (.inr ⟨_, _, rfl, rfl, ?_, ?_⟩) .nil
    · rw [name]
      exact .refl _
    · rw [empty]
      exact fillings

/-- An exchange without anything between the turn and its return. -/
def callExchange (arguments : String) (valid : (callTurn arguments).Valid)
    (reasoned : (callTurn arguments).stored.reasoning = .str "look")
    (back : SentBack (callTurn arguments).shown sentBack)
    (kept : (runEvents plainDigest ⟨4, 100, 60⟩ []
      [.store ⟨true, false, true⟩ 0 .null [] (callTurn arguments).stored]).2 = []) :
    Exchange plainDigest ⟨4, 100, 60⟩ where
  gate := ⟨true, false, true⟩
  system := .null
  history := []
  cache := []
  restoredAt := 0
  turn := callTurn arguments
  reasoning := "look"
  before := []
  storedAt := 0
  events := []
  gate' := ⟨true, false, true⟩
  system' := .null
  history' := []
  m := sentBack
  rest := []
  now := 10
  valid := valid
  reasoned := ⟨reasoned, by decide⟩
  opened := ⟨rfl, rfl⟩
  sameHistory := ⟨.nil, .refl _⟩
  back := back
  times := nofun
  ttl := by norm_num
  fits := by decide
  kept := by
    have nothing : (restore plainDigest ⟨true, false, true⟩ 0 .null [] []).2 = ([] : List Json) := rfl
    rw [nothing, kept]
    nofun

/-- What the client makes of the call. -/
def listing : CallEntry := { name := "ls", arguments := "{}" }

/-- The call comes with an empty object for its arguments. -/
def filledExchange : Exchange plainDigest ⟨4, 100, 60⟩ :=
  callExchange "{}" (relayed_whole loads_filled (by decide +kernel))
    (by rw [callTurn_eq loads_filled]; decide +kernel)
    (@sentBack_callTurn _ listing (by rw [callTurn_eq loads_filled]; decide +kernel) rfl rfl)
    (by rw [callTurn_eq loads_filled]; decide +kernel)

/-- The call comes with an empty text, and the sanitizer shows an empty object. -/
def emptyExchange : Exchange plainDigest ⟨4, 100, 60⟩ :=
  callExchange "" (relayed_whole loads_empty (by decide +kernel))
    (by rw [callTurn_eq loads_empty]; decide +kernel)
    (@sentBack_callTurn _ listing (by rw [callTurn_eq loads_empty]; decide +kernel) rfl rfl)
    (by rw [callTurn_eq loads_empty]; decide +kernel)

theorem replay_agrees_filled : filledExchange.restored = some filledExchange.expected :=
  (replay_agrees plainDigest_injective).1 _ filledExchange (by decide +kernel) nofun

/-- The call without arguments is stored under a key that is never looked up. -/
theorem replay_misses :
    ¬ ∀ ex : Exchange plainDigest ⟨4, 100, 60⟩, ex.Alone → ex.restored = some ex.expected := by
  intro agrees
  have missed : emptyExchange.restored = some (.obj sentBack) := by decide +kernel
  have hit := agrees emptyExchange nofun
  rw [missed] at hit
  revert hit
  decide +kernel

end Samples

end Roadstead.Replay
