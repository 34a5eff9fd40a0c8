import Roadstead.NoStore.Noninterference

/-!
# Who a corrected row is of

`record_completion` writes the row of a call before the guards of `Correction.apply` look at its
reply.  A guard that gives the caller another body writes the row again, as a whole, and the columns
that it does not pass get their defaults.  `Request.corrected` passes neither `kind` nor `key_id`:
`rewrite_spec` is what a rewritten row keeps, and `attribution_kept_iff` that one is never the row
of the same call, since only chat completions are corrected and the default kind is another.
-/

namespace Roadstead.NoStore

open Egress (Setting Result)
open Json (Fields)

/-! ### Attribution -/

/-- The columns that say whose call a row is of, and what became of its wish not to be stored. -/
structure Attribution where
  requestId : String
  agentId : String
  endpoint : String
  callSite : String
  priority : ℤ
  sessionId : SessionId
  turnId : Option String
  callerId : Option String
  keyId : Option String
  kind : String
  noStore : String
  deriving DecidableEq

def Completed.attribution (c : Completed) : Attribution where
  requestId := c.requestId
  agentId := c.agentId
  endpoint := c.endpoint
  callSite := c.callSite
  priority := c.priority
  sessionId := c.sessionId
  turnId := c.turnId
  callerId := c.callerId
  keyId := c.keyId
  kind := c.kind
  noStore := c.noStore

/-- The columns that a corrected row does not pass, at their defaults. -/
def Attribution.reset (a : Attribution) : Attribution := { a with kind := "llm", keyId := none }

/-- The row has content. -/
def CompletionRow.hasContent (row : CompletionRow) : Bool := row.payload.isSome || row.response.isSome

/-- A row that is left where `record_completion` wrote `first`. -/
structure KeepsAttribution (first row : CompletionRow) : Prop where
  attribution : row.attribution = first.attribution
  content : row.hasContent = true → first.hasContent = true

/-! ### The guards -/

/-- A guard of `Correction.apply`, with what it reads from outside. -/
inductive Guard where
  | finalize
  | redispatch (s : Setting) (answers : ℕ → Option Answer) (wall : ℚ)
  | toolCalls (s : Setting)
  | repair (s : Setting) (retry : Option Fields) (wall : ℚ)
  | validity (s : Setting)

def Guard.step : Guard → Step
  | finalize => .finalize
  | redispatch s answers wall => .redispatch s answers wall
  | toolCalls s => .toolCalls s
  | repair s retry wall => .repair s retry wall
  | validity s => .validity s

section Guards

variable {κ τ : Type} (f : Fittings κ τ) (l : Live)

/-- The row of a body that `_persist_corrected` is given. -/
def Request.correctedRow? (r : Request) (body : Fields) (wall : ℚ) : Option CompletionRow :=
  match Egress.intOf ((Watched.usageOf body).get "prompt_tokens"),
      Egress.intOf ((Watched.usageOf body).get "completion_tokens") with
  | .ok inputTokens, .ok outputTokens =>
      ((r.corrected body inputTokens outputTokens 0 none).row f.floats wall).toOption
  | _, _ => none

/-- The row that a guard writes, if it writes one. -/
def Live.rewrite : Guard → Option CompletionRow
  | .redispatch s answers wall =>
      (l.result.bind (recovered f.guards s answers l.req.ask)).bind fun a =>
        ((l.req.corrected a.body a.inputTokens a.outputTokens a.durationS a.finishReason).row
          f.floats wall).toOption
  | .repair s retry wall =>
      (l.result.bind (rewritten (Egress.maybeRepairSchema f.guards s
        { redispatch := fun _ => none, retry := retry } l.req.ask))).bind fun body =>
          l.req.correctedRow? f body wall
  | _ => none

variable [DecidableEq κ]

/-- The guards one after the other. -/
def correctAll : Stores κ τ → Live → List Guard → Stores κ τ × Live
  | st, l, [] => (st, l)
  | st, l, g :: gs => correctAll (l.step f st g.step).1 (l.step f st g.step).2 gs

/-- The rows that they write. -/
def rewrites : Stores κ τ → Live → List Guard → List CompletionRow
  | _, _, [] => []
  | st, l, g :: gs =>
      (l.rewrite f g).toList ++ rewrites (l.step f st g.step).1 (l.step f st g.step).2 gs

end Guards

section Rows

variable {κ τ : Type} {f : Fittings κ τ} {l : Live}

theorem attribution_row {floats : ℚ → ℕ} {wall : ℚ} {c : Completed} {row : CompletionRow}
    (written : c.row floats wall = .ok row) : row.attribution = c.attribution := by
  unfold Completed.row at written
  split at written
  · cases summary : contentSummary floats c.payload c.response with
    | error _ =>
        rw [summary] at written
        cases written
    | ok fields =>
        rw [summary] at written
        cases written
        rfl
  · cases written
    rfl

/-- An honoured row has no content; another one has what is not empty. -/
theorem hasContent_row {floats : ℚ → ℕ} {wall : ℚ} {c : Completed} {row : CompletionRow}
    (written : c.row floats wall = .ok row) : row.hasContent =
      (decide (c.noStore ≠ "honoured") &&
        ((c.payload.filter (· ≠ [])).isSome || (c.response.filter (· ≠ [])).isSome)) := by
  unfold Completed.row at written
  split at written
  case isTrue honoured =>
    cases summary : contentSummary floats c.payload c.response with
    | error _ =>
        rw [summary] at written
        cases written
    | ok fields =>
        rw [summary] at written
        cases written
        simp [CompletionRow.hasContent, Completed.bare, honoured]
  case isFalse other =>
    cases written
    simp [CompletionRow.hasContent, other]

/-- A row that a guard writes is that of a chat completion, as `Request.corrected` makes it. -/
theorem rewrite_eq_some {g : Guard} {row : CompletionRow} (rewrites : l.rewrite f g = some row) :
    l.req.isChat = true ∧ ∃ body inputTokens outputTokens durationS finishReason wall,
      (l.req.corrected body inputTokens outputTokens durationS finishReason).row f.floats wall =
        .ok row := by
  have ok_of_toOption : ∀ {e : Except Unit CompletionRow}, e.toOption = some row → e = .ok row := by
    intro e written
    cases e with
    | error _ => cases written
    | ok _ => exact congrArg Except.ok (Option.some.inj written)
  cases g with
  | redispatch s answers wall =>
      obtain ⟨a, answered, written⟩ := Option.bind_eq_some_iff.mp rewrites
      obtain ⟨result, -, found⟩ := Option.bind_eq_some_iff.mp answered
      refine ⟨?_, a.body, a.inputTokens, a.outputTokens, a.durationS, a.finishReason, wall,
        ok_of_toOption written⟩
      by_contra other
      have off : l.req.ask.chat = false := Bool.eq_false_iff.mpr other
      unfold recovered at found
      split at found
      · rw [if_pos (.inr (.inr (.inl off)))] at found
        cases found
      · cases found
  | repair s retry wall =>
      obtain ⟨body, mended, written⟩ := Option.bind_eq_some_iff.mp rewrites
      obtain ⟨result, -, found⟩ := Option.bind_eq_some_iff.mp mended
      constructor
      · by_contra other
        have off : l.req.ask.chat = false := Bool.eq_false_iff.mpr other
        have stays : ∀ x, Egress.maybeRepairSchema f.guards s
            { redispatch := fun _ => none, retry := retry } l.req.ask x = x := by
          intro x
          unfold Egress.maybeRepairSchema
          split
          · exact if_pos (.inr (.inr (.inl off)))
          · rfl
        rw [rewritten, NoStore.mended, stays] at found
        cases found
      · unfold Request.correctedRow? at written
        split at written
        · next inputTokens outputTokens _ _ =>
            exact ⟨body, inputTokens, outputTokens, 0, none, wall, ok_of_toOption written⟩
        · cases written
  | finalize | toolCalls s | validity s => cases rewrites

/-- What a rewritten row keeps of the row of the completion, and what it does not. -/
theorem rewrite_spec {g : Guard} {row : CompletionRow} (rewrites : l.rewrite f g = some row)
    (o : Outcome) :
    row.attribution = (l.req.ended o).attribution.reset ∧
      (l.req.ended o).kind = "chat" ∧
      (row.hasContent = true → l.req.head.noStoreOutcome ≠ "honoured") := by
  obtain ⟨chat, body, inputTokens, outputTokens, durationS, finishReason, wall, written⟩ :=
    rewrite_eq_some rewrites
  refine ⟨attribution_row written, ?_, ?_⟩
  · exact if_pos (of_decide_eq_true chat)
  · intro content
    rw [hasContent_row written, Bool.and_eq_true, decide_eq_true_eq] at content
    exact content.1

theorem get?_recordCompletion {st : Stores κ τ} {o : Outcome} {first : CompletionRow}
    (wrote : (l.req.ended o).row f.floats o.wall = .ok first) :
    (st.recordCompletion f l.req o).completions.get? l.req.head.requestId = some first := by
  rw [Stores.recordCompletion, Stores.persistComplete, wrote]
  exact Dict.get?_set_self ..

end Rows

section Run

variable {κ τ : Type} [DecidableEq κ] {f : Fittings κ τ} {st : Stores κ τ} {l : Live}

/-- The guards touch the row of their own request only, and only by what they rewrite. -/
theorem step_completions (g : Guard) : (l.step f st g.step).1.completions =
    (l.rewrite f g).elim st.completions (st.completions.set l.req.head.requestId) := by
  have persist : ∀ (c : Completed) (wall : ℚ), c.requestId = l.req.head.requestId →
      (st.persistComplete f wall c).completions =
        (c.row f.floats wall).toOption.elim st.completions
          (st.completions.set l.req.head.requestId) := by
    intro c wall own
    rw [Stores.persistComplete, ← own]
    cases c.row f.floats wall <;> rfl
  cases g with
  | redispatch s answers wall =>
      change (Option.elim _ st _).completions = _
      rw [Live.rewrite]
      cases l.result.bind (recovered f.guards s answers l.req.ask) with
      | none => rfl
      | some a => exact persist _ _ rfl
  | repair s retry wall =>
      change (Option.elim _ st _).completions = _
      rw [Live.rewrite]
      cases l.result.bind (rewritten _) with
      | none => rfl
      | some body =>
          rw [Option.elim_some, Option.bind_some, Stores.persistCorrected, Request.correctedRow?]
          cases Egress.intOf ((Watched.usageOf body).get "prompt_tokens") with
          | error _ => rfl
          | ok inputTokens =>
              cases Egress.intOf ((Watched.usageOf body).get "completion_tokens") with
              | error _ => rfl
              | ok outputTokens => exact persist _ _ rfl
  | finalize | toolCalls s | validity s => rfl

theorem step_req (g : Guard) : (l.step f st g.step).2.req = l.req := by
  cases g <;> rfl

/-- What a run of guards leaves of a row is the last that they write. -/
theorem get?_correctAll (gs : List Guard) (id : String) (own : l.req.head.requestId = id) :
    (correctAll f st l gs).1.completions.get? id =
      (rewrites f st l gs).getLast?.or (st.completions.get? id) := by
  induction gs generalizing st l with
  | nil => rfl
  | cons g gs ih =>
      have own' : (l.step f st g.step).2.req.head.requestId = id := by rw [step_req, own]
      rw [correctAll, ih own', rewrites, List.getLast?_append, step_completions, own]
      cases l.rewrite f g with
      | none => rw [Option.toList_none, List.getLast?_nil, Option.or_none, Option.elim_none]
      | some row =>
          rw [Option.toList_some, List.getLast?_singleton, Option.elim_some, Dict.get?_set_self]
          cases (rewrites f (l.step f st g.step).1 (l.step f st g.step).2 gs).getLast? <;> rfl

/-- Every row that a run of guards writes is one of the request. -/
theorem rewrites_spec {gs : List Guard} {row : CompletionRow} (mem : row ∈ rewrites f st l gs)
    (o : Outcome) :
    row.attribution = (l.req.ended o).attribution.reset ∧
      (l.req.ended o).kind = "chat" ∧
      (row.hasContent = true → l.req.head.noStoreOutcome ≠ "honoured") := by
  induction gs generalizing st l with
  | nil => cases mem
  | cons g gs ih =>
      rw [rewrites, List.mem_append, Option.mem_toList] at mem
      rcases mem with here | later
      · exact rewrite_spec here o
      · have spec := ih later
        rwa [step_req] at spec

/-! ### The corrected row -/

/-- Where `record_completion` wrote a row, the guards leave one of the same call. -/
def AttributionKept (f : Fittings κ τ) (st : Stores κ τ) (l : Live) (o : Outcome)
    (gs : List Guard) : Prop :=
  ∀ first, (l.req.ended o).row f.floats o.wall = .ok first →
    ∃ row, (correctAll f (st.recordCompletion f l.req o) l gs).1.completions.get?
        l.req.head.requestId = some row ∧ KeepsAttribution first row

/-- The guards write the row again that `record_completion` wrote. -/
def Rewritten (f : Fittings κ τ) (st : Stores κ τ) (l : Live) (o : Outcome) (gs : List Guard) :
    Prop :=
  (∃ first, (l.req.ended o).row f.floats o.wall = .ok first) ∧
    rewrites f (st.recordCompletion f l.req o) l gs ≠ []

/-- **Attribution.**  No request and no run of guards has a rewritten row that keeps its
attribution: the kind becomes `llm` and the key that vouched for the caller is forgotten.  The other
columns stay, and content is not stored where it was not. -/
theorem attribution_kept_iff (f : Fittings κ τ) (st : Stores κ τ) (l : Live) (o : Outcome)
    (gs : List Guard) :
    (AttributionKept f st l o gs ↔ ¬Rewritten f st l o gs) ∧
      (Rewritten f st l o gs → ∃ first row, (l.req.ended o).row f.floats o.wall = .ok first ∧
        (correctAll f (st.recordCompletion f l.req o) l gs).1.completions.get?
          l.req.head.requestId = some row ∧
        row.attribution = first.attribution.reset ∧
        first.kind = "chat" ∧
        (l.req.payload ≠ [] → row.hasContent = true → first.hasContent = true)) := by
  have left : Rewritten f st l o gs → ∃ first row, (l.req.ended o).row f.floats o.wall = .ok first ∧
      (correctAll f (st.recordCompletion f l.req o) l gs).1.completions.get?
        l.req.head.requestId = some row ∧
      row.attribution = first.attribution.reset ∧
      first.kind = "chat" ∧
      (l.req.payload ≠ [] → row.hasContent = true → first.hasContent = true) := by
    rintro ⟨⟨first, wrote⟩, some_row⟩
    have last := List.getLast?_eq_some_getLast some_row
    obtain ⟨attribution, kind, content⟩ := rewrites_spec (List.getLast_mem some_row) o
    have same := attribution_row wrote
    refine ⟨first, (rewrites f (st.recordCompletion f l.req o) l gs).getLast some_row, wrote, ?_⟩
    refine ⟨?_, ?_, ?_, ?_⟩
    · rw [get?_correctAll gs _ rfl, last, Option.some_or]
    · rw [attribution, same]
    · exact (congrArg Attribution.kind same).trans kind
    · intro full stored
      have chat : l.req.isChat = true := by
        by_contra other
        rw [Request.isChat, decide_eq_true_eq] at other
        simp only [Request.ended, payloadKind, if_neg other] at kind
        split at kind
        · exact absurd kind (by decide)
        · split at kind <;> exact absurd kind (by decide)
      have open_row : (l.req.ended o).noStore ≠ "honoured" := content stored
      have payload : (l.req.ended o).payload = some l.req.payload := if_pos (by rw [chat]; rfl)
      rw [hasContent_row wrote, payload, decide_eq_true open_row]
      simp [Option.filter, full]
  refine ⟨⟨?_, ?_⟩, left⟩
  · intro kept rewritten
    obtain ⟨first, row, wrote, found, attribution, kind, -⟩ := left rewritten
    obtain ⟨row', found', keeps⟩ := kept first wrote
    rw [found, Option.some.injEq] at found'
    subst found'
    have llm : first.kind = "llm" :=
      congrArg Attribution.kind (keeps.attribution.symm.trans attribution)
    rw [kind] at llm
    exact absurd llm (by decide)
  · intro stays first wrote
    have none : rewrites f (st.recordCompletion f l.req o) l gs = [] := by
      by_contra some_row
      exact stays ⟨⟨first, wrote⟩, some_row⟩
    refine ⟨first, ?_, rfl, id⟩
    rw [get?_correctAll gs _ rfl, none, List.getLast?_nil, Option.none_or,
      get?_recordCompletion wrote]

end Run

/-- A delegated call whose reply is a loop, and whose second reply is not: the row that is left is
neither of a chat nor of the key that vouched for the caller. -/
theorem recovered_row_loses_key :
    ¬∀ (f : Fittings String Unit) (st : Stores String Unit) (l : Live) (o : Outcome)
      (gs : List Guard), AttributionKept f st l o gs := by
  intro kept
  let f : Fittings String Unit :=
    { plainFittings with
      guards := { plainFittings.guards with isDegenerateText := fun text => text = Egress.loopChars } }
  let l : Live :=
    { req :=
        { head := { plainHead with noStoreOutcome := "" }, keyId := some "key7"
          payload := [("messages", .arr [])] }
      result := some { status := .ok, response := some (plainReply Egress.loopText) } }
  let s : Setting :=
    { degenerationGuard := true, degenerationShadow := false, structuredValidity := true
      schemaBackstop := true, schemaBackstopShadow := false, configured := true, mislabels := false
      degenFree := true, degenTries := 2, retryFree := true }
  let a : Answer := { body := plainReply "fine", inputTokens := 7, outputTokens := 2, durationS := 1 }
  obtain ⟨row, found, keeps⟩ :=
    kept f emptySystem.stores l (plainOutcome Egress.loopText) [.redispatch s (fun _ => some a) 102] _ rfl
  have named := congrArg (Option.map fun row => row.toCompleted.attribution.keyId) found
  rw [Option.map_some, keeps.attribution] at named
  exact absurd named (by decide +kernel)

end Roadstead.NoStore
