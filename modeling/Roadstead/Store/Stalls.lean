import Mathlib.Algebra.Order.Ring.Rat
import Roadstead.Lib.Like
import Roadstead.Lib.Ranking

/-!
# The stalls of one caller

`PersistentQueue.stall_aborts`: the rows of `proxy_timeouts` in a window of time whose stream was cut
because the backend stalled, and whose caller id begins with a text.  The query says the latter with
`LIKE`; the text is escaped by three calls of `str.replace`, one after the other.

`LIKE` reads ASCII letters in either case, so a caller whose name differs in nothing else is taken for
the one that was asked about.  `stallAborts_exact_iff` says that this is all that goes wrong, beside the
empty text, for which the query is not made at all.
-/

namespace Roadstead.Stalls

/-- The columns of `proxy_timeouts` that the query reads. -/
structure TimeoutRow where
  requestId : String
  occurredAt : ℚ
  endpoint : String
  abortReason : Option String := none
  callerId : Option String := none
  agentId : Option String := none
  callSite : Option String := none
  elapsedS : Option ℚ := none
  layer : String
  deriving DecidableEq

/-- `STALL_ABORT_REASONS`. -/
def stallAbortReasons : List String := ["stall", "ttft", "goodput_collapse"]

/-- `str.replace` of a character. -/
def replace (old : Char) (new text : List Char) : List Char :=
  text.flatMap fun c => if c = old then new else [c]

/-- The pattern for the callers that begin with a text. -/
def pattern (callerPrefix : String) : List Char :=
  replace '_' ['\\', '_'] (replace '%' ['\\', '%'] (replace '\\' ['\\', '\\'] callerPrefix.toList)) ++
    ['%']

/-- A stall inside the window, both ends of which count. -/
def TimeoutRow.Stalled (since upTo : ℚ) (r : TimeoutRow) : Prop :=
  since ≤ r.occurredAt ∧ r.occurredAt ≤ upTo ∧ ∃ reason ∈ r.abortReason, reason ∈ stallAbortReasons

instance (since upTo : ℚ) (r : TimeoutRow) : Decidable (r.Stalled since upTo) :=
  inferInstanceAs (Decidable (_ ∧ _ ∧ _))

/-- `stall_aborts`.  A comparison with `NULL` selects nothing. -/
def stallAborts (rows : List TimeoutRow) (callerPrefix : String) (since upTo : ℚ) : List TimeoutRow :=
  if callerPrefix = "" then []
  else Ranking.ranked TimeoutRow.occurredAt (rows.filter fun r =>
    decide (r.Stalled since upTo) &&
      r.callerId.any fun caller => Like.like '\\' (pattern callerPrefix) caller.toList)

/-! ### The pattern -/

/-- The three replacements, the first of which is that of the escape, escape the text. -/
theorem pattern_eq (callerPrefix : String) :
    pattern callerPrefix = Like.escape '\\' callerPrefix.toList ++ ['%'] := by
  rw [pattern, replace, replace, replace, List.flatMap_assoc, List.flatMap_assoc, Like.escape]
  congr 2
  funext c
  by_cases escaping : c = '\\'
  · subst escaping
    rfl
  · by_cases percent : c = '%'
    · subst percent
      rfl
    · by_cases one : c = '_'
      · subst one
        rfl
      · simp [Like.Special, escaping, percent, one]

theorem like_pattern_iff (callerPrefix caller : String) :
    Like.like '\\' (pattern callerPrefix) caller.toList = true ↔
      callerPrefix.toList.map Char.toLower <+: caller.toList.map Char.toLower := by
  rw [pattern_eq]
  exact Like.like_escape (by decide) _ _

/-! ### The query -/

/-- The stalls in the window whose caller id begins with the text, in order of time. -/
def stallsOf (rows : List TimeoutRow) (callerPrefix : String) (since upTo : ℚ) : List TimeoutRow :=
  Ranking.ranked TimeoutRow.occurredAt (rows.filter fun r =>
    decide (r.Stalled since upTo) &&
      r.callerId.any fun caller => decide (callerPrefix.toList <+: caller.toList))

/-- The query gets this caller wrong: for the empty text it is not made, and it takes a caller for
another whose name is the same but for the case of ASCII letters. -/
def Misread (callerPrefix caller : String) : Prop :=
  callerPrefix = "" ∨
    callerPrefix.toList.map Char.toLower <+: caller.toList.map Char.toLower ∧
      ¬callerPrefix.toList <+: caller.toList

instance (callerPrefix caller : String) : Decidable (Misread callerPrefix caller) :=
  inferInstanceAs (Decidable (_ ∨ _ ∧ _))

/-- The query takes a row as one of the caller's. -/
def selected (callerPrefix caller : String) : Bool :=
  decide (callerPrefix ≠ "") && Like.like '\\' (pattern callerPrefix) caller.toList

theorem stallAborts_eq (rows : List TimeoutRow) (callerPrefix : String) (since upTo : ℚ) :
    stallAborts rows callerPrefix since upTo =
      Ranking.ranked TimeoutRow.occurredAt (rows.filter fun r =>
        decide (r.Stalled since upTo) && r.callerId.any (selected callerPrefix)) := by
  rw [stallAborts]
  by_cases empty : callerPrefix = ""
  · have nothing (r : TimeoutRow) : r.callerId.any (selected callerPrefix) = false := by
      cases r.callerId <;> simp [selected, empty]
    simp only [if_pos empty, nothing, Bool.and_false, List.filter_false]
    rfl
  · have same : (fun caller => Like.like '\\' (pattern callerPrefix) caller.toList) =
        selected callerPrefix := by
      funext caller
      rw [selected, decide_eq_true empty, Bool.true_and]
    rw [if_neg empty, same]

/-- A caller is read right exactly if it is not misread. -/
theorem selected_eq_iff (callerPrefix caller : String) :
    selected callerPrefix caller = decide (callerPrefix.toList <+: caller.toList) ↔
      ¬Misread callerPrefix caller := by
  have folds : callerPrefix.toList <+: caller.toList →
      callerPrefix.toList.map Char.toLower <+: caller.toList.map Char.toLower :=
    fun begins => begins.map _
  have matched := like_pattern_iff callerPrefix caller
  rw [Bool.eq_iff_iff, selected, Bool.and_eq_true, decide_eq_true_eq, decide_eq_true_eq, matched,
    Misread, not_or, not_and, not_not]
  constructor
  · intro same
    refine ⟨fun empty => ?_, fun folded => ?_⟩
    · exact (same.mpr (by rw [empty]; exact List.nil_prefix)).1 empty
    · by_cases empty : callerPrefix = ""
      · rw [empty]
        exact List.nil_prefix
      · exact same.mp ⟨empty, folded⟩
  · rintro ⟨some_text, exact'⟩
    exact ⟨fun both => exact' both.2, fun begins => ⟨some_text, folds begins⟩⟩

/-- The query selects the stalls of the caller and no others exactly if it misreads the caller of no
stall in the window. -/
theorem stallAborts_exact_iff (rows : List TimeoutRow) (callerPrefix : String) (since upTo : ℚ) :
    stallAborts rows callerPrefix since upTo = stallsOf rows callerPrefix since upTo ↔
      ∀ r ∈ rows, r.Stalled since upTo → ∀ caller ∈ r.callerId, ¬Misread callerPrefix caller := by
  rw [stallAborts_eq, stallsOf]
  constructor
  · intro same r mem stalled caller here
    have both : ∀ p q : TimeoutRow → Bool, Ranking.ranked TimeoutRow.occurredAt (rows.filter p) =
        Ranking.ranked TimeoutRow.occurredAt (rows.filter q) → p r = q r := by
      intro p q eq
      have ranks : ∀ p : TimeoutRow → Bool,
          r ∈ Ranking.ranked TimeoutRow.occurredAt (rows.filter p) ↔ r ∈ rows.filter p :=
        fun p => Ranking.mem_ranked
      have iff : r ∈ rows.filter p ↔ r ∈ rows.filter q := by rw [← ranks p, eq, ranks q]
      rw [List.mem_filter, List.mem_filter, and_iff_right mem, and_iff_right mem] at iff
      exact Bool.eq_iff_iff.mpr iff
    have eq := both _ _ same
    rw [decide_eq_true stalled, here] at eq
    exact (selected_eq_iff callerPrefix caller).mp (by simpa using eq)
  · intro right
    refine congrArg _ (List.filter_congr fun r mem => ?_)
    by_cases stalled : r.Stalled since upTo
    · rw [decide_eq_true stalled, Bool.true_and, Bool.true_and]
      cases here : r.callerId with
      | none => rfl
      | some caller => exact (selected_eq_iff callerPrefix caller).mpr (right r mem stalled caller here)
    · rw [decide_eq_false stalled, Bool.false_and, Bool.false_and]

/-- Another caller's stall, whose name differs in the case of one letter. -/
theorem other_case_is_selected :
    let row : TimeoutRow :=
      ⟨"r1", 1000, "tier3", some "stall", some "Pool-analyst", some "pool_broker", none, some 31, "stream"⟩
    stallAborts [row] "pool-analyst" 900 1100 = [row] ∧ stallsOf [row] "pool-analyst" 900 1100 = [] := by
  decide +kernel

end Roadstead.Stalls
