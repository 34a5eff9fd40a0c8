import Mathlib.Data.List.Dedup
import Roadstead.Lib.Binary64
import Roadstead.Lib.Window

/-!
# Loops of the reasoning channel

`ReasoningLoopDetector` and `distinct_gram_ratio_over` of `correction.py`.  The detector keeps the
end of the text in pieces and cuts them now and then, counts what came apart from what it keeps,
and holds the first characters back for a second call.  `Tracks` is what all that is of the whole
text: each check is then `judge` of the text so far (`feed_check`), wherever the deltas were cut and
whatever was dropped.

A delta that is no string is the empty one here: both change nothing.  A float is a rational number
that is rounded where the code rounds.
-/

namespace Roadstead.ReasoningLoop

/-! ### The ratio -/

/-- `_DEGEN_TAIL_GRAM`. -/
def degenTailGram : ℕ := 24

/-- `_REASONING_LOOP_HEAD_CHARS`. -/
def headCap : ℕ := 12000

/-- `text[-window:]`. -/
def lastChars (window : ℤ) (text : List Char) : List Char :=
  if 0 < window then text.rtake window.toNat else text.drop (-window).toNat

/-- The first `n` grams of a text. -/
def grams (gram n : ℕ) (tail : List Char) : List (List Char) :=
  (List.range n).map fun i => (tail.drop i).take gram

/-- `distinct_gram_ratio_over`. -/
def distinctGramRatioOver (text : List Char) (window : ℤ) (gram : ℕ := degenTailGram) : ℚ :=
  let tail := lastChars window text
  let n := tail.length + 1 - gram
  if n = 0 then 1 else Binary64.nearest ((grams gram n tail).dedup.length / n)

/-- `round(x, 4)`. -/
def round4 (x : ℚ) : ℚ := Binary64.nearest (Binary64.roundHalfEven (x * 10000) / 10000)

/-! ### The detector -/

/-- The thresholds that an endpoint declares. -/
structure Thresholds where
  window : ℤ := 0
  minChars : ℤ := 0
  maxDistinct : ℚ := 0
  checkEvery : ℤ := 0

/-- `armed`. -/
def Thresholds.armed (t : Thresholds) : Bool :=
  decide (0 < t.window ∧ 0 < t.minChars ∧ 0 < t.checkEvery ∧ 0 < t.maxDistinct ∧ t.maxDistinct < 1)

/-- The evidence of a detector that fires. -/
structure Verdict where
  distinctGramRatio : ℚ
  windowChars : ℤ
  threshold : ℚ
  reasoningCharsSeen : ℕ
  deriving DecidableEq

/-- A check: how much text had come, the ratio, and the verdict if it fires. -/
structure Check where
  seen : ℕ
  ratio : ℚ
  verdict : Option Verdict
  deriving DecidableEq

structure Detector where
  t : Thresholds
  buf : List (List Char) := []
  bufLen : ℕ := 0
  seen : ℕ := 0
  nextCheck : ℤ := max t.minChars 1
  verdict : Option Verdict := none
  head : List (List Char) := []
  headLen : ℕ := 0

namespace Detector

/-- The detector is armed and has not fired. -/
def listening (d : Detector) : Bool := d.t.armed && d.verdict.isNone

/-- The head takes of a delta what it has room for. -/
def keepHead (d : Detector) (delta : List Char) : Detector :=
  if d.headLen < headCap then
    { d with
      head := d.head ++ [delta.take (headCap - d.headLen)]
      headLen := d.headLen + min delta.length (headCap - d.headLen) }
  else d

def append (d : Detector) (delta : List Char) : Detector :=
  { d with
    buf := d.buf ++ [delta], bufLen := d.bufLen + delta.length, seen := d.seen + delta.length }

/-- A buffer of more than two windows is cut to one. -/
def trim (d : Detector) : Detector :=
  if d.t.window * 2 < d.bufLen then
    let tail := lastChars d.t.window d.buf.flatten
    { d with buf := [tail], bufLen := tail.length }
  else d

/-- A check of the buffer. -/
def check (d : Detector) : Detector × Check :=
  let ratio := distinctGramRatioOver d.buf.flatten d.t.window
  let d := { d with nextCheck := d.seen + d.t.checkEvery }
  if d.t.maxDistinct < ratio then (d, ⟨d.seen, ratio, none⟩)
  else
    let verdict : Verdict :=
      { distinctGramRatio := round4 ratio, windowChars := d.t.window
        threshold := d.t.maxDistinct, reasoningCharsSeen := d.seen }
    ({ d with verdict := some verdict }, ⟨d.seen, ratio, some verdict⟩)

/-- `feed`, with the check that it makes, if any; what it returns is the verdict of that check. -/
def feed (d : Detector) (delta : List Char) : Detector × Option Check :=
  if !d.listening || delta.isEmpty then (d, none)
  else
    let d := ((d.keepHead delta).append delta).trim
    if d.seen < d.t.minChars ∨ d.seen < d.nextCheck then (d, none)
    else (d.check.1, some d.check.2)

/-- The deltas of a stream, one after the other. -/
def run (d : Detector) (deltas : List (List Char)) : Detector :=
  deltas.foldl (fun d delta => (d.feed delta).1) d

/-- The checks of a stream. -/
def checks (d : Detector) : List (List Char) → List Check
  | [] => []
  | delta :: deltas => (d.feed delta).2.toList ++ checks (d.feed delta).1 deltas

/-- The text that is fed to a detector while it listens: up to the delta that it fires on, that
one included. -/
def heard (d : Detector) : List (List Char) → List Char
  | [] => []
  | delta :: deltas => if d.listening then delta ++ heard (d.feed delta).1 deltas else []

end Detector

/-! ### A check is a judgement of the text -/

/-- The check of a text. -/
def judge (t : Thresholds) (text : List Char) : Check :=
  let ratio := distinctGramRatioOver text t.window
  { seen := text.length
    ratio := ratio
    verdict :=
      if t.maxDistinct < ratio then none
      else some
        { distinctGramRatio := round4 ratio, windowChars := t.window
          threshold := t.maxDistinct, reasoningCharsSeen := text.length } }

/-- What a detector has of the text so far. -/
structure Tracks (t : Thresholds) (text : List Char) (d : Detector) : Prop where
  thresholds : d.t = t
  seen : d.seen = text.length
  bufLen : d.bufLen = d.buf.flatten.length
  buf : d.buf.flatten <:+ text
  /-- No more is dropped than what lies before the window. -/
  long : min t.window.toNat text.length ≤ d.buf.flatten.length
  head : d.head.flatten = text.take headCap
  headLen : d.headLen = min headCap text.length

theorem tracks_new (t : Thresholds) : Tracks t [] { t := t } where
  thresholds := rfl
  seen := rfl
  bufLen := rfl
  buf := List.suffix_rfl
  long := Nat.min_le_right _ _
  head := rfl
  headLen := rfl

theorem lastChars_of_suffix {window : ℤ} {tail text : List Char} (armed : 0 < window)
    (suffix : tail <:+ text) (long : min window.toNat text.length ≤ tail.length) :
    lastChars window tail = lastChars window text := by
  rw [lastChars, lastChars, if_pos armed, if_pos armed, Window.rtake_of_suffix suffix long]

/-- The ratio of a buffer that is long enough is that of the whole text. -/
theorem distinctGramRatioOver_of_suffix {window : ℤ} {tail text : List Char} (armed : 0 < window)
    (suffix : tail <:+ text) (long : min window.toNat text.length ≤ tail.length) (gram : ℕ) :
    distinctGramRatioOver tail window gram = distinctGramRatioOver text window gram := by
  rw [distinctGramRatioOver, distinctGramRatioOver, lastChars_of_suffix armed suffix long]

namespace Tracks

variable {t : Thresholds} {text : List Char} {d : Detector}

/-- A delta that is taken in. -/
theorem add (tracks : Tracks t text d) (delta : List Char) :
    Tracks t (text ++ delta) ((d.keepHead delta).append delta) := by
  have head_add : ((d.keepHead delta).head.flatten = (text ++ delta).take headCap) ∧
      (d.keepHead delta).headLen = min headCap (text ++ delta).length := by
    rw [List.take_append, List.length_append]
    by_cases room : d.headLen < headCap
    · have whole : text.length < headCap := by
        have := tracks.headLen
        omega
      have len : d.headLen = text.length := by
        rw [tracks.headLen]
        omega
      rw [Detector.keepHead, if_pos room, List.flatten_append, List.flatten_singleton, tracks.head, len]
      refine ⟨rfl, ?_⟩
      show text.length + min delta.length (headCap - text.length) = _
      omega
    · have full : headCap ≤ text.length := by
        have := tracks.headLen
        omega
      rw [Detector.keepHead, if_neg room, tracks.head, tracks.headLen, Nat.sub_eq_zero_of_le full,
        List.take_zero, List.append_nil]
      exact ⟨rfl, by omega⟩
  have kept : (d.keepHead delta).t = d.t ∧ (d.keepHead delta).buf = d.buf ∧
      (d.keepHead delta).bufLen = d.bufLen ∧ (d.keepHead delta).seen = d.seen := by
    unfold Detector.keepHead
    split <;> exact ⟨rfl, rfl, rfl, rfl⟩
  obtain ⟨thresholds, buf, bufLen, seen⟩ := kept
  have flat : ((d.keepHead delta).append delta).buf.flatten = d.buf.flatten ++ delta := by
    rw [Detector.append, buf, List.flatten_append, List.flatten_singleton]
  constructor
  case thresholds => exact thresholds.trans tracks.thresholds
  case seen =>
    rw [List.length_append, ← tracks.seen, ← seen]
    rfl
  case bufLen =>
    rw [flat, List.length_append, ← tracks.bufLen, ← bufLen]
    rfl
  case buf =>
    rw [flat]
    obtain ⟨lead, whole⟩ := tracks.buf
    exact ⟨lead, by rw [← List.append_assoc, whole]⟩
  case long =>
    rw [flat, List.length_append, List.length_append]
    have := tracks.long
    omega
  case head => exact head_add.1
  case headLen => exact head_add.2

/-- The buffer is cut no shorter than the window. -/
theorem trim (tracks : Tracks t text d) (armed : 0 < t.window) : Tracks t text d.trim := by
  unfold Detector.trim
  split
  case isFalse => exact tracks
  case isTrue =>
    have tail : lastChars d.t.window d.buf.flatten = text.rtake t.window.toNat := by
      rw [tracks.thresholds, lastChars_of_suffix armed tracks.buf tracks.long, lastChars, if_pos armed]
    constructor
    case thresholds => exact tracks.thresholds
    case seen => exact tracks.seen
    case bufLen => rw [List.flatten_singleton]
    case buf =>
      rw [List.flatten_singleton, tail]
      exact Window.rtake_suffix _ _
    case long => rw [List.flatten_singleton, tail, Window.length_rtake]
    case head => exact tracks.head
    case headLen => exact tracks.headLen

/-- A check of the buffer is the judgement of the text. -/
theorem check (tracks : Tracks t text d) (armed : 0 < t.window) :
    Tracks t text d.check.1 ∧ d.check.2 = judge t text ∧
      d.check.1.nextCheck = text.length + t.checkEvery ∧ d.check.1.verdict =
        (judge t text).verdict.or d.verdict := by
  have ratio := distinctGramRatioOver_of_suffix armed tracks.buf tracks.long degenTailGram
  unfold Detector.check judge
  simp only [tracks.thresholds, tracks.seen, ratio]
  split
  · exact ⟨⟨rfl, rfl, tracks.bufLen, tracks.buf, tracks.long, tracks.head, tracks.headLen⟩,
      rfl, rfl, rfl⟩
  · exact ⟨⟨rfl, rfl, tracks.bufLen, tracks.buf, tracks.long, tracks.head, tracks.headLen⟩,
      rfl, rfl, rfl⟩

end Tracks

/-- **One delta.**  A detector that listens takes the delta in.  It checks the text with it if the
next check is due, and not before. -/
theorem Tracks.feed {t : Thresholds} {text : List Char} {d : Detector} (tracks : Tracks t text d)
    (listening : d.listening = true) (delta : List Char) :
    Tracks t (text ++ delta) (d.feed delta).1 ∧
      ((d.feed delta).2 = none ∧ (d.feed delta).1.verdict = none ∧
          (d.feed delta).1.nextCheck = d.nextCheck ∧
          (delta = [] ∨ ((text ++ delta).length : ℤ) < max t.minChars d.nextCheck) ∨
        (d.feed delta).2 = some (judge t (text ++ delta)) ∧
          (d.feed delta).1.verdict = (judge t (text ++ delta)).verdict ∧
          (d.feed delta).1.nextCheck = (text ++ delta).length + t.checkEvery ∧
          max t.minChars d.nextCheck ≤ (text ++ delta).length) := by
  rw [Detector.listening, Bool.and_eq_true, tracks.thresholds, Option.isNone_iff_eq_none] at listening
  obtain ⟨armed, silent⟩ := listening
  have window : 0 < t.window := (of_decide_eq_true armed).1
  by_cases empty : delta = []
  · have same : d.feed delta = (d, none) := by
      rw [Detector.feed, empty]
      simp
    rw [same, empty, List.append_nil]
    exact ⟨tracks, .inl ⟨rfl, silent, rfl, .inl rfl⟩⟩
  · set taken := ((d.keepHead delta).append delta).trim with taken_def
    have held : Tracks t (text ++ delta) taken := (tracks.add delta).trim window
    have kept : taken.nextCheck = d.nextCheck ∧ taken.verdict = d.verdict := by
      rw [taken_def, Detector.trim, Detector.append, Detector.keepHead]
      split <;> split <;> exact ⟨rfl, rfl⟩
    have fed : d.feed delta =
        if taken.seen < taken.t.minChars ∨ taken.seen < taken.nextCheck then (taken, none)
        else (taken.check.1, some taken.check.2) := by
      rw [Detector.feed, Detector.listening, tracks.thresholds, armed, silent,
        List.isEmpty_eq_false_iff.mpr empty]
      rfl
    by_cases early : (taken.seen : ℤ) < taken.t.minChars ∨ (taken.seen : ℤ) < taken.nextCheck
    · rw [fed, if_pos early]
      rw [held.seen, held.thresholds, kept.1, ← lt_max_iff] at early
      exact ⟨held, .inl ⟨rfl, kept.2.trans silent, kept.1, .inr early⟩⟩
    · rw [fed, if_neg early]
      rw [held.seen, held.thresholds, kept.1, ← lt_max_iff, not_lt] at early
      obtain ⟨after, judged, next, verdict⟩ := held.check window
      rw [kept.2, silent, Option.or_none] at verdict
      exact ⟨after, .inr ⟨congrArg some judged, verdict, next, early⟩⟩

theorem Detector.feed_deaf {d : Detector} (deaf : d.listening = false) (delta : List Char) :
    d.feed delta = (d, none) := by
  rw [Detector.feed, deaf]
  rfl

/-! ### A whole stream -/

section Stream

variable (d : Detector) (deltas deltas' : List (List Char))

theorem Detector.run_append : d.run (deltas ++ deltas') = (d.run deltas).run deltas' :=
  List.foldl_append

theorem Detector.checks_append :
    d.checks (deltas ++ deltas') = d.checks deltas ++ (d.run deltas).checks deltas' := by
  induction deltas generalizing d with
  | nil => rfl
  | cons delta deltas ih =>
      rw [List.cons_append, Detector.checks, Detector.checks, ih, List.append_assoc]
      rfl

theorem Detector.run_deaf (deaf : d.listening = false) : d.run deltas = d := by
  induction deltas with
  | nil => rfl
  | cons delta deltas ih =>
      rw [Detector.run, List.foldl_cons, Detector.feed_deaf deaf]
      exact ih

theorem Detector.heard_append :
    d.heard (deltas ++ deltas') = d.heard deltas ++ (d.run deltas).heard deltas' := by
  induction deltas generalizing d with
  | nil => rfl
  | cons delta deltas ih =>
      rw [List.cons_append, Detector.heard, Detector.heard]
      by_cases listening : d.listening = true
      · rw [if_pos listening, if_pos listening, ih, List.append_assoc]
        rfl
      · have deaf := Bool.eq_false_iff.mpr listening
        rw [if_neg listening, if_neg listening, Detector.run_deaf d _ deaf]
        cases deltas' with
        | nil => rfl
        | cons delta' deltas' => rw [Detector.heard, if_neg listening, List.append_nil]

theorem Detector.heard_singleton (delta : List Char) :
    d.heard [delta] = if d.listening then delta else [] := by
  rw [Detector.heard, Detector.heard, List.append_nil]

end Stream

/-- Where the next check is due after the checks so far. -/
def due (t : Thresholds) (cs : List Check) : ℤ :=
  match cs.getLast? with
  | none => max t.minChars 1
  | some c => c.seen + t.checkEvery

theorem due_concat (t : Thresholds) (cs : List Check) (c : Check) :
    due t (cs ++ [c]) = c.seen + t.checkEvery := by
  rw [due, List.getLast?_concat]

/-- What the checks so far say of a detector. -/
structure Paced (t : Thresholds) (text : List Char) (cs : List Check) (d : Detector) : Prop where
  nextCheck : d.nextCheck = due t cs
  minChars : t.minChars ≤ due t cs
  /-- A check that is due is made. -/
  punctual : d.listening = true → (text.length : ℤ) < due t cs
  verdict : d.verdict = cs.getLast?.bind Check.verdict
  /-- Only the last check may have fired. -/
  quiet : ∀ c ∈ cs.dropLast, c.verdict = none

section Run

variable {t : Thresholds} {text : List Char} {cs : List Check} {d : Detector}

theorem paced_new (t : Thresholds) : Paced t [] [] { t := t } where
  nextCheck := rfl
  minChars := le_max_left _ _
  punctual _ := lt_max_of_lt_right zero_lt_one
  verdict := rfl
  quiet _ mem := absurd mem List.not_mem_nil

theorem Paced.feed (paced : Paced t text cs d) (tracks : Tracks t text d)
    (listening : d.listening = true) (delta : List Char) :
    Paced t (text ++ delta) (cs ++ (d.feed delta).2.toList) (d.feed delta).1 := by
  have armed : t.armed = true := by
    rw [Detector.listening, Bool.and_eq_true, tracks.thresholds] at listening
    exact listening.1
  have silent : d.verdict = none := by
    rw [Detector.listening, Bool.and_eq_true, Option.isNone_iff_eq_none] at listening
    exact listening.2
  have every : 0 < t.checkEvery := (of_decide_eq_true armed).2.2.1
  obtain ⟨-, ⟨none, still, next, early⟩ | ⟨checked, verdict, next, reached⟩⟩ :=
    tracks.feed listening delta
  · rw [none, Option.toList_none, List.append_nil]
    constructor
    case nextCheck => rw [next, paced.nextCheck]
    case minChars => exact paced.minChars
    case punctual =>
      intro _
      rcases early with rfl | early
      · rw [List.append_nil]
        exact paced.punctual listening
      · rwa [paced.nextCheck, max_eq_right paced.minChars] at early
    case verdict => rw [still, ← silent, paced.verdict]
    case quiet => exact paced.quiet
  · rw [checked, Option.toList_some]
    constructor
    case nextCheck => rw [next, due_concat, judge]
    case minChars =>
      rw [due_concat]
      show t.minChars ≤ ((text ++ delta).length : ℤ) + t.checkEvery
      have := le_trans (le_max_left _ _) reached
      omega
    case punctual =>
      intro _
      rw [due_concat]
      exact lt_add_of_pos_right _ every
    case verdict => rw [verdict, List.getLast?_concat, Option.bind_some]
    case quiet =>
      intro c mem
      rw [List.dropLast_concat] at mem
      rcases List.eq_nil_or_concat cs with rfl | ⟨before, last, rfl⟩
      · cases mem
      · rw [List.concat_eq_append] at mem paced
        rw [List.mem_append, List.mem_singleton] at mem
        rcases mem with mem | rfl
        · exact paced.quiet c (by rwa [List.dropLast_concat])
        · have fired := paced.verdict
          rw [silent, List.getLast?_concat, Option.bind_some] at fired
          exact fired.symm

/-- Along a stream the detector has what it heard, and its checks come when they are due. -/
theorem run_spec (t : Thresholds) (deltas : List (List Char)) :
    Tracks t (Detector.heard { t := t } deltas) (Detector.run { t := t } deltas) ∧
      Paced t (Detector.heard { t := t } deltas) (Detector.checks { t := t } deltas)
        (Detector.run { t := t } deltas) := by
  induction deltas using List.reverseRecOn with
  | nil => exact ⟨tracks_new t, paced_new t⟩
  | append_singleton deltas delta ih =>
      obtain ⟨tracks, paced⟩ := ih
      rw [Detector.heard_append, Detector.checks_append, Detector.run_append,
        Detector.heard_singleton]
      have one : (Detector.run { t := t } deltas).checks [delta] =
          ((Detector.run { t := t } deltas).feed delta).2.toList := List.append_nil _
      have step : (Detector.run { t := t } deltas).run [delta] =
          ((Detector.run { t := t } deltas).feed delta).1 := rfl
      rw [one, step]
      by_cases listening : (Detector.run { t := t } deltas).listening = true
      · rw [if_pos listening]
        exact ⟨(tracks.feed listening delta).1, paced.feed tracks listening delta⟩
      · rw [if_neg listening, Detector.feed_deaf (Bool.eq_false_iff.mpr listening), List.append_nil,
          Option.toList_none, List.append_nil]
        exact ⟨tracks, paced⟩

end Run

/-! ### The window -/

/-- What is observed of a stream, said of the text alone. -/
structure Fidelity (t : Thresholds) (deltas : List (List Char)) : Prop where
  /-- A check is the judgement of the whole text up to its delta. -/
  judged : ∀ before delta after, deltas = before ++ delta :: after →
    ∀ c ∈ ((Detector.run { t := t } before).feed delta).2,
      c = judge t (before ++ [delta]).flatten
  /-- It is made at the first delta that takes the text to where it is due. -/
  due : ∀ before delta after, deltas = before ++ delta :: after →
    ∀ c ∈ ((Detector.run { t := t } before).feed delta).2,
      due t (Detector.checks { t := t } before) ≤ c.seen ∧
        (c.seen : ℤ) < due t (Detector.checks { t := t } before) + delta.length
  /-- As long as the detector listens, no check is missing. -/
  punctual : ∀ before after, deltas = before ++ after →
    (Detector.run { t := t } before).listening = true →
      (before.flatten.length : ℤ) < ReasoningLoop.due t (Detector.checks { t := t } before)
  head : (Detector.run { t := t } deltas).head.flatten =
    (Detector.heard { t := t } deltas).take headCap
  /-- The detector fires at most once. -/
  once : ((Detector.checks { t := t } deltas).filterMap Check.verdict).length ≤ 1
  verdict : (Detector.run { t := t } deltas).verdict =
    (Detector.checks { t := t } deltas).getLast?.bind Check.verdict

theorem Detector.listening_of_run {d : Detector} (deltas : List (List Char))
    (listening : (d.run deltas).listening = true) : d.listening = true := by
  by_contra deaf
  rw [Detector.run_deaf d deltas (Bool.eq_false_iff.mpr deaf)] at listening
  exact deaf listening

/-- A detector that listens has heard everything. -/
theorem Detector.heard_eq_flatten {d : Detector} {deltas : List (List Char)}
    (listening : (d.run deltas).listening = true) : d.heard deltas = deltas.flatten := by
  induction deltas generalizing d with
  | nil => rfl
  | cons delta deltas ih =>
      have rest : ((d.feed delta).1.run deltas).listening = true := listening
      rw [Detector.heard, if_pos (Detector.listening_of_run (delta :: deltas) listening),
        ih rest, List.flatten_cons]

/-- If only the last check may have fired, one did at most. -/
theorem length_filterMap_verdict_le {cs : List Check} (quiet : ∀ c ∈ cs.dropLast, c.verdict = none) :
    (cs.filterMap Check.verdict).length ≤ 1 := by
  rcases List.eq_nil_or_concat cs with rfl | ⟨before, last, rfl⟩
  · exact Nat.zero_le 1
  · rw [List.concat_eq_append] at quiet ⊢
    rw [List.dropLast_concat] at quiet
    rw [List.filterMap_append, List.filterMap_eq_nil_iff.mpr quiet, List.nil_append]
    exact List.length_filterMap_le ..

/-- **The window.**  For every endpoint and every sequence of deltas: each check is that of the text
put together, two checks are `check_every` characters apart and at most one delta more, the head is
the first part of the text up to the delta that the detector fires on, and it fires at most once. -/
theorem window_fidelity (t : Thresholds) (deltas : List (List Char)) : Fidelity t deltas := by
  have check : ∀ before delta, ∀ c ∈ ((Detector.run { t := t } before).feed delta).2,
      c = judge t (before ++ [delta]).flatten ∧
        due t (Detector.checks { t := t } before) ≤ c.seen ∧
        (c.seen : ℤ) < due t (Detector.checks { t := t } before) + delta.length := by
    intro before delta c made
    obtain ⟨tracks, paced⟩ := run_spec t before
    by_cases listening : (Detector.run { t := t } before).listening = true
    · obtain ⟨-, ⟨none, -⟩ | ⟨checked, -, -, reached⟩⟩ := tracks.feed listening delta
      · rw [none] at made
        cases made
      · rw [checked, Option.mem_some_iff] at made
        rw [paced.nextCheck, max_eq_right paced.minChars] at reached
        have early := paced.punctual listening
        rw [Detector.heard_eq_flatten listening] at made reached early
        have seen : c.seen = before.flatten.length + delta.length := by
          rw [← made, judge, List.length_append]
        rw [List.length_append] at reached
        refine ⟨?_, ?_, ?_⟩
        · rw [← made, List.flatten_append, List.flatten_singleton]
        · omega
        · omega
    · rw [Detector.feed_deaf (Bool.eq_false_iff.mpr listening)] at made
      cases made
  obtain ⟨tracks, paced⟩ := run_spec t deltas
  constructor
  case judged => exact fun before delta _ _ c made => (check before delta c made).1
  case due => exact fun before delta _ _ c made => (check before delta c made).2
  case punctual =>
    intro before _ _ listening
    rw [← Detector.heard_eq_flatten listening]
    exact (run_spec t before).2.punctual listening
  case head => exact tracks.head
  case once => exact length_filterMap_verdict_le paced.quiet
  case verdict => exact paced.verdict

/-- The head of a detector that has fired stays as it is, whatever is fed to it. -/
theorem head_frozen : ¬∀ (t : Thresholds) (deltas : List (List Char)), t.armed = true →
    (Detector.run { t := t } deltas).head.flatten = deltas.flatten.take headCap := by
  intro literal
  have text := literal
    { window := 25, minChars := 20, maxDistinct := 1 / 2, checkEvery := 4 }
    [List.replicate 25 'a', ['b']] (by decide +kernel)
  exact absurd text (by decide +kernel)

end Roadstead.ReasoningLoop
