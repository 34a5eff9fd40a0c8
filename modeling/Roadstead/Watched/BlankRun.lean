import Roadstead.Lib.Window
import Roadstead.Watched

/-!
# Blank runs and chunks

`StructuredBlankRunDetector` keeps the length of the run of blank characters at the end of the
content, and nothing else of it.  As long as it has not fired, that is the run at the end of the
text put together, wherever the deltas are cut (`Tracks`), so that the detector fires with the
character that ends the first run of `threshold` blanks.
-/

namespace Roadstead.Watched

open Window (HasRun FirstRun)

namespace Detector

/-- The content deltas of a stream, one after the other. -/
def feedAll (d : Detector) (deltas : List (List Char)) : Detector := deltas.foldl Detector.feed d

theorem feedAll_append (d : Detector) (deltas deltas' : List (List Char)) :
    d.feedAll (deltas ++ deltas') = (d.feedAll deltas).feedAll deltas' := List.foldl_append

/-! ### The run that is carried over -/

/-- The state of a detector is that of the text so far. -/
structure Tracks (n : ℕ) (text : List Char) (d : Detector) : Prop where
  threshold : d.threshold = n
  fired : d.fired = true ↔ HasRun isBlank n text
  reached : d.fired = true → d.run = n
  run : d.fired = false → d.run = (text.rtakeWhile isBlank).length

/-- Within a delta the run goes on from where the text before it ended. -/
theorem scan_spec {n : ℕ} {text : List Char} (none : ¬HasRun isBlank n text) (cs : List Char) :
    let scanned := scan n (text.rtakeWhile isBlank).length cs
    (scanned.2 = true ↔ HasRun isBlank n (text ++ cs)) ∧ (scanned.2 = true → scanned.1 = n) ∧
      (scanned.2 = false → scanned.1 = ((text ++ cs).rtakeWhile isBlank).length) := by
  induction cs generalizing text with
  | nil =>
      rw [List.append_nil]
      exact ⟨iff_of_false Bool.false_ne_true none, Bool.noConfusion, fun _ => rfl⟩
  | cons c cs ih =>
      have rest : text ++ c :: cs = (text ++ [c]) ++ cs := by rw [List.append_assoc, List.singleton_append]
      rw [rest]
      by_cases blank : isBlank c = true
      · have longer : ((text ++ [c]).rtakeWhile isBlank).length =
            (text.rtakeWhile isBlank).length + 1 := by
          rw [List.rtakeWhile_concat_pos isBlank text c blank, List.length_append, List.length_singleton]
        by_cases full : n ≤ (text.rtakeWhile isBlank).length + 1
        · have here : HasRun isBlank n (text ++ [c]) :=
            (Window.hasRun_concat c).mpr (.inr (by rw [longer]; exact full))
          have before : (text.rtakeWhile isBlank).length < n := by
            by_contra long
            have tail := List.rtakeWhile_suffix isBlank text
            refine none ⟨(text.rtakeWhile isBlank).rtake n,
              ((Window.rtake_suffix _ n).trans tail).isInfix, ?_, fun x mem =>
                Window.forall_rtakeWhile text x ((Window.rtake_suffix _ n).mem mem)⟩
            rw [Window.length_rtake]
            omega
          simp only [scan, if_pos blank, if_pos full]
          refine ⟨iff_of_true trivial (here.mono (List.prefix_append _ _).isInfix), fun _ => ?_, nofun⟩
          omega
        · have still : ¬HasRun isBlank n (text ++ [c]) := by
            rw [Window.hasRun_concat, longer]
            exact not_or.mpr ⟨none, full⟩
          simp only [scan, if_pos blank, if_neg full]
          rw [← longer]
          exact ih still
      · have reset : (text ++ [c]).rtakeWhile isBlank = [] :=
          List.rtakeWhile_concat_neg isBlank text c blank
        by_cases zero : n = 0
        · rw [zero] at none
          exact absurd ⟨[], List.nil_infix, rfl, fun x mem => absurd mem List.not_mem_nil⟩ none
        · have still : ¬HasRun isBlank n (text ++ [c]) := by
            rw [Window.hasRun_concat, reset, List.length_nil]
            exact not_or.mpr ⟨none, by omega⟩
          have cleared := ih still
          rw [reset, List.length_nil] at cleared
          simpa only [scan, if_neg blank] using cleared

theorem tracks_new {n : ℕ} (armed : 0 < n) : Tracks n [] { threshold := n } where
  threshold := rfl
  fired := by
    rw [Window.hasRun_nil_iff]
    exact iff_of_false Bool.false_ne_true armed.ne'
  reached := Bool.noConfusion
  run _ := rfl

theorem Tracks.feed {n : ℕ} {text : List Char} {d : Detector} (tracks : Tracks n text d)
    (armed : 0 < n) (delta : List Char) : Tracks n (text ++ delta) (d.feed delta) := by
  have positive : d.threshold ≠ 0 := by
    rw [tracks.threshold]
    exact armed.ne'
  by_cases fired : d.fired = true
  · -- it stays as it is, and so does the run that it found
    have stays : d.feed delta = d := if_pos (.inr (.inl fired))
    rw [stays]
    exact
      { threshold := tracks.threshold
        fired := iff_of_true fired ((tracks.fired.mp fired).mono (List.prefix_append _ _).isInfix)
        reached := tracks.reached
        run := fun idle => absurd fired (by rw [idle]; exact Bool.false_ne_true) }
  · have idle := Bool.eq_false_iff.mpr fired
    have none : ¬HasRun isBlank n text := fun run => fired (tracks.fired.mpr run)
    by_cases empty : delta = []
    · have stays : d.feed delta = d := if_pos (.inr (.inr empty))
      rw [stays, empty, List.append_nil]
      exact tracks
    · have scanned : d.feed delta =
          { d with
            run := (scan n (text.rtakeWhile isBlank).length delta).1
            contentChars := d.contentChars + delta.length
            fired := (scan n (text.rtakeWhile isBlank).length delta).2 } := by
        rw [← tracks.run idle, ← tracks.threshold]
        exact if_neg (not_or.mpr ⟨positive, not_or.mpr ⟨fired, empty⟩⟩)
      obtain ⟨found, reached, run⟩ := scan_spec none delta
      rw [scanned]
      exact { threshold := tracks.threshold, fired := found, reached := reached, run := run }

theorem tracks_feedAll {n : ℕ} (armed : 0 < n) (deltas : List (List Char)) :
    Tracks n deltas.flatten (feedAll { threshold := n } deltas) := by
  induction deltas using List.reverseRecOn with
  | nil => exact tracks_new armed
  | append_singleton deltas delta ih =>
      rw [feedAll_append, List.flatten_append, List.flatten_singleton]
      exact ih.feed armed delta

/-- A detector without a threshold stays as it is. -/
theorem feedAll_disarmed (deltas : List (List Char)) :
    feedAll { threshold := 0 } deltas = { threshold := 0 } := by
  induction deltas with
  | nil => rfl
  | cons delta deltas ih => exact ih

theorem fired_feedAll_iff (n : ℕ) (deltas : List (List Char)) :
    (feedAll { threshold := n } deltas).fired = true ↔ 0 < n ∧ HasRun isBlank n deltas.flatten := by
  rcases Nat.eq_zero_or_pos n with rfl | armed
  · rw [feedAll_disarmed]
    exact iff_of_false Bool.false_ne_true fun run => (lt_irrefl 0 run.1).elim
  · rw [(tracks_feedAll armed deltas).fired]
    exact (and_iff_right armed).symm

/-- **Chunking.**  The detector fires exactly if it is armed and the text has a run of `n` blank
characters; it fires on the delta with the `n`-th character of the first such run; and two streams
with one text are judged alike. -/
theorem blank_run_chunking (n : ℕ) (deltas : List (List Char)) :
    ((feedAll { threshold := n } deltas).fired = true ↔
        0 < n ∧ HasRun isBlank n deltas.flatten) ∧
      (0 < n → HasRun isBlank n deltas.flatten →
        ∃ lead run, FirstRun isBlank n deltas.flatten lead run ∧
          ∀ before delta after, deltas = before ++ delta :: after →
            ((feedAll { threshold := n } before).fired = false ∧
                (feedAll { threshold := n } (before ++ [delta])).fired = true ↔
              before.flatten.length < (lead ++ run).length ∧
                (lead ++ run).length ≤ (before ++ [delta]).flatten.length)) ∧
      ∀ deltas' : List (List Char), deltas'.flatten = deltas.flatten →
        (feedAll { threshold := n } deltas').fired = (feedAll { threshold := n } deltas).fired := by
  refine ⟨fired_feedAll_iff n deltas, ?_, ?_⟩
  · intro armed runs
    obtain ⟨lead, run, found⟩ := runs.exists_first armed
    refine ⟨lead, run, found, ?_⟩
    intro before delta after cut
    have early : before <+: deltas := by
      rw [cut]
      exact List.prefix_append _ _
    have late : before ++ [delta] <+: deltas := by
      rw [cut]
      exact ⟨after, by rw [List.append_assoc, List.singleton_append]⟩
    rw [← Bool.not_eq_true, (tracks_feedAll armed before).fired,
      (tracks_feedAll armed (before ++ [delta])).fired, found.hasRun_iff early.flatten,
      found.hasRun_iff late.flatten, not_le]
  · intro deltas' same
    rw [Bool.eq_iff_iff, fired_feedAll_iff, fired_feedAll_iff, same]

/-- A run over three deltas, the second one blank throughout: the third has the fifth blank. -/
example : ([['{', ' ', '\n'], "\t\t".toList, " ".toList, "x".toList].map fun delta =>
      (feedAll { threshold := 5 } [['{', ' ', '\n'], "\t\t".toList, delta]).fired) =
    [false, true, true, false] := by
  decide

end Detector

end Roadstead.Watched
