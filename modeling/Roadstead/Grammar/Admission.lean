import Roadstead.Grammar
import Roadstead.Lib.Run

/-!
# What admission makes of a grammar

`process_grammar` reads its memo instead of validating again.  The memo of a process holds
results of `normalize_and_validate` only (`grammarMemo_sound`), so a request that is accepted
carries, where its grammar was found, the normalized text of a valid grammar
(`processGrammar_ok`).
-/

namespace Roadstead

open Json (Fields)

theorem grammarText_eq_some {value : Json} {g : String} :
    grammarText value = some g ↔ value = .str g ∧ isBlank g = false := by
  cases value with
  | str text =>
      rw [grammarText]
      split <;> rename_i blank
      · simp only [reduceCtorEq, Json.str.injEq, false_iff, not_and]
        rintro rfl
        simpa using blank
      · simp only [Option.some.injEq, Json.str.injEq]
        exact ⟨by rintro rfl; exact ⟨rfl, by simpa using blank⟩, fun h => h.1⟩
  | _ => simp [grammarText]

theorem extractGrammar_top {payload : Fields} {g : String}
    (extracted : extractGrammar payload = some (g, .top)) :
    grammarText (payload.get "grammar") = some g := by
  unfold extractGrammar at extracted
  split at extracted
  · rename_i text found
    cases extracted
    exact found
  · obtain ⟨_, -, same⟩ := Option.map_eq_some_iff.mp extracted
    cases same

theorem extractGrammar_extraBody {payload : Fields} {g : String}
    (extracted : extractGrammar payload = some (g, .extraBody)) :
    grammarText (payload.get "grammar") = none ∧ extraGrammar payload = some g := by
  unfold extractGrammar at extracted
  split at extracted
  · cases extracted
  · rename_i absent
    obtain ⟨text, found, same⟩ := Option.map_eq_some_iff.mp extracted
    cases same
    exact ⟨absent, found⟩

theorem extractGrammar_eq_none {payload : Fields} (extracted : extractGrammar payload = none) :
    grammarText (payload.get "grammar") = none ∧ extraGrammar payload = none := by
  unfold extractGrammar at extracted
  split at extracted
  · cases extracted
  · rename_i absent
    exact ⟨absent, Option.map_eq_none_iff.mp extracted⟩

theorem extractGrammar_nonblank {payload : Fields} {g : String} {location : GrammarLocation}
    (extracted : extractGrammar payload = some (g, location)) : isBlank g = false := by
  cases location with
  | top => exact (grammarText_eq_some.mp (extractGrammar_top extracted)).2
  | extraBody =>
      have found := (extractGrammar_extraBody extracted).2
      unfold extraGrammar at found
      split at found
      · exact (grammarText_eq_some.mp found).2
      · cases found

namespace GrammarAuthority

variable (auth : GrammarAuthority)

theorem normalizeAndValidate_of_nonblank {g : String} (nonblank : isBlank g = false) :
    auth.normalizeAndValidate g =
      { ok := (auth.validate (auth.normalize g)).isEmpty
        grammar := if (auth.validate (auth.normalize g)).isEmpty then auth.normalize g else g
        errors := auth.validate (auth.normalize g)
        normalized := decide (auth.normalize g ≠ g) } := by
  simp [normalizeAndValidate, nonblank]

end GrammarAuthority

/-! ### The memo -/

/-- Every memoized result is the one of a grammar with that digest. -/
def GrammarMemo.Sound (auth : GrammarAuthority) (memo : GrammarMemo) : Prop :=
  ∀ h result, memo.cache.get? h = some result →
    ∃ g, auth.hash g = h ∧ result = auth.normalizeAndValidate g

/-- The memo after the requests of a process: whether each was no-store, and its payload. -/
def grammarMemo (auth : GrammarAuthority) (requests : List (Bool × Fields)) : GrammarMemo :=
  Runs.run (fun memo request => (processGrammar auth request.1 memo request.2).1) {} requests

section Memo

variable {auth : GrammarAuthority} {memo : GrammarMemo}

/-- What the memo has for a grammar is its result. -/
theorem GrammarMemo.Sound.result (sound : memo.Sound auth) (injective : Function.Injective auth.hash)
    (noStore : Bool) (g : String) :
    (if noStore then none else memo.cache.get? (auth.hash g)).getD (auth.normalizeAndValidate g) =
      auth.normalizeAndValidate g := by
  cases noStore with
  | true => rfl
  | false =>
      cases found : memo.cache.get? (auth.hash g) with
      | none => rfl
      | some result =>
          obtain ⟨g', same, rfl⟩ := sound _ _ found
          rw [injective same]
          rfl

/-- A grammar that is not in the memo is added to it with its own result. -/
theorem processGrammar_cache (auth : GrammarAuthority) (noStore : Bool) (memo : GrammarMemo)
    (payload : Fields) :
    (processGrammar auth noStore memo payload).1.cache = memo.cache ∨
      ∃ g, (processGrammar auth noStore memo payload).1.cache =
        memo.cache.set (auth.hash g) (auth.normalizeAndValidate g) := by
  unfold processGrammar
  cases extractGrammar payload with
  | none => exact .inl rfl
  | some found =>
      obtain ⟨g, location⟩ := found
      by_cases kept : noStore = true ∨
          (if noStore then none else memo.cache.get? (auth.hash g)).isSome = true
      · left
        simp only [kept, if_true]
        split_ifs <;> rfl
      · have uncached : (if noStore then none else memo.cache.get? (auth.hash g)) = none := by
          by_contra some_cached
          exact kept (.inr (Option.isSome_iff_ne_none.mpr some_cached))
        have added : ¬(noStore = true ∨ (none : Option GrammarResult).isSome = true) := by
          rwa [uncached] at kept
        refine .inr ⟨g, ?_⟩
        simp only [uncached, added, if_false, Option.getD_none]
        split_ifs <;> rfl

theorem processGrammar_sound (sound : memo.Sound auth) (noStore : Bool) (payload : Fields) :
    (processGrammar auth noStore memo payload).1.Sound auth := by
  intro h result there
  rcases processGrammar_cache auth noStore memo payload with same | ⟨g, written⟩
  · rw [same] at there
    exact sound _ _ there
  · rw [written, Dict.get?_set] at there
    split at there
    · rename_i here
      exact ⟨g, here.symm, (Option.some.inj there).symm⟩
    · exact sound _ _ there

/-- The memo of a process holds results of `normalize_and_validate` only. -/
theorem grammarMemo_sound (auth : GrammarAuthority) (requests : List (Bool × Fields)) :
    (grammarMemo auth requests).Sound auth := by
  apply List.foldlRecOn (motive := fun memo => GrammarMemo.Sound auth memo)
  · intro h result there
    cases there
  · intro memo sound request _
    exact processGrammar_sound sound request.1 request.2

end Memo

/-! ### An accepted request -/

section Accepted

variable {auth : GrammarAuthority} (injective : Function.Injective auth.hash)
  {memo : GrammarMemo} (sound : memo.Sound auth) {noStore : Bool} {payload admitted : Fields}

include injective sound

/-- The reply does not depend on the memo. -/
theorem processGrammar_reply {g : String} {location : GrammarLocation}
    (extracted : extractGrammar payload = some (g, location)) :
    (processGrammar auth noStore memo payload).2 =
      if (auth.normalizeAndValidate g).ok then
        .ok (if (auth.normalizeAndValidate g).normalized then
            writeGrammar payload (auth.normalizeAndValidate g).grammar location
          else payload)
      else .error (auth.normalizeAndValidate g).errorPayload := by
  simp only [processGrammar, extracted, sound.result injective]
  split <;> rfl

/-- An accepted payload carries no grammar, or the normalized text of a valid one. -/
theorem processGrammar_ok (accepted : (processGrammar auth noStore memo payload).2 = .ok admitted) :
    extractGrammar payload = none ∧ admitted = payload ∨
      ∃ g location, extractGrammar payload = some (g, location) ∧
        auth.validate (auth.normalize g) = [] ∧
        admitted = if auth.normalize g = g then payload
          else writeGrammar payload (auth.normalize g) location := by
  cases extracted : extractGrammar payload with
  | none =>
      simp only [processGrammar, extracted] at accepted
      exact .inl ⟨rfl, (Except.ok.inj accepted).symm⟩
  | some found =>
      obtain ⟨g, location⟩ := found
      rw [processGrammar_reply injective sound extracted,
        auth.normalizeAndValidate_of_nonblank (extractGrammar_nonblank extracted)] at accepted
      refine .inr ⟨g, location, rfl, ?_⟩
      split at accepted
      · rename_i valid
        refine ⟨List.isEmpty_iff.mp valid, ?_⟩
        rw [← Except.ok.inj accepted]
        by_cases same : auth.normalize g = g <;> simp [same]
      · cases accepted

end Accepted

end Roadstead
