import Mathlib.Data.List.SplitBy
import Roadstead.Providers

/-!
# Strict alternation

`_normalize_strict_alternation` on messages with text for content.  The first loop merges each run of
adjacent messages of one role, but for `tool` (`coalesced_eq`), so that no two that are left side by
side have the same role.  The second step then drops the assistant that would come first, and what
comes after it may meet the system message before it, or leave another assistant first: the output
may need the fix again (`needsAlternationFix_iff`).  Of a run only the first message keeps its
`tool_calls`.
-/

namespace Roadstead

namespace Alternation

open Json (Fields)

/-! ### Messages -/

def role (m : Json) : Json := m.get "role"

def content (m : Json) : String := (m.get "content").asStr?.getD ""

/-- A message with one of the roles and text for content. -/
structure IsMessage (m : Json) : Prop where
  object : ∃ fields, m = .obj fields
  role : role m ∈ [.str "system", .str "user", .str "assistant", .str "tool"]
  text : ∃ text, m.get "content" = .str text

/-- Adjacent messages that are merged. -/
def joins (m m' : Json) : Bool := decide (role m ≠ .str "tool" ∧ role m = role m')

/-- Two messages in one: the fields are those of the first. -/
def merge (m m' : Json) : Json :=
  .obj (Fields.set (m.asObj?.getD []) "content" (.str (content m ++ "\n\n" ++ content m')))

section Messages

variable {m m' m'' : Json} {out : List Json}

theorem IsMessage.content_eq (message : IsMessage m) : m.get "content" = .str (content m) := by
  obtain ⟨text, has⟩ := message.text
  rw [content, has]
  rfl

theorem get?_merge_of_ne (message : IsMessage m) (m' : Json) {key : String} (ne : key ≠ "content") :
    (merge m m').get? key = m.get? key := by
  obtain ⟨fields, rfl⟩ := message.object
  exact Fields.get?_set_of_ne fields ne _

theorem get_merge_of_ne (message : IsMessage m) (m' : Json) {key : String} (ne : key ≠ "content") :
    (merge m m').get key = m.get key := by
  rw [Json.get, Json.get, get?_merge_of_ne message m' ne]

theorem role_merge (message : IsMessage m) (m' : Json) : role (merge m m') = role m :=
  get_merge_of_ne message m' (by decide)

theorem get_content_merge (m m' : Json) :
    (merge m m').get "content" = .str (content m ++ "\n\n" ++ content m') := by
  rw [merge, Json.get_obj, Fields.get_set_self]

theorem content_merge (m m' : Json) : content (merge m m') = content m ++ "\n\n" ++ content m' := by
  rw [content, get_content_merge]
  rfl

theorem IsMessage.merge (message : IsMessage m) (m' : Json) : IsMessage (merge m m') where
  object := ⟨_, rfl⟩
  role := role_merge message m' ▸ message.role
  text := ⟨_, get_content_merge m m'⟩

theorem joins_congr {m₁ m₂ m₁' m₂' : Json} (same : role m₁ = role m₂) (same' : role m₁' = role m₂') :
    joins m₁ m₁' = joins m₂ m₂' := by
  rw [joins, joins, same, same']

theorem role_ne_null (message : IsMessage m) : role m ≠ .null := by
  intro none
  have known := message.role
  rw [none] at known
  simp at known

/-- One turn of the first loop. -/
theorem coalesce_cons (message : IsMessage m) (message' : IsMessage m') (out : List Json) :
    coalesce (m :: out) m' = if joins m m' then merge m m' :: out else m' :: m :: out := by
  obtain ⟨fields, rfl⟩ := message.object
  have before : Fields.get fields "content" = .str (content (.obj fields)) := message.content_eq
  have asked : role m' ≠ .null := role_ne_null message'
  simp only [coalesce, message'.content_eq, before, joins, decide_eq_true_eq, merge]
  have same : (m'.get "role" ≠ .null ∧ m'.get "role" ≠ .str "tool" ∧
      Fields.get fields "role" = m'.get "role") ↔
        role (.obj fields) ≠ .str "tool" ∧ role (.obj fields) = role m' := by
    rw [show role (.obj fields) = Fields.get fields "role" from rfl,
      show role m' = m'.get "role" from rfl]
    constructor
    · rintro ⟨-, other, same⟩
      exact ⟨same ▸ other, same⟩
    · rintro ⟨other, same⟩
      exact ⟨asked, same ▸ other, same⟩
  simp only [same]
  rfl

end Messages

/-! ### The first loop -/

/-- The runs of adjacent messages that are merged. -/
def runs (ms : List Json) : List (List Json) := ms.splitBy joins

def mergeRun : List Json → Json
  | [] => .null
  | m :: ms => ms.foldl merge m

section Loop

variable {ms : List Json}

theorem foldl_merge_spec {m : Json} (message : IsMessage m) (ms : List Json) :
    IsMessage (ms.foldl merge m) ∧
      ∀ key, key ≠ "content" → (ms.foldl merge m).get? key = m.get? key := by
  induction ms generalizing m with
  | nil => exact ⟨message, fun key ne => rfl⟩
  | cons m' ms ih =>
      obtain ⟨merged, fields⟩ := ih (message.merge m')
      refine ⟨merged, fun key ne => ?_⟩
      rw [List.foldl_cons, fields key ne, get?_merge_of_ne message m' ne]

theorem role_foldl_merge {m : Json} (message : IsMessage m) (ms : List Json) :
    role (ms.foldl merge m) = role m := by
  rw [role, Json.get, (foldl_merge_spec message ms).2 "role" (by decide)]
  rfl

/-- The loop on a run. -/
theorem foldl_coalesce_run {m : Json} {ms : List Json} (message : IsMessage m)
    (messages : ∀ m ∈ ms, IsMessage m) (run : ∀ m' ∈ ms, joins m m' = true) (out : List Json) :
    ms.foldl coalesce (m :: out) = ms.foldl merge m :: out := by
  induction ms generalizing m with
  | nil => rfl
  | cons m' ms ih =>
      rw [List.foldl_cons, coalesce_cons message (messages m' (by simp)),
        if_pos (run m' (by simp)), List.foldl_cons]
      refine ih (message.merge m') (fun m'' mem => messages m'' (by simp [mem])) fun m'' mem => ?_
      rw [joins_congr (role_merge message m') rfl]
      exact run m'' (by simp [mem])

/-- The messages of a run have one role. -/
theorem joins_of_chain {m : Json} {ms : List Json}
    (chain : (m :: ms).IsChain fun m m' => joins m m' = true) :
    ∀ m' ∈ ms, joins m m' = true ∧ role m' = role m := by
  induction ms generalizing m with
  | nil => exact fun m' mem => absurd mem List.not_mem_nil
  | cons m₁ ms ih =>
      obtain ⟨first, rest⟩ := List.isChain_cons_cons.mp chain
      have same : role m₁ = role m := (of_decide_eq_true first).2.symm
      intro m' mem
      rcases List.mem_cons.mp mem with rfl | mem
      · exact ⟨first, same⟩
      · obtain ⟨joined, role⟩ := ih rest m' mem
        exact ⟨(joins_congr same rfl).symm.trans joined, role.trans same⟩

/-- Two runs side by side are not merged. -/
def Apart (run run' : List Json) : Prop :=
  ∃ (ne : run ≠ []) (ne' : run' ≠ []), joins (run.getLast ne) (run'.head ne') = false

/-- A run is not empty, and its messages have one role. -/
structure IsRun (run : List Json) : Prop where
  ne_nil : run ≠ []
  messages : ∀ m ∈ run, IsMessage m
  chain : run.IsChain fun m m' => joins m m' = true

theorem isRun_of_mem (messages : ∀ m ∈ ms, IsMessage m) : ∀ run ∈ runs ms, IsRun run := by
  intro run mem
  refine ⟨List.ne_nil_of_mem_splitBy mem, fun m inside => messages m ?_,
    List.isChain_of_mem_splitBy mem⟩
  rw [← List.flatten_splitBy joins ms]
  exact List.mem_flatten.mpr ⟨run, mem, inside⟩

theorem runs_apart (ms : List Json) : (runs ms).IsChain Apart :=
  List.isChain_getLast_head_splitBy joins ms

/-- The role of a run. -/
def runRole (run : List Json) : Json := (run.head?.map role).getD .null

theorem IsRun.role_eq {run : List Json} (isRun : IsRun run) {m : Json} (mem : m ∈ run) :
    role m = runRole run := by
  cases run with
  | nil => exact absurd rfl isRun.ne_nil
  | cons first rest =>
      rcases List.mem_cons.mp mem with rfl | later
      · rfl
      · exact (joins_of_chain isRun.chain m later).2

theorem IsRun.mergeRun {run : List Json} (isRun : IsRun run) :
    IsMessage (mergeRun run) ∧ role (mergeRun run) = runRole run := by
  cases run with
  | nil => exact absurd rfl isRun.ne_nil
  | cons first rest =>
      have message := isRun.messages first (by simp)
      exact ⟨(foldl_merge_spec message rest).1, role_foldl_merge message rest⟩

/-- The loop on runs. -/
theorem foldl_coalesce_runs {rs : List (List Json)} (isRun : ∀ run ∈ rs, IsRun run)
    (apart : rs.IsChain Apart) (out : List Json)
    (before : ∀ p ∈ out.head?, ∀ run ∈ rs.head?, ∀ m ∈ run.head?, IsMessage p ∧ joins p m = false) :
    rs.flatten.foldl coalesce out = (rs.map Alternation.mergeRun).reverse ++ out := by
  induction rs generalizing out with
  | nil => rfl
  | cons run rs ih =>
      have this_run := isRun run (by simp)
      have merged := this_run.mergeRun
      have rest := ih (fun run mem => isRun run (by simp [mem])) apart.of_cons
        (Alternation.mergeRun run :: out) ?_
      · rw [List.flatten_cons, List.foldl_append, List.map_cons, List.reverse_cons,
          List.append_assoc, List.singleton_append, ← rest]
        congr 1
        cases run with
        | nil => exact absurd rfl this_run.ne_nil
        | cons m ms =>
            have opened : coalesce out m = m :: out := by
              cases out with
              | nil => rfl
              | cons p out =>
                  obtain ⟨message, other⟩ := before p rfl (m :: ms) rfl m rfl
                  rw [coalesce_cons message (this_run.messages m (by simp)), other]
                  rfl
            rw [List.foldl_cons, opened]
            exact foldl_coalesce_run (this_run.messages m (by simp))
              (fun m' mem => this_run.messages m' (by simp [mem]))
              (fun m' mem => (joins_of_chain this_run.chain m' mem).1) out
      · -- the message of this run is not merged with the next run
        intro p here next mem m head
        cases here
        refine ⟨merged.1, ?_⟩
        cases rs with
        | nil => cases mem
        | cons run' rs =>
            cases mem
            obtain ⟨ne, ne', other⟩ := (List.isChain_cons_cons.mp apart).1
            rw [List.head?_eq_some_head ne'] at head
            cases head
            rw [← other]
            refine joins_congr ?_ rfl
            rw [merged.2, this_run.role_eq (List.getLast_mem ne)]

/-- The first loop merges the runs. -/
theorem coalesced_eq (messages : ∀ m ∈ ms, IsMessage m) :
    (ms.foldl coalesce []).reverse = (runs ms).map mergeRun := by
  have whole := foldl_coalesce_runs (isRun_of_mem messages) (runs_apart ms) [] (by simp)
  rw [runs, List.flatten_splitBy] at whole
  rw [whole, List.append_nil, List.reverse_reverse, runs]

end Loop

/-! ### The second step -/

section Orphans

variable {α β : Type*} (roleOf : α → Json)

/-- The list without the assistants that come first, or after a system message that comes first. -/
def dropOrphans : List α → List α
  | [] => []
  | x :: xs =>
      if roleOf x = .str "system" then x :: xs.dropWhile fun x => decide (roleOf x = .str "assistant")
      else (x :: xs).dropWhile fun x => decide (roleOf x = .str "assistant")

theorem dropOrphans_map (f : β → α) (xs : List β) :
    dropOrphans roleOf (xs.map f) = (dropOrphans (roleOf ∘ f) xs).map f := by
  cases xs with
  | nil => rfl
  | cons x xs =>
      rw [List.map_cons, dropOrphans, dropOrphans, ← List.map_cons, List.dropWhile_map,
        List.dropWhile_map]
      rw [Function.comp_apply]
      split
      · rfl
      · rfl

theorem dropOrphans_sublist (xs : List α) : (dropOrphans roleOf xs).Sublist xs := by
  cases xs with
  | nil => exact List.Sublist.slnil
  | cons x xs =>
      rw [dropOrphans]
      split
      · exact (List.dropWhile_sublist _).cons_cons x
      · exact List.dropWhile_sublist _

end Orphans

/-- The loop, and then the second step. -/
theorem normalize_eq_dropOrphans (ms : List Json) : normalizeStrictAlternation (.arr ms) =
    .arr (dropOrphans role (ms.foldl coalesce []).reverse) := by
  rw [normalizeStrictAlternation]
  dsimp only
  rw [listItems, Json.asArr?, Option.getD_some]
  cases (ms.foldl coalesce []).reverse with
  | nil => rfl
  | cons m ms =>
      rw [dropOrphans]
      by_cases system : role m = .str "system"
      · have here : m.get "role" = .str "system" := system
        rw [if_pos system]
        simp only [List.take_one, List.head?_cons, Option.toList_some, here, decide_true,
          List.filter_cons_of_pos, List.filter_nil, List.isEmpty_cons, List.drop_one, List.tail_cons,
          Bool.false_eq_true, if_false]
        rfl
      · have other : m.get "role" ≠ .str "system" := system
        rw [if_neg system]
        simp only [List.take_one, List.head?_cons, Option.toList_some, other, decide_false,
          List.filter_cons_of_neg, List.filter_nil, List.isEmpty_nil, Bool.false_eq_true, if_true,
          not_false_eq_true, List.nil_append]
        rfl

theorem normalize_eq {ms : List Json} (messages : ∀ m ∈ ms, IsMessage m) :
    normalizeStrictAlternation (.arr ms) = .arr (dropOrphans role ((runs ms).map mergeRun)) := by
  rw [normalize_eq_dropOrphans, coalesced_eq messages]

/-! ### When the output needs the fix again -/

section Needs

variable {ms : List Json}

theorem firstNonsystemIsAssistant_cons (m : Json) (ms : List Json) :
    firstNonsystemIsAssistant (.arr (m :: ms)) =
      if role m = .str "system" then firstNonsystemIsAssistant (.arr ms)
      else decide (role m = .str "assistant") := by
  rw [firstNonsystemIsAssistant, listItems, Json.asArr?, Option.getD_some, List.find?_cons]
  by_cases system : role m = .str "system"
  · have here : m.get "role" = .str "system" := system
    rw [if_pos system]
    simp [here, firstNonsystemIsAssistant, listItems, Json.asArr?]
  · have other : m.get "role" ≠ .str "system" := system
    rw [if_neg system]
    simp only [other, ne_eq, not_false_eq_true, decide_true]
    rfl

theorem joins_iff {m m' : Json} (message : IsMessage m) : joins m m' = true ↔
    role m = .str "system" ∧ role m' = .str "system" ∨ role m = .str "user" ∧ role m' = .str "user" ∨
      role m = .str "assistant" ∧ role m' = .str "assistant" := by
  have known := message.role
  simp only [List.mem_cons, List.not_mem_nil, or_false] at known
  rw [joins, decide_eq_true_eq]
  rcases known with same | same | same | same
  all_goals
    rw [same]
    simp [eq_comm]

/-- The fix is needed where two adjacent messages would be merged, or an assistant is the first. -/
theorem needsAlternationFix_eq (messages : ∀ m ∈ ms, IsMessage m) :
    needsAlternationFix (.arr ms) = true ↔
      ¬(ms.IsChain fun m m' => joins m m' = false) ∨ firstNonsystemIsAssistant (.arr ms) = true := by
  have consecutive : (hasConsecutiveRole (.arr ms) "system" || hasConsecutiveRole (.arr ms) "user" ||
      hasConsecutiveRole (.arr ms) "assistant") = true ↔
        ¬ms.IsChain fun m m' => joins m m' = false := by
    induction ms with
    | nil => simp [hasConsecutiveRole, listItems, Json.asArr?]
    | cons m ms ih =>
        cases ms with
        | nil => simp [hasConsecutiveRole, listItems, Json.asArr?]
        | cons m' ms =>
            have rest := ih fun m mem => messages m (by simp [mem])
            have first : joins m m' = true ↔ _ := joins_iff (messages m (by simp))
            rw [List.isChain_cons_cons, not_and_or, ← rest, Bool.not_eq_false, first]
            have pair (r : String) : hasConsecutiveRole (.arr (m :: m' :: ms)) r =
                (decide (role m = .str r) && decide (role m' = .str r) ||
                  hasConsecutiveRole (.arr (m' :: ms)) r) := rfl
            simp only [pair, Bool.or_eq_true, Bool.and_eq_true, decide_eq_true_eq]
            simp only [or_assoc, or_left_comm]
  rw [needsAlternationFix, Bool.or_eq_true, consecutive]

/-- The roles start as no template allows, and dropping the assistant does not help. -/
def Stranded (roles : List Json) : Prop :=
  [.str "system", .str "assistant", .str "system"] <+: roles ∨
    [.str "assistant", .str "system", .str "assistant"] <+: roles

instance (roles : List Json) : Decidable (Stranded roles) := inferInstanceAs (Decidable (_ ∨ _))

theorem firstNonsystem_of_chain {m : Json}
    (chain : (m :: ms).IsChain fun m m' => joins m m' = false) (system : role m = .str "system") :
    firstNonsystemIsAssistant (.arr (m :: ms)) = true ↔ ∃ m' ∈ ms.head?, role m' = .str "assistant" := by
  rw [firstNonsystemIsAssistant_cons, if_pos system]
  cases ms with
  | nil => simp [firstNonsystemIsAssistant, listItems, Json.asArr?]
  | cons m' ms =>
      have other : role m' ≠ .str "system" := by
        intro same
        have apart := (List.isChain_cons_cons.mp chain).1
        simp [joins, system, same] at apart
      rw [firstNonsystemIsAssistant_cons, if_neg other]
      simp

theorem not_both {m m' : Json} (apart : joins m m' = false) {r : String} (ne : r ≠ "tool")
    (here : role m = .str r) : role m' ≠ .str r := by
  intro there
  simp [joins, here, there, ne] at apart

/-- Messages of which no two adjacent ones have the same role, with no assistant to drop. -/
theorem not_needs_of_chain (messages : ∀ m ∈ ms, IsMessage m)
    (chain : ms.IsChain fun m m' => joins m m' = false)
    (first : firstNonsystemIsAssistant (.arr ms) = false) :
    ¬needsAlternationFix (.arr ms) = true := by
  rw [needsAlternationFix_eq messages, first]
  exact not_or.mpr ⟨not_not.mpr chain, Bool.false_ne_true⟩

/-- The second step after a system message. -/
theorem needs_dropOrphans_system {m : Json} (messages : ∀ m' ∈ m :: ms, IsMessage m')
    (chain : (m :: ms).IsChain fun m m' => joins m m' = false) (system : role m = .str "system") :
    needsAlternationFix (.arr (dropOrphans role (m :: ms))) = true ↔
      [.str "assistant", .str "system"] <+: ms.map role := by
  rw [dropOrphans, if_pos system]
  have kept (rest : List Json) (sub : (m :: rest).Sublist (m :: ms))
      (chain : (m :: rest).IsChain fun m m' => joins m m' = false)
      (first : ∀ m' ∈ rest.head?, role m' ≠ .str "assistant") :
      ¬needsAlternationFix (.arr (m :: rest)) = true := by
    refine not_needs_of_chain (fun m' mem => messages m' (sub.mem mem)) chain ?_
    rw [← Bool.not_eq_true, firstNonsystem_of_chain chain system]
    rintro ⟨m', mem, asst⟩
    exact first m' mem asst
  cases ms with
  | nil => exact iff_of_false (kept [] (List.Sublist.refl _) chain (by simp)) (by simp)
  | cons m' ms =>
      obtain ⟨apart, rest⟩ := List.isChain_cons_cons.mp chain
      by_cases asst : role m' = .str "assistant"
      · rw [List.dropWhile_cons_of_pos (by simpa using asst), List.map_cons, List.cons_prefix_cons]
        cases ms with
        | nil => exact iff_of_false (kept [] (by simp) (by simp) (by simp)) (by simp)
        | cons m'' ms =>
            obtain ⟨apart', rest'⟩ := List.isChain_cons_cons.mp rest
            have other := not_both apart' (by decide) asst
            rw [List.dropWhile_cons_of_neg (by simpa using other), List.map_cons,
              List.cons_prefix_cons]
            by_cases again : role m'' = .str "system"
            · -- the two system messages meet
              refine iff_of_true ?_ ⟨asst.symm, again.symm, List.nil_prefix⟩
              rw [needsAlternationFix_eq fun x mem => messages x ?_]
              · refine .inl fun chain => ?_
                exact absurd again (not_both (List.isChain_cons_cons.mp chain).1 (by decide) system)
              · exact ((List.sublist_cons_self m' (m'' :: ms)).cons_cons m).mem mem
            · refine iff_of_false (kept (m'' :: ms) ?_ ?_ ?_) ?_
              · exact (List.sublist_cons_self m' (m'' :: ms)).cons_cons m
              · refine List.isChain_cons_cons.mpr ⟨?_, rest'⟩
                exact decide_eq_false fun both => again (both.2 ▸ system)
              · exact fun x mem => Option.some.inj mem ▸ other
              · exact fun starts => again starts.2.1.symm
      · rw [List.dropWhile_cons_of_neg (by simpa using asst)]
        refine iff_of_false (kept (m' :: ms) (List.Sublist.refl _) chain ?_) ?_
        · exact fun x mem => Option.some.inj mem ▸ asst
        · rw [List.map_cons, List.cons_prefix_cons]
          exact fun starts => asst starts.1.symm

/-- The second step, on messages of which no two adjacent ones have the same role. -/
theorem needsAlternationFix_dropOrphans (messages : ∀ m ∈ ms, IsMessage m)
    (chain : ms.IsChain fun m m' => joins m m' = false) :
    needsAlternationFix (.arr (dropOrphans role ms)) = true ↔ Stranded (ms.map role) := by
  rw [Stranded]
  cases ms with
  | nil => simp [dropOrphans, needsAlternationFix, hasConsecutiveRole, firstNonsystemIsAssistant,
      listItems, Json.asArr?]
  | cons m ms =>
      rw [List.map_cons, List.cons_prefix_cons, List.cons_prefix_cons]
      by_cases system : role m = .str "system"
      · rw [needs_dropOrphans_system messages chain system, system]
        simp
      by_cases asst : role m = .str "assistant"
      · rw [dropOrphans, if_neg system, List.dropWhile_cons_of_pos (by simpa using asst), asst]
        cases ms with
        | nil => simp [needsAlternationFix, hasConsecutiveRole, firstNonsystemIsAssistant, listItems,
            Json.asArr?]
        | cons m' ms =>
            obtain ⟨apart, rest⟩ := List.isChain_cons_cons.mp chain
            have other := not_both apart (by decide) asst
            rw [List.dropWhile_cons_of_neg (by simpa using other), List.map_cons,
              List.cons_prefix_cons, needsAlternationFix_eq fun x mem => messages x (by simp [mem])]
            have only : (¬((m' :: ms).IsChain fun m m' => joins m m' = false) ∨
                firstNonsystemIsAssistant (.arr (m' :: ms)) = true) ↔
                  role m' = .str "system" ∧ ∃ x ∈ ms.head?, role x = .str "assistant" := by
              rw [or_iff_right (not_not.mpr rest)]
              by_cases system' : role m' = .str "system"
              · rw [firstNonsystem_of_chain rest system', and_iff_right system']
              · rw [firstNonsystemIsAssistant_cons, if_neg system']
                refine iff_of_false ?_ fun both => system' both.1
                rwa [decide_eq_true_eq]
            rw [only]
            cases ms with
            | nil => simp
            | cons m'' ms => simp [eq_comm]
      · rw [dropOrphans, if_neg system, List.dropWhile_cons_of_neg (by simpa using asst)]
        refine iff_of_false (not_needs_of_chain messages chain ?_) ?_
        · rw [firstNonsystemIsAssistant_cons, if_neg system]
          exact decide_eq_false asst
        · rintro (starts | starts)
          · exact system starts.1.symm
          · exact asst starts.1.symm

end Needs

/-! ### The output -/

section Output

variable {ms : List Json}

/-- Merged runs have nothing left to merge. -/
theorem isChain_mergeRun (messages : ∀ m ∈ ms, IsMessage m) :
    ((runs ms).map mergeRun).IsChain fun m m' => joins m m' = false := by
  have isRun := isRun_of_mem messages
  rw [List.isChain_map]
  refine (runs_apart ms).imp_of_mem_imp fun run run' mem mem' apart => ?_
  obtain ⟨ne, ne', other⟩ := apart
  rw [← other]
  refine joins_congr ?_ ?_
  · rw [(isRun run mem).mergeRun.2, (isRun run mem).role_eq (List.getLast_mem ne)]
  · rw [(isRun run' mem').mergeRun.2, (isRun run' mem').role_eq (List.head_mem ne')]

theorem runs_of_chain (chain : ms.IsChain fun m m' => joins m m' = false) :
    runs ms = ms.map fun m => [m] := by
  rw [runs, List.splitBy_eq_iff]
  refine ⟨?_, by simp, ?_, ?_⟩
  · rw [← List.flatMap_def, List.flatMap_singleton']
  · intro run mem
    obtain ⟨m, -, rfl⟩ := List.mem_map.mp mem
    exact List.isChain_singleton m
  · rw [List.isChain_map]
    exact chain.imp fun m m' apart => ⟨by simp, by simp, apart⟩

/-- Messages that do not need the fix are left as they are. -/
theorem normalize_of_not_needs (messages : ∀ m ∈ ms, IsMessage m)
    (settled : needsAlternationFix (.arr ms) = false) :
    normalizeStrictAlternation (.arr ms) = .arr ms := by
  rw [← Bool.not_eq_true, needsAlternationFix_eq messages, not_or, not_not, Bool.not_eq_true]
    at settled
  obtain ⟨chain, first⟩ := settled
  rw [normalize_eq messages, runs_of_chain chain, List.map_map]
  have alone : ms.map (mergeRun ∘ fun m => [m]) = ms := List.map_id ms
  rw [alone]
  cases ms with
  | nil => rfl
  | cons m ms =>
      rw [dropOrphans]
      by_cases system : role m = .str "system"
      · rw [if_pos system]
        cases ms with
        | nil => rfl
        | cons m' ms =>
            have other : role m' ≠ .str "assistant" := fun asst => by
              have starts := (firstNonsystem_of_chain chain system).mpr ⟨m', rfl, asst⟩
              rw [first] at starts
              cases starts
            rw [List.dropWhile_cons_of_neg (by simpa using other)]
      · rw [firstNonsystemIsAssistant_cons, if_neg system] at first
        rw [if_neg system, List.dropWhile_cons_of_neg (by simpa using first)]

/-- When the output needs the fix again. -/
theorem needs_normalize_iff (messages : ∀ m ∈ ms, IsMessage m) :
    needsAlternationFix (normalizeStrictAlternation (.arr ms)) = true ↔
      Stranded ((runs ms).map runRole) := by
  have isRun := isRun_of_mem messages
  have merged : ∀ m ∈ (runs ms).map mergeRun, IsMessage m := by
    intro m mem
    obtain ⟨run, here, rfl⟩ := List.mem_map.mp mem
    exact (isRun run here).mergeRun.1
  rw [normalize_eq messages, needsAlternationFix_dropOrphans merged (isChain_mergeRun messages),
    List.map_map]
  have roles : (runs ms).map (role ∘ mergeRun) = (runs ms).map runRole :=
    List.map_congr_left fun run mem => (isRun run mem).mergeRun.2
  rw [roles]

end Output

/-! ### What is lost -/

/-- The fields of a message that tie it to a tool call. -/
def toolFields : List String := ["tool_calls", "tool_call_id"]

/-- A message has what each message of the run had. -/
def Carries (run : List Json) (out : Json) : Prop :=
  ∀ m ∈ run, role out = role m ∧ (content m).toList <:+: (content out).toList ∧
    ∀ key ∈ toolFields, ∀ value, m.get? key = some value → out.get? key = some value

/-- The runs, each with whether it comes before the first user turn. -/
def marked (early : Bool) : List (List Json) → List (Bool × List Json)
  | [] => []
  | run :: rs =>
      let early := early && decide (runRole run ≠ .str "user")
      (early, run) :: marked early rs

/-- An assistant before the first user turn. -/
def Excused (mark : Bool × List Json) : Prop := mark.1 = true ∧ runRole mark.2 = .str "assistant"

instance (mark : Bool × List Json) : Decidable (Excused mark) := inferInstanceAs (Decidable (_ ∧ _))

/-- Every run has its message in the output, and is carried by it, but for the assistants that
precede the first user turn. -/
structure NothingLost (ms out : List Json) : Prop where
  kept : ((marked true (runs ms)).filter fun mark => !decide (Excused mark)).Sublist
    (dropOrphans (fun mark => runRole mark.2) (marked true (runs ms)))
  carried : List.Forall₂ (fun mark m => Excused mark ∨ Carries mark.2 m)
    (dropOrphans (fun mark => runRole mark.2) (marked true (runs ms))) out

/-- The later messages of a run have no tool field that the first does not have. -/
def ToolFieldsFirst (ms : List Json) : Prop :=
  ∀ mark ∈ marked true (runs ms), ¬Excused mark → ∀ m ∈ mark.2, ∀ key ∈ toolFields, ∀ value,
    m.get? key = some value → mark.2.head?.bind (fun first => first.get? key) = some value

theorem toolFieldsFirst_iff {ms : List Json} : ToolFieldsFirst ms ↔
    ∀ mark ∈ marked true (runs ms), ¬Excused mark → ∀ m ∈ mark.2, ∀ key ∈ toolFields,
      m.get? key = none ∨ mark.2.head?.bind (fun first => first.get? key) = m.get? key := by
  refine forall₂_congr fun mark _ => forall_congr' fun _ => forall₂_congr fun m _ =>
    forall₂_congr fun key _ => ?_
  cases m.get? key with
  | none | some value => simp

instance (ms : List Json) : Decidable (ToolFieldsFirst ms) := decidable_of_iff' _ toolFieldsFirst_iff

section Lost

variable {ms : List Json}

theorem map_snd_marked (early : Bool) (rs : List (List Json)) :
    (marked early rs).map Prod.snd = rs := by
  induction rs generalizing early with
  | nil => rfl
  | cons run rs ih => rw [marked, List.map_cons, ih]

/-- The runs that are dropped come before the first user turn. -/
theorem early_of_takeWhile (rs : List (List Json)) :
    ∀ mark ∈ (marked true rs).takeWhile (fun mark => decide (runRole mark.2 = .str "assistant")),
      Excused mark := by
  induction rs with
  | nil => exact fun mark mem => absurd mem List.not_mem_nil
  | cons run rs ih =>
      intro mark mem
      rw [marked] at mem
      by_cases asst : runRole run = .str "assistant"
      · have early : (true && decide (runRole run ≠ .str "user")) = true := by simp [asst]
        simp only [early] at mem
        rw [List.takeWhile_cons_of_pos (by simpa using asst)] at mem
        rcases List.mem_cons.mp mem with rfl | mem
        · exact ⟨rfl, asst⟩
        · exact ih mark mem
      · rw [List.takeWhile_cons_of_neg (by simpa using asst)] at mem
        cases mem

/-- What is dropped is excused. -/
theorem owed_sublist (rs : List (List Json)) :
    ((marked true rs).filter fun mark => !decide (Excused mark)).Sublist
      (dropOrphans (fun mark => runRole mark.2) (marked true rs)) := by
  have dropped (marks : List (Bool × List Json)) (excused : ∀ mark ∈ marks.takeWhile
      (fun mark => decide (runRole mark.2 = .str "assistant")), Excused mark) :
      (marks.filter fun mark => !decide (Excused mark)).Sublist
        (marks.dropWhile fun mark => decide (runRole mark.2 = .str "assistant")) := by
    have none : (marks.takeWhile fun mark => decide (runRole mark.2 = .str "assistant")).filter
        (fun mark => !decide (Excused mark)) = [] := by
      rw [List.filter_eq_nil_iff]
      intro mark mem
      simpa using excused mark mem
    conv_lhs => rw [← List.takeWhile_append_dropWhile (p := fun mark : Bool × List Json =>
      decide (runRole mark.2 = .str "assistant")) (l := marks)]
    rw [List.filter_append, none, List.nil_append]
    exact List.filter_sublist
  cases rs with
  | nil => exact List.Sublist.slnil
  | cons run rs =>
      have early := early_of_takeWhile (run :: rs)
      rw [marked] at early ⊢
      rw [dropOrphans]
      by_cases system : runRole run = .str "system"
      · rw [if_pos system, List.filter_cons_of_pos (by simp [Excused, system])]
        have still : (true && decide (runRole run ≠ .str "user")) = true := by simp [system]
        rw [still]
        exact (dropped _ (early_of_takeWhile rs)).cons_cons _
      · rw [if_neg system]
        exact dropped _ early

theorem content_foldl_merge (m : Json) (ms : List Json) :
    (content m).toList <+: (content (ms.foldl merge m)).toList ∧
      ∀ m' ∈ ms, (content m').toList <:+: (content (ms.foldl merge m)).toList := by
  induction ms generalizing m with
  | nil => exact ⟨List.prefix_refl _, fun m' mem => absurd mem List.not_mem_nil⟩
  | cons m₁ ms ih =>
      obtain ⟨first, others⟩ := ih (merge m m₁)
      rw [content_merge, String.toList_append, String.toList_append] at first
      rw [List.foldl_cons]
      refine ⟨?_, fun m' mem => ?_⟩
      · rw [List.append_assoc] at first
        exact (List.prefix_append _ _).trans first
      · rcases List.mem_cons.mp mem with rfl | later
        · exact (List.suffix_append _ _).isInfix.trans first.isInfix
        · exact others m' later

/-- A merged run carries the run where only the first message has tool fields. -/
theorem carries_mergeRun_iff {run : List Json} (isRun : IsRun run) : Carries run (mergeRun run) ↔
    ∀ m ∈ run, ∀ key ∈ toolFields, ∀ value, m.get? key = some value →
      run.head?.bind (fun first => first.get? key) = some value := by
  have fields : ∀ key ∈ toolFields, (mergeRun run).get? key =
      run.head?.bind fun first => first.get? key := by
    intro key mem
    have ne : key ≠ "content" := by
      rintro rfl
      revert mem
      decide
    cases run with
    | nil => exact absurd rfl isRun.ne_nil
    | cons first rest => exact (foldl_merge_spec (isRun.messages first (by simp)) rest).2 key ne
  constructor
  · intro carries m mem key known value has
    rw [← fields key known]
    exact (carries m mem).2.2 key known value has
  · intro firsts m mem
    refine ⟨isRun.mergeRun.2.trans (isRun.role_eq mem).symm, ?_, fun key known value has => ?_⟩
    · cases run with
      | nil => cases mem
      | cons first rest =>
          rcases List.mem_cons.mp mem with rfl | later
          · exact (content_foldl_merge m rest).1.isInfix
          · exact (content_foldl_merge first rest).2 m later
    · rw [fields key known]
      exact firsts m mem key known value has

theorem dropOrphans_congr {α : Type*} {roleOf roleOf' : α → Json} {xs : List α}
    (same : ∀ x ∈ xs, roleOf x = roleOf' x) : dropOrphans roleOf xs = dropOrphans roleOf' xs := by
  have dropWhile (xs : List α) (same : ∀ x ∈ xs, roleOf x = roleOf' x) :
      (xs.dropWhile fun x => decide (roleOf x = .str "assistant")) =
        xs.dropWhile fun x => decide (roleOf' x = .str "assistant") := by
    induction xs with
    | nil => rfl
    | cons x xs ih =>
        rw [List.dropWhile_cons, List.dropWhile_cons, same x (by simp),
          ih fun x mem => same x (by simp [mem])]
  cases xs with
  | nil => rfl
  | cons x xs =>
      rw [dropOrphans, dropOrphans, same x (by simp), dropWhile (x :: xs) same,
        dropWhile xs fun x mem => same x (by simp [mem])]

/-- The messages of the output are those of the runs that are kept. -/
theorem normalize_eq_marked (messages : ∀ m ∈ ms, IsMessage m) :
    normalizeStrictAlternation (.arr ms) =
      .arr ((dropOrphans (fun mark => runRole mark.2) (marked true (runs ms))).map fun mark =>
        mergeRun mark.2) := by
  have isRun := isRun_of_mem messages
  have whole : (runs ms).map mergeRun = (marked true (runs ms)).map fun mark => mergeRun mark.2 := by
    conv_lhs => rw [← map_snd_marked true (runs ms), List.map_map]
    rfl
  rw [normalize_eq messages, whole, dropOrphans_map]
  congr 2
  refine dropOrphans_congr fun mark mem => ?_
  have here : mark.2 ∈ runs ms := by
    rw [← map_snd_marked true (runs ms)]
    exact List.mem_map_of_mem mem
  exact (isRun mark.2 here).mergeRun.2

/-- Nothing is lost exactly where the later messages of a run have no tool field of their own. -/
theorem nothingLost_iff (messages : ∀ m ∈ ms, IsMessage m) {out : List Json}
    (normalized : normalizeStrictAlternation (.arr ms) = .arr out) :
    NothingLost ms out ↔ ToolFieldsFirst ms := by
  have isRun := isRun_of_mem messages
  have run_of_mark {mark : Bool × List Json} (mem : mark ∈ marked true (runs ms)) : IsRun mark.2 := by
    refine isRun mark.2 ?_
    rw [← map_snd_marked true (runs ms)]
    exact List.mem_map_of_mem mem
  have owed := owed_sublist (runs ms)
  have there := dropOrphans_sublist (fun mark : Bool × List Json => runRole mark.2)
    (marked true (runs ms))
  rw [normalize_eq_marked messages, Json.arr.injEq] at normalized
  subst normalized
  have carried : NothingLost ms ((dropOrphans (fun mark => runRole mark.2)
      (marked true (runs ms))).map fun mark => mergeRun mark.2) ↔
        ∀ mark ∈ dropOrphans (fun mark => runRole mark.2) (marked true (runs ms)),
          Excused mark ∨ Carries mark.2 (mergeRun mark.2) := by
    constructor
    · intro nothing
      exact List.forall₂_same.mp (List.forall₂_map_right_iff.mp nothing.carried)
    · intro every
      exact ⟨owed, List.forall₂_map_right_iff.mpr (List.forall₂_same.mpr every)⟩
  rw [carried]
  constructor
  · intro every mark mem unexcused
    have kept : mark ∈ dropOrphans (fun mark => runRole mark.2) (marked true (runs ms)) :=
      owed.mem (List.mem_filter.mpr ⟨mem, by simpa using unexcused⟩)
    exact (carries_mergeRun_iff (run_of_mark mem)).mp ((every mark kept).resolve_left unexcused)
  · intro first mark mem
    by_cases excused : Excused mark
    · exact .inl excused
    · exact .inr ((carries_mergeRun_iff (run_of_mark (there.mem mem))).mpr
        (first mark (there.mem mem) excused))

/-- A system message that comes first stays first. -/
def SystemStays (ms out : List Json) : Prop :=
  ∀ m ∈ ms.head?, role m = .str "system" → ∃ m' ∈ out.head?,
    (content m).toList <+: (content m').toList ∧ ∀ key, key ≠ "content" → m'.get? key = m.get? key

theorem systemStays (messages : ∀ m ∈ ms, IsMessage m) {out : List Json}
    (normalized : normalizeStrictAlternation (.arr ms) = .arr out) : SystemStays ms out := by
  intro m first system
  obtain ⟨ms, rfl⟩ : ∃ rest, ms = m :: rest := by
    cases ms with
    | nil => cases first
    | cons m' rest => exact ⟨rest, by rw [Option.some.inj first]⟩
  have isRun := isRun_of_mem messages
  rw [normalize_eq messages, Json.arr.injEq] at normalized
  subst normalized
  have head := List.head_head_splitBy joins (List.cons_ne_nil m ms)
  rw [List.head_cons] at head
  cases split : runs (m :: ms) with
  | nil => exact absurd split (List.splitBy_ne_nil.mpr (List.cons_ne_nil m ms))
  | cons run rs =>
      have here : run ∈ runs (m :: ms) := by
        rw [split]
        exact List.mem_cons_self
      obtain ⟨rest, rfl⟩ : ∃ rest, run = m :: rest := by
        cases run with
        | nil => exact absurd rfl (isRun _ here).ne_nil
        | cons m' rest =>
            rw [runs] at split
            simp only [split, List.head_cons] at head
            exact ⟨rest, by rw [head]⟩
      have merged := (isRun _ here).mergeRun.2
      have kept : role (mergeRun (m :: rest)) = .str "system" := merged.trans system
      rw [List.map_cons, dropOrphans, if_pos kept]
      exact ⟨_, rfl, (content_foldl_merge m rest).1,
        (foldl_merge_spec (messages m List.mem_cons_self) rest).2⟩

end Lost

end Alternation

end Roadstead
