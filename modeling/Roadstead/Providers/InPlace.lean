import Roadstead.Lib.Objects
import Roadstead.Providers.Alternation

/-!
# The repair of messages as a program

`_normalize_strict_alternation` and `_translate_anthropic_image_blocks` as they run on mutable
objects: a message that they change is a new one, and the others stand in the new list as they are.
What a run gives denotes what the function of `Roadstead.Providers` gives, also beside an object that
is still written to (`hide`).  For the first of the two, the module says when it keeps its promise
(`alternates_iff`).

What a condition reads is read whole (`Heap.read`).
-/

namespace Roadstead.InPlace

open Alternation
open Json (Fields)
open Objects

/-! ### Messages -/

/-- The text of two messages that `_normalize_strict_alternation` merges. -/
def joinedText (prev msg : Json) : Option String :=
  match prev.get "content", msg.get "content" with
  | .str before, .str text =>
      if msg.get "role" ≠ .null ∧ msg.get "role" ≠ .str "tool" ∧ prev.get "role" = msg.get "role" then
        some (before ++ "\n\n" ++ text)
      else none
  | _, _ => none

/-- One turn of the first loop of `_normalize_strict_alternation`; the list is reversed. -/
def coalesce (state : Heap × List Value) (msg : Value) : Heap × List Value :=
  match state.2 with
  | [] => (state.1, [msg])
  | prev :: rest =>
      match state.1.dict? prev, joinedText (state.1.read prev) (state.1.read msg) with
      | some loc, some text =>
          let merged := alloc
            (.dict (write "content" (.plain (.str text)) (state.1.fields loc))) state.1
          (merged.1, .ref merged.2 :: rest)
      | _, _ => (state.1, msg :: prev :: rest)

/-- `_normalize_strict_alternation`. -/
def normalizeStrictAlternation (messages : Value) (heap : Heap) : Heap × Value :=
  let state := (heap.items messages).foldl coalesce (heap, [])
  let out := alloc (.list (dropOrphans (fun msg => role (state.1.read msg)) state.2.reverse)) state.1
  (out.1, .ref out.2)

/-- The fields of the `source` of an image block; none if it is no dictionary. -/
def sourceFields (block : Json) : Option Fields :=
  if (block.get "source").truthy then (block.get "source").asObj? else some []

/-- The value under `url` that `_translate_anthropic_image_blocks` writes. -/
def blockUrl (pyStr : Json → String) (block : Value) (fields : Fields) (heap : Heap) : Value :=
  if Fields.get fields "type" = .str "base64" then .plain (imageUrl pyStr fields)
  else if ((heap.read block).get "source").truthy then
    (((heap.valueAt block "source").bind fun source => heap.valueAt source "url")).getD (.plain (.str ""))
  else .plain (.str "")

/-- One block of `_translate_anthropic_image_blocks`, which raises on a source that is no
dictionary. -/
def translateBlock (pyStr : Json → String) (block : Value) (heap : Heap) : Heap × Option Value :=
  if isImageBlock (heap.read block) then
    match sourceFields (heap.read block) with
    | none => (heap, none)
    | some fields =>
        let inner := alloc (.dict [("url", blockUrl pyStr block fields heap)]) heap
        let outer := alloc
          (.dict [("type", .plain (.str "image_url")), ("image_url", .ref inner.2)]) inner.1
        (outer.1, some (.ref outer.2))
  else (heap, some block)

/-- One message of `_translate_anthropic_image_blocks`. -/
def translateMessage (pyStr : Json → String) (msg : Value) (heap : Heap) : Heap × Option Value :=
  match heap.dict? msg, heap.valueAt msg "content" with
  | some loc, some content =>
      if (heap.read content).asArr?.isSome then
        let blocks := collect (translateBlock pyStr) (heap.items content) heap
        match blocks.2 with
        | none => (blocks.1, none)
        | some items =>
            let content := alloc (.list items) blocks.1
            let out := alloc (.dict (write "content" (.ref content.2) (content.1.fields loc)))
              content.1
            (out.1, some (.ref out.2))
      else (heap, some msg)
  | _, _ => (heap, some msg)

/-- `_translate_anthropic_image_blocks`. -/
def translateAnthropicImageBlocks (pyStr : Json → String) (messages : Option Value) (heap : Heap) :
    Heap × Option Value :=
  let msgs := collect (translateMessage pyStr) ((messages.map heap.items).getD []) heap
  match msgs.2 with
  | none => (msgs.1, none)
  | some items =>
      let out := alloc (.list items) msgs.1
      (out.1, some (.ref out.2))

/-! ### What the programs on messages give -/

section Messages

variable {hole : Option ℕ} {heap : Heap} {value : Value} {j : Json}

theorem coalesce_joined {prev msg : Json} {text : String} (joined : joinedText prev msg = some text)
    (rest : List Json) : ∃ fields, prev = .obj fields ∧
      Roadstead.coalesce (prev :: rest) msg = .obj (Fields.set fields "content" (.str text)) :: rest := by
  unfold joinedText at joined
  split at joined
  · next before after here there =>
      obtain ⟨fields, rfl⟩ : ∃ fields, prev = .obj fields := by
        cases prev with
        | obj fields => exact ⟨fields, rfl⟩
        | _ => cases here
      split at joined
      · next same =>
          cases joined
          have here : Fields.get fields "content" = .str before := here
          refine ⟨fields, rfl, ?_⟩
          simp only [Roadstead.coalesce, there, here]
          exact if_pos same
      · cases joined
  · cases joined

theorem coalesce_apart {prev msg : Json} (apart : joinedText prev msg = none) (rest : List Json) :
    Roadstead.coalesce (prev :: rest) msg = msg :: prev :: rest := by
  unfold joinedText at apart
  cases prev with
  | obj fields =>
      split at apart
      · next before after here there =>
          split at apart
          · cases apart
          · next other =>
              have here : Fields.get fields "content" = .str before := here
              simp only [Roadstead.coalesce, there, here]
              exact if_neg other
      · next other =>
          cases there : msg.get "content" with
          | str text =>
              cases here : Fields.get fields "content" with
              | str before => exact (other before text here there).elim
              | _ => simp only [Roadstead.coalesce, here, there]
          | _ => simp only [Roadstead.coalesce, there]
  | _ => rfl

/-- One turn of the loop merges what the function merges, in a message of its own. -/
theorem coalesce_spec {out : List Value} {msg : Value} {js : List Json} (fits : Fits hole heap)
    (made : DenotesItems (hide hole heap) out js) (denotes : Denotes (hide hole heap) msg j) :
    heap <+: (coalesce (heap, out) msg).1 ∧
      DenotesItems (hide hole (coalesce (heap, out) msg).1) (coalesce (heap, out) msg).2
        (Roadstead.coalesce js j) := by
  cases made with
  | nil => exact ⟨List.prefix_refl _, .cons denotes .nil⟩
  | @cons prev before rest js here others =>
      rw [coalesce]
      dsimp only
      rw [here.shown.read, denotes.shown.read]
      cases joined : joinedText before j with
      | none =>
          rw [coalesce_apart joined]
          refine ⟨?_, ?_⟩
          all_goals
            split
            · contradiction
          · exact List.prefix_refl _
          · exact .cons denotes (.cons here others)
      | some text =>
          obtain ⟨fields, rfl, merged⟩ := coalesce_joined joined js
          rw [merged]
          obtain ⟨loc, -, dict, -, rfl⟩ | ⟨-, other⟩ := here.shown.dict?
          · rw [dict]
            have le : heap <+: (alloc (.dict (write "content" (.plain (.str text))
              (heap.fields loc))) heap).1 := List.prefix_append _ _
            exact ⟨le, .cons
              (denotes_dict fits (here.hidden_fields.write (.plain trivial)))
              (others.mono (hide_mono le fits))⟩
          · exact absurd rfl (other fields)

/-- The loop, on all messages. -/
theorem foldl_coalesce_spec {heap : Heap} {out items : List Value} {js js' : List Json}
    (fits : Fits hole heap) (made : DenotesItems (hide hole heap) out js)
    (denotes : DenotesItems (hide hole heap) items js') :
    heap <+: (items.foldl coalesce (heap, out)).1 ∧
      DenotesItems (hide hole (items.foldl coalesce (heap, out)).1)
        (items.foldl coalesce (heap, out)).2 (js'.foldl Roadstead.coalesce js) := by
  induction items generalizing heap out js js' with
  | nil =>
      cases denotes
      exact ⟨List.prefix_refl _, made⟩
  | cons item items ih =>
      cases denotes with
      | @cons _ j _ js' here rest =>
          obtain ⟨le, step⟩ := coalesce_spec fits made here
          rw [List.foldl_cons, List.foldl_cons]
          obtain ⟨le', all⟩ := ih (fits.mono le) step (rest.mono (hide_mono le fits))
          exact ⟨le.trans le', all⟩

/-- The items of what may be no list. -/
theorem denotes_listItems (denotes : Denotes (hide hole heap) value j) :
    DenotesItems (hide hole heap) (heap.items value) (listItems j) := by
  by_cases list : ∃ js, j = .arr js
  · obtain ⟨js, rfl⟩ := list
    exact denotes.hidden_items
  · have other : ∀ js, j ≠ .arr js := fun js same => list ⟨js, same⟩
    have none : listItems j = [] := by
      cases j with
      | arr js => exact absurd rfl (other js)
      | _ => rfl
    rw [denotes.shown.no_items other, none]
    exact .nil

theorem denotesItems_dropOrphans {items : List Value} {js : List Json}
    (denotes : DenotesItems (hide hole heap) items js) :
    DenotesItems (hide hole heap) (dropOrphans (fun msg => role (heap.read msg)) items)
      (dropOrphans role js) := by
  have same : ∀ value j, Denotes (hide hole heap) value j →
      decide (role (heap.read value) = .str "assistant") = decide (role j = .str "assistant") := by
    intro value j here
    rw [here.shown.read]
  cases denotes with
  | nil => exact .nil
  | @cons first j rest js here others =>
      rw [dropOrphans, dropOrphans, here.shown.read]
      split
      · exact .cons here (others.dropWhile same)
      · exact DenotesItems.dropWhile (.cons here others) same

theorem normalizeStrictAlternation_spec (fits : Fits hole heap)
    (denotes : Denotes (hide hole heap) value j) :
    heap <+: (normalizeStrictAlternation value heap).1 ∧
      Denotes (hide hole (normalizeStrictAlternation value heap).1)
        (normalizeStrictAlternation value heap).2 (Roadstead.normalizeStrictAlternation j) := by
  obtain ⟨le, all⟩ := foldl_coalesce_spec fits .nil (denotes_listItems denotes)
  have same : Roadstead.normalizeStrictAlternation j =
      .arr (dropOrphans role ((listItems j).foldl Roadstead.coalesce []).reverse) :=
    normalize_eq_dropOrphans (listItems j)
  rw [normalizeStrictAlternation, same]
  refine ⟨le.trans (List.prefix_append _ _), denotes_list (fits.mono le) ?_⟩
  exact denotesItems_dropOrphans all.reverse

end Messages

/-! ### What the repair of messages promises -/

/-- The output is in strict alternation, a second repair leaves it as it is, a leading system message
stays first, and nothing is lost but assistants that come before the first user turn. -/
structure Alternates (ms out : List Json) : Prop where
  settled : needsAlternationFix (.arr out) = false
  again : Roadstead.normalizeStrictAlternation (.arr out) = .arr out
  system : SystemStays ms out
  nothing : NothingLost ms out

/-- A run of the program gives `out`, and every object that was there is as it was. -/
def Gives (ms out : List Json) : Prop :=
  ∀ (heap : Heap) (messages : Value), Denotes heap messages (.arr ms) →
    heap <+: (normalizeStrictAlternation messages heap).1 ∧
      Denotes (normalizeStrictAlternation messages heap).1 (normalizeStrictAlternation messages heap).2
        (.arr out)

theorem gives_normalized {ms out : List Json}
    (normalized : Roadstead.normalizeStrictAlternation (.arr ms) = .arr out) : Gives ms out := by
  intro heap messages denotes
  have fits : Fits none heap := fun loc mem => absurd mem (by simp)
  have shown : Denotes (hide none heap) messages (.arr ms) := denotes
  rw [← normalized]
  exact normalizeStrictAlternation_spec fits shown

/-- The repair keeps its promise exactly where dropping the assistant that comes first leaves no
other shape that a template rejects, and no tool field stands on a later message of a run. -/
theorem alternates_iff {ms : List Json} (messages : ∀ m ∈ ms, IsMessage m) :
    (∃ out, Roadstead.normalizeStrictAlternation (.arr ms) = .arr out ∧ Alternates ms out ∧
      Gives ms out) ↔ ¬Stranded ((runs ms).map runRole) ∧ ToolFieldsFirst ms := by
  have needs := needs_normalize_iff messages
  constructor
  · rintro ⟨out, normalized, alternates, -⟩
    rw [normalized, alternates.settled] at needs
    refine ⟨fun stranded => Bool.false_ne_true (needs.mpr stranded), ?_⟩
    exact (nothingLost_iff messages normalized).mp alternates.nothing
  · rintro ⟨free, first⟩
    have normalized := normalize_eq messages
    rw [← needs, normalized, Bool.not_eq_true] at free
    refine ⟨_, normalized, ⟨free, ?_, ?_, ?_⟩, gives_normalized normalized⟩
    · refine normalize_of_not_needs (fun m mem => ?_) free
      obtain ⟨run, here, rfl⟩ := List.mem_map.mp ((dropOrphans_sublist role _).mem mem)
      exact (isRun_of_mem messages run here).mergeRun.1
    · exact systemStays messages normalized
    · exact (nothingLost_iff messages normalized).mpr first

/-- A message with further fields. -/
def message (role text : String) (more : Fields) : Json :=
  .obj (("role", .str role) :: ("content", .str text) :: more)

theorem isMessage_message {role text : String} {more : Fields}
    (known : role ∈ ["system", "user", "assistant", "tool"]) :
    IsMessage (message role text more) where
  object := ⟨_, rfl⟩
  role := List.mem_map_of_mem known
  text := ⟨text, rfl⟩

theorem alternates_conversation :
    ∃ out, Roadstead.normalizeStrictAlternation (.arr [message "system" "s" [],
      message "user" "a" [], message "user" "b" [],
      message "assistant" "c" [("tool_calls", .arr [])]]) = .arr out ∧
      Alternates [message "system" "s" [], message "user" "a" [], message "user" "b" [],
        message "assistant" "c" [("tool_calls", .arr [])]] out ∧
      Gives [message "system" "s" [], message "user" "a" [], message "user" "b" [],
        message "assistant" "c" [("tool_calls", .arr [])]] out := by
  refine (alternates_iff ?_).mpr ⟨by decide, ?_⟩
  · simp only [List.mem_cons, List.not_mem_nil, or_false, forall_eq_or_imp, forall_eq]
    exact ⟨isMessage_message (by decide), isMessage_message (by decide),
      isMessage_message (by decide), isMessage_message (by decide)⟩
  · decide

/-- Two system messages meet where the assistant between them is dropped. -/
theorem stranded_systems :
    (∀ m ∈ [message "system" "a" [], message "assistant" "b" [], message "system" "c" []],
      IsMessage m) ∧
    needsAlternationFix (Roadstead.normalizeStrictAlternation (.arr [message "system" "a" [],
      message "assistant" "b" [], message "system" "c" []])) = true := by
  refine ⟨?_, by decide⟩
  simp only [List.mem_cons, List.not_mem_nil, or_false, forall_eq_or_imp, forall_eq]
  exact ⟨isMessage_message (by decide), isMessage_message (by decide), isMessage_message (by decide)⟩

/-! ### What the image translation gives -/

section Images

variable {hole : Option ℕ} {heap : Heap} {value : Value} {j : Json} (pyStr : Json → String)

theorem denotes_blockUrl (denotes : Denotes (hide hole heap) value j) {fields : Fields}
    (source : sourceFields j = some fields) :
    Denotes (hide hole heap) (blockUrl pyStr value fields heap) (imageUrl pyStr fields) := by
  rw [blockUrl, denotes.shown.read]
  by_cases base64 : Fields.get fields "type" = .str "base64"
  · rw [if_pos base64, imageUrl, if_pos base64]
    exact .plain trivial
  rw [if_neg base64, imageUrl, if_neg base64]
  unfold sourceFields at source
  split at source
  · next truthy =>
      rw [if_pos truthy]
      have object := Json.asObj?_eq_some.mp source
      rcases denotes.hidden_valueAt "source" with ⟨-, absent⟩ | ⟨inner, j', here, there, denotes'⟩
      · rw [Json.get, absent] at object
        cases object
      · rw [Json.get, there, Option.getD_some] at object
        subst object
        rw [here, Option.bind_some]
        rcases denotes'.hidden_valueAt "url" with ⟨absent, absent'⟩ | ⟨url, j', here, there, denotes''⟩
        · have absent' : Fields.get? fields "url" = none := absent'
          rw [absent, absent']
          exact .plain trivial
        · have there : Fields.get? fields "url" = some j' := there
          rw [here, there]
          exact denotes''
  · next falsy =>
      cases source
      rw [if_neg falsy]
      exact .plain trivial

theorem translateBlock_spec (fits : Fits hole heap) (denotes : Denotes (hide hole heap) value j) :
    Makes hole heap (translateBlock pyStr value heap) (Roadstead.translateBlock pyStr j) := by
  have result : Roadstead.translateBlock pyStr j =
      if isImageBlock j then (sourceFields j).map fun source => .obj [("type", .str "image_url"),
        ("image_url", .obj [("url", imageUrl pyStr source)])]
      else some j := rfl
  rw [result, translateBlock, denotes.shown.read]
  split
  · cases source : sourceFields j with
    | none => exact ⟨List.prefix_refl _, rfl, fun _ mem => absurd mem (by simp)⟩
    | some fields =>
        have url := denotes_blockUrl pyStr denotes source
        have urlField : DenotesFields (hide hole heap) [("url", blockUrl pyStr value fields heap)]
            [("url", imageUrl pyStr fields)] := .cons url .nil
        let inner := alloc (.dict [("url", blockUrl pyStr value fields heap)]) heap
        have fits' : Fits hole inner.1 := fits.mono (List.prefix_append _ _)
        have imageField : DenotesFields (hide hole inner.1)
            [("type", .plain (.str "image_url")), ("image_url", .ref inner.2)]
            [("type", .str "image_url"), ("image_url", .obj [("url", imageUrl pyStr fields)])] :=
          .cons (.plain trivial) (.cons (denotes_dict fits urlField) .nil)
        refine ⟨(List.prefix_append _ _).trans (List.prefix_append _ _), rfl, ?_⟩
        rintro _ ⟨⟩ _ ⟨⟩
        exact denotes_dict fits' imageField
  · refine ⟨List.prefix_refl _, rfl, ?_⟩
    rintro _ ⟨⟩ _ ⟨⟩
    exact denotes

theorem translateMessage_spec (fits : Fits hole heap) (denotes : Denotes (hide hole heap) value j) :
    Makes hole heap (translateMessage pyStr value heap) (Roadstead.translateMessage pyStr j) := by
  have kept : Makes hole heap (heap, some value) (some j) := by
    refine ⟨List.prefix_refl _, rfl, ?_⟩
    rintro _ ⟨⟩ _ ⟨⟩
    exact denotes
  unfold translateMessage Roadstead.translateMessage
  rcases denotes.shown.dict? with ⟨loc, js, dict, rfl, rfl⟩ | ⟨none, other⟩
  · rw [dict]
    rcases denotes.hidden_valueAt "content" with ⟨absent, absent'⟩ | ⟨content, j', here, there, denotes'⟩
    · have null : (Json.obj js).get "content" = .null := by rw [Json.get, absent']; rfl
      simp only [absent, null]
      exact kept
    · have found : (Json.obj js).get "content" = j' := by rw [Json.get, there]; rfl
      simp only [here, found, denotes'.shown.read]
      by_cases list : ∃ blocks, j' = .arr blocks
      · obtain ⟨blocks, rfl⟩ := list
        simp only [Json.asArr?, Option.isSome_some, if_true]
        obtain ⟨le, raised, all⟩ := collect_spec
          (fun _ _ _ fits denotes => translateBlock_spec pyStr fits denotes) fits denotes'.hidden_items
        cases made : (collect (translateBlock pyStr) (heap.items content) heap).2 with
        | none =>
            rw [made, Option.isSome_none, eq_comm, Option.isSome_eq_false_iff,
              Option.isNone_iff_eq_none] at raised
            rw [raised]
            exact ⟨le, rfl, fun _ mem => absurd mem (by simp)⟩
        | some items =>
            rw [made, Option.isSome_some, eq_comm, Option.isSome_iff_exists] at raised
            obtain ⟨translated, raised⟩ := raised
            have fits' := fits.mono le
            have le' := le.trans (List.prefix_append _
              [Object.list items])
            have listed := denotes_list fits' (all items made translated raised)
            have fields := (denotes.mono (hide_mono le' fits)).hidden_fields
            rw [raised]
            refine ⟨le'.trans (List.prefix_append _ _), rfl, ?_⟩
            rintro _ ⟨⟩ _ ⟨⟩
            exact denotes_dict (fits.mono le') (fields.write listed)
      · have other : j'.asArr?.isSome = false := by
          cases j' with
          | arr blocks => exact absurd ⟨blocks, rfl⟩ list
          | _ => rfl
        simp only [other, Bool.false_eq_true, if_false]
        cases j' with
        | arr blocks => exact absurd ⟨blocks, rfl⟩ list
        | _ => exact kept
  · simp only [none]
    cases j with
    | obj js => exact absurd rfl (other js)
    | _ => exact kept

theorem translateAnthropicImageBlocks_spec {messages : Option Value} (fits : Fits hole heap)
    (denotes : ∀ value ∈ messages, Denotes (hide hole heap) value j)
    (absent : messages = none → listItems j = []) :
    Makes hole heap (translateAnthropicImageBlocks pyStr messages heap)
      (Roadstead.translateAnthropicImageBlocks pyStr j) := by
  have items : DenotesItems (hide hole heap) ((messages.map heap.items).getD []) (listItems j) := by
    cases messages with
    | none =>
        rw [absent rfl]
        exact .nil
    | some value => exact denotes_listItems (denotes value rfl)
  obtain ⟨le, raised, all⟩ := collect_spec
    (fun _ _ _ fits denotes => translateMessage_spec pyStr fits denotes) fits items
  rw [translateAnthropicImageBlocks, Roadstead.translateAnthropicImageBlocks]
  cases made : (collect (translateMessage pyStr) ((messages.map heap.items).getD []) heap).2 with
  | none =>
      rw [made, Option.isSome_none, eq_comm, Option.isSome_eq_false_iff,
        Option.isNone_iff_eq_none] at raised
      rw [raised]
      exact ⟨le, rfl, fun _ mem => absurd mem (by simp)⟩
  | some items =>
      rw [made, Option.isSome_some, eq_comm, Option.isSome_iff_exists] at raised
      obtain ⟨translated, raised⟩ := raised
      rw [raised]
      refine ⟨le.trans (List.prefix_append _ _), rfl, ?_⟩
      rintro _ ⟨⟩ _ ⟨⟩
      exact denotes_list (fits.mono le) (all items made translated raised)

end Images

end Roadstead.InPlace
