import Roadstead.CostModel.Untyped
import Roadstead.Lib.Json.Longer
import Roadstead.NoStore

/-!
# Enlarging a payload

A payload is enlarged (`Enlarged`) by messages, content parts and tools that are put behind those
it has, and by characters that are put into a text that is counted, at any depth.  What is counted
of a content part depends on its type, which is a text as well and is serialized with a part of an
unknown type: it has to stay.

Nothing is assumed about the lengths of serialized values: `python` has those of `json.dumps` and
of `str`, up to the `repr` of a float and the characters that `repr` prints as they are.
-/

namespace Roadstead

open Json (Fields Flt Longer LongerText LongerItems LongerFields printed)

/-! ### The standard library -/

/-- The length of a character in the `repr` of a text that has no quotes. -/
def reprChar (printable : Char → Bool) (c : Char) : ℕ :=
  if c ∈ ['\\', '\n', '\r', '\t'] then 2
  else if printable c then 1
  else if c.toNat ≤ 0xff then 4
  else if c.toNat ≤ 0xffff then 6
  else 10

/-- `len(repr(text))`: single quotes are escaped where the text has double ones as well. -/
def reprText (printable : Char → Bool) (s : String) : ℕ :=
  2 + (s.toList.map (reprChar printable)).sum +
    if '\'' ∈ s.toList ∧ '"' ∈ s.toList then s.toList.count '\'' else 0

def dumpsFloat (floats : ℚ → ℕ) : Flt → ℕ
  | .finite x => floats x
  | .infinite false => "Infinity".length
  | .infinite true => "-Infinity".length
  | .nan => "NaN".length

def reprFloat (floats : ℚ → ℕ) : Flt → ℕ
  | .finite x => floats x
  | .infinite false => "inf".length
  | .infinite true => "-inf".length
  | .nan => "nan".length

/-- `json.dumps`, `str` and `float`. -/
def python (floats : ℚ → ℕ) (printable : Char → Bool) (float : String → Option Flt) : Builtins where
  dumps := printed NoStore.textSize (dumpsFloat floats)
  str := printed (reprText printable) (reprFloat floats)
  float := float

theorem textSize_le (s t : String) (h : LongerText s t) : NoStore.textSize s ≤ NoStore.textSize t :=
  Nat.add_le_add_left (h.sum_le NoStore.escapedSize) 2

theorem reprText_le (printable : Char → Bool) (s t : String) (h : LongerText s t) :
    reprText printable s ≤ reprText printable t := by
  have chars := h.sum_le (reprChar printable)
  have quotes := List.Sublist.count_le '\'' h
  unfold reprText
  by_cases both : '\'' ∈ s.toList ∧ '"' ∈ s.toList
  · have both' : '\'' ∈ t.toList ∧ '"' ∈ t.toList :=
      ⟨List.Sublist.subset h both.1, List.Sublist.subset h both.2⟩
    rw [if_pos both, if_pos both']
    omega
  · rw [if_neg both]
    omega

/-- Longer values are serialized to longer texts. -/
structure Builtins.Monotone (b : Builtins) : Prop where
  dumps : ∀ value value', Longer value value' → b.dumps value ≤ b.dumps value'
  str : ∀ value value', Longer value value' → b.str value ≤ b.str value'

theorem monotone_python (floats : ℚ → ℕ) (printable : Char → Bool) (float : String → Option Flt) :
    (python floats printable float).Monotone where
  dumps := Json.printed_le _ textSize_le
  str := Json.printed_le _ (reprText_le printable)

/-! ### What is enlarged -/

mutual

/-- Parts are put behind those of a list, and what is counted of each is longer. -/
def ContentGrown : Json → Json → Prop
  | .str s, .str t => LongerText s t
  | .obj fields, .obj fields' => LongerFields fields fields'
  | .arr parts, .arr parts' => PartsGrown parts parts'
  | value, value' => value = value'
termination_by structural value => value

def PartsGrown : List Json → List Json → Prop
  | [], _ => True
  | _ :: _, [] => False
  | part :: parts, part' :: parts' => PartGrown part part' ∧ PartsGrown parts parts'
termination_by structural parts => parts

def PartGrown : Json → Json → Prop
  | .str s, .str t => LongerText s t
  | .obj part, .obj part' =>
      match partKind part with
      | .text s => ∃ t, partKind part' = .text t ∧ LongerText s t
      | .toolUse =>
          partKind part' = .toolUse ∧
            Longer (Fields.get part "name") (Fields.get part' "name") ∧
              Longer (Fields.get part "input") (Fields.get part' "input")
      | .toolResult => partKind part' = .toolResult ∧ ResultGrown part (Fields.get part' "content")
      | .other ptype => partKind part' = .other ptype ∧ LongerFields part part'
  | value, value' => value = value'
termination_by structural part => part

/-- The content of a tool result is enlarged. -/
def ResultGrown : List (String × Json) → Json → Prop
  | [], _ => True
  | (key, value) :: fields, content =>
      if key = "content" then ContentGrown value content else ResultGrown fields content
termination_by structural fields => fields

end

/-- The name and the arguments of a call are longer. -/
def FunctionGrown (fn fn' : Fields) : Prop :=
  Longer (fn.get "name") (fn'.get "name") ∧ Longer (fn.get "arguments") (fn'.get "arguments")

def CallGrown : Json → Json → Prop
  | .obj call, .obj call' =>
      FunctionGrown ((Fields.get call "function").asObj?.getD [])
        ((Fields.get call' "function").asObj?.getD [])
  | value, value' => value = value'

def MessageGrown : Json → Json → Prop
  | .str s, .str t => LongerText s t
  | .obj msg, .obj msg' =>
      ContentGrown (Fields.get msg "content") (Fields.get msg' "content") ∧
        ((Fields.get msg "tool_calls").asArr?.getD []).Grown CallGrown
          ((Fields.get msg' "tool_calls").asArr?.getD []) ∧
        ((Fields.get msg "function_call").asObj?.toList).Grown FunctionGrown
          ((Fields.get msg' "function_call").asObj?.toList)
  | value, value' => value = value'

/-- Messages are put behind those there are, if there are any. -/
def MessagesGrown : Json → Json → Prop
  | .arr msgs, .arr msgs' => msgs.Grown MessageGrown msgs'
  | .str s, .str t => LongerText s t
  | .obj fields, .obj fields' => fields.Grown (fun a b => LongerText a.1 b.1) fields'
  | value, value' => value.truthy = false ∨ value = value'

def SystemPartGrown : Json → Json → Prop
  | .str s, .str t => LongerText s t
  | .obj part, .obj part' =>
      Longer ((Fields.get? part "text").getD (.str "")) ((Fields.get? part' "text").getD (.str ""))
  | value, value' => value = value'

def SystemGrown : Json → Json → Prop
  | .str s, .str t => LongerText s t
  | .arr parts, .arr parts' => parts.Grown SystemPartGrown parts'
  | value, value' => value.truthy = false ∨ value = value'

/-- Messages, content parts and tools are put behind those there are, and texts that are counted
are longer. -/
structure Enlarged (payload payload' : Fields) : Prop where
  system : SystemGrown (payload.get "system") (payload'.get "system")
  tools : (payload.get "tools").truthy = true → Longer (payload.get "tools") (payload'.get "tools")
  messages : MessagesGrown (payload.get "messages") (payload'.get "messages")
  maxTokens : payload'.get "max_tokens" = payload.get "max_tokens"

/-! ### What enlarges a payload -/

mutual

theorem ContentGrown.refl : ∀ value : Json, ContentGrown value value
  | .null | .bool _ | .int _ | .float _ => rfl
  | .str s => LongerText.refl s
  | .obj fields => LongerFields.refl fields
  | .arr parts => PartsGrown.refl parts

theorem PartsGrown.refl : ∀ parts : List Json, PartsGrown parts parts
  | [] => trivial
  | part :: parts => ⟨PartGrown.refl part, PartsGrown.refl parts⟩

theorem PartGrown.refl : ∀ part : Json, PartGrown part part
  | .null | .bool _ | .int _ | .float _ | .arr _ => rfl
  | .str s => LongerText.refl s
  | .obj part => by
      rw [PartGrown]
      cases partKind part with
      | text s => exact ⟨s, rfl, .refl s⟩
      | toolUse => exact ⟨rfl, .refl _, .refl _⟩
      | toolResult => exact ⟨rfl, ResultGrown.refl part⟩
      | other ptype => exact ⟨rfl, LongerFields.refl part⟩

theorem ResultGrown.refl : ∀ fields : List (String × Json),
    ResultGrown fields (Fields.get fields "content")
  | [] => trivial
  | (key, value) :: fields => by
      rw [ResultGrown, Fields.get, Fields.get?_cons]
      by_cases here : key = "content"
      · rw [if_pos here, if_pos here]
        exact ContentGrown.refl value
      · rw [if_neg here, if_neg here]
        exact ResultGrown.refl fields

end

theorem FunctionGrown.refl (fn : Fields) : FunctionGrown fn fn := ⟨.refl _, .refl _⟩

theorem CallGrown.refl : ∀ call : Json, CallGrown call call
  | .obj _ => FunctionGrown.refl _
  | .null | .bool _ | .int _ | .float _ | .str _ | .arr _ => rfl

theorem MessageGrown.refl : ∀ msg : Json, MessageGrown msg msg
  | .str s => LongerText.refl s
  | .obj _ => ⟨.refl _, .refl .refl _, .refl .refl _⟩
  | .null | .bool _ | .int _ | .float _ | .arr _ => rfl

theorem SystemPartGrown.refl : ∀ part : Json, SystemPartGrown part part
  | .str s => LongerText.refl s
  | .obj _ => Longer.refl _
  | .null | .bool _ | .int _ | .float _ | .arr _ => rfl

theorem SystemGrown.refl : ∀ value : Json, SystemGrown value value
  | .str s => LongerText.refl s
  | .arr parts => List.Grown.refl .refl parts
  | .null | .bool _ | .int _ | .float _ | .obj _ => .inr rfl

namespace Enlarged

variable {payload : Fields}

theorem set_messages {value : Json} (h : MessagesGrown (payload.get "messages") value) :
    Enlarged payload (payload.set "messages" value) where
  system := by rw [Fields.get_set_of_ne _ (by decide)]; exact .refl _
  tools := fun _ => by rw [Fields.get_set_of_ne _ (by decide)]; exact .refl _
  messages := by rwa [Fields.get_set_self]
  maxTokens := Fields.get_set_of_ne _ (by decide) _

theorem append_message {msgs : List Json} (listed : payload.get "messages" = .arr msgs)
    (msg : Json) : Enlarged payload (payload.set "messages" (.arr (msgs ++ [msg]))) := by
  refine set_messages ?_
  rw [listed]
  exact List.Grown.append .refl [msg] msgs

end Enlarged

end Roadstead
