import Roadstead.Providers

/-!
# The thinking switch on the wire

`strip_thinking_switch` and `rename_thinking_switch` of `think_bleed.py`, and
`backend._canonical_switch`, which chooses between them.  The definitions follow the source; nothing
is proved here.

Both rewrite one container, the payload, and then the other, its `extra_body`.  What they report is
a list of findings, which `text` writes as the source does.  A value of the caller that is no string
never has the `str` of a word, so that `str(value.get("type") or "")` is read off strings only.  That
nothing of the caller's is mutated is the matter of `Roadstead.ThinkingSwitch.Copies`.
-/

namespace Roadstead.ThinkingSwitch

open Json (Fields)

/-! ### What is found -/

/-- Where a value stands in a container. -/
inductive Spot where
  | field (key : String)
  | kwarg (key : String)
  | reasoning (key : String)
  deriving DecidableEq

/-- A value that is removed, and how its value is written. -/
structure Finding where
  /-- It stands in `extra_body`. -/
  nested : Bool
  spot : Spot
  label : String
  deriving DecidableEq

/-- `_value_label`. -/
def valueLabel : Json → String
  | .bool true => "true"
  | .bool false => "false"
  | .null => "null"
  | .int _ => "int"
  | .float _ => "float"
  | .str _ => "str"
  | .arr _ => "list"
  | .obj _ => "dict"

/-- A word as it is compared: without the white space around it, and in lower case. -/
def word (text : String) : List Char := (Text.strip text.toList).map Char.toLower

/-- `_is_none_effort`. -/
def isNoneEffort : Json → Bool
  | .str s => decide (word s = "none".toList)
  | _ => false

/-! ### Removal -/

/-- The keys of a `chat_template_kwargs` that go. -/
def goneKwarg (ck : Fields) (key : String) : Bool :=
  decide (key ∈ thinkingKwargNames) ||
    decide (key = "reasoning_effort") && isNoneEffort (ck.get "reasoning_effort")

/-- What is found in a `chat_template_kwargs`. -/
def kwargFindings (nested : Bool) (ck : Fields) : List Finding :=
  (((ck.map Prod.fst).filter fun key => key ∈ thinkingKwargNames).map fun key =>
      ⟨nested, .kwarg key, valueLabel (ck.get key)⟩) ++
    if isNoneEffort (ck.get "reasoning_effort") then [⟨nested, .kwarg "reasoning_effort", "none"⟩]
    else []

/-- Write an object back, unless there is nothing left of it. -/
def putBack (out : Fields) (key : String) (rest : Fields) : Fields :=
  if rest = [] then out.erase key else out.set key (.obj rest)

/-- The first part of `_strip_container`. -/
def stripKwargs (nested : Bool) (container : Fields) : Fields × List Finding :=
  match container.get "chat_template_kwargs" with
  | .obj ck =>
      let newCk := ck.filter fun field => !goneKwarg ck field.1
      (if newCk.length ≠ ck.length then putBack container "chat_template_kwargs" newCk
        else container, kwargFindings nested ck)
  | _ => (container, [])

/-- The second part: the effort of the container itself. -/
def stripEffort (nested : Bool) (container out : Fields) : Fields × List Finding :=
  if isNoneEffort (container.get "reasoning_effort") then
    (out.erase "reasoning_effort", [⟨nested, .field "reasoning_effort", "none"⟩])
  else (out, [])

/-- The third part: the effort in its `reasoning`. -/
def stripReasoning (nested : Bool) (container out : Fields) : Fields × List Finding :=
  match container.get "reasoning" with
  | .obj obj =>
      if isNoneEffort (Fields.get obj "effort") then
        (putBack out "reasoning" (Fields.erase obj "effort"), [⟨nested, .reasoning "effort", "none"⟩])
      else (out, [])
  | _ => (out, [])

/-- `_strip_container`. -/
def stripContainer (nested : Bool) (container : Fields) : Fields × List Finding :=
  let kwargs := stripKwargs nested container
  let effort := stripEffort nested container kwargs.1
  let reasoning := stripReasoning nested container effort.1
  (reasoning.1, kwargs.2 ++ effort.2 ++ reasoning.2)

/-- The payload and then its `extra_body`, which is written back where something was found. -/
def bothContainers {F : Type} (rewrite : Bool → Fields → Fields × List F) (payload : Fields) :
    Fields × List F :=
  let top := rewrite false payload
  match top.1.get "extra_body" with
  | .obj eb =>
      let extra := rewrite true eb
      (if extra.2.isEmpty then top.1 else top.1.set "extra_body" (.obj extra.1), top.2 ++ extra.2)
  | _ => top

/-- `strip_thinking_switch`. -/
def stripThinkingSwitch (payload : Fields) : Fields × List Finding :=
  bothContainers stripContainer payload

/-! ### Renaming -/

/-- `_as_switch_value`. -/
def asSwitchValue : Json → Option Bool
  | .bool b => some b
  | .obj value =>
      match Fields.get value "type" with
      | .str kind =>
          if word kind = "enabled".toList ∨ word kind = "adaptive".toList then some true
          else if word kind = "disabled".toList then some false
          else none
      | _ => none
  | _ => none

/-- The known spellings in a `chat_template_kwargs` that are not declared. -/
def foreignKeys (declared : List String) (ck : Fields) : List String :=
  thinkingKwargNames.filter fun key => ck.has key && decide (key ∉ declared)

/-- The value that all of `values` are. -/
def agreed : List (Option Bool) → Option Bool
  | some b :: values => if values.all (· = some b) then some b else none
  | _ => none

/-- The value that all foreign spellings agree on. -/
def agreedValue (ck : Fields) (foreign : List String) : Option Bool :=
  agreed (foreign.map fun key => asSwitchValue (ck.get key))

/-- A renaming: the keys that go, those that are written, and the value. -/
structure Renaming where
  nested : Bool
  foreign : List String
  landed : List String
  value : Option Bool
  deriving DecidableEq

/-- The declared keys that are missing, each written once. -/
def land (declared : List String) (value : Bool) (ck : Fields) : Fields × List String :=
  declared.foldl
    (fun done key =>
      if done.1.has key then done else (done.1.set key (.bool value), done.2 ++ [key]))
    (ck, [])

/-- `_rename_container`. -/
def renameContainer (declared : List String) (nested : Bool) (container : Fields) :
    Fields × List Renaming :=
  match container.get "chat_template_kwargs" with
  | .obj ck =>
      let foreign := foreignKeys declared ck
      if foreign = [] then (container, [])
      else
        let value := agreedValue ck foreign
        let rest := ck.filter fun field => field.1 ∉ foreign
        let landed := value.elim (rest, []) fun value => land declared value rest
        (container.set "chat_template_kwargs" (.obj landed.1), [⟨nested, foreign, landed.2, value⟩])
  | _ => (container, [])

/-- `rename_thinking_switch`. -/
def renameThinkingSwitch (declared : List String) (payload : Fields) : Fields × List Renaming :=
  if declared.isEmpty then (payload, []) else bothContainers (renameContainer declared) payload

/-! ### The endpoint -/

/-- The switch of an endpoint, as the catalog declares it: an endpoint without a switch has no
keys. -/
structure Declaration where
  /-- `thinking_kwargs`. -/
  keys : List String
  /-- `no_thinking_switch`. -/
  none : Bool
  exclusive : none = true → keys = []

/-- `_canonical_switch`. -/
def canonicalSwitch (d : Declaration) (payload : Fields) : Fields :=
  if d.none then (stripThinkingSwitch payload).1 else (renameThinkingSwitch d.keys payload).1

/-- An endpoint that declares keys. -/
def Declaration.named (keys : List String) : Declaration where
  keys := keys
  none := false
  exclusive := Bool.noConfusion

end Roadstead.ThinkingSwitch
