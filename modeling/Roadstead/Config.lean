import Roadstead.Lib.Binary64
import Roadstead.Lib.Dict

/-!
# Priorities, endpoints and agents

The parts of `config.py` that admission reads: the three priority bands, the slot
arithmetic of one endpoint, the per-agent quota, and the fleet configuration.

Times and costs are rational numbers: every finite double is one, and the code
that is modelled only adds, subtracts, scales and compares them.  The one place
where the *rounding* of a double decides an integer is `background_floor_slots`,
which converts a rounded product with `int(...)`; it is modelled with the rounded
product of `Binary64`.
-/

namespace Roadstead

/-- The scheduling bands, highest priority first. -/
inductive PriorityBand where
  | interactive
  | foreground
  | background
  deriving DecidableEq, Repr

namespace PriorityBand

/-- The integer value of the enumeration: a smaller value is served first. -/
def value : PriorityBand → ℕ
  | interactive => 0
  | foreground => 1
  | background => 2

/-- `for band in PriorityBand`: the members in definition order. -/
def all : List PriorityBand := [interactive, foreground, background]

@[simp] theorem mem_all (b : PriorityBand) : b ∈ all := by
  cases b <;> simp [all]

end PriorityBand

/-- The priorities a caller can declare. -/
inductive LLMPriority where
  | p0Realtime
  | p1TurnSupport
  | p2PostTurn
  | p3Ingestion
  | p4Hygiene
  deriving DecidableEq, Repr

namespace LLMPriority

/-- The integer value of the enumeration, which is what the store keeps. -/
def value : LLMPriority → ℤ
  | p0Realtime => 0
  | p1TurnSupport => 1
  | p2PostTurn => 2
  | p3Ingestion => 3
  | p4Hygiene => 4

/-- `coerce` of an integer: a value out of range is clamped. -/
def coerce (n : ℤ) : LLMPriority :=
  if n ≤ 0 then p0Realtime
  else if n = 1 then p1TurnSupport
  else if n = 2 then p2PostTurn
  else if n = 3 then p3Ingestion
  else p4Hygiene

@[simp] theorem coerce_value (p : LLMPriority) : coerce p.value = p := by
  cases p <;> rfl

/-- `priority_to_band`. -/
def band : LLMPriority → PriorityBand
  | p0Realtime => .interactive
  | p1TurnSupport => .interactive
  | p2PostTurn => .foreground
  | p3Ingestion => .background
  | p4Hygiene => .background

end LLMPriority

/-- The fields of `EndpointConfig` that admission and dispatch read. -/
structure EndpointConfig where
  endpointClass : String
  role : String := ""
  maxSlots : ℤ
  contextPerSlot : ℤ := 0
  spillTo : String := ""
  /-- A double, as the rational number it is. -/
  backgroundFloorPct : ℚ := Binary64.nearest (1 / 5)
  fastPathReserveSlots : ℤ := 0
  dispatchConcurrencyCap : ℤ := 0
  slotAffinity : Bool := false
  /-- The class that serves in place of this one while it is unhealthy, or `""`. -/
  failoverTo : String := ""
  failoverDwellS : ℚ := 120
  onDemand : Bool := false
  dispatcherCapability : String := ""
  deriving DecidableEq

namespace EndpointConfig

/-- `max_slots`, clamped to `dispatch_concurrency_cap` when that is set. -/
def effectiveMaxSlots (ep : EndpointConfig) : ℤ :=
  if 0 < ep.dispatchConcurrencyCap then min ep.maxSlots ep.dispatchConcurrencyCap
  else ep.maxSlots

/-- `max(1, int(max_slots * background_floor_pct))`; the integer is converted to
a double before the product is rounded. -/
def backgroundFloorSlots (ep : EndpointConfig) : ℤ :=
  max 1 (Binary64.toInt (Binary64.mul (Binary64.nearest ep.maxSlots) ep.backgroundFloorPct))

/-- The most background requests in flight at once, never below the floor. -/
def backgroundCapSlots (ep : EndpointConfig) : ℤ :=
  let cap :=
    if 0 < ep.fastPathReserveSlots ∧ 0 < ep.effectiveMaxSlots then
      ep.effectiveMaxSlots - ep.fastPathReserveSlots
    else ep.backgroundFloorSlots
  max ep.backgroundFloorSlots cap

theorem effectiveMaxSlots_le (ep : EndpointConfig) : ep.effectiveMaxSlots ≤ ep.maxSlots := by
  unfold effectiveMaxSlots
  split
  · exact min_le_left _ _
  · exact le_rfl

end EndpointConfig

/-- The fields of `AgentQuotaConfig` that scheduling reads. -/
structure AgentQuotaConfig where
  agentId : String
  weight : ℚ := 1
  maxBalanceSs : ℚ := 60
  spillOk : Bool := false
  degradeOk : Bool := false
  deriving DecidableEq

/-- `str.strip` and `str.lower`, on ASCII text. -/
def foldAscii (text : String) : String :=
  let trimmed := text.toList.dropWhile Char.isWhitespace
  .ofList ((trimmed.reverse.dropWhile Char.isWhitespace).reverse.map Char.toLower)

/-- The fleet configuration.  Every endpoint is stored under its own class, and no
class is the empty string, which is this code base's spelling of "no endpoint"
(`spill_to`, `failover_to`, the answer of `_spill_target`). -/
structure ProxyConfig where
  endpoints : Dict String EndpointConfig
  agents : Dict String AgentQuotaConfig := ∅
  stored_under_class : ∀ e ∈ endpoints.entries, e.2.endpointClass = e.1
  class_ne_empty : ∀ e ∈ endpoints.entries, e.1 ≠ ""
  /-- `ROLE_TO_CLASS`: what the catalog makes of a role, an alias or a class. -/
  roleToClass : Dict String String := ∅
  /-- `str(endpoint).strip().lower()`; nothing is assumed about it. -/
  foldName : String → String := foldAscii

namespace ProxyConfig

theorem stored_of_none :
    ∀ e ∈ (∅ : Dict String EndpointConfig).entries, e.2.endpointClass = e.1 := by
  simp

theorem ne_empty_of_none : ∀ e ∈ (∅ : Dict String EndpointConfig).entries, e.1 ≠ "" := by
  simp

def normalizeEndpoint (cfg : ProxyConfig) (endpoint : String) : String :=
  let text := cfg.foldName endpoint
  (cfg.roleToClass.get? text).getD text

/-- `OnDemandManager.manages`: the endpoint is loaded on demand, and there is a
dispatcher capability to load it with. -/
def manages (cfg : ProxyConfig) (endpoint : String) : Bool :=
  match cfg.endpoints.get? endpoint with
  | none => false
  | some ep => ep.onDemand && ep.dispatcherCapability != ""

/-- `agent_config`: an agent nobody configured gets the defaults. -/
def agentConfig (cfg : ProxyConfig) (agentId : String) : AgentQuotaConfig :=
  (cfg.agents.get? agentId).getD { agentId := agentId }

theorem endpointClass_eq (cfg : ProxyConfig) {ep : String} {epCfg : EndpointConfig}
    (h : cfg.endpoints.get? ep = some epCfg) : epCfg.endpointClass = ep :=
  cfg.stored_under_class _ (Dict.mem_entries_iff.mpr h)

theorem ne_empty_of_get? (cfg : ProxyConfig) {ep : String} {epCfg : EndpointConfig}
    (h : cfg.endpoints.get? ep = some epCfg) : ep ≠ "" :=
  cfg.class_ne_empty _ (Dict.mem_entries_iff.mpr h)

end ProxyConfig

end Roadstead
