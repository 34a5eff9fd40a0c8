import Roadstead.Gateway
import Roadstead.Lib.Run

/-!
# The circuit breaker

`Health.update_endpoint_health`: what the poller's probes do to the record of an endpoint, and to the
requests that wait for it.

A call may ask `/health` before it is through, and other turns of the event loop go on meanwhile.  So a
call is two steps: `startUpdate`, which ends at the `await` or returns, and `finishUpdate`, which gets
the answer.
-/

namespace Roadstead.Breaker

/-- An entry of `endpoint_health`. -/
structure EndpointHealth where
  healthy : Bool := true
  consecutiveFailures : ℕ := 0
  unhealthySince : Option ℚ := none

/-- The `await` that a call stands at: the endpoint has tripped and may be back, or it has failed
often enough and may be down. -/
inductive Await where
  | recovery
  | confirmation
  deriving DecidableEq

section Update

variable (healthFailThreshold : ℤ)

/-- `update_endpoint_health` up to its `await`. -/
def startUpdate (h : EndpointHealth) (probeOk : Bool) : EndpointHealth × Option Await :=
  if probeOk then ({}, none)
  else if !h.healthy then (h, some .recovery)
  else
    let h := { h with consecutiveFailures := h.consecutiveFailures + 1 }
    (h, if healthFailThreshold ≤ h.consecutiveFailures then some .confirmation else none)

/-- `update_endpoint_health` from its `await` on, but for `fast_fail_interactive`. -/
def finishUpdate (h : EndpointHealth) (alive : Bool) (now : ℚ) : Await → EndpointHealth
  | .recovery => if alive then {} else h
  | .confirmation =>
      if !alive then { h with healthy := false, unhealthySince := some now }
      else { h with consecutiveFailures := 0 }

end Update

/-- The records, the calls that wait for an answer, and the gateway. -/
structure Circuits where
  endpointHealth : Dict String EndpointHealth := ∅
  awaiting : Dict String Await := ∅
  gateway : Gateway

inductive CircuitEvent where
  /-- The poller calls `update_endpoint_health`. -/
  | poll (ep : String) (probeOk : Bool)
  /-- `probe_health` returns to the call. -/
  | answer (ep : String) (alive : Bool) (now : ℚ)
  /-- Any other turn of the event loop. -/
  | other (e : GatewayEvent)

namespace Circuits

/-- The record of an endpoint, as `setdefault` gives it. -/
def record (s : Circuits) (ep : String) : EndpointHealth := (s.endpointHealth.get? ep).getD {}

/-- The gateway reads `healthy` of every record. -/
def marked (g : Gateway) (ep : String) (h : EndpointHealth) : Gateway :=
  { g with
    health := { g.health with endpointHealth := g.health.endpointHealth.set ep h.healthy } }

variable (cfg : ProxyConfig) (policy : Policy) (healthFailThreshold : ℤ)

def step (s : Circuits) : CircuitEvent → Circuits
  | .poll ep probeOk =>
      let (h, await) := startUpdate healthFailThreshold (s.record ep) probeOk
      { endpointHealth := s.endpointHealth.set ep h
        awaiting := match await with
          | some await => s.awaiting.set ep await
          | none => s.awaiting
        gateway := marked s.gateway ep h }
  | .answer ep alive now =>
      match s.awaiting.get? ep with
      | none => s
      | some await =>
          let h := finishUpdate (s.record ep) alive now await
          let g := marked s.gateway ep h
          { endpointHealth := s.endpointHealth.set ep h
            awaiting := s.awaiting.erase ep
            gateway := if await = .confirmation ∧ alive = false
              then g.fastFailInteractive cfg ep "circuit open" now else g }
  | .other e =>
      let g := s.gateway.step cfg policy e
      -- `_discover_and_probe` also closes the record of an on-demand endpoint that is not loaded; that
      -- reset, and any other writer of the records, is left out here
      { s with
        gateway := { g with
          health := { g.health with endpointHealth := s.gateway.health.endpointHealth } } }

/-- The poller calls for one endpoint after the other, and waits for each call. -/
def Sequential (s : Circuits) : CircuitEvent → Prop
  | .poll ep _ => s.awaiting.get? ep = none
  | .answer ep _ _ => s.awaiting.get? ep ≠ none
  | .other _ => True

instance (s : Circuits) : ∀ e, Decidable (Sequential s e)
  | .poll _ _ => inferInstanceAs (Decidable (_ = _))
  | .answer _ _ _ => inferInstanceAs (Decidable (_ ≠ _))
  | .other _ => isTrue trivial

end Circuits

end Roadstead.Breaker
