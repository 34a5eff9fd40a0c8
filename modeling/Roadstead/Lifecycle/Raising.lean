import Roadstead.Lifecycle.SlotLeak
import Roadstead.Scheduler.Raising

/-!
# Turns that raise

The turns of `Lifecycle` end where the scheduler returns.  Two of them call `enqueue`, which
estimates a cost and may raise (`Scheduler.Raising`): the submit handlers, and the tick, when it
spills.

## What an exception leaves

* A submit handler ends.  Its future, or its queue of frames, is registered under the id of the
  request, and nobody waits for it any more.
* The tick ends inside `scheduler_loop`, which logs and goes on (`except Exception`).  Whom the tick
  timed out has been told by then.  Its decisions are lost: the requests are in flight, and no task is
  created for them.

## What the results ask of a run

`Proxy.estimable` asks that each estimate of a turn returns, and that what a backend reports is within
the range in which the averages of the cost model are computed without an overflow.
-/

namespace Roadstead

open Json (Fields)
open Scheduler

section Turns

variable (b : Builtins) (json : Payload → Fields) (cfg : ProxyConfig)

/-- What a turn leaves that raises. -/
def Proxy.fault (p : Proxy) : Event → Option Proxy
  | .submit req => (p.world.fault b json cfg (.enqueue req)).map fun w =>
      -- A future or a queue that nobody reads is as good as none.
      if req.stream then
        { p with world := w, pendingStreams := p.pendingStreams.erase req.requestId }
      else { p with world := w, pendingFutures := p.pendingFutures.erase req.requestId }
  | .tick o now => (p.world.fault b json cfg (.tick o now)).map fun w =>
      (Scheduler.tick cfg o p.world.sched now).timeouts.foldl Proxy.onAdmissionTimeout
        { p with world := w }
  | _ => none

/-- A turn, whether it returns or raises. -/
def Proxy.raising (policy : Policy) : Proxy → Event → Proxy :=
  Runs.faulty (Proxy.step cfg policy) (Proxy.fault b json cfg)

/-- The token counts of what is awaited are far from overflowing a double. -/
def Outcome.moderate : Outcome → Bool
  | .responded r => Roadstead.moderate r.inputTokens && Roadstead.moderate r.outputTokens
  | .blankRun abort => Roadstead.moderate abort.inputTokens && Roadstead.moderate abort.outputTokens
  | .event (.chunk c) =>
      c.usage.all fun usage => Roadstead.moderate usage.1 && Roadstead.moderate usage.2
  | _ => true

/-- Every estimate of the turn returns, and what a task is resumed with can be averaged. -/
def Proxy.estimable (p : Proxy) : Event → Bool
  | .submit req => p.world.estimable b json cfg (.enqueue req)
  | .tick o now => p.world.estimable b json cfg (.tick o now)
  | .task _ w => Roadstead.moderate w.now && w.outcome.moderate
  | _ => true

/-- Nothing escapes from such a turn. -/
theorem Proxy.fault_of_estimable {p : Proxy} {e : Event}
    (returns : p.estimable b json cfg e = true) : p.fault b json cfg e = none := by
  cases e with
  | submit req | tick o now =>
      exact Option.map_eq_none_iff.mpr (World.fault_of_estimable b json cfg returns)
  | task ref w | taskDone ref | deliver ref | clientTimeout ref | abandon ref | openStream ref
  | readFrame ref | consumerTimeout ref | leave ref | fastFail req reason => rfl

end Turns

/-! ### No slot leaks -/

section Runs

variable (b : Builtins) (json : Payload → Fields) (cfg : ProxyConfig) (policy : Policy)
  (cost : CostModel) (budgets : BudgetManager)

/-- A streaming request. -/
def streamRequest (id : String) : QueuedRequest :=
  { localRequest id .interactive with stream := true }

theorem not_noSlotLeak {p : Proxy} {ep id : String} {ref : ℕ}
    (active : ((p.world.sched.activeOf ep).get? id).map (·.request.ref) = some ref)
    (gone : ((p.tasks.get? ref).map Task.ended).getD true = true) : ¬NoSlotLeak p := by
  intro safe
  obtain ⟨ar, har, rfl⟩ := Option.map_eq_some_iff.mp active
  obtain ⟨t, ht, -, running⟩ := safe.held ep id ar har
  rw [ht, Option.map_some, Option.getD_some, running] at gone
  cases gone

end Runs

end Roadstead
