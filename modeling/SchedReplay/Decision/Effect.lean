import SchedReplay.Decision.Basic
import SchedReplay.Event.Basic

/-! What each kind of event does to the model, as a decision. -/
namespace SchedReplay

/-- An observed context, bound to its machine or unclaimed. -/
def Observation.delta (observation : Observation) : Delta :=
  .contextState observation.machine observation.context

namespace Event

def Schedule.decision (event : Schedule) : Decision :=
  [.bind event.machine event.context, .scheduling event.machine true,
    .executing event.machine none]

/-- Ownership follows the snapshots alone; the event's own context is not looked at. -/
def Execute.decision (event : Execute) : Decision :=
  .scheduling event.machine false :: .executing event.machine (some event.found) ::
    event.snapshots.map Observation.delta

def Park.decision (event : Park) : Decision :=
  [.executing event.machine none, .parkedAdded ⟨event.unit, event.waitReason⟩]

def Ready.decision (event : Ready) : Decision :=
  [event.update.delta, .parkedRemoved event.unit]

def decision? : Event → Option Decision
  | schedule event => some event.decision
  | execute event => some event.decision
  | queueStatus event => some [event.delta]
  | park event => some event.decision
  | ready event => some event.decision
  | newContext _ => none
  | progress _ => none

end Event

end SchedReplay
