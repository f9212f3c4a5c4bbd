import SchedReplay.Model.Basic
import SchedReplay.Wire.Message

/-! Scheduler events, with every field that the reconstruction needs. -/
namespace SchedReplay

/-- The state of a context as it was seen, and the machine that owned it then. -/
structure Observation where
  machine : Option MachineId
  context : Context
  deriving DecidableEq

namespace Event

/-- The machine takes the context and enters the scheduler. -/
structure Schedule where
  machine : MachineId
  context : ContextId
  reason : Wire.Reason
  deriving DecidableEq

structure NewContext where
  machine : Option MachineId
  creator : Option UnitId
  startFunction : Option String
  deriving DecidableEq

/-- The machine leaves the scheduler to run `found`; the observations were made meanwhile. -/
structure Execute where
  machine : MachineId
  context : ContextId
  found : WorkUnit
  snapshots : List Observation
  deriving DecidableEq

/-- The unit that ran on the machine waits. -/
structure Park where
  machine : MachineId
  unit : WorkUnit
  waitReason : String
  deriving DecidableEq

/-- A parked unit went to the run queue of a context. -/
structure Ready where
  unit : UnitId
  update : Observation
  deriving DecidableEq

structure Progress where
  machine : MachineId
  unit : UnitId
  line : UInt32
  file : Option String
  function : Option String
  deriving DecidableEq

/-- The kinds of events, in the order of their names. -/
inductive Kind where
  | execute
  | newContext
  | park
  | progress
  | ready
  | queueStatus
  | schedule
  deriving DecidableEq

def Kind.text : Kind → String
  | execute => "execute"
  | newContext => "new_context"
  | park => "park"
  | progress => "progress"
  | ready => "ready"
  | queueStatus => "runq_status"
  | schedule => "schedule"

def Kind.all : List Kind :=
  [execute, newContext, park, progress, ready, queueStatus, schedule]

theorem Kind.mem_all (kind : Kind) : kind ∈ all := by cases kind <;> decide

end Event

inductive Event where
  | schedule (event : Event.Schedule)
  | newContext (event : Event.NewContext)
  | execute (event : Event.Execute)
  | queueStatus (event : Observation)
  | park (event : Event.Park)
  | ready (event : Event.Ready)
  | progress (event : Event.Progress)
  deriving DecidableEq

def Event.kind : Event → Event.Kind
  | schedule _ => .schedule
  | newContext _ => .newContext
  | execute _ => .execute
  | queueStatus _ => .queueStatus
  | park _ => .park
  | ready _ => .ready
  | progress _ => .progress

end SchedReplay
