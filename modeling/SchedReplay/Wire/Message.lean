/-! The messages of a run's stream, as they travel. Every field of a probe may be missing: the
sender leaves out what it could not observe, and the receiver decides what it needs. A kind of
message that is not known here is kept as `unknown`. -/
namespace SchedReplay.Wire

structure Request where
  source : String
  runtimeVersion : String
  deriving DecidableEq

/-- Why a machine thread entered the scheduler. -/
inductive Reason where
  | mstart
  | gopark
  | goexit
  | other
  deriving DecidableEq

structure Location where
  file : Option String
  line : Option UInt32
  function : Option String
  deriving DecidableEq

structure UnitInfo where
  id : Option UInt64
  entryFunctionName : Option String
  deriving DecidableEq

structure Schedule where
  machineId : Option UInt64
  contextId : Option UInt64
  reason : Option Reason
  deriving DecidableEq

structure NewContext where
  machineId : Option UInt64
  creatorUnitId : Option UInt64
  startLocation : Option Location
  deriving DecidableEq

structure Park where
  machineId : Option UInt64
  parkedUnit : Option UnitInfo
  waitReason : Option String
  deriving DecidableEq

/-- The run queue of one context; no machine when none owned the context. -/
structure QueueStatus where
  contextId : Option UInt64
  machineId : Option UInt64
  runNext : Option UnitInfo
  runQueueEntries : List UnitInfo
  deriving DecidableEq

structure Execute where
  machineId : Option UInt64
  contextId : Option UInt64
  foundUnit : Option UnitInfo
  contextSnapshots : List QueueStatus
  deriving DecidableEq

structure Ready where
  unitId : Option UInt64
  contextUpdate : Option QueueStatus
  deriving DecidableEq

structure Progress where
  machineId : Option UInt64
  unitId : Option UInt64
  sourceLocation : Option Location
  deriving DecidableEq

/-- Probes that change who owns what. -/
inductive Notification where
  | schedule (record : Schedule)
  | newContext (record : NewContext)
  | park (record : Park)
  | unknown
  deriving DecidableEq

/-- Probes that carry the full state of a structure. -/
inductive StructureState where
  | execute (record : Execute)
  | queueStatus (record : QueueStatus)
  | ready (record : Ready)
  | unknown
  deriving DecidableEq

inductive Probe where
  | notification (event : Notification)
  | structureState (event : StructureState)
  | progress (record : Progress)
  | unknown
  deriving DecidableEq

inductive Message where
  | compilationError (message : Option String)
  | runtimeResult (errorMessage : Option String)
  | runtimeOutput (chunk : String)
  | concurrencyWidth (count : Option UInt64)
  | runEvent (event : Probe)
  | unknown
  deriving DecidableEq

end SchedReplay.Wire
