import SchedReplay.Event.Basic

/-! From wire probes to scheduler events. A probe is refused for the first field it lacks; fields
are looked at in a fixed order, and the error names the path of the field. -/
namespace SchedReplay

/-- What an incomplete message was meant to be. -/
inductive Subject where
  | schedule
  | execute
  | queueStatus
  | park
  | ready
  | progress
  | concurrencyWidth
  deriving DecidableEq

def Subject.text : Subject → String
  | schedule => "ScheduleEvent"
  | execute => "ExecuteEvent"
  | queueStatus => "RunqStatusEvent"
  | park => "ParkEvent"
  | ready => "ReadyEvent"
  | progress => "ProgressEvent"
  | concurrencyWidth => "ConcurrencyWidth"

inductive FieldError where
  | missing (subject : Subject) (field : String)
  | contextTooLarge (subject : Subject) (field : String) (raw : UInt64)
  | unusableWidth (raw : UInt64)
  deriving DecidableEq

namespace FieldError

/-- The field at fault, between grave accents. -/
def quoteField (field : String) : String := "\x60" ++ field ++ "\x60"

def invalid (subject : Subject) (field reason : String) : String :=
  subject.text ++ ": invalid field " ++ quoteField field ++ ": " ++ reason

def message : FieldError → String
  | missing subject field => subject.text ++ ": missing required field " ++ quoteField field
  | contextTooLarge subject field raw =>
    invalid subject field (Nat.repr raw.toNat ++ " does not fit 32 bits")
  | unusableWidth raw =>
    invalid .concurrencyWidth "count" (Nat.repr raw.toNat ++ " is not a usable context count")

end FieldError

/-- The part of the wire format whose newest kinds are not known here. -/
inductive Family where
  | probe
  | notification
  | structureState
  deriving DecidableEq

def Family.text : Family → String
  | probe => "probe"
  | notification => "notification"
  | structureState => "structure_state"

/-- What a complete probe means. -/
inductive Meaning where
  | event (event : Event)
  | unrecognized (family : Family)
  deriving DecidableEq

namespace Event

def require (subject : Subject) (field : String) (value : Option α) : Except FieldError α :=
  match value with
  | some value => .ok value
  | none => .error (.missing subject field)

def requireContext (subject : Subject) (field : String) (value : Option UInt64) :
    Except FieldError ContextId := do
  let raw ← require subject field value
  match ContextId.ofUInt64? raw with
  | some id => .ok id
  | none => .error (.contextTooLarge subject field raw)

/-- A queued or parked unit needs its number only. -/
def workUnit (subject : Subject) (path : String) (record : Wire.UnitInfo) :
    Except FieldError WorkUnit := do
  let id ← require subject (path ++ "id") record.id
  return ⟨⟨id⟩, record.entryFunctionName.getD ""⟩

def runNext (subject : Subject) (path : String) :
    Option Wire.UnitInfo → Except FieldError (Option WorkUnit)
  | none => .ok none
  | some record => (workUnit subject (path ++ "run_next.") record).map some

/-- The entries of a run queue from position `index` on. -/
def runQueue (subject : Subject) (path : String) (index : Nat) :
    List Wire.UnitInfo → Except FieldError (List WorkUnit)
  | [] => .ok []
  | record :: records => do
    let unit ← workUnit subject (path ++ s!"run_queue_entries[{index}].") record
    return unit :: (← runQueue subject path (index + 1) records)

def observation (subject : Subject) (path : String) (record : Wire.QueueStatus) :
    Except FieldError Observation := do
  let id ← requireContext subject (path ++ "context_id") record.contextId
  let next ← runNext subject path record.runNext
  let queue ← runQueue subject path 0 record.runQueueEntries
  return ⟨record.machineId.map .mk, ⟨id, next, queue⟩⟩

/-- The snapshots of an execute probe from position `index` on. -/
def snapshots (index : Nat) :
    List Wire.QueueStatus → Except FieldError (List Observation)
  | [] => .ok []
  | record :: records => do
    let first ← observation .execute s!"context_snapshots[{index}]." record
    return first :: (← snapshots (index + 1) records)

def ofSchedule (record : Wire.Schedule) : Except FieldError Schedule := do
  let machine ← require .schedule "machine_id" record.machineId
  let context ← requireContext .schedule "context_id" record.contextId
  return ⟨⟨machine⟩, context, record.reason.getD .other⟩

def ofNewContext (record : Wire.NewContext) : NewContext :=
  ⟨record.machineId.map .mk, record.creatorUnitId.map .mk, record.startLocation.bind (·.function)⟩

def ofExecute (record : Wire.Execute) : Except FieldError Execute := do
  let machine ← require .execute "machine_id" record.machineId
  let found ← require .execute "found_unit" record.foundUnit
  let id ← require .execute "found_unit.id" found.id
  let name ← require .execute "found_unit.entry_function_name" found.entryFunctionName
  let context ← requireContext .execute "context_id" record.contextId
  let observed ← snapshots 0 record.contextSnapshots
  return ⟨⟨machine⟩, context, ⟨⟨id⟩, name⟩, observed⟩

def ofPark (record : Wire.Park) : Except FieldError Park := do
  let machine ← require .park "machine_id" record.machineId
  let parked ← require .park "parked_unit" record.parkedUnit
  let unit ← workUnit .park "parked_unit." parked
  let reason ← require .park "wait_reason" record.waitReason
  return ⟨⟨machine⟩, unit, reason⟩

/-- The update of a ready probe always names its machine. -/
def ofReady (record : Wire.Ready) : Except FieldError Ready := do
  let unit ← require .ready "unit_id" record.unitId
  let update ← require .ready "context_update" record.contextUpdate
  let _ ← require .ready "context_update.machine_id" update.machineId
  let observed ← observation .ready "context_update." update
  return ⟨⟨unit⟩, observed⟩

def ofProgress (record : Wire.Progress) : Except FieldError Progress := do
  let machine ← require .progress "machine_id" record.machineId
  let unit ← require .progress "unit_id" record.unitId
  let location ← require .progress "source_location" record.sourceLocation
  let line ← require .progress "source_location.line" location.line
  return ⟨⟨machine⟩, ⟨unit⟩, line, location.file, location.function⟩

end Event

def Meaning.ofProbe : Wire.Probe → Except FieldError Meaning
  | .notification (.schedule record) => return .event (.schedule (← Event.ofSchedule record))
  | .notification (.newContext record) => return .event (.newContext (Event.ofNewContext record))
  | .notification (.park record) => return .event (.park (← Event.ofPark record))
  | .notification .unknown => return .unrecognized .notification
  | .structureState (.execute record) => return .event (.execute (← Event.ofExecute record))
  | .structureState (.queueStatus record) =>
    return .event (.queueStatus (← Event.observation .queueStatus "" record))
  | .structureState (.ready record) => return .event (.ready (← Event.ofReady record))
  | .structureState .unknown => return .unrecognized .structureState
  | .progress record => return .event (.progress (← Event.ofProgress record))
  | .unknown => return .unrecognized .probe

end SchedReplay
