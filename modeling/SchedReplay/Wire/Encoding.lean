import SchedReplay.Json.Writer
import SchedReplay.Wire.Fields
import SchedReplay.Wire.Message

/-! Wire messages as JSON: every field is written, an absent one as `null`, and the tag of a tagged
value stands first. -/
namespace SchedReplay.Wire

def ofUInt64 (value : UInt64) : Json := .ofNat value.toNat

def ofUInt32 (value : UInt32) : Json := .ofNat value.toNat

def ofId (value : Option UInt64) : Json := Json.ofOption ofUInt64 value

def ofText (value : Option String) : Json := Json.ofOption .str value

def Request.toJson (request : Request) : Json :=
  .obj [("source", .str request.source), ("runtime_version", .str request.runtimeVersion)]

def Reason.text : Reason → String
  | mstart => "MSTART"
  | gopark => "GOPARK"
  | goexit => "GOEXIT"
  | other => "OTHER"

def Reason.toJson (reason : Reason) : Json := .str reason.text

def Location.toJson (location : Location) : Json :=
  .obj [("file", ofText location.file), ("line", Json.ofOption ofUInt32 location.line),
    ("function", ofText location.function)]

def UnitInfo.toJson (record : UnitInfo) : Json :=
  .obj [("id", ofId record.id), ("entry_function_name", ofText record.entryFunctionName)]

def Schedule.members (record : Schedule) : List (String × Json) :=
  [("machine_id", ofId record.machineId), ("context_id", ofId record.contextId),
    ("reason", Json.ofOption Reason.toJson record.reason)]

def NewContext.members (record : NewContext) : List (String × Json) :=
  [("machine_id", ofId record.machineId), ("creator_unit_id", ofId record.creatorUnitId),
    ("start_location", Json.ofOption Location.toJson record.startLocation)]

def Park.members (record : Park) : List (String × Json) :=
  [("machine_id", ofId record.machineId),
    ("parked_unit", Json.ofOption UnitInfo.toJson record.parkedUnit),
    ("wait_reason", ofText record.waitReason)]

def QueueStatus.members (record : QueueStatus) : List (String × Json) :=
  [("context_id", ofId record.contextId), ("machine_id", ofId record.machineId),
    ("run_next", Json.ofOption UnitInfo.toJson record.runNext),
    ("run_queue_entries", Json.ofList UnitInfo.toJson record.runQueueEntries)]

def QueueStatus.toJson (record : QueueStatus) : Json := .obj record.members

def Execute.members (record : Execute) : List (String × Json) :=
  [("machine_id", ofId record.machineId), ("context_id", ofId record.contextId),
    ("found_unit", Json.ofOption UnitInfo.toJson record.foundUnit),
    ("context_snapshots", Json.ofList QueueStatus.toJson record.contextSnapshots)]

def Ready.members (record : Ready) : List (String × Json) :=
  [("unit_id", ofId record.unitId),
    ("context_update", Json.ofOption QueueStatus.toJson record.contextUpdate)]

def Progress.members (record : Progress) : List (String × Json) :=
  [("machine_id", ofId record.machineId), ("unit_id", ofId record.unitId),
    ("source_location", Json.ofOption Location.toJson record.sourceLocation)]

def Schedule.toJson (record : Schedule) : Json := .obj record.members

def NewContext.toJson (record : NewContext) : Json := .obj record.members

def Park.toJson (record : Park) : Json := .obj record.members

def Execute.toJson (record : Execute) : Json := .obj record.members

def Ready.toJson (record : Ready) : Json := .obj record.members

def Progress.toJson (record : Progress) : Json := .obj record.members

def Notification.toJson : Notification → Json
  | schedule record => tag "kind" "schedule" record.members
  | newContext record => tag "kind" "new_context" record.members
  | park record => tag "kind" "park" record.members
  | unknown => tag "kind" unknownName []

def StructureState.toJson : StructureState → Json
  | execute record => tag "kind" "execute" record.members
  | queueStatus record => tag "kind" "runq_status" record.members
  | ready record => tag "kind" "ready" record.members
  | unknown => tag "kind" unknownName []

def Probe.toJson : Probe → Json
  | notification event => tag "category" "notification" [("event", event.toJson)]
  | structureState event => tag "category" "structure_state" [("event", event.toJson)]
  | progress record => tag "category" "progress" record.members
  | unknown => tag "category" unknownName []

def Message.toJson : Message → Json
  | compilationError message => tag "type" "compilation_error" [("message", ofText message)]
  | runtimeResult errorMessage =>
    tag "type" "runtime_result" [("error_message", ofText errorMessage)]
  | runtimeOutput chunk => tag "type" "runtime_output" [("chunk", .str chunk)]
  | concurrencyWidth count => tag "type" "concurrency_width" [("count", ofId count)]
  | runEvent event => tag "type" "run_event" [("event", event.toJson)]
  | unknown => tag "type" unknownName []

end SchedReplay.Wire
