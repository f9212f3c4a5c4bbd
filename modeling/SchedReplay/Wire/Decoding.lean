import SchedReplay.Wire.Message
import SchedReplay.Wire.Shape

/-! Wire messages out of JSON. Decoding is lenient about what a newer sender adds: fields with
unknown names are skipped and unknown tags give the unknown variant. It is strict about the shape
of everything that is known. -/
namespace SchedReplay.Wire

def Request.ofJson? (value : Json) : Option Request := do
  let field ← fields? ["source", "runtime_version"] value
  return {
    source := ← required string? (field "source")
    runtimeVersion := ← required string? (field "runtime_version") }

def Reason.ofName : String → Reason
  | "MSTART" => .mstart
  | "GOPARK" => .gopark
  | "GOEXIT" => .goexit
  | _ => .other

/-- A reason is a name, or an object with that name and nothing in it: `null`, and inside a tagged
value an empty object as well. -/
def Reason.ofJson? (place : Place) : Json → Option Reason
  | .str name => some (ofName name)
  | .obj [(name, .null)] => some (ofName name)
  | .obj [(name, .obj [])] => if place = .nested then some (ofName name) else none
  | _ => none

def Location.ofJson? (value : Json) : Option Location := do
  let field ← fields? ["file", "line", "function"] value
  return {
    file := ← optional string? (field "file")
    line := ← optional uint32? (field "line")
    function := ← optional string? (field "function") }

def UnitInfo.ofJson? (value : Json) : Option UnitInfo := do
  let field ← fields? ["id", "entry_function_name"] value
  return {
    id := ← optional uint64? (field "id")
    entryFunctionName := ← optional string? (field "entry_function_name") }

def Schedule.ofJson? (place : Place) (value : Json) : Option Schedule := do
  let field ← fields? ["machine_id", "context_id", "reason"] value
  return {
    machineId := ← optional uint64? (field "machine_id")
    contextId := ← optional uint64? (field "context_id")
    reason := ← optional (Reason.ofJson? place) (field "reason") }

def NewContext.ofJson? (value : Json) : Option NewContext := do
  let field ← fields? ["machine_id", "creator_unit_id", "start_location"] value
  return {
    machineId := ← optional uint64? (field "machine_id")
    creatorUnitId := ← optional uint64? (field "creator_unit_id")
    startLocation := ← optional Location.ofJson? (field "start_location") }

def Park.ofJson? (value : Json) : Option Park := do
  let field ← fields? ["machine_id", "parked_unit", "wait_reason"] value
  return {
    machineId := ← optional uint64? (field "machine_id")
    parkedUnit := ← optional UnitInfo.ofJson? (field "parked_unit")
    waitReason := ← optional string? (field "wait_reason") }

def QueueStatus.ofJson? (value : Json) : Option QueueStatus := do
  let field ← fields? ["context_id", "machine_id", "run_next", "run_queue_entries"] value
  return {
    contextId := ← optional uint64? (field "context_id")
    machineId := ← optional uint64? (field "machine_id")
    runNext := ← optional UnitInfo.ofJson? (field "run_next")
    runQueueEntries := ← defaulted [] (list? UnitInfo.ofJson?) (field "run_queue_entries") }

def Execute.ofJson? (value : Json) : Option Execute := do
  let field ← fields? ["machine_id", "context_id", "found_unit", "context_snapshots"] value
  return {
    machineId := ← optional uint64? (field "machine_id")
    contextId := ← optional uint64? (field "context_id")
    foundUnit := ← optional UnitInfo.ofJson? (field "found_unit")
    contextSnapshots := ← defaulted [] (list? QueueStatus.ofJson?) (field "context_snapshots") }

def Ready.ofJson? (value : Json) : Option Ready := do
  let field ← fields? ["unit_id", "context_update"] value
  return {
    unitId := ← optional uint64? (field "unit_id")
    contextUpdate := ← optional QueueStatus.ofJson? (field "context_update") }

def Progress.ofJson? (value : Json) : Option Progress := do
  let field ← fields? ["machine_id", "unit_id", "source_location"] value
  return {
    machineId := ← optional uint64? (field "machine_id")
    unitId := ← optional uint64? (field "unit_id")
    sourceLocation := ← optional Location.ofJson? (field "source_location") }

def Notification.ofJson? (place : Place) (value : Json) : Option Notification := do
  let (name, body) ← tagged? place "kind" ["schedule", "new_context", "park"] value
  match name with
  | "schedule" => return .schedule (← Schedule.ofJson? .nested body)
  | "new_context" => return .newContext (← NewContext.ofJson? body)
  | "park" => return .park (← Park.ofJson? body)
  | _ => unknown? .unknown body

def StructureState.ofJson? (place : Place) (value : Json) : Option StructureState := do
  let (name, body) ← tagged? place "kind" ["execute", "runq_status", "ready"] value
  match name with
  | "execute" => return .execute (← Execute.ofJson? body)
  | "runq_status" => return .queueStatus (← QueueStatus.ofJson? body)
  | "ready" => return .ready (← Ready.ofJson? body)
  | _ => unknown? .unknown body

def Probe.ofJson? (place : Place) (value : Json) : Option Probe := do
  let (name, body) ← tagged? place "category" ["notification", "structure_state", "progress"] value
  match name with
  | "notification" =>
    let field ← fields? ["event"] body
    return .notification (← required (Notification.ofJson? .nested) (field "event"))
  | "structure_state" =>
    let field ← fields? ["event"] body
    return .structureState (← required (StructureState.ofJson? .nested) (field "event"))
  | "progress" => return .progress (← Progress.ofJson? body)
  | _ => unknown? .unknown body

def Message.ofJson? (value : Json) : Option Message := do
  let (name, body) ← tagged? .outermost "type" [] value
  match name with
  | "compilation_error" =>
    let field ← fields? ["message"] body
    return .compilationError (← optional string? (field "message"))
  | "runtime_result" =>
    let field ← fields? ["error_message"] body
    return .runtimeResult (← optional string? (field "error_message"))
  | "runtime_output" =>
    let field ← fields? ["chunk"] body
    return .runtimeOutput (← defaulted "" string? (field "chunk"))
  | "concurrency_width" =>
    let field ← fields? ["count"] body
    return .concurrencyWidth (← optional uint64? (field "count"))
  | "run_event" =>
    let field ← fields? ["event"] body
    return .runEvent (← required (Probe.ofJson? .nested) (field "event"))
  | _ => unknown? .unknown body

/-! ### Texts -/

def Request.shape : Shape := .record [("source", .text), ("runtime_version", .text)]

def Location.shape : Shape :=
  .record [("file", .optional .text), ("line", .optional .uint32), ("function", .optional .text)]

def UnitInfo.shape : Shape :=
  .record [("id", .optional .uint64), ("entry_function_name", .optional .text)]

def Schedule.shape : Shape :=
  .record [("machine_id", .optional .uint64), ("context_id", .optional .uint64),
    ("reason", .optional .name)]

def NewContext.shape : Shape :=
  .record [("machine_id", .optional .uint64), ("creator_unit_id", .optional .uint64),
    ("start_location", .optional Location.shape)]

def Park.shape : Shape :=
  .record [("machine_id", .optional .uint64), ("parked_unit", .optional UnitInfo.shape),
    ("wait_reason", .optional .text)]

def QueueStatus.shape : Shape :=
  .record [("context_id", .optional .uint64), ("machine_id", .optional .uint64),
    ("run_next", .optional UnitInfo.shape), ("run_queue_entries", .list UnitInfo.shape)]

def Execute.shape : Shape :=
  .record [("machine_id", .optional .uint64), ("context_id", .optional .uint64),
    ("found_unit", .optional UnitInfo.shape), ("context_snapshots", .list QueueStatus.shape)]

def Ready.shape : Shape :=
  .record [("unit_id", .optional .uint64), ("context_update", .optional QueueStatus.shape)]

def Progress.shape : Shape :=
  .record [("machine_id", .optional .uint64), ("unit_id", .optional .uint64),
    ("source_location", .optional Location.shape)]

/-- Decodes a text that holds one value of a shape. A wrong shape is reported before anything that
follows the value. -/
def decode (shape : Shape) (ofJson? : Json → Option α) (text : String) :
    Except Json.Fault α := do
  let chars := text.toList
  let (value, rest) ← shape chars.length chars
  match ofJson? value with
  | none => .error .unexpected
  | some message =>
    Json.expectEnd rest
    return message

def Request.decode : String → Except Json.Fault Request := Wire.decode shape ofJson?

def Reason.decode : String → Except Json.Fault Reason := Wire.decode .name (ofJson? .outermost)

def Location.decode : String → Except Json.Fault Location := Wire.decode shape ofJson?

def UnitInfo.decode : String → Except Json.Fault UnitInfo := Wire.decode shape ofJson?

def Schedule.decode : String → Except Json.Fault Schedule :=
  Wire.decode shape (ofJson? .outermost)

def NewContext.decode : String → Except Json.Fault NewContext := Wire.decode shape ofJson?

def Park.decode : String → Except Json.Fault Park := Wire.decode shape ofJson?

def QueueStatus.decode : String → Except Json.Fault QueueStatus := Wire.decode shape ofJson?

def Execute.decode : String → Except Json.Fault Execute := Wire.decode shape ofJson?

def Ready.decode : String → Except Json.Fault Ready := Wire.decode shape ofJson?

def Progress.decode : String → Except Json.Fault Progress := Wire.decode shape ofJson?

def Notification.decode : String → Except Json.Fault Notification :=
  Wire.decode (.tagged "kind") (ofJson? .outermost)

def StructureState.decode : String → Except Json.Fault StructureState :=
  Wire.decode (.tagged "kind") (ofJson? .outermost)

def Probe.decode : String → Except Json.Fault Probe :=
  Wire.decode (.tagged "category") (ofJson? .outermost)

def Message.decode : String → Except Json.Fault Message := Wire.decode (.tagged "type") ofJson?

end SchedReplay.Wire
