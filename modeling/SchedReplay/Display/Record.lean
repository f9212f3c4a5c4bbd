import SchedReplay.Engine.Update
import SchedReplay.Json.Writer

/-! Updates for programs: one JSON object each, with its members in a fixed order. -/
namespace SchedReplay

def MachineId.toJson (id : MachineId) : Json := .ofNat id.val.toNat

def ContextId.toJson (id : ContextId) : Json := .ofNat id.val.toNat

def UnitId.toJson (id : UnitId) : Json := .ofNat id.val.toNat

def WorkUnit.members (unit : WorkUnit) : List (String × Json) :=
  [("id", unit.id.toJson), ("entry_function_name", .str unit.entryFunctionName)]

def WorkUnit.toJson (unit : WorkUnit) : Json := .obj unit.members

/-- The members of the unit and the reason stand side by side. -/
def ParkedUnit.toJson (parked : ParkedUnit) : Json :=
  .obj (parked.unit.members ++ [("wait_reason", .str parked.waitReason)])

def Context.toJson (context : Context) : Json :=
  .obj [("id", context.id.toJson), ("run_next", Json.ofOption WorkUnit.toJson context.runNext),
    ("run_queue", Json.ofList WorkUnit.toJson context.runQueue)]

def Thread.toJson (thread : Thread) : Json :=
  .obj [("machine_id", Json.ofOption MachineId.toJson thread.machine),
    ("is_scheduling", .bool thread.isScheduling),
    ("bound_context", Json.ofOption Context.toJson thread.context),
    ("executing", Json.ofOption WorkUnit.toJson thread.executing)]

def Model.toJson (model : Model) : Json :=
  .obj [("threads", Json.ofList Thread.toJson model.threads),
    ("parked", Json.ofList ParkedUnit.toJson model.parked)]

def Changes.toJson (changes : Changes) : Json :=
  .obj [("threads", .bool changes.threads), ("parked", .bool changes.parked),
    ("machines", Json.ofList MachineId.toJson changes.machines)]

def Snapshot.members (snapshot : Snapshot) : List (String × Json) :=
  [("sequence", .ofNat snapshot.sequence), ("model", snapshot.model.toJson),
    ("changes", snapshot.changes.toJson)]

def Snapshot.toJson (snapshot : Snapshot) : Json := .obj snapshot.members

def Event.Progress.members (event : Event.Progress) : List (String × Json) :=
  [("machine", event.machine.toJson), ("unit", event.unit.toJson),
    ("line", .ofNat event.line.toNat), ("file", Json.ofOption .str event.file),
    ("function", Json.ofOption .str event.function)]

def Event.Progress.toJson (event : Event.Progress) : Json := .obj event.members

/-- The kind of an update stands first. -/
def Update.toJson : Update → Json
  | committed snapshot => .obj (("update", .str "committed") :: snapshot.members)
  | progress event => .obj (("update", .str "progress") :: event.members)
  | reset => .obj [("update", .str "reset")]

end SchedReplay
