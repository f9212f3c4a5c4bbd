import SchedReplay.Engine.Update

/-! Models for people: one line for each thread entry and one for the parked units. -/
namespace SchedReplay

/-- Stands for a machine or a context that is not there. -/
def placeholder : String := "--"

/-- A unit and its name, if it has one. -/
def WorkUnit.render (unit : WorkUnit) : String :=
  if unit.entryFunctionName.isEmpty then unit.id.text
  else unit.id.text ++ " " ++ unit.entryFunctionName

def Context.render (context : Context) : String :=
  context.id.text ++
    (match context.runNext with
     | none => ""
     | some next => " next=" ++ next.id.text) ++
    (if context.runQueue.isEmpty then ""
     else " runq=" ++ ",".intercalate (context.runQueue.map (·.id.text)))

/-- What a thread does: it runs a unit, or looks for one, or neither. -/
def Thread.renderStatus (thread : Thread) : String :=
  match thread.executing with
  | some unit => " exec=" ++ unit.render
  | none => if thread.isScheduling then " scheduling" else ""

def Thread.render (thread : Thread) : String :=
  (match thread.machine with
   | none => placeholder
   | some machine => machine.text) ++
    " [" ++
    (match thread.context with
     | none => placeholder
     | some context => context.render) ++
    "]" ++ thread.renderStatus

def ParkedUnit.render (parked : ParkedUnit) : String :=
  parked.unit.render ++ " (" ++ parked.waitReason ++ ")"

def Model.render (model : Model) : String :=
  String.join (model.threads.map fun thread => "  " ++ thread.render ++ "\n") ++
    "  parked: " ++
    (if model.parked.isEmpty then "-"
     else ", ".intercalate (model.parked.map ParkedUnit.render))

/-- The number of a snapshot, the machines its decision named, and its model. -/
def Snapshot.render (snapshot : Snapshot) : String :=
  "#" ++ Nat.repr snapshot.sequence ++
    (if snapshot.changes.machines.isEmpty then ""
     else " " ++ ",".intercalate (snapshot.changes.machines.map MachineId.text)) ++
    "\n" ++ snapshot.model.render

end SchedReplay
