import SchedReplay.Model.Handoff

/-! Decisions: lists of changes that take effect together or not at all. The changes are made one
after the other on a copy of the model, and the copy has to be consistent in the end. -/
namespace SchedReplay

inductive Delta where
  | scheduling (machine : MachineId) (isScheduling : Bool)
  | executing (machine : MachineId) (unit : Option WorkUnit)
  | bind (machine : MachineId) (context : ContextId)
  | contextState (machine : Option MachineId) (context : Context)
  | parkedAdded (unit : ParkedUnit)
  | parkedRemoved (unit : UnitId)
  deriving DecidableEq

def Delta.machine : Delta → Option MachineId
  | scheduling machine _ => some machine
  | executing machine _ => some machine
  | bind machine _ => some machine
  | contextState machine _ => machine
  | parkedAdded _ => none
  | parkedRemoved _ => none

/-- Whether a change concerns the parked units; all others concern the threads. -/
def Delta.isParking : Delta → Bool
  | parkedAdded _ => true
  | parkedRemoved _ => true
  | _ => false

abbrev Decision := List Delta

/-- What a decision changed; its machines are ascending. -/
structure Changes where
  threads : Bool
  parked : Bool
  machines : List MachineId
  deriving DecidableEq

/-- Puts a machine into an ascending list, unless it is there. -/
def insertMachine (machine : MachineId) : List MachineId → List MachineId
  | [] => [machine]
  | first :: rest =>
    if machine.val < first.val then machine :: first :: rest
    else if machine = first then first :: rest
    else first :: insertMachine machine rest

theorem mem_insertMachine {machine other : MachineId} {machines : List MachineId} :
    other ∈ insertMachine machine machines ↔ other = machine ∨ other ∈ machines := by
  induction machines with
  | nil => simp [insertMachine]
  | cons first rest ih =>
    simp only [insertMachine]
    split
    · simp
    · split
      · next same => subst same; simp
      · simp [ih, or_left_comm]

namespace Changes

def empty : Changes := ⟨false, false, []⟩

def isEmpty (changes : Changes) : Bool := !changes.threads && !changes.parked

def record (changes : Changes) (delta : Delta) : Changes where
  threads := changes.threads || !delta.isParking
  parked := changes.parked || delta.isParking
  machines :=
    match delta.machine with
    | none => changes.machines
    | some machine => insertMachine machine changes.machines

def ofDecision (decision : Decision) : Changes := decision.foldl record empty

end Changes

/-- Changes the entry of a machine that must have one. -/
def updateMachine (machine : MachineId) (change : Thread → Thread) (threads : List Thread) :
    Except Violation (List Thread) :=
  if threads.any (·.isMachine machine) then .ok (updateFirst (·.isMachine machine) change threads)
  else .error (.unknownMachine machine)

namespace Model

/-- One change, without a look at the consistency of the result. -/
def stage (model : Model) : Delta → Except Violation Model
  | .scheduling machine isScheduling =>
    (updateMachine machine (fun thread => { thread with isScheduling }) model.threads).map
      ({ model with threads := · })
  | .executing machine unit =>
    (updateMachine machine (fun thread => { thread with executing := unit }) model.threads).map
      ({ model with threads := · })
  | .bind machine context =>
    (handOver model.threads machine context none).map ({ model with threads := · })
  | .contextState (some machine) context =>
    (handOver model.threads machine context.id (some context)).map ({ model with threads := · })
  | .contextState none context =>
    (disown model.threads context.id context).map ({ model with threads := · })
  | .parkedAdded unit => .ok { model with parked := model.parked ++ [unit] }
  | .parkedRemoved unit =>
    if model.parked.any (·.unit.id = unit) then
      .ok { model with parked := model.parked.eraseP (·.unit.id = unit) }
    else .error (.unitNotParked unit)

/-- All changes in order, without a look at the consistency of the result. -/
def stageAll (model : Model) (decision : Decision) : Except Violation Model :=
  decision.foldlM stage model

/-- The consistent model that a decision leads to, and what changed. -/
def commit (model : Model) (decision : Decision) : Except Violation (Model × Changes) := do
  let staged ← model.stageAll decision
  staged.verify
  return (staged, .ofDecision decision)

end Model

end SchedReplay
