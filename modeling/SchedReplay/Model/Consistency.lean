import SchedReplay.Model.Location

/-! Consistent models: no machine and no context stands in two entries, no entry is dead, and no
unit is in two places. The checker names the first conflict it meets, entries before units. -/
namespace SchedReplay

/-- Why an event does not fit the model. -/
inductive Violation where
  | unknownContext (context : ContextId)
  | unknownMachine (machine : MachineId)
  | unitNotParked (unit : UnitId)
  | duplicateContext (context : ContextId)
  | duplicateMachine (machine : MachineId)
  | duplicateUnit (unit : UnitId) (first second : Location)
  | deadPlaceholder (index : Nat)
  | alreadySeeded
  deriving DecidableEq

namespace Violation

def message : Violation → String
  | unknownContext context => s!"context {context.text} is not owned by any thread"
  | unknownMachine machine => s!"thread {machine.text} is not known"
  | unitNotParked unit => s!"unit {unit.text} is not parked"
  | duplicateContext context => s!"context {context.text} is bound to more than one thread"
  | duplicateMachine machine => s!"machine {machine.text} appears in more than one thread entry"
  | duplicateUnit unit first second =>
    s!"unit {unit.text} appears twice: {first.text} and {second.text}"
  | deadPlaceholder index => s!"thread entry #{index} has neither a machine nor a context"
  | alreadySeeded => "initial population was already seeded for this run"

end Violation

/-- The first conflict among entries that start at position `index`, given the machines and
contexts of the entries before them. -/
def threadConflict? (index : Nat) (machines : List MachineId) (contexts : List ContextId) :
    List Thread → Option Violation
  | [] => none
  | thread :: threads =>
    if thread.isDead then some (.deadPlaceholder index)
    else
      match thread.machine.filter (· ∈ machines), thread.contextId.filter (· ∈ contexts) with
      | some machine, _ => some (.duplicateMachine machine)
      | none, some context => some (.duplicateContext context)
      | none, none =>
        threadConflict? (index + 1) (thread.machine.toList ++ machines)
          (thread.contextId.toList ++ contexts) threads

/-- The first placement of a unit that `seen` or an earlier placement holds already. -/
def unitConflict? (seen : List Placement) : List Placement → Option Violation
  | [] => none
  | (unit, location) :: placements =>
    match seen.lookup unit with
    | some first => some (.duplicateUnit unit first location)
    | none => unitConflict? ((unit, location) :: seen) placements

namespace Model

def conflict? (model : Model) : Option Violation :=
  match threadConflict? 0 [] [] model.threads with
  | some violation => some violation
  | none => unitConflict? [] model.placements

def verify (model : Model) : Except Violation Unit :=
  match model.conflict? with
  | some violation => .error violation
  | none => .ok ()

end Model

end SchedReplay
