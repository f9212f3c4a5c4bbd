import SchedReplay.Model.Basic

/-! Where units are. A model lists every place that holds a unit in one fixed order: the threads in
turn, each with its running unit, the next one and the queue, and then the parked units. -/
namespace SchedReplay

inductive Location where
  | executing (thread : Nat)
  | runNext (context : ContextId)
  | runQueue (context : ContextId)
  | parked
  deriving DecidableEq

namespace Location

def text : Location → String
  | executing thread => s!"executing on thread #{thread}"
  | runNext context => "runnext of " ++ context.text
  | runQueue context => "run queue of " ++ context.text
  | parked => "parked registry"

end Location

abbrev Placement := UnitId × Location

def Context.placements (context : Context) : List Placement :=
  context.runNext.toList.map (fun unit => (unit.id, .runNext context.id)) ++
    context.runQueue.map (fun unit => (unit.id, .runQueue context.id))

def Thread.placements (index : Nat) (thread : Thread) : List Placement :=
  thread.executing.toList.map (fun unit => (unit.id, .executing index)) ++
    thread.context.toList.flatMap Context.placements

/-- The placements of entries that start at position `index`. -/
def threadPlacements (index : Nat) : List Thread → List Placement
  | [] => []
  | thread :: threads => thread.placements index ++ threadPlacements (index + 1) threads

def ParkedUnit.placement (parked : ParkedUnit) : Placement := (parked.unit.id, .parked)

def Model.placements (model : Model) : List Placement :=
  threadPlacements 0 model.threads ++ model.parked.map ParkedUnit.placement

end SchedReplay
