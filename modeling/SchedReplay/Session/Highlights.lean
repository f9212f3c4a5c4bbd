import SchedReplay.Event.Basic

/-! The source line that each machine's unit reached last. Machines are kept in ascending order,
each at most once. -/
namespace SchedReplay

structure Highlight where
  unit : UnitId
  line : UInt32
  file : Option String
  deriving DecidableEq

abbrev Highlights := List (MachineId × Highlight)

namespace Highlights

def insert (machine : MachineId) (highlight : Highlight) : Highlights → Highlights
  | [] => [(machine, highlight)]
  | (first, old) :: rest =>
    if machine.val < first.val then (machine, highlight) :: (first, old) :: rest
    else if machine = first then (machine, highlight) :: rest
    else (first, old) :: insert machine highlight rest

def note (highlights : Highlights) (event : Event.Progress) : Highlights :=
  highlights.insert event.machine ⟨event.unit, event.line, event.file⟩

def get? (highlights : Highlights) (machine : MachineId) : Option Highlight :=
  highlights.lookup machine

def erase (highlights : Highlights) (machine : MachineId) : Highlights :=
  highlights.filter (·.1 ≠ machine)

/-- Adds a unit at the end of a line's group; groups stand in ascending order of their lines. -/
def addToLine (line : UInt32) (unit : UnitId) :
    List (UInt32 × List UnitId) → List (UInt32 × List UnitId)
  | [] => [(line, [unit])]
  | (first, units) :: rest =>
    if line < first then (line, [unit]) :: (first, units) :: rest
    else if line = first then (first, units ++ [unit]) :: rest
    else (first, units) :: addToLine line unit rest

/-- The units on each highlighted line, in the order of their machines. -/
def byLine (highlights : Highlights) : List (UInt32 × List UnitId) :=
  highlights.foldl (fun groups entry => addToLine entry.2.line entry.2.unit groups) []

end Highlights

end SchedReplay
