import SchedReplay.Model.Consistency

/-! Handing contexts from thread to thread. A machine that takes a context gives up the one it
had, which stays behind as an unclaimed entry. Entries change in place, new ones are appended, and
only dead ones are removed. -/
namespace SchedReplay

def updateFirst (p : α → Bool) (f : α → α) : List α → List α
  | [] => []
  | a :: rest => if p a then f a :: rest else a :: updateFirst p f rest

namespace Thread

def vacate (thread : Thread) : Thread := { thread with context := none }

def hold (context : Context) (thread : Thread) : Thread := { thread with context := some context }

end Thread

/-- The context with a given number, as the first entry that holds it has it. -/
def heldContext? (threads : List Thread) (context : ContextId) : Option Context :=
  (threads.find? (·.holds context)).bind (·.context)

def dropDead (threads : List Thread) : List Thread := threads.filter (!·.isDead)

/-- The threads with an entry for `machine`, a new one at the end if it has none. -/
def withMachine (machine : MachineId) (threads : List Thread) : List Thread :=
  if threads.any (·.isMachine machine) then threads else threads ++ [.ofMachine machine]

/-- Gives `context` to `machine`, with `replacement` as its new state or else as it is. -/
def handOver (threads : List Thread) (machine : MachineId) (context : ContextId)
    (replacement : Option Context) : Except Violation (List Thread) :=
  match heldContext? threads context with
  | none => .error (.unknownContext context)
  | some held =>
    let free := updateFirst (·.holds context) .vacate (withMachine machine threads)
    let displaced := (free.find? (·.isMachine machine)).bind (·.context)
    let taken := updateFirst (·.isMachine machine) (.hold (replacement.getD held)) free
    .ok (dropDead (taken ++ displaced.toList.map .unclaimed))

/-- Takes `context` from the machine that owns it and leaves it unclaimed in the given state; an
unclaimed entry is updated where it stands. -/
def disown (threads : List Thread) (context : ContextId) (state : Context) :
    Except Violation (List Thread) :=
  match threads.find? (·.holds context) with
  | none => .error (.unknownContext context)
  | some owner =>
    if owner.machine.isNone then .ok (updateFirst (·.holds context) (.hold state) threads)
    else .ok (dropDead (updateFirst (·.holds context) .vacate threads ++ [.unclaimed state]))

end SchedReplay
