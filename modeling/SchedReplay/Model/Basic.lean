import SchedReplay.Ident

/-! The scheduler's state: which machine thread owns which context, what waits on each context,
what runs on each thread, and what is parked. An entry of the thread list may lack its machine (a
context nobody claimed) or its context (a machine whose context was taken), but not both. -/
namespace SchedReplay

/-- A unit of work and the function it started in; the name may be empty. -/
structure WorkUnit where
  id : UnitId
  entryFunctionName : String
  deriving DecidableEq

structure ParkedUnit where
  unit : WorkUnit
  waitReason : String
  deriving DecidableEq

/-- A context with its run queue; `runNext` goes ahead of the queue. -/
structure Context where
  id : ContextId
  runNext : Option WorkUnit
  runQueue : List WorkUnit
  deriving DecidableEq

structure Thread where
  machine : Option MachineId
  isScheduling : Bool
  context : Option Context
  executing : Option WorkUnit
  deriving DecidableEq

/-- Threads keep their positions; parked units stand in the order they were parked. -/
structure Model where
  threads : List Thread
  parked : List ParkedUnit
  deriving DecidableEq

namespace Context

def idle (id : ContextId) : Context := ⟨id, none, []⟩

/-- The units that wait on a context, the next one first. -/
def waiting (context : Context) : List WorkUnit := context.runNext.toList ++ context.runQueue

def queued (context : Context) : Nat := context.waiting.length

end Context

namespace Thread

def ofMachine (machine : MachineId) : Thread := ⟨some machine, false, none, none⟩

def unclaimed (context : Context) : Thread := ⟨none, false, some context, none⟩

def contextId (thread : Thread) : Option ContextId := thread.context.map (·.id)

def isMachine (machine : MachineId) (thread : Thread) : Bool := thread.machine = some machine

def holds (context : ContextId) (thread : Thread) : Bool := thread.contextId = some context

/-- An entry with neither machine nor context stands for nothing. -/
def isDead (thread : Thread) : Bool := thread.machine.isNone && thread.context.isNone

end Thread

namespace Model

def empty : Model := ⟨[], []⟩

instance : Inhabited Model := ⟨empty⟩

def isEmpty (model : Model) : Bool := model.threads.isEmpty && model.parked.isEmpty

/-- The bootstrap unit, which runs before anything is known about it. -/
def bootstrap : WorkUnit := ⟨⟨0⟩, ""⟩

/-- The entry of one context at the start: machine 0 owns context 0 and runs the bootstrap unit,
all other contexts are unclaimed. -/
def seedThread : Nat → Thread
  | 0 => ⟨some ⟨0⟩, false, some (.idle ⟨0⟩), some bootstrap⟩
  | index + 1 => .unclaimed (.idle ⟨.ofNat (index + 1)⟩)

/-- The population of a run with `width` contexts. -/
def seeded (width : Nat) : Model := ⟨(List.range width).map seedThread, []⟩

def thread? (model : Model) (machine : MachineId) : Option Thread :=
  model.threads.find? (·.isMachine machine)

def owner? (model : Model) (context : ContextId) : Option Thread :=
  model.threads.find? (·.holds context)

def context? (model : Model) (context : ContextId) : Option Context :=
  (model.owner? context).bind (·.context)

def parkedUnit? (model : Model) (unit : UnitId) : Option ParkedUnit :=
  model.parked.find? (·.unit.id = unit)

end Model

end SchedReplay
