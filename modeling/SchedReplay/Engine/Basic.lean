import SchedReplay.Engine.Hub
import SchedReplay.Engine.Reconstruction

/-! The engine: a reconstruction and the subscribers that hear of it. -/
namespace SchedReplay

structure Engine where
  run : Reconstruction
  hub : Hub
  deriving DecidableEq

structure Stats where
  committed : Nat
  newContexts : Nat
  progress : Nat
  unrecognized : Nat
  droppedUpdates : Nat
  deriving DecidableEq

namespace Engine

def new : Engine := ⟨.fresh, .new⟩

/-- An engine that goes on from a consistent model. -/
def ofModel (model : Model) : Except Violation Engine := do
  model.verify
  return ⟨.start model, .new⟩

def snapshot (engine : Engine) : Snapshot := engine.run.snapshot

def model (engine : Engine) : Model := engine.snapshot.model

def isCorrupted (engine : Engine) : Bool := engine.run.corrupted

def stats (engine : Engine) : Stats :=
  let counts := engine.run.counts
  ⟨counts.committed, counts.newContexts, counts.progress, counts.unrecognized, engine.hub.dropped⟩

/-- Takes over a step of the reconstruction and publishes its update. -/
def publishing (engine : Engine) (step : Reconstruction.Step α) : Except EngineError α × Engine :=
  (step.answer, ⟨step.state, engine.hub.publish? step.update⟩)

def seed (engine : Engine) (width : Option UInt64) : Except EngineError Snapshot × Engine :=
  engine.publishing (engine.run.seed width)

def decode (engine : Engine) (probe : Wire.Probe) : Except EngineError (Option Event) × Engine :=
  engine.publishing (engine.run.decode probe)

def applyEvent (engine : Engine) (event : Event) : Except EngineError Snapshot × Engine :=
  engine.publishing (engine.run.applyEvent event)

def apply (engine : Engine) (probe : Wire.Probe) : Except EngineError Snapshot × Engine :=
  engine.publishing (engine.run.apply probe)

/-- Starts a new run; the subscribers stay and are told. -/
def reset (engine : Engine) : Engine := ⟨.fresh, engine.hub.restart.publish .reset⟩

def subscribe (engine : Engine) (capacity : Nat) : Nat × Engine :=
  let (subscriber, hub) := engine.hub.subscribe capacity
  (subscriber, { engine with hub })

def receive (engine : Engine) (subscriber : Nat) : Option Receipt × Engine :=
  let (receipt, hub) := engine.hub.receive subscriber
  (receipt, { engine with hub })

def drain (engine : Engine) (subscriber : Nat) : Option (List Update) × Engine :=
  let (updates, hub) := engine.hub.drain subscriber
  (updates, { engine with hub })

def drop (engine : Engine) (subscriber : Nat) : Bool × Engine :=
  let (known, hub) := engine.hub.drop subscriber
  (known, { engine with hub })

end Engine

end SchedReplay
