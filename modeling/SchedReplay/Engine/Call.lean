import SchedReplay.Engine.Basic

/-! Calls to an engine as data, so that whole histories can be run and spoken of. -/
namespace SchedReplay

namespace Engine

inductive Call where
  | seed (width : Option UInt64)
  | apply (probe : Wire.Probe)
  | decode (probe : Wire.Probe)
  | applyEvent (event : Event)
  | reset
  | subscribe (capacity : Nat)
  | receive (subscriber : Nat)
  | drain (subscriber : Nat)
  | drop (subscriber : Nat)
  deriving DecidableEq

inductive Reply where
  | snapshot (answer : Except EngineError Snapshot)
  | decoded (answer : Except EngineError (Option Event))
  | reset
  | subscribed (subscriber : Nat)
  | received (receipt : Option Receipt)
  | drained (updates : Option (List Update))
  | dropped (known : Bool)

def perform (engine : Engine) : Call → Reply × Engine
  | .seed width => (engine.seed width).map .snapshot id
  | .apply probe => (engine.apply probe).map .snapshot id
  | .decode probe => (engine.decode probe).map .decoded id
  | .applyEvent event => (engine.applyEvent event).map .snapshot id
  | .reset => (.reset, engine.reset)
  | .subscribe capacity => (engine.subscribe capacity).map .subscribed id
  | .receive subscriber => (engine.receive subscriber).map .received id
  | .drain subscriber => (engine.drain subscriber).map .drained id
  | .drop subscriber => (engine.drop subscriber).map .dropped id

def performAll (engine : Engine) (calls : List Call) : Engine :=
  calls.foldl (fun engine call => (engine.perform call).2) engine

end Engine

end SchedReplay
