import SchedReplay.Decision.Effect

/-! What an engine tells its subscribers. -/
namespace SchedReplay

/-- The model after a committed decision; number 0 is the model of a run before its first. -/
structure Snapshot where
  sequence : Nat
  model : Model
  changes : Changes
  deriving DecidableEq

def Snapshot.start (model : Model) : Snapshot := ⟨0, model, .empty⟩

inductive Update where
  | committed (snapshot : Snapshot)
  | progress (event : Event.Progress)
  | reset
  deriving DecidableEq

end SchedReplay
