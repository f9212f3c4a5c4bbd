import SchedReplay.Event.Basic

/-! Events counted by kind. -/
namespace SchedReplay

structure Tally where
  execute : Nat
  newContext : Nat
  park : Nat
  progress : Nat
  ready : Nat
  queueStatus : Nat
  schedule : Nat
  deriving DecidableEq

namespace Tally

def zero : Tally := ⟨0, 0, 0, 0, 0, 0, 0⟩

def count (tally : Tally) : Event.Kind → Nat
  | .execute => tally.execute
  | .newContext => tally.newContext
  | .park => tally.park
  | .progress => tally.progress
  | .ready => tally.ready
  | .queueStatus => tally.queueStatus
  | .schedule => tally.schedule

def add (tally : Tally) : Event.Kind → Tally
  | .execute => { tally with execute := tally.execute + 1 }
  | .newContext => { tally with newContext := tally.newContext + 1 }
  | .park => { tally with park := tally.park + 1 }
  | .progress => { tally with progress := tally.progress + 1 }
  | .ready => { tally with ready := tally.ready + 1 }
  | .queueStatus => { tally with queueStatus := tally.queueStatus + 1 }
  | .schedule => { tally with schedule := tally.schedule + 1 }

theorem count_add (tally : Tally) (added kind : Event.Kind) :
    (tally.add added).count kind = tally.count kind + if kind = added then 1 else 0 := by
  cases added <;> cases kind <;> rfl

/-- The kinds that occurred, in the order of their names, and how often. -/
def entries (tally : Tally) : List (Event.Kind × Nat) :=
  (Event.Kind.all.map fun kind => (kind, tally.count kind)).filter (·.2 ≠ 0)

end Tally

end SchedReplay
