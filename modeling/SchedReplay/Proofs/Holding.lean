import SchedReplay.Proofs.Status

/-! Who holds each context, and what else the entries of unclaimed contexts say. A decision acts on
this as a fold over its changes, however long its chains of handovers are. -/
namespace SchedReplay

/-- The holder of a context: a machine, or nobody, with what else the entry says. -/
inductive Holder where
  | machine (machine : MachineId)
  | nobody (status : Status)
  deriving DecidableEq

def Holder.left : Holder → Holder
  | machine _ => nobody .idle
  | nobody status => nobody status

def Thread.holder (thread : Thread) : Holder :=
  match thread.machine with
  | some machine => .machine machine
  | none => .nobody thread.status

/-- The holder of each context; none for a context that is not bound. -/
abbrev Holding := ContextId → Option Holder

namespace Holding

/-- The machine leaves all other contexts and takes this one. -/
def claim (holding : Holding) (machine : MachineId) (context : ContextId) : Holding := fun other =>
  if other = context then some (.machine machine)
  else if holding other = some (.machine machine) then some (.nobody .idle)
  else holding other

def release (holding : Holding) (context : ContextId) : Holding := fun other =>
  if other = context then some (((holding other).map Holder.left).getD (.nobody .idle))
  else holding other

def after (holding : Holding) : Delta → Holding
  | .bind machine context => holding.claim machine context
  | .contextState (some machine) state => holding.claim machine state.id
  | .contextState none state => holding.release state.id
  | .scheduling _ _ | .executing _ _ | .parkedAdded _ | .parkedRemoved _ => holding

end Holding

section Threads

variable {threads : List Thread} {thread : Thread} {machine : MachineId}

theorem Thread.holder_eq_machine_iff :
    thread.holder = .machine machine ↔ thread.machine = some machine := by
  unfold holder
  split <;> simp [*]

theorem Thread.holder_eq_nobody_iff {status : Status} :
    thread.holder = .nobody status ↔ thread.machine = none ∧ thread.status = status := by
  unfold holder
  split <;> simp [*]

theorem Thread.holder_of_machine (is : thread.machine = some machine) :
    thread.holder = .machine machine := holder_eq_machine_iff.mpr is

@[simp] theorem Thread.holder_orphan (thread : Thread) : thread.orphan.holder = .nobody .idle := rfl

theorem Thread.holder_released (state : Context) (owner : Thread) :
    (owner.released state).holder = owner.holder.left := by
  unfold released holder
  cases is : owner.machine with
  | none => simp [is, hold, Holder.left, status]
  | some machine => simp [unclaimed, Holder.left, status, Status.idle]

/-- What a machine does or runs has no part in what its entry holds. -/
theorem find?_holds_updateMachine {change : Thread → Thread}
    (keeps : ∀ thread, (change thread).context = thread.context) (bound : WellBound threads)
    (context : ContextId) :
    (updateFirst (·.isMachine machine) change threads).find? (·.holds context) =
      (threads.find? (·.holds context)).map fun thread =>
        if thread.machine = some machine then change thread else thread := by
  refine (congrArg _ (updateFirst_eq_map bound.machines machine change)).trans ?_
  rw [List.find?_map]
  congr 2
  funext thread
  simp only [Function.comp_apply, Thread.holds, Thread.contextId]
  split <;> simp [keeps]

end Threads

namespace Model

def holding (model : Model) : Holding := fun context => (model.owner? context).map Thread.holder

variable {model next other : Model} {delta : Delta} {decision : Decision}

theorem holding_handedOver (bound : WellBound model.threads) (machine : MachineId)
    {state : Context} (known : state.id ∈ contextIds model.threads) :
    { model with threads := handedOver model.threads machine state }.holding =
      model.holding.claim machine state.id := by
  funext context
  simp only [holding, owner?, find?_holds_handedOver bound known, Holding.claim]
  split
  · simp [Thread.holder_of_machine]
  · rcases (model.threads.find? (·.holds context)).eq_none_or_eq_some with missing | ⟨thread, found⟩
    · simp [missing]
    · by_cases is : thread.machine = some machine <;> simp [found, is, Thread.holder_eq_machine_iff]

theorem holding_disowned (bound : WellBound model.threads) {state : Context}
    (known : state.id ∈ contextIds model.threads) :
    { model with threads := disowned model.threads state }.holding =
      model.holding.release state.id := by
  obtain ⟨owner, found⟩ := exists_holder known
  funext context
  simp only [holding, owner?, find?_holds_disowned bound known, Holding.release]
  split
  · next this => simp [this, found, Thread.holder_released]
  · simp

theorem Staged.holding (staged : model.Staged delta next) (bound : WellBound model.threads) :
    next.holding = model.holding.after delta := by
  have status {machine : MachineId} {change : Thread → Thread}
      (owner : ∀ thread, (change thread).machine = thread.machine)
      (context : ∀ thread, (change thread).context = thread.context) :
      { model with threads := updateFirst (·.isMachine machine) change model.threads }.holding =
        model.holding := by
    funext id
    simp only [Model.holding, owner?, find?_holds_updateMachine context bound]
    cases model.threads.find? (·.holds id) with
    | none => rfl
    | some thread =>
      by_cases is : thread.machine = some machine
      · simp [is, Thread.holder_of_machine is, Thread.holder_of_machine ((owner thread).trans is)]
      · simp [is]
  cases staged with
  | scheduling => exact status (fun _ => rfl) (fun _ => rfl)
  | executing => exact status (fun _ => rfl) (fun _ => rfl)
  | bind machine context held found =>
    rw [holding_handedOver bound machine (mem_of_heldContext? found), id_of_heldContext? found]
    rfl
  | taken machine state known => exact holding_handedOver bound machine known
  | left state known => exact holding_disowned bound known
  | parkedAdded => rfl
  | parkedRemoved => rfl

theorem stageAll_holding (bound : WellBound model.threads)
    (staged : model.stageAll decision = .ok next) :
    next.holding = decision.foldl Holding.after model.holding :=
  stageAll_eq_foldl holding Holding.after (fun _ _ _ bound first => first.holding bound) bound staged

end Model

end SchedReplay
