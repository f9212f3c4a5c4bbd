import SchedReplay.Decision.Effect
import SchedReplay.Proofs.Staging

/-! What each machine does. Contexts may change hands around a machine as they like: only a change
that names the machine says anew whether it schedules and what it runs. -/
namespace SchedReplay

/-- What the last entry of a history that can be read at all reads as. -/
def latest? (read : α → Option β) (history : List α) : Option β :=
  history.reverse.findSome? read

section Latest

variable (read : α → Option β)

@[simp] theorem latest?_singleton (entry : α) : latest? read [entry] = read entry := by
  simp [latest?]

theorem latest?_append (earlier later : List α) :
    latest? read (earlier ++ later) = (latest? read later).or (latest? read earlier) := by
  simp [latest?]

theorem latest?_cons (first : α) (rest : List α) :
    latest? read (first :: rest) = (latest? read rest).or (read first) := by
  simp [latest?]

theorem latest?_map (f : γ → α) (history : List γ) :
    latest? read (history.map f) = latest? (read ∘ f) history := by
  rw [latest?, latest?, ← List.map_reverse, List.findSome?_map]

theorem latest?_eq_none_iff (history : List α) :
    latest? read history = none ↔ ∀ entry ∈ history, read entry = none := by
  simp [latest?]

theorem latest?_eq_some_iff {history : List α} {value : β} :
    latest? read history = some value ↔ ∃ earlier entry later,
      history = earlier ++ entry :: later ∧ read entry = some value ∧
        ∀ next ∈ later, read next = none := by
  unfold latest?
  rw [List.findSome?_eq_some_iff]
  constructor
  · rintro ⟨later, entry, earlier, reversed, reads, silent⟩
    refine ⟨earlier.reverse, entry, later.reverse, ?_, reads, by simpa using silent⟩
    simpa using congrArg List.reverse reversed
  · rintro ⟨earlier, entry, later, rfl, reads, silent⟩
    exact ⟨later.reverse, entry, earlier.reverse, by simp, reads, by simpa using silent⟩

end Latest

structure Status where
  isScheduling : Bool
  executing : Option WorkUnit
  deriving DecidableEq

namespace Status

def idle : Status := ⟨false, none⟩

def after (machine : MachineId) (status : Status) : Delta → Status
  | .scheduling named isScheduling =>
    if named = machine then { status with isScheduling } else status
  | .executing named unit => if named = machine then { status with executing := unit } else status
  | .bind _ _ | .contextState _ _ | .parkedAdded _ | .parkedRemoved _ => status

/-- Observations tell what waits on contexts and nothing about machines. -/
theorem foldl_observations (machine : MachineId) (status : Status)
    (observations : List Observation) :
    (observations.map Observation.delta).foldl (after machine) status = status := by
  induction observations with
  | nil => rfl
  | cons observation rest ih => exact ih

end Status

def Thread.status (thread : Thread) : Status := ⟨thread.isScheduling, thread.executing⟩

/-- What the entry of a machine says it does; a machine without one is idle. -/
def Model.status (model : Model) (machine : MachineId) : Status :=
  ((model.thread? machine).map Thread.status).getD .idle

section Threads

variable {threads : List Thread} {machine : MachineId}

theorem find?_isMachine_updateMachine {change : Thread → Thread}
    (keeps : ∀ thread, (change thread).machine = thread.machine)
    (machines : (machineIds threads).Nodup) (other : MachineId) :
    (updateFirst (·.isMachine machine) change threads).find? (·.isMachine other) =
      (threads.find? (·.isMachine other)).map fun thread =>
        if other = machine then change thread else thread := by
  have same : (fun thread : Thread => thread.isMachine other) ∘ (fun thread : Thread =>
      if thread.machine = some machine then change thread else thread) =
        fun thread : Thread => thread.isMachine other := by
    funext thread
    simp only [Function.comp_apply, Thread.isMachine]
    split <;> simp [keeps]
  refine (congrArg _ (updateFirst_eq_map machines machine change)).trans ?_
  rw [List.find?_map, same]
  apply Option.map_congr
  intro thread found
  have is := Thread.isMachine_iff.mp (List.find?_some found)
  simp [is]

@[simp] theorem Thread.status_hold (context : Context) (thread : Thread) :
    (thread.hold context).status = thread.status := rfl

@[simp] theorem Thread.status_without (context : ContextId) (thread : Thread) :
    (thread.without context).status = thread.status := by
  unfold without
  split <;> rfl

theorem status_entryFor : (entryFor threads machine).status =
    ((threads.find? (·.isMachine machine)).map Thread.status).getD .idle := by
  unfold entryFor
  cases threads.find? (·.isMachine machine) <;> rfl

end Threads

namespace Model

variable {model next : Model} {delta : Delta}

theorem status_of_mem (bound : WellBound model.threads) {thread : Thread}
    (inside : thread ∈ model.threads) {machine : MachineId} (is : thread.machine = some machine) :
    model.status machine = thread.status := by
  have found : model.thread? machine = some thread :=
    find?_eq_some_of_nodup bound.machines inside is
  rw [status, found]
  rfl

theorem status_of_not_mem {machine : MachineId} (unknown : machine ∉ machineIds model.threads) :
    model.status machine = .idle := by
  have missing : model.thread? machine = none := by
    simpa [thread?, mem_machineIds] using unknown
  rw [status, missing]
  rfl

theorem status_handedOver (bound : WellBound model.threads) (taker : MachineId) (state : Context)
    (machine : MachineId) :
    { model with threads := handedOver model.threads taker state }.status machine =
      model.status machine := by
  simp only [status, thread?, find?_isMachine_handedOver bound]
  split
  · next same =>
    subst same
    simp [status_entryFor]
  · cases model.threads.find? (·.isMachine machine) <;> simp

theorem status_disowned (bound : WellBound model.threads) {state : Context}
    (known : state.id ∈ contextIds model.threads) (machine : MachineId) :
    { model with threads := disowned model.threads state }.status machine =
      model.status machine := by
  simp only [status, thread?, find?_isMachine_disowned bound known]
  cases model.threads.find? (·.isMachine machine) <;> simp

theorem status_updateMachine (bound : WellBound model.threads) {named : MachineId}
    (known : named ∈ machineIds model.threads) (change : Thread → Thread)
    (keeps : ∀ thread, (change thread).machine = thread.machine) (effect : Status → Status)
    (acts : ∀ thread, (change thread).status = effect thread.status) (machine : MachineId) :
    { model with threads := updateFirst (·.isMachine named) change model.threads }.status machine =
      if named = machine then effect (model.status machine) else model.status machine := by
  simp only [status, thread?, find?_isMachine_updateMachine keeps bound.machines]
  by_cases same : named = machine
  · subst same
    obtain ⟨thread, found⟩ : ∃ thread, model.threads.find? (·.isMachine named) = some thread := by
      rw [← Option.isSome_iff_exists]
      simpa [mem_machineIds] using known
    simp [found, acts]
  · simp [same, Ne.symm same]

theorem Staged.status (staged : model.Staged delta next) (bound : WellBound model.threads)
    (machine : MachineId) : next.status machine = (model.status machine).after machine delta := by
  cases staged with
  | scheduling named isScheduling known =>
    refine status_updateMachine bound known _ ?_ ({ · with isScheduling }) ?_ machine
    · intro thread; rfl
    · intro thread; rfl
  | executing named unit known =>
    refine status_updateMachine bound known _ ?_ ({ · with executing := unit }) ?_ machine
    · intro thread; rfl
    · intro thread; rfl
  | bind taker context held found => exact status_handedOver bound taker held machine
  | taken taker state known => exact status_handedOver bound taker state machine
  | left state known => exact status_disowned bound known machine
  | parkedAdded => rfl
  | parkedRemoved => rfl

theorem stageAll_status {decision : Decision} (bound : WellBound model.threads)
    (staged : model.stageAll decision = .ok next) (machine : MachineId) :
    next.status machine = decision.foldl (Status.after machine) (model.status machine) :=
  stageAll_eq_foldl (·.status machine) (Status.after machine)
    (fun _ _ _ bound first => first.status bound machine) bound staged

end Model

end SchedReplay
