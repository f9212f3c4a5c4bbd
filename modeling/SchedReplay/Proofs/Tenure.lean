import SchedReplay.Proofs.Movement

/-! Which context a machine holds when it starts to run a unit. The event that tells of it names a
context, and whether the machine holds that one is up to the observations that come along. -/
namespace SchedReplay

/-- Whether an observation shows a context with a machine; it tells nothing if it shows neither. -/
def Observation.seats? (machine : MachineId) (context : ContextId) (seen : Observation) :
    Option Bool :=
  if seen.machine = some machine ∨ seen.context.id = context then
    some (seen.machine = some machine ∧ seen.context.id = context)
  else none

namespace Ownership

variable {machine : MachineId} {context : ContextId}

theorem after_observation_iff (own : Ownership) (seen : Observation) :
    own.after seen.delta context = some (some machine) ↔
      seen.seats? machine context = some true ∨
        seen.seats? machine context = none ∧ own context = some (some machine) := by
  obtain ⟨owner, state⟩ := seen
  by_cases shown : state.id = context
  · cases owner <;>
      simp [after, claim, release, Observation.delta, Observation.seats?, shown]
  · cases owner with
    | none => simp [after, release, Observation.delta, Observation.seats?, shown, Ne.symm shown]
    | some taker =>
      have taken : own.after (Observation.delta ⟨some taker, state⟩) context =
          if own context = some (some taker) then some none else own context := by
        simp [after, claim, Observation.delta, Ne.symm shown]
      rw [taken]
      rcases eq_or_ne taker machine with rfl | other
      · by_cases had : own context = some (some taker) <;> simp [Observation.seats?, had, shown]
      · by_cases had : own context = some (some taker) <;>
          simp [Observation.seats?, had, shown, other]

/-- The last observation of a machine or a context decides whether the one has the other. -/
theorem foldl_observations_iff (own : Ownership) (observations : List Observation) :
    (observations.map Observation.delta).foldl after own context = some (some machine) ↔
      latest? (·.seats? machine context) observations = some true ∨
        latest? (·.seats? machine context) observations = none ∧
          own context = some (some machine) := by
  induction observations generalizing own with
  | nil => simp [latest?]
  | cons seen rest ih =>
    rw [List.map_cons, List.foldl_cons, ih, after_observation_iff, latest?_cons]
    cases latest? (·.seats? machine context) rest <;> simp

end Ownership

namespace Model

variable {model next : Model} {machine : MachineId}

theorem exists_thread?_of_mem (known : machine ∈ machineIds model.threads) :
    ∃ thread, model.thread? machine = some thread := by
  rw [← Option.isSome_iff_exists]
  simpa [thread?, mem_machineIds] using known

/-- A machine's entry holds the context that the machine owns. -/
theorem contextId_eq_some_iff (bound : WellBound model.threads) {thread : Thread}
    (found : model.thread? machine = some thread) {context : ContextId} :
    thread.contextId = some context ↔ model.ownership context = some (some machine) := by
  have inside := List.mem_of_find?_eq_some found
  have is := Thread.isMachine_iff.mp (List.find?_some found)
  constructor
  · intro holds
    have owner : model.owner? context = some thread :=
      find?_eq_some_of_nodup bound.contexts inside holds
    simp [ownership, owner, is]
  · intro owns
    obtain ⟨owner, first, also⟩ := Option.map_eq_some_iff.mp owns
    obtain rfl : thread = owner :=
      eq_of_key_eq bound.machines inside (List.mem_of_find?_eq_some first) is also
    exact Thread.holds_iff.mp (List.find?_some first)

theorem entry_of_execute (bound : WellBound model.threads) {event : Event.Execute}
    (staged : model.stageAll event.decision = .ok next) :
    ∃ before after, model.thread? event.machine = some before ∧
      next.thread? event.machine = some after ∧ after.executing = some event.found ∧
      after.isScheduling = false ∧ ∀ context, after.contextId = some context ↔
        latest? (·.seats? event.machine context) event.snapshots = some true ∨
          latest? (·.seats? event.machine context) event.snapshots = none ∧
            before.contextId = some context := by
  have known := ((exists_stageAll_execute_iff event).mp ⟨next, staged⟩).1
  obtain ⟨before, found⟩ := exists_thread?_of_mem known
  obtain ⟨after, entry⟩ := exists_thread?_of_mem ((stageAll_extends_machineIds staged).subset known)
  have does : after.status = ⟨false, some event.found⟩ := by
    have status := stageAll_status bound staged event.machine
    rw [Event.status_decision (show (Event.execute event).decision? = _ from rfl)] at status
    simpa [Model.status, entry, Event.scheduling?, Event.running?] using status
  refine ⟨before, after, found, entry, congrArg Status.executing does,
    congrArg Status.isScheduling does, ?_⟩
  intro context
  rw [contextId_eq_some_iff (stageAll_wellBound bound staged) entry,
    contextId_eq_some_iff bound found, (stageAll_ownership bound staged).1,
    ← Ownership.foldl_observations_iff]
  rfl

end Model

namespace Engine

/-- A machine runs the unit that it was said to have found. It holds a context just when the last
observation of either shows the two together, or when neither was observed and it held the context
before; the context that the event names has no say. -/
theorem executing_machines_hold_what_they_are_shown_with (calls : List Call) (call : Call)
    (event : Event.Execute) (snapshot : Snapshot) :
    let engine := new.performAll calls
    call.event? = some (.execute event) → (engine.perform call).1 = .snapshot (.ok snapshot) →
      ∃ before after, engine.model.thread? event.machine = some before ∧
        snapshot.model.thread? event.machine = some after ∧
        after.executing = some event.found ∧ after.isScheduling = false ∧
        ∀ context, after.contextId = some context ↔
          latest? (·.seats? event.machine context) event.snapshots = some true ∨
            latest? (·.seats? event.machine context) event.snapshots = none ∧
              before.contextId = some context := by
  intro engine applies answers
  have consistent : engine.model.Consistent := consistent_performAll calls
  obtain ⟨changes, fits⟩ := commit_of_answer applies rfl answers
  exact Model.entry_of_execute consistent.bound (Model.commit_eq_ok_iff.mp fits).1

/-- Machine 0 runs a unit that it is said to have found on context 1. -/
def executing (snapshots : List Observation) : Call :=
  .applyEvent (.execute ⟨⟨0⟩, ⟨1⟩, ⟨⟨3⟩, "worker"⟩, snapshots⟩)

/-- It is seen with context 1 and leaves its own behind. -/
theorem executing_machines_hold_what_they_are_shown_with_after_move :
    let moved : List Observation := [⟨some ⟨0⟩, .idle ⟨1⟩⟩]
    ∃ snapshot, ((new.performAll [.seed (some 2)]).perform (executing moved)).1 =
      .snapshot (.ok snapshot) ∧
        ∃ after, snapshot.model.thread? ⟨0⟩ = some after ∧ after.contextId = some ⟨1⟩ := by
  intro moved
  obtain ⟨_, _, fits⟩ : ∃ next changes, (Model.seeded 2).commit
      (Event.Execute.decision ⟨⟨0⟩, ⟨1⟩, ⟨⟨3⟩, "worker"⟩, moved⟩) = .ok (next, changes) :=
    ⟨_, _, rfl⟩
  have answers : ((new.performAll [.seed (some 2)]).perform (executing moved)).1 = _ :=
    answer_of_commit rfl rfl rfl fits
  obtain ⟨_, after, _, entry, _, _, holds⟩ :=
    executing_machines_hold_what_they_are_shown_with _ _ _ _ rfl answers
  exact ⟨_, answers, after, entry, (holds ⟨1⟩).mpr (.inl (by decide))⟩

/-- Where nothing was observed the machine stays with the context it had. -/
theorem executing_machines_can_hold_another_context :
    ∃ snapshot after, ((new.performAll [.seed (some 2)]).perform (executing [])).1 =
      .snapshot (.ok snapshot) ∧ snapshot.model.thread? ⟨0⟩ = some after ∧
        after.executing = some ⟨⟨3⟩, "worker"⟩ ∧ after.contextId = some ⟨0⟩ :=
  ⟨_, _, rfl, rfl, rfl, rfl⟩

end Engine

end SchedReplay
