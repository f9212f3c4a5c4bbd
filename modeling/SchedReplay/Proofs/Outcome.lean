import SchedReplay.Proofs.Inventory
import SchedReplay.Proofs.Reading

/-! Which units an event leaves in a model and where: what runs, what waits and what is parked once
it is committed, told from the event and the model before it. -/
namespace SchedReplay

theorem Model.Staged.mem_machineIds {model next : Model} {delta : Delta}
    (staged : model.Staged delta next) {machine : MachineId}
    (names : delta.machine = some machine) : machine ∈ machineIds next.threads :=
  (staged.mem_machineIds_iff machine).mpr (.inr names)

namespace Event

def Finds (model : Model) : Event → Prop
  | schedule event => event.context ∈ contextIds model.threads
  | execute event => event.machine ∈ machineIds model.threads ∧
      ∀ snapshot ∈ event.snapshots, snapshot.context.id ∈ contextIds model.threads
  | queueStatus observation => observation.context.id ∈ contextIds model.threads
  | park event => event.machine ∈ machineIds model.threads
  | ready event => event.update.context.id ∈ contextIds model.threads ∧
      event.unit ∈ model.parked.map (·.unit.id)
  | newContext _ | progress _ => True

def runningAfter (model : Model) : Event → List WorkUnit
  | schedule event => runningElsewhere model.threads event.machine
  | execute event => event.found :: runningElsewhere model.threads event.machine
  | park event => runningElsewhere model.threads event.machine
  | queueStatus _ | ready _ | newContext _ | progress _ => runningUnits model.threads

def parkedAfter (model : Model) : Event → List ParkedUnit
  | park event => model.parked ++ [⟨event.unit, event.waitReason⟩]
  | ready event => model.parked.eraseP (·.unit.id = event.unit)
  | schedule _ | execute _ | queueStatus _ | newContext _ | progress _ => model.parked

end Event

/-- The contexts of a model, each as it was seen last, if it was seen. -/
def Model.contextsAfter (model : Model) (observations : List Observation) : List Context :=
  (boundContexts model.threads).map fun context =>
    (latest? (·.of? context.id) observations).getD context

def Event.unitsAfter (model : Model) (event : Event) : List WorkUnit :=
  event.runningAfter model ++ (model.contextsAfter event.observations).flatMap Context.waiting ++
    (event.parkedAfter model).map (·.unit)

/-- Whether an event finds what it needs and leaves no unit in two places. -/
def Event.Fits (model : Model) (event : Event) : Prop :=
  event.Finds model ∧ ((event.unitsAfter model).map (·.id)).Nodup

namespace Model

variable {model next : Model} {event : Event} {decision : Decision}

theorem exists_stageAll_schedule_iff (event : Event.Schedule) :
    (∃ next, model.stageAll event.decision = .ok next) ↔
      event.context ∈ contextIds model.threads := by
  simp only [Event.Schedule.decision, exists_stageAll_cons_iff, stageAll_nil_eq_ok_iff]
  constructor
  · rintro ⟨bound, first, _⟩
    exact first.appliesTo
  · intro known
    obtain ⟨bound, first⟩ := exists_staged_iff.mpr
      (show (Delta.bind event.machine event.context).AppliesTo model from known)
    obtain ⟨marked, second⟩ := exists_staged_iff.mpr
      (show (Delta.scheduling event.machine true).AppliesTo bound from first.mem_machineIds rfl)
    obtain ⟨stopped, third⟩ := exists_staged_iff.mpr
      (show (Delta.executing event.machine none).AppliesTo marked from second.mem_machineIds rfl)
    exact ⟨bound, first, marked, second, stopped, third, stopped, rfl⟩

theorem exists_stageAll_execute_iff (event : Event.Execute) :
    (∃ next, model.stageAll event.decision = .ok next) ↔
      event.machine ∈ machineIds model.threads ∧
        ∀ snapshot ∈ event.snapshots, snapshot.context.id ∈ contextIds model.threads := by
  simp only [Event.Execute.decision, exists_stageAll_cons_iff, exists_stageAll_observations_iff]
  constructor
  · rintro ⟨marked, first, started, second, known⟩
    refine ⟨first.appliesTo, ?_⟩
    simpa only [second.contextIds_perm.mem_iff, first.contextIds_perm.mem_iff] using known
  · rintro ⟨entry, known⟩
    obtain ⟨marked, first⟩ := exists_staged_iff.mpr
      (show (Delta.scheduling event.machine false).AppliesTo model from entry)
    obtain ⟨started, second⟩ := exists_staged_iff.mpr
      (show (Delta.executing event.machine (some event.found)).AppliesTo marked from
        first.mem_machineIds rfl)
    refine ⟨marked, first, started, second, ?_⟩
    simpa only [second.contextIds_perm.mem_iff, first.contextIds_perm.mem_iff] using known

theorem exists_stageAll_park_iff (event : Event.Park) :
    (∃ next, model.stageAll event.decision = .ok next) ↔
      event.machine ∈ machineIds model.threads := by
  simp only [Event.Park.decision, exists_stageAll_cons_iff, stageAll_nil_eq_ok_iff]
  constructor
  · rintro ⟨stopped, first, _⟩
    exact first.appliesTo
  · intro known
    obtain ⟨stopped, first⟩ := exists_staged_iff.mpr
      (show (Delta.executing event.machine none).AppliesTo model from known)
    exact ⟨stopped, first, _, .parkedAdded _, _, rfl⟩

theorem exists_stageAll_ready_iff (event : Event.Ready) :
    (∃ next, model.stageAll event.decision = .ok next) ↔
      event.update.context.id ∈ contextIds model.threads ∧
        event.unit ∈ model.parked.map (·.unit.id) := by
  have parks {middle : Model} (first : model.Staged event.update.delta middle) :
      middle.parked = model.parked := first.parked
  simp only [Event.Ready.decision, exists_stageAll_cons_iff, stageAll_nil_eq_ok_iff]
  constructor
  · rintro ⟨seen, first, freed, second, _⟩
    have waits : event.unit ∈ seen.parked.map (·.unit.id) := second.appliesTo
    rw [parks first] at waits
    exact ⟨first.appliesTo, waits⟩
  · rintro ⟨known, waits⟩
    obtain ⟨seen, first⟩ := exists_staged_iff.mpr
      (show event.update.delta.AppliesTo model from known)
    rw [← parks first] at waits
    exact ⟨seen, first, _, .parkedRemoved event.unit waits, _, rfl⟩

theorem exists_stageAll_iff_finds (decides : event.decision? = some decision) :
    (∃ next, model.stageAll decision = .ok next) ↔ event.Finds model := by
  cases event with
  | schedule event => cases decides; exact exists_stageAll_schedule_iff event
  | execute event => cases decides; exact exists_stageAll_execute_iff event
  | queueStatus observation =>
    cases decides
    exact exists_stageAll_observations_iff.trans (List.forall_mem_singleton ..)
  | park event => cases decides; exact exists_stageAll_park_iff event
  | ready event => cases decides; exact exists_stageAll_ready_iff event
  | newContext => cases decides
  | progress => cases decides

theorem stageAll_running (bound : WellBound model.threads) (inert : Inert model.threads)
    (decides : event.decision? = some decision) (staged : model.stageAll decision = .ok next) :
    (runningUnits next.threads).Perm (event.runningAfter model) := by
  have runs (machine : MachineId) : (next.status machine).executing =
      (event.running? machine).getD (model.status machine).executing := by
    rw [stageAll_status bound staged, Event.status_decision decides]
  have named (machine : MachineId) (unit : Option WorkUnit)
      (entry : machine ∈ machineIds model.threads ∨ unit = none)
      (told : ∀ other, event.running? other = if machine = other then some unit else none) :
      (runningUnits next.threads).Perm (unit.toList ++ runningElsewhere model.threads machine) := by
    apply runningUnits_perm bound inert staged machine unit entry
    · simp [runs, told]
    · intro other ne
      simp [runs, told, Ne.symm ne]
  have finds := (exists_stageAll_iff_finds decides).mp ⟨next, staged⟩
  -- Three kinds of event name a machine; observations leave all machines at what they run.
  cases event with
  | schedule event => exact named event.machine none (.inr rfl) fun _ => rfl
  | execute event => exact named event.machine event.found (.inl finds.1) fun _ => rfl
  | park event => exact named event.machine none (.inr rfl) fun _ => rfl
  | queueStatus observation => exact .of_eq (runningUnits_of_status bound inert staged runs)
  | ready event => exact .of_eq (runningUnits_of_status bound inert staged runs)
  | newContext => cases decides
  | progress => cases decides

theorem stageAll_contexts (bound : WellBound model.threads)
    (decides : event.decision? = some decision) (staged : model.stageAll decision = .ok next) :
    (boundContexts next.threads).Perm (model.contextsAfter event.observations) := by
  simpa only [contextsAfter, Event.lastObserved?_decision decides] using
    stageAll_boundContexts bound staged

theorem stageAll_parkedUnits (decides : event.decision? = some decision)
    (staged : model.stageAll decision = .ok next) : next.parked = event.parkedAfter model := by
  rw [stageAll_parked staged]
  cases event with
  | execute event =>
    cases decides
    exact Delta.parkedAfter_observations model.parked event.snapshots
  | schedule => cases decides; rfl
  | queueStatus => cases decides; rfl
  | park => cases decides; rfl
  | ready => cases decides; rfl
  | newContext => cases decides
  | progress => cases decides

theorem stageAll_units (bound : WellBound model.threads) (inert : Inert model.threads)
    (decides : event.decision? = some decision) (staged : model.stageAll decision = .ok next) :
    next.units.Perm (event.unitsAfter model) := by
  have running := stageAll_running bound inert decides staged
  have waiting := (stageAll_contexts bound decides staged).flatMap_right Context.waiting
  have parked := stageAll_parkedUnits decides staged
  refine next.units_perm.trans ?_
  rw [Event.unitsAfter, parked]
  exact (running.append waiting).append_right _

theorem exists_commit_iff_fits (bound : WellBound model.threads) (inert : Inert model.threads)
    (decides : event.decision? = some decision) :
    (∃ result, model.commit decision = .ok result) ↔ event.Fits model := by
  rw [exists_commit_iff bound, Event.Fits, ← exists_stageAll_iff_finds decides]
  constructor
  · rintro ⟨next, staged, once⟩
    exact ⟨⟨next, staged⟩, ((stageAll_units bound inert decides staged).map _).nodup_iff.mp once⟩
  · rintro ⟨⟨next, staged⟩, once⟩
    exact ⟨next, staged, ((stageAll_units bound inert decides staged).map _).nodup_iff.mpr once⟩

end Model

namespace Engine

theorem inert_performAll (calls : List Call) : Inert (new.performAll calls).model.threads := by
  refine commit_induction (fun _ model => Inert model.threads) ?empty ?seeded ?commit calls
  case empty => simp [Inert, Model.empty]
  case seeded =>
    intro width _ _
    exact Model.inert_seeded width
  case commit =>
    intro events model event decision next changes _ inert _ fits
    exact Model.stageAll_inert inert (Model.commit_eq_ok_iff.mp fits).1

end Engine

end SchedReplay
