import SchedReplay.Proofs.Latch
import SchedReplay.Proofs.Outstanding
import SchedReplay.Proofs.Published
import SchedReplay.Proofs.Refusal
import SchedReplay.Proofs.Reordering
import SchedReplay.Proofs.Repetition

/-! Events that are delivered twice in a row. The second delivery is committed without a trace if
nothing the event sets is overridden by the event itself; a unit that it parks or gets ready tells
that the event came before. -/
namespace SchedReplay

/-- The events that make no difference when they come again. -/
def Event.IsRepeatable : Event → Prop
  | schedule _ | queueStatus _ => True
  | execute event => Apart event.snapshots
  | park _ | ready _ | newContext _ | progress _ => False

theorem Observation.spares {seen shown : Observation}
    (contexts : seen.context.id ≠ shown.context.id)
    (machines : ∀ machine ∈ seen.machine, ∀ other ∈ shown.machine, machine ≠ other) :
    shown.delta.Spares seen.delta := by
  obtain ⟨owner, state⟩ := seen
  obtain ⟨taker, shown⟩ := shown
  cases taker with
  | none => exact contexts.symm
  | some machine =>
    refine ⟨contexts.symm, ?_⟩
    intro same
    exact machines machine same machine rfl rfl

theorem Apart.pairwise_spares {observations : List Observation} (apart : Apart observations) :
    (observations.map Observation.delta).Pairwise fun kept later => later.Spares kept := by
  have contexts := List.pairwise_map.mp apart.contexts
  have machines := List.pairwise_filterMap.mp apart.machines
  rw [List.pairwise_map]
  exact (contexts.and machines).imp fun different => Observation.spares different.1 different.2

namespace Event

variable {event : Event} {decision : Decision}

theorem IsRepeatable.pairwise_spares (repeatable : event.IsRepeatable)
    (decides : event.decision? = some decision) :
    decision.Pairwise (fun kept later => later.Spares kept) ∧
      ∀ delta ∈ decision, delta.isParking = false := by
  cases event with
  | schedule event =>
    cases decides
    simp [Schedule.decision, Delta.Spares, Delta.Leaves, Delta.isParking]
  | queueStatus observation =>
    cases decides
    simp [Observation.delta, Delta.isParking]
  | execute event =>
    cases decides
    have apart : Apart event.snapshots := repeatable
    constructor
    · have starts : ∀ later ∈ .executing event.machine (some event.found) ::
          event.snapshots.map Observation.delta,
            later.Spares (.scheduling event.machine false) := by
        simp [Delta.Spares, Observation.delta]
      have runs : ∀ later ∈ event.snapshots.map Observation.delta,
          later.Spares (.executing event.machine (some event.found)) := by
        simp [Delta.Spares, Observation.delta]
      exact .cons starts (.cons runs apart.pairwise_spares)
    · simp [Execute.decision, Delta.isParking, Observation.delta]
  | park | ready | newContext | progress => exact repeatable.elim

end Event

namespace Model

variable {model next : Model} {event : Event} {decision : Decision} {changes : Changes}

theorem commit_of_repeated (bound : WellBound model.threads) (repeatable : event.IsRepeatable)
    (decides : event.decision? = some decision)
    (fits : model.commit decision = .ok (next, changes)) :
    next.commit decision = .ok (next, changes) := by
  obtain ⟨staged, consistent, rfl⟩ := commit_eq_ok_iff.mp fits
  obtain ⟨spares, lasting⟩ := repeatable.pairwise_spares decides
  have set := forall_isMadeIn_of_stageAll bound staged spares
  have made : ∀ delta ∈ decision, delta.IsMadeIn next :=
    fun delta inside => set delta inside (lasting delta inside)
  exact commit_eq_ok_iff.mpr ⟨stageAll_self consistent.bound made, consistent, rfl⟩

/-- A unit that is parked already would be parked twice. -/
theorem commit_of_repeated_park (bound : WellBound model.threads) {event : Event.Park}
    (fits : model.commit event.decision = .ok (next, changes)) :
    next.commit event.decision =
      .error (.duplicateUnit event.unit.id .parked .parked) := by
  obtain ⟨staged, consistent, _⟩ := commit_eq_ok_iff.mp fits
  let entry : ParkedUnit := ⟨event.unit, event.waitReason⟩
  let doubled : Model := { next with parked := next.parked ++ [entry] }
  have made : (Delta.executing event.machine none).IsMadeIn next := by
    refine forall_isMadeIn_of_stageAll bound staged ?_ _ (List.mem_cons_self ..) rfl
    simp [Event.Park.decision, Delta.Spares]
  have again : next.stageAll event.decision = .ok doubled :=
    stageAll_cons_eq_ok_iff.mpr ⟨next, staged_self consistent.bound made, rfl⟩
  have parked : entry ∈ next.parked := by
    rw [stageAll_parkedUnits (show (Event.park event).decision? = _ from rfl) staged]
    simp [Event.parkedAfter, entry]
  have stillBound : WellBound doubled.threads := consistent.bound
  refine commit_eq_error_iff.mpr (.inr ⟨doubled, again, ?_⟩)
  rw [verify_eq_error_iff stillBound, unitConflict?_eq_some_iff (by simp)]
  refine ⟨next.placements, event.unit.id, .parked, .parked, [], ?_, ?_, ?_, rfl⟩
  · simp [doubled, placements, ParkedUnit.placement, entry]
  · rw [List.append_nil, map_fst_placements]
    exact consistent.units
  · rw [List.append_nil]
    exact List.mem_append_right _ (List.mem_map.mpr ⟨entry, parked, rfl⟩)

/-- A unit that is ready already is parked no more. -/
theorem commit_of_repeated_ready (consistent : model.Consistent) {event : Event.Ready}
    (fits : model.commit event.decision = .ok (next, changes)) :
    next.commit event.decision = .error (.unitNotParked event.unit) := by
  obtain ⟨staged, after, _⟩ := commit_eq_ok_iff.mp fits
  have made : event.update.delta.IsMadeIn next := by
    refine forall_isMadeIn_of_stageAll consistent.bound staged ?_ _ (List.mem_cons_self ..) rfl
    simp [Event.Ready.decision, Observation.delta, Delta.Spares, Delta.Leaves]
  have gone : ¬ (Delta.parkedRemoved event.unit).AppliesTo next := by
    rw [Delta.AppliesTo, stageAll_parkedUnits (show (Event.ready event).decision? = _ from rfl)
      staged, Event.parkedAfter, eraseP_eq_filter_of_nodup consistent.nodup_parked]
    simp
  have first := stage_eq_ok_iff.mpr (staged_self after.bound made)
  have second : next.stage (.parkedRemoved event.unit) = .error (.unitNotParked event.unit) :=
    stage_eq_error_iff.mpr ⟨gone, rfl⟩
  refine commit_eq_error_iff.mpr (.inl ?_)
  simp [Event.Ready.decision, stageAll, first, second, bind, Except.bind]

end Model

namespace Engine

/-- An event that comes again at once is committed again and changes no entry, if it is a schedule,
a queue status or an execution whose observations are apart. A unit cannot be parked or get ready
twice in a row; the model stays as the first delivery has left it. -/
theorem redelivered_events_repeat_or_fail {start : Engine} (started : Started start)
    (calls : List Call) (call again : Call) (event : Event) (snapshot : Snapshot) :
    let engine := start.performAll calls
    let delivered := (engine.perform call).2
    let reply := (delivered.perform again).1
    let model := (delivered.perform again).2.model
    call.event? = some event → again.event? = some event →
      (engine.perform call).1 = .snapshot (.ok snapshot) →
        (event.IsRepeatable →
          reply = .snapshot (.ok { snapshot with sequence := snapshot.sequence + 1 }) ∧
            model = snapshot.model) ∧
        (∀ park, event = .park park →
          reply = .snapshot (.error (.invariant (.duplicateUnit park.unit.id .parked .parked))) ∧
            model = snapshot.model) ∧
        ∀ ready, event = .ready ready →
          reply = .snapshot (.error (.invariant (.unitNotParked ready.unit))) ∧
            model = snapshot.model := by
  intro engine delivered reply model applies also answers
  have consistent : engine.model.Consistent := started.consistent_performAll calls
  -- A failure leaves the model that the first delivery has led to.
  have refuses {decision : Decision} {violation : Violation}
      (decides : event.decision? = some decision)
      (refused : snapshot.model.commit decision = .error violation) :
      reply = .snapshot (.error (.invariant violation)) ∧ model = snapshot.model := by
    obtain ⟨_, left, live⟩ := state_of_answer applies decides answers
    have refused : delivered.model.commit decision = .error violation :=
      (congrArg (·.model.commit decision) left).trans refused
    have fails : reply = .snapshot (.error (.invariant violation)) :=
      answer_of_violation live also decides refused
    have reports : (delivered.perform again).1.error? = some (.invariant violation) :=
      congrArg Reply.error? fails
    have stays : model = delivered.model :=
      (congrArg Engine.model (perform_of_error reports).1).trans rfl
    exact ⟨fails, stays.trans (congrArg Snapshot.model left)⟩
  refine ⟨?repeats, ?parks, ?readies⟩
  case repeats =>
    intro repeatable
    obtain ⟨decision, decides⟩ : ∃ decision, event.decision? = some decision := by
      cases event <;> first | exact ⟨_, rfl⟩ | exact repeatable.elim
    obtain ⟨fits, left, live⟩ := state_of_answer applies decides answers
    have refits : delivered.model.commit decision = .ok (snapshot.model, snapshot.changes) :=
      (congrArg (·.model.commit decision) left).trans
        (Model.commit_of_repeated consistent.bound repeatable decides fits)
    have commits := answer_of_commit live also decides refits
    rw [left] at commits
    have after := (state_of_answer also decides commits).2.1
    exact ⟨commits, (congrArg Snapshot.model after).trans rfl⟩
  case parks =>
    rintro park rfl
    obtain ⟨fits, _⟩ := state_of_answer applies rfl answers
    exact refuses rfl (Model.commit_of_repeated_park consistent.bound fits)
  case readies =>
    rintro ready rfl
    obtain ⟨fits, _⟩ := state_of_answer applies rfl answers
    exact refuses rfl (Model.commit_of_repeated_ready consistent fits)

/-- Two machines swap their contexts, or the unit that one of them runs parks. -/
theorem redelivered_events_repeat_or_fail_on_two_machines :
    let start : Engine := ⟨.start Model.twoMachines, .new⟩
    let crosses : Call := .applyEvent (.execute Model.crossing)
    let parks : Call := .applyEvent (.park ⟨⟨1⟩, ⟨⟨2⟩, ""⟩, "select"⟩)
    Engine.ofModel Model.twoMachines = .ok start ∧
      (∃ crossed, (start.perform crosses).1 = .snapshot (.ok crossed) ∧
        ((start.perform crosses).2.perform crosses).2.model = crossed.model) ∧
      ∃ parked, (start.perform parks).1 = .snapshot (.ok parked) ∧
        ((start.perform parks).2.perform parks).1 =
          .snapshot (.error (.invariant (.duplicateUnit ⟨2⟩ .parked .parked))) ∧
        ((start.perform parks).2.perform parks).2.model = parked.model := by
  intro start crosses parks
  have accepted : Engine.ofModel Model.twoMachines = .ok start := rfl
  have apart : Apart Model.crossing.snapshots := ⟨by decide, by decide⟩
  obtain ⟨_, _, swapped⟩ : ∃ next changes,
      Model.twoMachines.commit Model.crossing.decision = .ok (next, changes) := ⟨_, _, rfl⟩
  obtain ⟨_, _, waits⟩ : ∃ next changes, Model.twoMachines.commit
      (Event.Park.decision ⟨⟨1⟩, ⟨⟨2⟩, ""⟩, "select"⟩) = .ok (next, changes) := ⟨_, _, rfl⟩
  have first : (start.perform crosses).1 = _ := answer_of_commit rfl rfl rfl swapped
  have second : (start.perform parks).1 = _ := answer_of_commit rfl rfl rfl waits
  have repeats := (redelivered_events_repeat_or_fail (.ofModel accepted) [] crosses crosses _ _
    rfl rfl first).1 apart
  have fails := (redelivered_events_repeat_or_fail (.ofModel accepted) [] parks parks _ _
    rfl rfl second).2.1 _ rfl
  exact ⟨accepted, ⟨_, first, repeats.2⟩, _, second, fails⟩

end Engine

end SchedReplay
