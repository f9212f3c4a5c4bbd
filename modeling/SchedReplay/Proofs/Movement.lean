import SchedReplay.Proofs.Acceptance

/-! Parking a unit and getting it ready. The model believes the event: a machine stops whatever it
runs, and a unit that is no longer parked is where the event shows it. -/
namespace SchedReplay

namespace Model

variable {model next : Model} {unit : UnitId} {changes : Changes}

theorem Consistent.exists_places_eq (consistent : model.Consistent)
    (held : unit ∈ model.units.map (·.id)) : ∃ location, model.places unit = [location] := by
  obtain ⟨location, here⟩ := List.exists_mem_of_ne_nil _ (places_ne_nil_iff.mpr held)
  exact ⟨location, consistent.places_eq here⟩

/-- Only the unit that the machine runs can get lost when another one parks. -/
theorem places_of_park (inert : Inert model.threads) (consistent : model.Consistent)
    {event : Event.Park} (fits : model.commit event.decision = .ok (next, changes))
    {location : Location} (here : location ∈ model.places unit)
    (keeps : model.RunsAt event.machine location → unit = event.unit.id) :
    ∃ location, next.places unit = [location] := by
  have decides : (Event.park event).decision? = some event.decision := rfl
  obtain ⟨staged, after, _⟩ := commit_eq_ok_iff.mp fits
  have moved := stageAll_units consistent.bound inert decides staged
  apply after.exists_places_eq
  rw [(moved.map _).mem_iff, unitsAfter_park, List.map_append, List.mem_append]
  by_contra lost
  rw [not_or] at lost
  have runs := (forall_runsAt_iff inert).mpr lost.1 location here
  exact lost.2 (by simp [keeps runs])

theorem parked_of_park {event : Event.Park}
    (fits : model.commit event.decision = .ok (next, changes)) :
    next.places event.unit.id = [.parked] := by
  have decides : (Event.park event).decision? = some event.decision := rfl
  obtain ⟨staged, after, _⟩ := commit_eq_ok_iff.mp fits
  apply after.places_eq
  rw [parked_mem_places_iff, stageAll_parkedUnits decides staged]
  simp [Event.parkedAfter]

theorem places_of_ready_of_seen (consistent : model.Consistent) {event : Event.Ready}
    (fits : model.commit event.decision = .ok (next, changes))
    (seen : event.unit ∈ event.update.context.waiting.map (·.id)) :
    ∃ location, location.IsQueueOf event.update.context.id ∧
      next.places event.unit = [location] := by
  have decides : (Event.ready event).decision? = some event.decision := rfl
  obtain ⟨staged, after, _⟩ := commit_eq_ok_iff.mp fits
  have finds := (exists_stageAll_iff_finds decides).mp ⟨next, staged⟩
  have contexts := (stageAll_contexts consistent.bound decides staged).trans
    (contextsAfter_perm consistent.bound finds.1)
  obtain ⟨waiting, waits, is⟩ := List.mem_map.mp seen
  obtain ⟨location, here, queue⟩ :=
    exists_place_of_waiting (contexts.mem_iff.mpr (.head _)) waits
  exact ⟨location, queue, is ▸ after.places_eq here⟩

theorem places_of_ready_of_unseen (inert : Inert model.threads) (consistent : model.Consistent)
    {event : Event.Ready} (fits : model.commit event.decision = .ok (next, changes))
    (unseen : event.unit ∉ event.update.context.waiting.map (·.id)) :
    next.places event.unit = [] := by
  have decides : (Event.ready event).decision? = some event.decision := rfl
  obtain ⟨staged, after, _⟩ := commit_eq_ok_iff.mp fits
  have finds := (exists_stageAll_iff_finds decides).mp ⟨next, staged⟩
  have moved := (stageAll_units consistent.bound inert decides staged).trans
    (seen_perm consistent.bound finds.1 _)
  -- The unit was parked and hence nowhere else, so it can only come from the observation.
  have parked := consistent.places_eq (parked_mem_places_iff.mpr finds.2)
  have others := (@forall_isQueueOf_iff model event.unit event.update.context.id _ _
    (mem_unparked_iff consistent event.unit)).mp
  by_contra held
  rw [← ne_eq, places_ne_nil_iff, (moved.map _).mem_iff, List.map_append, List.mem_append] at held
  rcases held with shown | left
  · exact unseen shown
  · refine others ?_ left
    simp [parked]

end Model

namespace Engine

/-- A call that brings an event is answered with what is committed, and the run goes on from it. -/
theorem state_of_answer {engine : Engine} {call : Call} {event : Event} {decision : Decision}
    {snapshot : Snapshot} (applies : call.event? = some event)
    (decides : event.decision? = some decision)
    (answers : (engine.perform call).1 = .snapshot (.ok snapshot)) :
    engine.model.commit decision = .ok (snapshot.model, snapshot.changes) ∧
      (engine.perform call).2.snapshot = snapshot ∧
      (engine.perform call).2.isCorrupted = false := by
  have ends := engine.perform_transition call
  rw [answers] at ends
  show _ ∧ (engine.perform call).2.run.snapshot = _ ∧ (engine.perform call).2.run.corrupted = _
  generalize (engine.perform call).2.run = next, engine.update? call = update at ends
  cases ends with
  | refused _ _ reports => cases reports
  | failed _ _ reports => cases reports
  | seeded => cases applies
  | committed live names means fits =>
    obtain rfl := Option.some.inj (names.symm.trans applies)
    obtain rfl := Option.some.inj (means.symm.trans decides)
    exact ⟨fits, rfl, live⟩
  | noted _ names silent =>
    obtain rfl := Option.some.inj (names.symm.trans applies)
    simp [silent] at decides
  | skipped _ means => simp [Call.event?, means] at applies
  | listened listens => simp [Call.event?_of_listening listens] at applies

/-- What a call that applies an event answers with was committed. -/
theorem commit_of_answer {engine : Engine} {call : Call} {event : Event} {decision : Decision}
    {snapshot : Snapshot} (applies : call.event? = some event)
    (decides : event.decision? = some decision)
    (answers : (engine.perform call).1 = .snapshot (.ok snapshot)) :
    ∃ changes, engine.model.commit decision = .ok (snapshot.model, changes) :=
  ⟨snapshot.changes, (state_of_answer applies decides answers).1⟩

/-- A parked unit is parked and nowhere else, and no unit gets lost but one that the machine runs
in its place; a unit that gets ready is on the queue it is shown on, or nowhere if it is not shown. -/
theorem park_and_ready_move_units (calls : List Call) (call : Call) (snapshot : Snapshot) :
    let engine := new.performAll calls
    let before := engine.model.places
    let after := snapshot.model.places
    (engine.perform call).1 = .snapshot (.ok snapshot) →
      (∀ event, call.event? = some (.park event) →
        (∀ unit, ∀ location ∈ before unit,
          (engine.model.RunsAt event.machine location → unit = event.unit.id) →
            ∃ location, after unit = [location]) ∧ after event.unit.id = [.parked]) ∧
      ∀ event, call.event? = some (.ready event) →
        let target := event.update.context
        (event.unit ∈ target.waiting.map (·.id) →
          ∃ location, location.IsQueueOf target.id ∧ after event.unit = [location]) ∧
        (event.unit ∉ target.waiting.map (·.id) → after event.unit = []) := by
  intro engine before after answers
  have consistent : engine.model.Consistent := consistent_performAll calls
  have inert : Inert engine.model.threads := inert_performAll calls
  constructor
  · intro event applies
    obtain ⟨changes, fits⟩ := commit_of_answer applies rfl answers
    refine ⟨?_, Model.parked_of_park fits⟩
    intro unit location here keeps
    exact Model.places_of_park inert consistent fits here keeps
  · intro event applies target
    obtain ⟨changes, fits⟩ := commit_of_answer applies rfl answers
    constructor
    · intro seen
      exact Model.places_of_ready_of_seen consistent fits seen
    · intro unseen
      exact Model.places_of_ready_of_unseen inert consistent fits unseen

def parking (unit : WorkUnit) : Call := .applyEvent (.park ⟨⟨0⟩, unit, "select"⟩)

/-- The bootstrap unit is said to be ready, with this queue on context 0. -/
def readying (queue : List WorkUnit) : Call :=
  .applyEvent (.ready ⟨Model.bootstrap.id, ⟨some ⟨0⟩, ⟨⟨0⟩, none, queue⟩⟩⟩)

theorem park_and_ready_move_units_of_bootstrap :
    let running := [.seed (some 1)]
    let waiting := running ++ [parking Model.bootstrap]
    (∃ snapshot, ((new.performAll running).perform (parking Model.bootstrap)).1 =
      .snapshot (.ok snapshot) ∧ snapshot.model.places ⟨0⟩ = [.parked]) ∧
    ∃ snapshot, ((new.performAll waiting).perform (readying [Model.bootstrap])).1 =
      .snapshot (.ok snapshot) ∧
        ∃ location, location.IsQueueOf ⟨0⟩ ∧ snapshot.model.places ⟨0⟩ = [location] := by
  have parks := (park_and_ready_move_units [.seed (some 1)] (parking Model.bootstrap) _ rfl).1 _ rfl
  have moves := (park_and_ready_move_units [.seed (some 1), parking Model.bootstrap]
    (readying [Model.bootstrap]) _ rfl).2 _ rfl
  exact ⟨⟨_, rfl, parks.2⟩, ⟨_, rfl, moves.1 (by decide)⟩⟩

/-- The bootstrap unit gets lost when another unit is said to park on its machine, and when it gets
ready but is shown on no queue. -/
theorem park_and_ready_can_lose_units :
    let running := [.seed (some 1)]
    let waiting := running ++ [parking Model.bootstrap]
    ((new.performAll running).model.places ⟨0⟩ = [.executing 0] ∧
      ∃ snapshot, ((new.performAll running).perform (parking ⟨⟨5⟩, "worker"⟩)).1 =
        .snapshot (.ok snapshot) ∧ snapshot.model.places ⟨0⟩ = []) ∧
    (new.performAll waiting).model.places ⟨0⟩ = [.parked] ∧
      ∃ snapshot, ((new.performAll waiting).perform (readying [])).1 =
        .snapshot (.ok snapshot) ∧ snapshot.model.places ⟨0⟩ = [] :=
  ⟨⟨by decide, _, rfl, by decide⟩, by decide, _, rfl, by decide⟩

end Engine

end SchedReplay
