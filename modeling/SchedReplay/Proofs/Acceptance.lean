import Mathlib.Data.List.Flatten
import SchedReplay.Proofs.Outcome
import SchedReplay.Proofs.Whereabouts

/-! Which events a model accepts, in terms of where it holds the units that an event names. -/
namespace SchedReplay

def Location.IsQueueOf (context : ContextId) (location : Location) : Prop :=
  location = .runNext context ∨ location = .runQueue context

namespace Model

def machineAt? (model : Model) (index : Nat) : Option MachineId :=
  (model.threads[index]?).bind (·.machine)

/-- What runs on the machine is in this place. -/
def RunsAt (model : Model) (machine : MachineId) (location : Location) : Prop :=
  ∃ index, location = .executing index ∧ model.machineAt? index = some machine

/-- What an event asks of a model. Units may come only from where the event takes them: the unit
that parks from its machine, those seen on a context from that context, and one that gets ready
from among the parked ones. -/
def Accepts (model : Model) : Event → Prop
  | .schedule event => event.context ∈ contextIds model.threads
  | .park event => event.machine ∈ machineIds model.threads ∧
      ∀ location ∈ model.places event.unit.id, model.RunsAt event.machine location
  | .queueStatus ⟨_, context⟩ => context.id ∈ contextIds model.threads ∧
      (context.waiting.map (·.id)).Nodup ∧
      ∀ unit ∈ context.waiting, ∀ location ∈ model.places unit.id, location.IsQueueOf context.id
  | .ready ⟨readied, ⟨_, context⟩⟩ => context.id ∈ contextIds model.threads ∧
      readied ∈ model.parked.map (·.unit.id) ∧
      (context.waiting.map (·.id)).Nodup ∧
      ∀ unit ∈ context.waiting, ∀ location ∈ model.places unit.id,
        location.IsQueueOf context.id ∨ (unit.id = readied ∧ location = .parked)
  | .execute event => event.machine ∈ machineIds model.threads ∧
      (∀ snapshot ∈ event.snapshots, snapshot.context.id ∈ contextIds model.threads) ∧
      ((event.found :: runningElsewhere model.threads event.machine ++
        (model.contextsAfter event.snapshots).flatMap Context.waiting ++
          model.parked.map (·.unit)).map (·.id)).Nodup
  | .newContext _ | .progress _ => True

/-- All units but the one that the machine runs. -/
def offMachine (model : Model) (machine : MachineId) : List WorkUnit :=
  runningElsewhere model.threads machine ++
    (boundContexts model.threads).flatMap Context.waiting ++ model.parked.map (·.unit)

/-- All units but those that wait on the context, with `parked` in place of what is parked. -/
def offContext (model : Model) (context : ContextId) (parked : List ParkedUnit) : List WorkUnit :=
  runningUnits model.threads ++
    ((boundContexts model.threads).filter (·.id ≠ context)).flatMap Context.waiting ++
      parked.map (·.unit)

end Model

section Keyed

variable {key : α → κ}

theorem nodup_map_append_iff {xs ys : List α} : ((xs ++ ys).map key).Nodup ↔
    (xs.map key).Nodup ∧ (ys.map key).Nodup ∧ ∀ x ∈ xs, key x ∉ ys.map key := by
  rw [List.map_append, List.nodup_append', List.disjoint_left, List.forall_mem_map]

/-- Where no key repeats, replacing the entry with a key sets apart what is put there. -/
theorem map_replace_perm [DecidableEq κ] {entries : List α} (nodup : (entries.map key).Nodup)
    {k : κ} (known : k ∈ entries.map key) (a : α) :
    (entries.map fun entry => if k = key entry then a else entry).Perm
      (a :: entries.filter (key · ≠ k)) := by
  induction entries with
  | nil => cases known
  | cons first rest ih =>
    rw [List.map_cons, List.nodup_cons] at nodup
    by_cases same : k = key first
    · have others : ∀ entry ∈ rest, k ≠ key entry := by
        rintro entry member rfl
        exact nodup.1 (same ▸ List.mem_map_of_mem member)
      have kept : (rest.map fun entry => if k = key entry then a else entry) = rest :=
        (List.map_congr_left fun entry member => if_neg (others entry member)).trans
          (List.map_id' rest)
      have all : rest.filter (key · ≠ k) = rest := by
        rw [List.filter_eq_self]
        intro entry member
        simpa using (others entry member).symm
      rw [List.map_cons, if_pos same, kept, List.filter_cons_of_neg (by simp [same]), all]
    · have later : k ∈ rest.map key := by
        rcases List.mem_cons.mp (List.map_cons ▸ known) with here | later
        · exact absurd here same
        · exact later
      rw [List.map_cons, if_neg same, List.filter_cons_of_pos (by simpa using Ne.symm same)]
      exact ((ih nodup.2 later).cons first).trans (.swap _ _ _)

end Keyed

namespace Model

variable {model : Model} {unit : UnitId}

theorem Consistent.nodup_of_sublist (consistent : model.Consistent) {units : List WorkUnit}
    (within : units.Sublist (runningUnits model.threads ++
      (boundContexts model.threads).flatMap Context.waiting ++ model.parked.map (·.unit))) :
    (units.map (·.id)).Nodup := by
  have all := (model.units_perm.map (·.id)).nodup_iff.mp consistent.units
  exact all.sublist (within.map _)

theorem runningElsewhere_sublist (threads : List Thread) (machine : MachineId) :
    (runningElsewhere threads machine).Sublist (runningUnits threads) :=
  List.filter_sublist.filterMap _

theorem mem_runningUnits_iff : unit ∈ (runningUnits model.threads).map (·.id) ↔
    ∃ index, .executing index ∈ model.places unit := by
  simp only [executing_mem_places_iff, runningUnits, List.map_filterMap, List.mem_filterMap]
  constructor
  · rintro ⟨thread, inside, runs⟩
    obtain ⟨index, found⟩ := List.mem_iff_getElem?.mp inside
    exact ⟨index, thread, found, runs⟩
  · rintro ⟨index, thread, found, runs⟩
    exact ⟨thread, List.mem_of_getElem? found, runs⟩

theorem mem_runningElsewhere_iff (inert : Inert model.threads) {machine : MachineId} :
    unit ∈ (runningElsewhere model.threads machine).map (·.id) ↔
      ∃ index, .executing index ∈ model.places unit ∧ model.machineAt? index ≠ some machine := by
  simp only [executing_mem_places_iff, runningElsewhere, runningUnits, List.map_filterMap,
    List.mem_filterMap, List.mem_filter]
  constructor
  · rintro ⟨thread, ⟨inside, other⟩, runs⟩
    obtain ⟨index, found⟩ := List.mem_iff_getElem?.mp inside
    refine ⟨index, ⟨thread, found, runs⟩, ?_⟩
    rw [machineAt?, found, Option.bind_some]
    intro is
    simp [is] at other
  · rintro ⟨index, ⟨thread, found, runs⟩, other⟩
    have inside := List.mem_of_getElem? found
    rw [machineAt?, found, Option.bind_some] at other
    refine ⟨thread, ⟨inside, ?_⟩, runs⟩
    cases is : thread.machine with
    | none =>
      have idle : thread.executing = none := congrArg Status.executing (inert thread inside is)
      simp [idle] at runs
    | some taken => simpa [is] using other

theorem exists_place_of_waiting {context : Context} (bound : context ∈ boundContexts model.threads)
    {waiting : WorkUnit} (waits : waiting ∈ context.waiting) :
    ∃ location ∈ model.places waiting.id, location.IsQueueOf context.id := by
  rw [Context.waiting, List.mem_append, Option.mem_toList] at waits
  rcases waits with next | queued
  · refine ⟨.runNext context.id, ?_, .inl rfl⟩
    exact runNext_mem_places_iff.mpr ⟨context, bound, rfl, by simp [Option.mem_def.mp next]⟩
  · refine ⟨.runQueue context.id, ?_, .inr rfl⟩
    exact runQueue_mem_places_iff.mpr ⟨context, bound, rfl, List.mem_map_of_mem queued⟩

/-- A unit waits on a context that satisfies `p` just when a queue of such a context is one of
its places. -/
theorem mem_waiting_iff (p : ContextId → Bool) :
    unit ∈ (((boundContexts model.threads).filter (p ·.id)).flatMap Context.waiting).map (·.id) ↔
      ∃ location ∈ model.places unit, ∃ context, p context ∧ location.IsQueueOf context := by
  simp only [List.mem_map, List.mem_flatMap, List.mem_filter]
  constructor
  · rintro ⟨waiting, ⟨context, ⟨bound, fits⟩, waits⟩, rfl⟩
    obtain ⟨location, here, queue⟩ := exists_place_of_waiting bound waits
    exact ⟨location, here, context.id, fits, queue⟩
  · rintro ⟨location, here, id, fits, rfl | rfl⟩
    · obtain ⟨context, bound, rfl, first⟩ := runNext_mem_places_iff.mp here
      obtain ⟨waiting, next, rfl⟩ := Option.map_eq_some_iff.mp first
      refine ⟨waiting, ⟨context, ⟨bound, fits⟩, ?_⟩, rfl⟩
      exact List.mem_append_left _ (Option.mem_toList.mpr next)
    · obtain ⟨context, bound, rfl, listed⟩ := runQueue_mem_places_iff.mp here
      obtain ⟨waiting, queued, rfl⟩ := List.mem_map.mp listed
      exact ⟨waiting, ⟨context, ⟨bound, fits⟩, List.mem_append_right _ queued⟩, rfl⟩

/-- A unit is nowhere but on a machine just when it is not among all other units. -/
theorem forall_runsAt_iff (inert : Inert model.threads) {machine : MachineId} :
    (∀ location ∈ model.places unit, model.RunsAt machine location) ↔
      unit ∉ (model.offMachine machine).map (·.id) := by
  have waits := @mem_waiting_iff model unit fun _ => true
  rw [List.filter_true] at waits
  rw [offMachine, List.map_append, List.map_append, List.map_map, List.mem_append, List.mem_append,
    mem_runningElsewhere_iff inert, waits, not_or, not_or]
  constructor
  · intro only
    refine ⟨⟨?_, ?_⟩, ?_⟩
    · rintro ⟨index, here, other⟩
      obtain ⟨_, same, is⟩ := only _ here
      cases same
      exact other is
    · rintro ⟨location, here, context, _, queue⟩
      obtain ⟨index, rfl, _⟩ := only _ here
      rcases queue with queue | queue <;> cases queue
    · intro parks
      obtain ⟨_, same, _⟩ := only _ (parked_mem_places_iff.mpr parks)
      cases same
  · rintro ⟨⟨elsewhere, waiting⟩, parks⟩ location here
    cases location with
    | executing index =>
      refine ⟨index, rfl, ?_⟩
      by_contra other
      exact elsewhere ⟨index, here, other⟩
    | runNext context => exact absurd ⟨_, here, context, rfl, .inl rfl⟩ waiting
    | runQueue context => exact absurd ⟨_, here, context, rfl, .inr rfl⟩ waiting
    | parked => exact absurd (parked_mem_places_iff.mp here) parks

/-- A unit is nowhere but on a context, or parked if it leaves there, just when it is not among
all other units. -/
theorem forall_isQueueOf_iff (context : ContextId) {kept : List ParkedUnit} {leaves : Prop}
    (remains : unit ∈ kept.map (·.unit.id) ↔ unit ∈ model.parked.map (·.unit.id) ∧ ¬ leaves) :
    (∀ location ∈ model.places unit, location.IsQueueOf context ∨ (leaves ∧ location = .parked)) ↔
      unit ∉ (model.offContext context kept).map (·.id) := by
  have waits := @mem_waiting_iff model unit (· ≠ context)
  have parks : unit ∈ kept.map ((·.id) ∘ (·.unit)) ↔ .parked ∈ model.places unit ∧ ¬ leaves := by
    rw [parked_mem_places_iff]
    exact remains
  rw [offContext, List.map_append, List.map_append, List.map_map, List.mem_append, List.mem_append,
    mem_runningUnits_iff, waits, parks, not_or, not_or]
  constructor
  · intro only
    refine ⟨⟨?_, ?_⟩, ?_⟩
    · rintro ⟨index, here⟩
      rcases only _ here with (queue | queue) | ⟨_, queue⟩ <;> cases queue
    · rintro ⟨location, here, other, ne, queue⟩
      rcases only _ here with own | ⟨_, rfl⟩
      · rcases own with rfl | rfl <;> rcases queue with queue | queue <;> cases queue <;> simp at ne
      · rcases queue with queue | queue <;> cases queue
    · rintro ⟨here, stays⟩
      rcases only _ here with (queue | queue) | ⟨left, _⟩
      · cases queue
      · cases queue
      · exact stays left
  · rintro ⟨⟨runs, waiting⟩, stays⟩ location here
    cases location with
    | executing index => exact absurd ⟨index, here⟩ runs
    | runNext other =>
      by_contra outside
      refine waiting ⟨_, here, other, ?_, .inl rfl⟩
      simpa using fun same : other = context => outside (.inl (.inl (congrArg _ same)))
    | runQueue other =>
      by_contra outside
      refine waiting ⟨_, here, other, ?_, .inr rfl⟩
      simpa using fun same : other = context => outside (.inl (.inr (congrArg _ same)))
    | parked =>
      by_contra outside
      exact stays ⟨here, fun left => outside (.inr ⟨left, rfl⟩)⟩

theorem map_id_boundContexts (threads : List Thread) :
    (boundContexts threads).map (·.id) = contextIds threads := by
  rw [boundContexts, List.map_filterMap]
  rfl

theorem contextsAfter_perm (bound : WellBound model.threads) {seen : Observation}
    (known : seen.context.id ∈ contextIds model.threads) :
    (model.contextsAfter [seen]).Perm
      (seen.context :: (boundContexts model.threads).filter (·.id ≠ seen.context.id)) := by
  have replaced : model.contextsAfter [seen] = (boundContexts model.threads).map fun context =>
      if seen.context.id = context.id then seen.context else context := by
    apply List.map_congr_left
    intro context _
    rw [latest?_singleton, Observation.of?]
    split <;> rfl
  rw [← map_id_boundContexts] at known
  rw [replaced]
  exact map_replace_perm ((map_id_boundContexts _).symm ▸ bound.contexts) known seen.context

/-- The units after an observation are those seen and all that are not on the context. -/
theorem seen_perm (bound : WellBound model.threads) {seen : Observation}
    (known : seen.context.id ∈ contextIds model.threads) (kept : List ParkedUnit) :
    (runningUnits model.threads ++ (model.contextsAfter [seen]).flatMap Context.waiting ++
      kept.map (·.unit)).Perm (seen.context.waiting ++ model.offContext seen.context.id kept) := by
  have apart := (contextsAfter_perm bound known).flatMap_right Context.waiting
  rw [List.flatMap_cons] at apart
  rw [offContext, ← List.append_assoc]
  refine List.Perm.append_right _ ?_
  exact (apart.append_left _).trans (List.perm_append_comm_assoc ..)

/-- No unit is in two places after an observation just when those seen are distinct and come from
nowhere else. -/
theorem nodup_seen_iff (consistent : model.Consistent) {seen : Observation}
    (known : seen.context.id ∈ contextIds model.threads) {kept : List ParkedUnit}
    (fewer : kept.Sublist model.parked) :
    ((runningUnits model.threads ++ (model.contextsAfter [seen]).flatMap Context.waiting ++
      kept.map (·.unit)).map (·.id)).Nodup ↔
      (seen.context.waiting.map (·.id)).Nodup ∧ ∀ unit ∈ seen.context.waiting,
        unit.id ∉ (model.offContext seen.context.id kept).map (·.id) := by
  have others : ((boundContexts model.threads).filter (·.id ≠ seen.context.id)).Sublist
      (boundContexts model.threads) := List.filter_sublist
  have rest : ((model.offContext seen.context.id kept).map (·.id)).Nodup :=
    consistent.nodup_of_sublist
      (((List.Sublist.refl _).append (others.flatMap Context.waiting)).append (fewer.map (·.unit)))
  rw [((seen_perm consistent.bound known kept).map (·.id)).nodup_iff, nodup_map_append_iff,
    and_iff_right rest]

theorem mem_unparked_iff (consistent : model.Consistent) (readied : UnitId) :
    unit ∈ (model.parked.eraseP (·.unit.id = readied)).map (·.unit.id) ↔
      unit ∈ model.parked.map (·.unit.id) ∧ ¬ unit = readied := by
  have erased : (model.parked.eraseP (·.unit.id = readied)).map (·.unit.id) =
      (model.parked.map (·.unit.id)).erase readied := by
    rw [List.erase_eq_eraseP', List.eraseP_map]
    rfl
  rw [erased, consistent.nodup_parked.mem_erase_iff, and_comm]

@[simp] theorem contextsAfter_nil (model : Model) :
    model.contextsAfter [] = boundContexts model.threads := List.map_id' _

theorem unitsAfter_park (event : Event.Park) :
    (Event.park event).unitsAfter model = model.offMachine event.machine ++ [event.unit] := by
  simp [Event.unitsAfter, Event.observations, Event.parkedAfter, Event.runningAfter, offMachine]

theorem fits_schedule_iff (consistent : model.Consistent) (event : Event.Schedule) :
    (Event.schedule event).Fits model ↔ model.Accepts (.schedule event) := by
  have once : (((Event.schedule event).unitsAfter model).map (·.id)).Nodup := by
    apply consistent.nodup_of_sublist
    rw [Event.unitsAfter, Event.observations, contextsAfter_nil]
    exact ((runningElsewhere_sublist _ _).append_right _).append_right _
  exact and_iff_left once

theorem fits_park_iff (consistent : model.Consistent) (inert : Inert model.threads)
    (event : Event.Park) :
    (Event.park event).Fits model ↔ model.Accepts (.park event) := by
  have elsewhere := runningElsewhere_sublist model.threads event.machine
  have once : ((model.offMachine event.machine).map (·.id)).Nodup :=
    consistent.nodup_of_sublist ((elsewhere.append_right _).append_right _)
  refine and_congr_right fun _ => ?_
  rw [forall_runsAt_iff inert, unitsAfter_park,
    ((List.perm_append_singleton event.unit _).map fun unit : WorkUnit => unit.id).nodup_iff,
    List.map_cons, List.nodup_cons, and_iff_left once]

theorem fits_queueStatus_iff (consistent : model.Consistent) (seen : Observation) :
    (Event.queueStatus seen).Fits model ↔ model.Accepts (.queueStatus seen) := by
  refine and_congr_right fun known => ?_
  refine (nodup_seen_iff consistent known (List.Sublist.refl _)).trans ?_
  refine and_congr_right fun _ => forall₂_congr fun unit _ => ?_
  rw [← @forall_isQueueOf_iff model unit.id seen.context.id model.parked False (by simp)]
  simp only [false_and, or_false]

theorem fits_ready_iff (consistent : model.Consistent) (event : Event.Ready) :
    (Event.ready event).Fits model ↔ model.Accepts (.ready event) := by
  rw [Accepts, Event.Fits, Event.Finds, and_assoc]
  refine and_congr_right fun known => and_congr_right fun _ => ?_
  refine (nodup_seen_iff consistent known List.eraseP_sublist).trans ?_
  refine and_congr_right fun _ => forall₂_congr fun unit _ => ?_
  exact (forall_isQueueOf_iff _ (mem_unparked_iff consistent event.unit)).symm

end Model

namespace Model

variable {model : Model} {event : Event} {decision : Decision}

theorem exists_commit_iff_accepts (consistent : model.Consistent) (inert : Inert model.threads)
    (decides : event.decision? = some decision) :
    (∃ result, model.commit decision = .ok result) ↔ model.Accepts event := by
  rw [exists_commit_iff_fits consistent.bound inert decides]
  cases event with
  | schedule event => exact fits_schedule_iff consistent event
  | execute event => exact and_assoc
  | queueStatus seen => exact fits_queueStatus_iff consistent seen
  | park event => exact fits_park_iff consistent inert event
  | ready event => exact fits_ready_iff consistent event
  | newContext => cases decides
  | progress => cases decides

end Model

namespace Engine

theorem perform_of_event? {engine : Engine} {call : Call} {event : Event}
    (live : engine.isCorrupted = false) (applies : call.event? = some event) :
    (engine.perform call).1 = .snapshot (engine.run.applyEvent event).answer := by
  cases call with
  | applyEvent other => cases applies; rfl
  | apply probe =>
    rw [Call.event?] at applies
    split at applies
    · next other means =>
      cases applies
      simp only [perform, apply, publishing, Reconstruction.apply_eq live, means, Prod.map_fst]
    · cases applies
  | seed | decode | reset | subscribe | receive | drain | drop => cases applies

theorem answer_of_commit {engine : Engine} {call : Call} {event : Event} {decision : Decision}
    {model : Model} {changes : Changes} (live : engine.isCorrupted = false)
    (applies : call.event? = some event) (decides : event.decision? = some decision)
    (fits : engine.model.commit decision = .ok (model, changes)) :
    (engine.perform call).1 = .snapshot (.ok ⟨engine.snapshot.sequence + 1, model, changes⟩) := by
  have committed : engine.run.snapshot.model.commit decision = .ok (model, changes) := fits
  rw [perform_of_event? live applies, Reconstruction.applyEvent, decides]
  simp only [Reconstruction.commitDecision, committed, Reconstruction.committed,
    Reconstruction.attempt_ok live]
  rfl

theorem answer_of_violation {engine : Engine} {call : Call} {event : Event} {decision : Decision}
    {violation : Violation} (live : engine.isCorrupted = false)
    (applies : call.event? = some event) (decides : event.decision? = some decision)
    (refused : engine.model.commit decision = .error violation) :
    (engine.perform call).1 = .snapshot (.error (.invariant violation)) := by
  have refused : engine.run.snapshot.model.commit decision = .error violation := refused
  rw [perform_of_event? live applies, Reconstruction.applyEvent, decides]
  simp only [Reconstruction.commitDecision, refused, Reconstruction.attempt_error live]

theorem exists_answer_iff {run : Reconstruction} (live : run.corrupted = false) (event : Event) :
    (∃ snapshot, (run.applyEvent event).answer = .ok snapshot) ↔
      ∀ decision, event.decision? = some decision →
        ∃ result, run.snapshot.model.commit decision = .ok result := by
  unfold Reconstruction.applyEvent
  cases event.decision? with
  | none => simp [Reconstruction.attempt_ok live]
  | some decision =>
    simp only [Reconstruction.commitDecision]
    cases fits : run.snapshot.model.commit decision with
    | error violation => simp [Reconstruction.attempt_error live, fits]
    | ok committed =>
      obtain ⟨model, changes⟩ := committed
      simp [Reconstruction.committed, Reconstruction.attempt_ok live, fits]

/-- A run in which no call has failed commits an event just when the model accepts it. -/
theorem commits_exactly_what_is_accepted (calls : List Call) (call : Call) (event : Event) :
    let engine := new.performAll calls
    engine.isCorrupted = false → call.event? = some event →
      ((∃ snapshot, (engine.perform call).1 = .snapshot (.ok snapshot)) ↔
        engine.model.Accepts event) := by
  intro engine live applies
  have consistent : engine.model.Consistent := consistent_performAll calls
  have inert : Inert engine.model.threads := inert_performAll calls
  -- An event without a decision is only counted, and its kind is accepted in every state.
  rw [perform_of_event? live applies]
  simp only [Reply.snapshot.injEq]
  rw [exists_answer_iff live]
  constructor
  · intro fits
    cases decides : event.decision? with
    | none => cases event <;> first | exact trivial | cases decides
    | some decision =>
      exact (Model.exists_commit_iff_accepts consistent inert decides).mp (fits decision decides)
  · intro accepted decision decides
    exact (Model.exists_commit_iff_accepts consistent inert decides).mpr accepted

/-- A unit that gets ready is still parked when it is seen on the queue. -/
theorem commits_exactly_what_is_accepted_at_ready :
    let calls : List Call := [.seed (some 1), .applyEvent (.park ⟨⟨0⟩, Model.bootstrap, "select"⟩)]
    let ready : Event := .ready ⟨⟨0⟩, ⟨some ⟨0⟩, ⟨⟨0⟩, none, [Model.bootstrap]⟩⟩⟩
    let engine := new.performAll calls
    engine.isCorrupted = false ∧ Location.parked ∈ engine.model.places ⟨0⟩ ∧
      engine.model.Accepts ready :=
  ⟨by decide, by decide, (commits_exactly_what_is_accepted _ (.applyEvent _) _ (by decide) rfl).mp
    ⟨_, rfl⟩⟩

end Engine

end SchedReplay
