import SchedReplay.Proofs.Agreement
import SchedReplay.Proofs.Outcome

/-! The order of the observations of an event plays no part as long as they are about different
contexts and come from different machines. The lists in between depend on it, and what they say in
the end does not. -/
namespace SchedReplay

theorem insertMachine_comm (first second : MachineId) (machines : List MachineId) :
    insertMachine first (insertMachine second machines) =
      insertMachine second (insertMachine first machines) := by
  obtain ⟨first⟩ := first
  obtain ⟨second⟩ := second
  induction machines with
  | nil => grind [insertMachine]
  | cons head rest ih => grind [insertMachine]

namespace Changes

theorem record_comm (changes : Changes) (first second : Delta) :
    (changes.record first).record second = (changes.record second).record first := by
  simp only [record, mk.injEq]
  refine ⟨Bool.or_right_comm .., Bool.or_right_comm .., ?_⟩
  cases first.machine with
  | none => rfl
  | some one =>
    cases second.machine with
    | none => rfl
    | some other => exact insertMachine_comm other one changes.machines

theorem ofDecision_perm {decision other : Decision} (permuted : decision.Perm other) :
    ofDecision decision = ofDecision other :=
  permuted.foldl_eq' (fun first _ second _ changes => record_comm changes first second) empty

end Changes

/-- Where no key repeats, the entry with a key is found in any order. -/
theorem find?_perm_of_nodup {key : α → Option κ} [DecidableEq κ] {entries others : List α}
    (permuted : entries.Perm others) (nodup : (entries.filterMap key).Nodup) (k : κ) :
    entries.find? (fun entry => key entry = some k) =
      others.find? (fun entry => key entry = some k) := by
  cases found : others.find? (fun entry => key entry = some k) with
  | none => simpa [permuted.mem_iff] using found
  | some entry =>
    have inside := permuted.mem_iff.mpr (List.mem_of_find?_eq_some found)
    exact find?_eq_some_of_nodup nodup inside (by simpa using List.find?_some found)

structure Apart (observations : List Observation) : Prop where
  contexts : (observations.map (·.context.id)).Nodup
  machines : (observations.filterMap (·.machine)).Nodup

namespace Apart

variable {observations others : List Observation}

theorem of_perm (apart : Apart observations) (permuted : observations.Perm others) :
    Apart others where
  contexts := (permuted.map _).nodup_iff.mp apart.contexts
  machines := (permuted.filterMap _).nodup_iff.mp apart.machines

theorem eq_of_context (apart : Apart observations) {first second : Observation}
    (one : first ∈ observations) (other : second ∈ observations)
    (same : first.context.id = second.context.id) : first = second :=
  List.inj_on_of_nodup_map apart.contexts one other same

theorem eq_of_machine (apart : Apart observations) {first second : Observation}
    (one : first ∈ observations) (other : second ∈ observations) {machine : MachineId}
    (owns : first.machine = some machine) (same : second.machine = some machine) :
    first = second :=
  eq_of_key_eq apart.machines one other owns same

theorem latest?_eq_some_iff (apart : Apart observations) {context : ContextId} {state : Context} :
    latest? (·.of? context) observations = some state ↔
      ∃ seen ∈ observations, seen.of? context = some state := by
  have one {first second : Observation} {shown found : Context} (inside : first ∈ observations)
      (member : second ∈ observations) (shows : first.of? context = some shown)
      (also : second.of? context = some found) : shown = found := by
    have target {seen : Observation} {state : Context} (shows : seen.of? context = some state) :
        seen.context.id = context := (Option.ite_none_right_eq_some.mp shows).1
    rw [apart.eq_of_context inside member ((target shows).trans (target also).symm)] at shows
    exact Option.some.inj (shows.symm.trans also)
  constructor
  · intro shown
    obtain ⟨seen, inside, shows⟩ := List.exists_of_findSome?_eq_some shown
    exact ⟨seen, List.mem_reverse.mp inside, shows⟩
  · rintro ⟨seen, inside, shows⟩
    cases shown : latest? (·.of? context) observations with
    | none =>
      rw [latest?_eq_none_iff] at shown
      simp [shown seen inside] at shows
    | some other =>
      obtain ⟨twin, member, also⟩ := List.exists_of_findSome?_eq_some shown
      rw [one (List.mem_reverse.mp member) inside also shows]

theorem latest?_perm (apart : Apart observations) (permuted : observations.Perm others)
    (context : ContextId) :
    latest? (·.of? context) observations = latest? (·.of? context) others := by
  ext state
  rw [apart.latest?_eq_some_iff, (apart.of_perm permuted).latest?_eq_some_iff]
  simp only [permuted.mem_iff]

end Apart

namespace Holding

variable (holding : Holding)

theorem claim_comm {first second : MachineId} {one other : ContextId} (machines : first ≠ second)
    (contexts : one ≠ other) :
    (holding.claim first one).claim second other = (holding.claim second other).claim first one := by
  funext context
  simp only [claim]
  grind

/-- What the machine leaves behind is unclaimed already when it is released. -/
theorem claim_release_comm (machine : MachineId) {one other : ContextId} (contexts : one ≠ other) :
    (holding.claim machine one).release other = (holding.release other).claim machine one := by
  funext context
  simp only [claim, release]
  by_cases left : context = other
  · subst left
    rcases (holding context).eq_none_or_eq_some with missing | ⟨holder, found⟩
    · simp [missing, Ne.symm contexts]
    · cases holder with
      | machine owner =>
        by_cases same : owner = machine <;> simp [found, Ne.symm contexts, same, Holder.left]
      | nobody status => simp [found, Ne.symm contexts, Holder.left]
  · simp [left]

theorem release_comm {one other : ContextId} (contexts : one ≠ other) :
    (holding.release one).release other = (holding.release other).release one := by
  funext context
  simp only [release]
  grind

/-- Observations of different contexts on different machines do not get in each other's way. -/
theorem after_delta_comm {first second : Observation}
    (contexts : first.context.id ≠ second.context.id)
    (machines : ∀ machine, first.machine = some machine → second.machine ≠ some machine) :
    (holding.after first.delta).after second.delta =
      (holding.after second.delta).after first.delta := by
  obtain ⟨one, state⟩ := first
  obtain ⟨other, shown⟩ := second
  cases one with
  | none =>
    cases other with
    | none => exact release_comm holding contexts
    | some machine => exact (claim_release_comm holding machine contexts.symm).symm
  | some machine =>
    cases other with
    | none => exact claim_release_comm holding machine contexts
    | some taker =>
      have different : machine ≠ taker := fun same => machines machine rfl (congrArg _ same.symm)
      exact claim_comm holding different contexts

theorem foldl_delta_perm {observations others : List Observation}
    (apart : Apart observations) (permuted : observations.Perm others) :
    (observations.map Observation.delta).foldl after holding =
      (others.map Observation.delta).foldl after holding := by
  rw [List.foldl_map, List.foldl_map]
  refine permuted.foldl_eq' ?_ holding
  -- Observations that are not the same one differ in context and machine.
  intro first inside second member holding
  by_cases same : first = second
  · rw [same]
  · apply after_delta_comm
    · exact fun context => same (apart.eq_of_context inside member context)
    · exact fun machine owns also => same (apart.eq_of_machine inside member owns also)

end Holding

namespace Model

variable {model next other : Model} {event : Event.Execute} {snapshots : List Observation}

theorem decision_perm (permuted : event.snapshots.Perm snapshots) :
    event.decision.Perm (Event.Execute.decision { event with snapshots }) :=
  ((permuted.map Observation.delta).cons _).cons _

theorem execute_agrees (bound : WellBound model.threads) (apart : Apart event.snapshots)
    (permuted : event.snapshots.Perm snapshots) (staged : model.stageAll event.decision = .ok next)
    (reordered : model.stageAll (Event.Execute.decision { event with snapshots }) = .ok other) :
    next.Agrees other where
  machines machine := by
    have named := ((decision_perm permuted).filterMap Delta.machine).mem_iff (a := machine)
    rw [stageAll_mem_machineIds_iff staged, stageAll_mem_machineIds_iff reordered, named]
  status machine := by
    rw [stageAll_status bound staged, stageAll_status bound reordered]
    simp only [Event.Execute.decision, List.foldl_cons, Status.foldl_observations]
  holding := by
    rw [stageAll_holding bound staged, stageAll_holding bound reordered]
    simp only [Event.Execute.decision, List.foldl_cons]
    exact Holding.foldl_delta_perm _ apart permuted
  contexts context := by
    have shows (event : Event.Execute) :
        lastObserved? context event.decision = latest? (·.of? context) event.snapshots :=
      Event.lastObserved?_decision (show (Event.execute event).decision? = _ from rfl) context
    rw [stageAll_context? bound staged, stageAll_context? bound reordered, shows, shows,
      apart.latest?_perm permuted]

theorem parked_of_execute (staged : model.stageAll event.decision = .ok next) :
    next.parked = model.parked :=
  stageAll_parkedUnits (show (Event.execute event).decision? = _ from rfl) staged

theorem units_perm_of_threads (threads : next.threads.Perm other.threads)
    (parked : next.parked = other.parked) : next.units.Perm other.units := by
  rw [units, units, parked]
  exact (threads.flatMap_right _).append_right _

/-- An event with its observations in another order is committed if it was committed in this one. -/
theorem exists_commit_of_perm (bound : WellBound model.threads) (apart : Apart event.snapshots)
    (permuted : event.snapshots.Perm snapshots)
    (fits : ∃ result, model.commit event.decision = .ok result) :
    ∃ result, model.commit (Event.Execute.decision { event with snapshots }) = .ok result := by
  rw [exists_commit_iff bound] at fits ⊢
  obtain ⟨next, staged, once⟩ := fits
  obtain ⟨entry, known⟩ := (exists_stageAll_execute_iff event).mp ⟨next, staged⟩
  obtain ⟨other, reordered⟩ := (exists_stageAll_execute_iff { event with snapshots }).mpr
    ⟨entry, fun snapshot inside => known snapshot (permuted.mem_iff.mpr inside)⟩
  have threads := (execute_agrees bound apart permuted staged reordered).perm
    (stageAll_wellBound bound staged) (stageAll_wellBound bound reordered)
  have parked : next.parked = other.parked :=
    (parked_of_execute staged).trans (parked_of_execute reordered).symm
  have units := units_perm_of_threads threads parked
  exact ⟨other, reordered, (units.map _).nodup_iff.mp once⟩

/-- The order in which an execute event lists what was observed decides nothing: whether it is
committed, what is parked and changed then, and what the entry of every machine and of every
context is. -/
theorem commit_of_reordered_execute (verified : model.verify = .ok ()) (event : Event.Execute)
    (contexts : (event.snapshots.map (·.context.id)).Nodup)
    (machines : (event.snapshots.filterMap (·.machine)).Nodup)
    (permuted : event.snapshots.Perm snapshots) :
    let reordered : Event.Execute := { event with snapshots }
    ((∃ result, model.commit event.decision = .ok result) ↔
      ∃ result, model.commit reordered.decision = .ok result) ∧
    ∀ next other changes others, model.commit event.decision = .ok (next, changes) →
      model.commit reordered.decision = .ok (other, others) →
        next.parked = other.parked ∧ changes = others ∧ next.threads.Perm other.threads ∧
          (∀ machine, next.thread? machine = other.thread? machine) ∧
            ∀ context, next.owner? context = other.owner? context := by
  intro reordered
  have bound : WellBound model.threads := (verify_eq_ok_iff.mp verified).bound
  have apart : Apart event.snapshots := ⟨contexts, machines⟩
  refine ⟨⟨?_, ?_⟩, ?_⟩
  · exact exists_commit_of_perm bound apart permuted
  · exact @exists_commit_of_perm model reordered event.snapshots bound (apart.of_perm permuted)
      permuted.symm
  · intro next other changes others fits also
    obtain ⟨staged, consistent, rfl⟩ := commit_eq_ok_iff.mp fits
    obtain ⟨again, _, rfl⟩ := commit_eq_ok_iff.mp also
    have threads := (execute_agrees bound apart permuted staged again).perm
      (stageAll_wellBound bound staged) (stageAll_wellBound bound again)
    refine ⟨?_, Changes.ofDecision_perm (decision_perm permuted), threads, ?_, ?_⟩
    · rw [parked_of_execute staged, parked_of_execute again]
    · intro machine
      exact find?_perm_of_nodup threads consistent.bound.machines machine
    · intro context
      exact find?_perm_of_nodup threads consistent.bound.contexts context

/-- Machine 0 starts a unit, and two machines are seen to have swapped their contexts. -/
def crossing : Event.Execute where
  machine := ⟨0⟩
  context := ⟨1⟩
  found := ⟨⟨6⟩, "worker"⟩
  snapshots := [⟨some ⟨0⟩, ⟨⟨1⟩, none, [⟨⟨7⟩, ""⟩]⟩⟩, ⟨some ⟨1⟩, ⟨⟨0⟩, none, [⟨⟨5⟩, ""⟩]⟩⟩,
    ⟨none, .idle ⟨2⟩⟩]

theorem commit_of_reordered_crossing :
    twoMachines.verify = .ok () ∧ ∃ next other changes others,
      twoMachines.commit crossing.decision = .ok (next, changes) ∧
      twoMachines.commit (Event.Execute.decision
        { crossing with snapshots := crossing.snapshots.reverse }) = .ok (other, others) ∧
      next.threads.Perm other.threads :=
  ⟨rfl, _, _, _, _, rfl, rfl, ((@commit_of_reordered_execute twoMachines _ rfl crossing (by decide)
    (by decide) (List.reverse_perm _).symm).2 _ _ _ _ rfl rfl).2.2.1⟩

end Model

end SchedReplay
