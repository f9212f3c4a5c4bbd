import SchedReplay.Proofs.Lineup

/-! What a commit reports to have changed is all that changed. A list whose flag is not set stays
as it was, and so does the entry of a machine that is not listed, except that its context may have
been handed over. -/
namespace SchedReplay

theorem ascending_insertMachine {machine : MachineId} {machines : List MachineId}
    (ascending : machines.Pairwise (·.val < ·.val)) :
    (insertMachine machine machines).Pairwise (·.val < ·.val) := by
  induction machines with
  | nil => simp [insertMachine]
  | cons first rest ih =>
    obtain ⟨least, later⟩ := List.pairwise_cons.mp ascending
    rw [insertMachine]
    split
    · next below =>
      refine List.pairwise_cons.mpr ⟨?_, ascending⟩
      intro other member
      rcases List.mem_cons.mp member with rfl | inside
      · exact below
      · exact UInt64.lt_trans below (least other inside)
    · next notBelow =>
      split
      · exact ascending
      · next ne =>
        refine List.pairwise_cons.mpr ⟨?_, ih later⟩
        intro other member
        rcases mem_insertMachine.mp member with rfl | inside
        · have differ : first.val ≠ other.val := fun same => ne (congrArg MachineId.mk same.symm)
          exact UInt64.lt_of_le_of_ne (UInt64.not_lt.mp notBelow) differ
        · exact least other inside

theorem Delta.machine_eq_some_iff {delta : Delta} {machine : MachineId} :
    delta.machine = some machine ↔
      (∃ isScheduling, delta = .scheduling machine isScheduling) ∨
      (∃ unit, delta = .executing machine unit) ∨
      (∃ context, delta = .bind machine context) ∨
      ∃ state, delta = .contextState (some machine) state := by
  cases delta <;> simp [Delta.machine]

theorem mem_filterMap_context?_iff {decision : Decision} {context : ContextId} :
    context ∈ decision.filterMap Delta.context? ↔ (∃ taker, .bind taker context ∈ decision) ∨
      ∃ owner state, .contextState owner state ∈ decision ∧ state.id = context := by
  rw [List.mem_filterMap]
  constructor
  · rintro ⟨delta, member, names⟩
    cases delta with
    | bind taker => exact .inl ⟨taker, Option.some.inj names ▸ member⟩
    | contextState owner state => exact .inr ⟨owner, state, member, Option.some.inj names⟩
    | scheduling | executing | parkedAdded | parkedRemoved => cases names
  · rintro (⟨taker, member⟩ | ⟨owner, state, member, rfl⟩)
    · exact ⟨_, member, rfl⟩
    · exact ⟨_, member, rfl⟩

namespace Changes

theorem ofDecision_concat (decision : Decision) (delta : Delta) :
    ofDecision (decision ++ [delta]) = (ofDecision decision).record delta := by
  simp [ofDecision]

theorem ascending_ofDecision (decision : Decision) :
    (ofDecision decision).machines.Pairwise (·.val < ·.val) := by
  induction decision using List.reverseRecOn with
  | nil => exact .nil
  | append_singleton earlier delta ih =>
    rw [ofDecision_concat, record]
    split
    · exact ih
    · exact ascending_insertMachine ih

theorem mem_machines_ofDecision {decision : Decision} {machine : MachineId} :
    machine ∈ (ofDecision decision).machines ↔ ∃ delta ∈ decision, delta.machine = some machine := by
  induction decision using List.reverseRecOn with
  | nil => simp [ofDecision, empty]
  | append_singleton earlier delta ih =>
    simp only [ofDecision_concat, record, List.mem_append, List.mem_singleton, or_and_right,
      exists_or, exists_eq_left, ← ih]
    cases delta.machine with
    | none => simp
    | some named => simp [mem_insertMachine, or_comm, eq_comm]

theorem threads_ofDecision (decision : Decision) :
    (ofDecision decision).threads = decision.any (!·.isParking) := by
  induction decision using List.reverseRecOn with
  | nil => rfl
  | append_singleton earlier delta ih => simp [ofDecision_concat, record, ih]

theorem parked_ofDecision (decision : Decision) :
    (ofDecision decision).parked = decision.any (·.isParking) := by
  induction decision using List.reverseRecOn with
  | nil => rfl
  | append_singleton earlier delta ih => simp [ofDecision_concat, record, ih]

end Changes

namespace Thread

/-- The entry without its context, if that is one of the given ones. -/
def withoutAny (contexts : List ContextId) (thread : Thread) : Thread :=
  { thread with context := thread.context.filter (·.id ∉ contexts) }

@[simp] theorem withoutAny_nil : withoutAny [] = id := by
  funext thread
  obtain ⟨_, _, held, _⟩ := thread
  cases held <;> rfl

@[simp] theorem withoutAny_singleton (context : ContextId) :
    withoutAny [context] = without context := by
  funext thread
  obtain ⟨_, _, held, _⟩ := thread
  cases held with
  | none => simp [withoutAny, without, contextId]
  | some held =>
    by_cases same : held.id = context <;>
      simp [withoutAny, without, contextId, vacate, Option.filter, same]

theorem context_withoutAny (contexts : List ContextId) (thread : Thread) :
    (thread.withoutAny contexts).context = thread.context ∨
      (thread.withoutAny contexts).context = none ∧
        ∃ context ∈ thread.contextId, context ∈ contexts := by
  obtain ⟨_, _, held, _⟩ := thread
  cases held with
  | none => exact .inl rfl
  | some held =>
    by_cases named : held.id ∈ contexts
    · exact .inr ⟨by simp [withoutAny, named], held.id, rfl, named⟩
    · exact .inl (by simp [withoutAny, named])

theorem withoutAny_withoutAny (first more : List ContextId) (thread : Thread) :
    (thread.withoutAny first).withoutAny more = thread.withoutAny (first ++ more) := by
  simp [withoutAny, Option.filter_filter]

end Thread

namespace Model

variable {model next : Model} {delta : Delta} {decision : Decision}

theorem Staged.threads_of_isParking (staged : model.Staged delta next)
    (parking : delta.isParking = true) : next.threads = model.threads := by
  cases staged with
  | parkedAdded | parkedRemoved => rfl
  | scheduling | executing | bind | taken | left => cases parking

theorem Staged.parked_of_not_isParking (staged : model.Staged delta next)
    (threading : delta.isParking = false) : next.parked = model.parked := by
  cases staged with
  | scheduling | executing | bind | taken | left => rfl
  | parkedAdded | parkedRemoved => cases threading

theorem thread?_updateMachine_of_ne (bound : WellBound model.threads) {machine named : MachineId}
    (ne : machine ≠ named) {change : Thread → Thread}
    (keeps : ∀ thread, (change thread).machine = thread.machine) :
    { model with threads := updateFirst (·.isMachine named) change model.threads }.thread? machine =
      model.thread? machine := by
  rw [thread?, find?_isMachine_updateMachine keeps bound.machines]
  simp [thread?, ne]

/-- A change that does not name a machine leaves its entry alone, unless it hands over the context
that the entry holds. -/
theorem Staged.thread?_of_ne (staged : model.Staged delta next) (bound : WellBound model.threads)
    {machine : MachineId} (other : delta.machine ≠ some machine) :
    next.thread? machine =
      (model.thread? machine).map (Thread.withoutAny delta.context?.toList) := by
  have differs {named : MachineId} (names : delta.machine = some named) : machine ≠ named :=
    fun same => other (same ▸ names)
  cases staged with
  | scheduling named =>
    refine (thread?_updateMachine_of_ne bound (differs rfl) ?_).trans ?_
    · intro thread; rfl
    · simp [Delta.context?]
  | executing named =>
    refine (thread?_updateMachine_of_ne bound (differs rfl) ?_).trans ?_
    · intro thread; rfl
    · simp [Delta.context?]
  | bind named context held found =>
    rw [thread?, find?_isMachine_handedOver bound, if_neg (differs rfl), id_of_heldContext? found]
    simp [thread?, Delta.context?]
  | taken named state =>
    rw [thread?, find?_isMachine_handedOver bound, if_neg (differs rfl)]
    simp [thread?, Delta.context?]
  | left state known =>
    rw [thread?, find?_isMachine_disowned bound known]
    simp [thread?, Delta.context?]
  | parkedAdded => simp [thread?, Delta.context?]
  | parkedRemoved => simp [thread?, Delta.context?]

/-- What no change of a given sort touches, no decision made of such changes touches. -/
theorem stageAll_keeps {read : Model → σ} {sort : Delta → Prop}
    (keeps : ∀ {model next : Model} {delta : Delta}, Staged model delta next → sort delta →
      read next = read model)
    (staged : model.stageAll decision = .ok next) (sorted : ∀ delta ∈ decision, sort delta) :
    read next = read model := by
  induction decision generalizing model with
  | nil =>
    obtain rfl := stageAll_nil_eq_ok_iff.mp staged
    rfl
  | cons delta rest ih =>
    obtain ⟨middle, first, later⟩ := stageAll_cons_eq_ok_iff.mp staged
    obtain ⟨this, others⟩ := List.forall_mem_cons.mp sorted
    exact (ih later others).trans (keeps first this)

theorem stageAll_thread?_of_ne (bound : WellBound model.threads)
    (staged : model.stageAll decision = .ok next) {machine : MachineId}
    (others : ∀ delta ∈ decision, delta.machine ≠ some machine) :
    next.thread? machine =
      (model.thread? machine).map (Thread.withoutAny (decision.filterMap Delta.context?)) := by
  induction decision generalizing model with
  | nil =>
    obtain rfl := stageAll_nil_eq_ok_iff.mp staged
    simp
  | cons delta rest ih =>
    obtain ⟨middle, first, later⟩ := stageAll_cons_eq_ok_iff.mp staged
    obtain ⟨other, others⟩ := List.forall_mem_cons.mp others
    have named : (delta :: rest).filterMap Delta.context? =
        delta.context?.toList ++ rest.filterMap Delta.context? := by
      cases names : delta.context? <;> simp [names]
    rw [ih (first.wellBound bound) later others, first.thread?_of_ne bound other, Option.map_map,
      named]
    congr 1
    funext thread
    exact thread.withoutAny_withoutAny _ _

/-- What is not reported as changed is as before. The machines are those that the changes name; a
machine that is not among them does what it did and keeps its context, unless that was handed
over or released, and then it has none. -/
theorem changes_cover_what_changed (model next : Model) (decision : Decision) (changes : Changes) :
    model.verify = .ok () → model.commit decision = .ok (next, changes) →
      changes.machines.Pairwise (·.val < ·.val) ∧
      (∀ machine, machine ∈ changes.machines ↔
        (∃ isScheduling, .scheduling machine isScheduling ∈ decision) ∨
        (∃ unit, .executing machine unit ∈ decision) ∨
        (∃ context, .bind machine context ∈ decision) ∨
        ∃ state, .contextState (some machine) state ∈ decision) ∧
      (changes.threads = false → next.threads = model.threads) ∧
      (changes.parked = false → next.parked = model.parked) ∧
      ∀ machine before, model.thread? machine = some before → machine ∉ changes.machines →
        ∃ after, next.thread? machine = some after ∧
          after.executing = before.executing ∧ after.isScheduling = before.isScheduling ∧
          (after.context = before.context ∨ after.context = none ∧
            ∃ context ∈ before.contextId, (∃ taker, .bind taker context ∈ decision) ∨
              ∃ owner state, .contextState owner state ∈ decision ∧ state.id = context) := by
  intro verified committed
  obtain ⟨staged, _, rfl⟩ := commit_eq_ok_iff.mp committed
  have bound := (verify_eq_ok_iff.mp verified).bound
  refine ⟨Changes.ascending_ofDecision decision, ?_, ?_, ?_, ?_⟩
  · intro machine
    rw [Changes.mem_machines_ofDecision]
    simp only [Delta.machine_eq_some_iff]
    grind
  · intro unset
    rw [Changes.threads_ofDecision] at unset
    exact stageAll_keeps Staged.threads_of_isParking staged (by simpa using unset)
  · intro unset
    rw [Changes.parked_ofDecision] at unset
    exact stageAll_keeps Staged.parked_of_not_isParking staged (by simpa using unset)
  · intro machine before found unlisted
    rw [Changes.mem_machines_ofDecision] at unlisted
    have entry := stageAll_thread?_of_ne bound staged (by simpa using unlisted)
    rw [found] at entry
    refine ⟨_, entry, rfl, rfl, ?_⟩
    rcases before.context_withoutAny (decision.filterMap Delta.context?) with same | ⟨gone, held⟩
    · exact .inl same
    · obtain ⟨context, holds, named⟩ := held
      exact .inr ⟨gone, context, holds, mem_filterMap_context?_iff.mp named⟩

/-- A new machine takes the context of machine 0, which is not listed: it still runs its unit and
has no context any more. -/
theorem changes_cover_what_changed_in_theft :
    let decision : Decision := [.bind ⟨7⟩ ⟨0⟩, .scheduling ⟨1⟩ true]
    let next : Model := ⟨[⟨some ⟨0⟩, false, none, some ⟨⟨1⟩, ""⟩⟩,
      ⟨some ⟨1⟩, true, some (.idle ⟨1⟩), some ⟨⟨2⟩, ""⟩⟩, .unclaimed (.idle ⟨2⟩),
      ⟨some ⟨7⟩, false, some ⟨⟨0⟩, none, [⟨⟨5⟩, ""⟩]⟩, none⟩], []⟩
    let changes : Changes := ⟨true, false, [⟨1⟩, ⟨7⟩]⟩
    twoMachines.verify = .ok () ∧ twoMachines.commit decision = .ok (next, changes) ∧
      next.parked = twoMachines.parked ∧
      ∃ after, next.thread? ⟨0⟩ = some after ∧ after.executing = some ⟨⟨1⟩, ""⟩ := by
  intro decision next changes
  have verified : twoMachines.verify = .ok () := rfl
  have committed : twoMachines.commit decision = .ok (next, changes) := rfl
  obtain ⟨_, _, _, parked, entries⟩ :=
    changes_cover_what_changed twoMachines next decision changes verified committed
  obtain ⟨after, entry, runs, _⟩ := entries ⟨0⟩ _ rfl (by decide)
  exact ⟨verified, committed, parked rfl, after, entry, runs⟩

end Model

end SchedReplay
