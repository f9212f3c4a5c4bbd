import SchedReplay.Proofs.Position
import SchedReplay.Proofs.Refusal

/-! The checker names the first conflict of a model: the first entry that cannot stand where it
does, or else the first position whose unit was met before. -/
namespace SchedReplay

/-- What is wrong with an entry at a given index, when the machines and contexts before it are
known. A machine that comes again is wrong before a context that does. -/
inductive Thread.Conflicts (index : Nat) (machines : List MachineId) (contexts : List ContextId)
    (thread : Thread) : Violation → Prop where
  | dead (unmachined : thread.machine = none) (unbound : thread.context = none) :
      Conflicts index machines contexts thread (.deadPlaceholder index)
  | machine {machine : MachineId} (is : thread.machine = some machine)
      (known : machine ∈ machines) :
      Conflicts index machines contexts thread (.duplicateMachine machine)
  | context {context : ContextId} (holds : thread.contextId = some context)
      (known : context ∈ contexts) (new : ∀ machine ∈ thread.machine, machine ∉ machines) :
      Conflicts index machines contexts thread (.duplicateContext context)

/-- What is wrong with the entry at a given index, in view of the entries before it. -/
def Offends (threads : List Thread) (index : Nat) (violation : Violation) : Prop :=
  ∃ thread, threads[index]? = some thread ∧
    thread.Conflicts index (machineIds (threads.take index)) (contextIds (threads.take index))
      violation

namespace Model

/-- Whether the unit at a position is also at one before. -/
def Repeats (model : Model) (position : Position) : Prop :=
  ∃ earlier unit, earlier.Before position ∧ model.unitAt? earlier = some unit ∧
    model.unitAt? position = some unit

/-- The first of all the conflicts of a model. -/
inductive FirstConflict (model : Model) : Violation → Prop where
  | entry {index : Nat} {violation : Violation} (offends : Offends model.threads index violation)
      (earliest : ∀ earlier < index, ∀ other, ¬ Offends model.threads earlier other) :
      FirstConflict model violation
  | unit {one other : Position} {unit : UnitId} {first second : Location}
      (clear : ∀ index violation, ¬ Offends model.threads index violation)
      (met : model.placementAt? one = some (unit, first))
      (new : ∀ earlier, earlier.Before one → model.unitAt? earlier ≠ some unit)
      (again : model.placementAt? other = some (unit, second)) (later : one.Before other)
      (earliest : ∀ earlier, earlier.Before other → ¬ model.Repeats earlier) :
      FirstConflict model (.duplicateUnit unit first second)

end Model

section Entries

variable {index : Nat} {machines : List MachineId} {contexts : List ContextId} {thread : Thread}
  {threads earlier rest : List Thread} {violation other : Violation}

theorem Thread.Conflicts.unique (conflicts : thread.Conflicts index machines contexts violation)
    (also : thread.Conflicts index machines contexts other) : violation = other := by
  cases conflicts with
  | dead unmachined unbound =>
    cases also with
    | dead => rfl
    | machine is => simp [unmachined] at is
    | context holds => simp [contextId, unbound] at holds
  | machine is known =>
    cases also with
    | dead unmachined => simp [unmachined] at is
    | machine this => simp_all
    | context _ _ new => exact absurd known (new _ is)
  | context holds known new =>
    cases also with
    | dead _ unbound => simp [contextId, unbound] at holds
    | machine is known => exact absurd known (new _ is)
    | context this => simp_all

/-- Only what was met before counts, not in which order. -/
theorem Thread.Conflicts.congr {machines' : List MachineId} {contexts' : List ContextId}
    (sameMachines : ∀ machine, machine ∈ machines ↔ machine ∈ machines')
    (sameContexts : ∀ context, context ∈ contexts ↔ context ∈ contexts')
    (conflicts : thread.Conflicts index machines contexts violation) :
    thread.Conflicts index machines' contexts' violation := by
  cases conflicts with
  | dead unmachined unbound => exact .dead unmachined unbound
  | machine is known => exact .machine is ((sameMachines _).mp known)
  | context holds known new =>
    refine .context holds ((sameContexts _).mp known) ?_
    intro machine is known
    exact new machine is ((sameMachines _).mpr known)

theorem offends_append_cons_iff : Offends (earlier ++ thread :: rest) earlier.length violation ↔
    thread.Conflicts earlier.length (machineIds earlier) (contextIds earlier) violation := by
  simp [Offends]

/-- The scan stops at an entry just when something is wrong with it. -/
theorem threadConflict?_cons_cases :
    (∃ found, thread.Conflicts index machines contexts found ∧
      threadConflict? index machines contexts (thread :: rest) = some found) ∨
    (∀ found, ¬ thread.Conflicts index machines contexts found) ∧
      threadConflict? index machines contexts (thread :: rest) =
        threadConflict? (index + 1) (thread.machine.toList ++ machines)
          (thread.contextId.toList ++ contexts) rest := by
  rw [threadConflict?]
  split
  · next dead =>
    obtain ⟨unmachined, unbound⟩ := Thread.isDead_iff.mp dead
    exact .inl ⟨_, .dead unmachined unbound, rfl⟩
  · next alive =>
    rw [Thread.isDead_iff] at alive
    cases machine : thread.machine.filter (· ∈ machines) with
    | some found =>
      obtain ⟨is, known⟩ := Option.filter_eq_some_iff.mp machine
      exact .inl ⟨_, .machine is (by simpa using known), rfl⟩
    | none =>
      have new : ∀ machine ∈ thread.machine, machine ∉ machines := by
        simpa using Option.filter_eq_none_iff.mp machine
      cases context : thread.contextId.filter (· ∈ contexts) with
      | some found =>
        obtain ⟨holds, known⟩ := Option.filter_eq_some_iff.mp context
        exact .inl ⟨_, .context holds (by simpa using known) new, rfl⟩
      | none =>
        have fresh : ∀ context ∈ thread.contextId, context ∉ contexts := by
          simpa using Option.filter_eq_none_iff.mp context
        refine .inr ⟨?_, rfl⟩
        intro found conflicts
        cases conflicts with
        | dead unmachined unbound => exact alive ⟨unmachined, unbound⟩
        | machine is known => exact new _ is known
        | context holds known => exact fresh _ holds known

/-- The scan of the entries that follow others finds the first that offends. -/
theorem offends_of_threadConflict?
    (sameMachines : ∀ machine, machine ∈ machines ↔ machine ∈ machineIds earlier)
    (sameContexts : ∀ context, context ∈ contexts ↔ context ∈ contextIds earlier)
    (found : threadConflict? earlier.length machines contexts threads = some violation) :
    ∃ index, Offends (earlier ++ threads) index violation ∧
      ∀ before < index, earlier.length ≤ before →
        ∀ other, ¬ Offends (earlier ++ threads) before other := by
  induction threads generalizing earlier machines contexts with
  | nil => cases found
  | cons thread rest ih =>
    rcases @threadConflict?_cons_cases earlier.length machines contexts thread rest with
      ⟨_, conflicts, stops⟩ | ⟨fine, goesOn⟩
    · obtain rfl := Option.some.inj (stops.symm.trans found)
      refine ⟨earlier.length, ?_, fun before lt le => absurd lt (Nat.not_lt.mpr le)⟩
      exact offends_append_cons_iff.mpr (conflicts.congr sameMachines sameContexts)
    · have length : earlier.length + 1 = (earlier ++ [thread]).length := by simp
      rw [goesOn, length] at found
      obtain ⟨index, offends, earliest⟩ := ih
        (by simp [sameMachines, or_comm]) (by simp [sameContexts, or_comm]) found
      rw [List.append_assoc, List.singleton_append] at offends earliest
      refine ⟨index, offends, ?_⟩
      intro before lt le other offends
      rcases Nat.eq_or_lt_of_le le with rfl | past
      · refine fine other (offends_append_cons_iff.mp offends |>.congr ?_ ?_)
        · intro machine; exact (sameMachines machine).symm
        · intro context; exact (sameContexts context).symm
      · exact earliest before lt (length ▸ past) other offends

theorem WellBound.not_offends (bound : WellBound threads) : ¬ Offends threads index violation := by
  rintro ⟨thread, found, conflicts⟩
  obtain ⟨inside, rfl⟩ := List.getElem?_eq_some_iff.mp found
  have split : threads.take index ++ threads[index] :: threads.drop (index + 1) = threads := by simp
  have machines := bound.machines
  have contexts := bound.contexts
  rw [← split, machineIds_append, List.nodup_append'] at machines
  rw [← split, contextIds_append, List.nodup_append'] at contexts
  cases conflicts with
  | dead unmachined unbound =>
    have alive := bound.alive _ (List.getElem_mem inside)
    simp [Thread.isDead, unmachined, unbound] at alive
  | machine is known => exact machines.2.2 known (mem_machineIds.mpr ⟨_, .head _, is⟩)
  | context holds known => exact contexts.2.2 known (mem_contextIds.mpr ⟨_, .head _, holds⟩)

end Entries

namespace Model

variable {model : Model} {violation other : Violation}

theorem unitAt?_of_placementAt? {position : Position} {unit : UnitId} {location : Location}
    (holds : model.placementAt? position = some (unit, location)) :
    model.unitAt? position = some unit := by
  simp [unitAt?, holds]

/-- The placements before a given one are those of the positions before its own. -/
theorem exists_position_of_placement {before after : List Placement}
    {placement : Placement} (split : model.placements = before ++ placement :: after) :
    ∃ (early : List Position) (again : Position), model.placementAt? again = some placement ∧
      early.map model.placementAt? = before.map some ∧
      (∀ position ∈ early, position.Before again) ∧
      ∀ position unit, position.Before again → model.unitAt? position = some unit →
        position ∈ early := by
  have positions := map_placementAt?_occupied model
  rw [split, List.map_append, List.map_cons] at positions
  obtain ⟨early, rest, occupied, areBefore, areRest⟩ := List.map_eq_append_iff.mp positions
  obtain ⟨again, late, rfl, holds, _⟩ := List.map_eq_cons_iff.mp areRest
  have sorted := model.pairwise_occupied
  rw [occupied, List.pairwise_append, List.pairwise_cons] at sorted
  obtain ⟨_, ⟨above, _⟩, below⟩ := sorted
  refine ⟨early, again, holds, areBefore, fun position is => below position is again (.head _), ?_⟩
  intro position unit lt here
  have inside := mem_occupied_of_unitAt? here
  rw [occupied, List.mem_append, List.mem_cons] at inside
  rcases inside with early | rfl | late
  · exact early
  · exact absurd lt position.not_before_self
  · exact absurd (lt.trans (above _ late)) position.not_before_self

theorem eq_of_unitAt?_of_nodup {early : List Position} {before : List Placement}
    (areBefore : early.map model.placementAt? = before.map some)
    (once : (before.map Prod.fst).Nodup) {one other : Position} (inOne : one ∈ early)
    (inOther : other ∈ early) (same : model.unitAt? one = model.unitAt? other) : one = other := by
  have units : early.map model.unitAt? = (before.map Prod.fst).map some := by
    have read : model.unitAt? = Option.map Prod.fst ∘ model.placementAt? := rfl
    rw [read, ← List.map_map, areBefore, List.map_map, List.map_map]
    rfl
  have nodup : (early.map model.unitAt?).Nodup := by
    rw [units]
    exact once.map fun _ _ => Option.some.inj
  exact List.inj_on_of_nodup_map nodup inOne inOther same

theorem firstConflict_of_unitConflict? (bound : WellBound model.threads)
    (found : unitConflict? [] model.placements = some violation) :
    model.FirstConflict violation := by
  obtain ⟨before, unit, first, second, after, split, once, met, rfl⟩ :=
    (unitConflict?_eq_some_iff (by simp)).mp found
  rw [List.append_nil] at once met
  obtain ⟨early, again, holds, areBefore, below, inEarly⟩ := exists_position_of_placement split
  obtain ⟨one, inside, is⟩ : ∃ one ∈ early, model.placementAt? one = some (unit, first) := by
    rw [← List.mem_map, areBefore]
    exact List.mem_map_of_mem met
  have lt := below one inside
  refine .unit (fun _ _ => bound.not_offends) is ?_ holds lt ?_
  · intro earlier precedes same
    obtain rfl := eq_of_unitAt?_of_nodup areBefore once
      (inEarly earlier _ (precedes.trans lt) same) inside
      (same.trans (unitAt?_of_placementAt? is).symm)
    exact earlier.not_before_self precedes
  · rintro earlier precedes ⟨first, unit, firstPrecedes, here, there⟩
    obtain rfl := eq_of_unitAt?_of_nodup areBefore once
      (inEarly first _ (firstPrecedes.trans precedes) here) (inEarly earlier _ precedes there)
      (here.trans there.symm)
    exact first.not_before_self firstPrecedes

theorem FirstConflict.unique (conflict : model.FirstConflict violation)
    (also : model.FirstConflict other) : violation = other := by
  cases conflict with
  | @entry index _ offends earliest =>
    cases also with
    | @entry index' _ offends' earliest' =>
      rcases Nat.lt_trichotomy index index' with lt | rfl | gt
      · exact absurd offends (earliest' index lt _)
      · obtain ⟨thread, found, conflicts⟩ := offends
        obtain ⟨thread', found', conflicts'⟩ := offends'
        obtain rfl := Option.some.inj (found.symm.trans found')
        exact conflicts.unique conflicts'
      · exact absurd offends' (earliest index' gt _)
    | unit clear => exact absurd offends (clear index _)
  | @unit one again unit first second clear met new holds later earliest =>
    cases also with
    | @entry index _ offends => exact absurd offends (clear index _)
    | @unit one' again' unit' first' second' clear' met' new' holds' later' earliest' =>
      have repeats : model.Repeats again :=
        ⟨one, unit, later, unitAt?_of_placementAt? met, unitAt?_of_placementAt? holds⟩
      have repeats' : model.Repeats again' :=
        ⟨one', unit', later', unitAt?_of_placementAt? met', unitAt?_of_placementAt? holds'⟩
      rcases again.before_trichotomy again' with before | rfl | after
      · exact absurd repeats (earliest' again before)
      · obtain ⟨rfl, rfl⟩ := Prod.mk.inj (Option.some.inj (holds.symm.trans holds'))
        rcases one.before_trichotomy one' with before | rfl | after
        · exact absurd (unitAt?_of_placementAt? met) (new' one before)
        · obtain ⟨_, rfl⟩ := Prod.mk.inj (Option.some.inj (met.symm.trans met'))
          rfl
        · exact absurd (unitAt?_of_placementAt? met') (new one' after)
      · exact absurd repeats' (earliest again' after)

theorem Consistent.not_firstConflict (consistent : model.Consistent) :
    ¬ model.FirstConflict violation := by
  intro conflict
  cases conflict with
  | entry offends => exact consistent.bound.not_offends offends
  | unit _ met _ again later =>
    obtain rfl := nodup_units_iff.mp consistent.units _ _ _ (unitAt?_of_placementAt? met)
      (unitAt?_of_placementAt? again)
    exact Position.not_before_self _ later

theorem firstConflict_of_conflict? (found : model.conflict? = some violation) :
    model.FirstConflict violation := by
  rw [conflict?] at found
  split at found
  · next entry =>
    obtain rfl := Option.some.inj found
    obtain ⟨index, offends, earliest⟩ :=
      @offends_of_threadConflict? [] [] model.threads [] _ (by simp) (by simp) entry
    exact .entry offends fun before lt => earliest before lt (Nat.zero_le _)
  · next clear =>
    exact firstConflict_of_unitConflict? (threadConflict?_eq_none_iff.mp clear).1 found

theorem verify_eq_error_iff_firstConflict :
    model.verify = .error violation ↔ model.FirstConflict violation := by
  have stops : model.verify = .error violation ↔ model.conflict? = some violation := by
    unfold verify
    cases model.conflict? <;> simp
  rw [stops]
  constructor
  · exact firstConflict_of_conflict?
  · intro conflict
    cases found : model.conflict? with
    | some other => rw [(firstConflict_of_conflict? found).unique conflict]
    | none =>
      have fine : model.verify = .ok () := by simp [verify, found]
      exact absurd conflict (verify_eq_ok_iff.mp fine).not_firstConflict

/-- A model passes just when every entry stands for something, no machine and no context has two
entries and no unit is in two places. Otherwise the checker names the first entry at fault, or if
there is none the first unit met again and where it was before. -/
theorem verification_names_the_first_conflict (model : Model) :
    (model.verify = .ok () ↔
      (∀ thread ∈ model.threads, ¬ (thread.machine = none ∧ thread.context = none)) ∧
      (model.threads.filterMap (·.machine)).Nodup ∧
      (model.threads.filterMap (·.contextId)).Nodup ∧
      ∀ one other unit, model.unitAt? one = some unit → model.unitAt? other = some unit →
        one = other) ∧
    ∀ violation, model.verify = .error violation ↔ model.FirstConflict violation := by
  refine ⟨?_, fun violation => verify_eq_error_iff_firstConflict⟩
  rw [verify_eq_ok_iff, ← nodup_units_iff]
  constructor
  · rintro ⟨⟨machines, contexts, alive⟩, units⟩
    refine ⟨?_, machines, contexts, units⟩
    intro thread inside
    rw [← Thread.isDead_iff, alive thread inside]
    exact Bool.false_ne_true
  · rintro ⟨alive, machines, contexts, units⟩
    refine ⟨⟨machines, contexts, ?_⟩, units⟩
    intro thread inside
    rw [← Bool.not_eq_true, Thread.isDead_iff]
    exact alive thread inside

/-- The second entry repeats the machine, the context and the unit of the first. -/
example : (⟨[⟨some ⟨0⟩, false, some (.idle ⟨1⟩), some ⟨⟨3⟩, ""⟩⟩,
    ⟨some ⟨0⟩, false, some (.idle ⟨1⟩), some ⟨⟨3⟩, ""⟩⟩], []⟩ : Model).verify =
      .error (.duplicateMachine ⟨0⟩) := by
  rfl

end Model

end SchedReplay
