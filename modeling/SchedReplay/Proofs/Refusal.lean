import SchedReplay.Proofs.Inventory

/-! Why a decision is refused. A change complains of what it names and does not find, and the
checker of a unit in two places. Handovers leave the checker nothing else to complain of, at the
end of a decision or anywhere on the way. -/
namespace SchedReplay

section Threads

variable {threads : List Thread} {machine : MachineId} {context : ContextId} {violation : Violation}

theorem updateMachine_eq_error_iff {change : Thread → Thread} :
    updateMachine machine change threads = .error violation ↔
      machine ∉ machineIds threads ∧ violation = .unknownMachine machine := by
  rw [← any_isMachine_iff]
  unfold updateMachine
  split <;> simp [*, eq_comm]

theorem handOver_eq_error_iff {replacement : Option Context} :
    handOver threads machine context replacement = .error violation ↔
      context ∉ contextIds threads ∧ violation = .unknownContext context := by
  rw [← heldContext?_isSome_iff]
  unfold handOver
  cases heldContext? threads context <;> simp [eq_comm]

theorem disown_eq_error_iff {state : Context} :
    disown threads context state = .error violation ↔
      context ∉ contextIds threads ∧ violation = .unknownContext context := by
  have known : (threads.find? (·.holds context)).isSome ↔ context ∈ contextIds threads := by
    simp [mem_contextIds]
  rw [← known]
  unfold disown
  cases threads.find? (·.holds context) with
  | none => simp [eq_comm]
  | some owner =>
    simp only [Option.isSome_some, not_true_eq_false, false_and, iff_false]
    split <;> simp

/-- Once the owner of a context is found there is something to hand over, and it is handed over. -/
theorem handOver_of_owner {owner : Thread} (found : threads.find? (·.holds context) = some owner)
    (machine : MachineId) (replacement : Option Context) :
    (replacement.or owner.context).isSome = true ∧
      ∃ next, handOver threads machine context replacement = .ok next := by
  have holds := Thread.holds_iff.mp (List.find?_some found)
  obtain ⟨held, here, _⟩ := Option.map_eq_some_iff.mp holds
  have known : heldContext? threads context = some held := by simp [heldContext?, found, here]
  constructor
  · simp [here]
  · unfold handOver
    simp [known]

end Threads

/-- What a change complains of when the model lacks what it names. -/
def Delta.complaint? : Delta → Option Violation
  | scheduling machine _ | executing machine _ => some (.unknownMachine machine)
  | bind _ context => some (.unknownContext context)
  | contextState _ state => some (.unknownContext state.id)
  | parkedAdded _ => none
  | parkedRemoved unit => some (.unitNotParked unit)

namespace Model

variable {model : Model} {delta : Delta} {decision : Decision} {violation : Violation}

theorem map_eq_error_iff {tried : Except Violation α} {change : α → β} :
    tried.map change = .error violation ↔ tried = .error violation := by
  cases tried <;> simp [Except.map]

theorem stage_eq_error_iff : model.stage delta = .error violation ↔
    ¬ delta.AppliesTo model ∧ delta.complaint? = some violation := by
  cases delta with
  | scheduling | executing =>
    rw [stage, map_eq_error_iff, updateMachine_eq_error_iff]
    simp [Delta.AppliesTo, Delta.complaint?, eq_comm]
  | bind =>
    rw [stage, map_eq_error_iff, handOver_eq_error_iff]
    simp [Delta.AppliesTo, Delta.complaint?, eq_comm]
  | contextState owner state =>
    cases owner with
    | none =>
      rw [stage, map_eq_error_iff, disown_eq_error_iff]
      simp [Delta.AppliesTo, Delta.complaint?, eq_comm]
    | some machine =>
      rw [stage, map_eq_error_iff, handOver_eq_error_iff]
      simp [Delta.AppliesTo, Delta.complaint?, eq_comm]
  | parkedAdded => simp [stage, Delta.AppliesTo]
  | parkedRemoved unit =>
    have known : model.parked.any (·.unit.id = unit) = true ↔
        (Delta.parkedRemoved unit).AppliesTo model := by
      simp [Delta.AppliesTo]
    rw [stage, ← known]
    split <;> simp [*, Delta.complaint?]

/-- A decision stops at the first change that cannot be made. -/
theorem exists_of_stageAll_eq_error (failed : model.stageAll decision = .error violation) :
    ∃ earlier delta later middle, decision = earlier ++ delta :: later ∧
      model.stageAll earlier = .ok middle ∧ middle.stage delta = .error violation := by
  induction decision generalizing model with
  | nil => cases failed
  | cons first rest ih =>
    cases staged : model.stage first with
    | error other =>
      have same : model.stageAll (first :: rest) = .error other := by
        simp [stageAll, staged, bind, Except.bind]
      rw [failed] at same
      cases same
      exact ⟨[], first, rest, model, rfl, rfl, staged⟩
    | ok next =>
      have later : model.stageAll (first :: rest) = next.stageAll rest := by
        simp [stageAll, staged, bind, Except.bind]
      rw [later] at failed
      obtain ⟨earlier, delta, others, middle, rfl, leads, stops⟩ := ih failed
      refine ⟨first :: earlier, delta, others, middle, rfl, ?_, stops⟩
      exact stageAll_cons_eq_ok_iff.mpr ⟨next, stage_eq_ok_iff.mp staged, leads⟩

theorem commit_eq_error_iff : model.commit decision = .error violation ↔
    model.stageAll decision = .error violation ∨
      ∃ staged, model.stageAll decision = .ok staged ∧ staged.verify = .error violation := by
  unfold commit
  cases model.stageAll decision with
  | error => simp [bind, Except.bind]
  | ok staged =>
    cases checked : staged.verify <;> simp [bind, Except.bind, pure, Except.pure, checked]

end Model

section Checker

theorem lookup_eq_some_iff_mem {seen : List Placement} (once : (seen.map Prod.fst).Nodup)
    {unit : UnitId} {location : Location} :
    seen.lookup unit = some location ↔ (unit, location) ∈ seen := by
  induction seen with
  | nil => simp
  | cons placement rest ih =>
    obtain ⟨first, place⟩ := placement
    rw [List.map_cons, List.nodup_cons] at once
    by_cases same : unit = first
    · subst same
      have others : (unit, location) ∉ rest := fun again =>
        once.1 (List.mem_map.mpr ⟨_, again, rfl⟩)
      simp [others, eq_comm]
    · have apart : (unit == first) = false := beq_eq_false_iff_ne.mpr same
      rw [List.lookup_cons, apart]
      simpa [same] using ih once.2

/-- The scan of the placements reports the first one whose unit came before, and where. -/
theorem unitConflict?_eq_some_iff {seen placements : List Placement} {violation : Violation}
    (once : (seen.map Prod.fst).Nodup) :
    unitConflict? seen placements = some violation ↔ ∃ earlier unit first second later,
      placements = earlier ++ (unit, second) :: later ∧ ((earlier ++ seen).map Prod.fst).Nodup ∧
        (unit, first) ∈ earlier ++ seen ∧ violation = .duplicateUnit unit first second := by
  induction placements generalizing seen with
  | nil => simp [unitConflict?]
  | cons placement rest ih =>
    obtain ⟨unit, second⟩ := placement
    rw [unitConflict?]
    cases known : seen.lookup unit with
    | some first =>
      have before := (lookup_eq_some_iff_mem once).mp known
      constructor
      · intro reports
        cases reports
        exact ⟨[], unit, first, second, rest, rfl, once, before, rfl⟩
      · rintro ⟨earlier, other, place, again, later, split, distinct, inside, rfl⟩
        cases earlier with
        | nil =>
          cases split
          rw [(lookup_eq_some_iff_mem once).mpr inside] at known
          cases known
          rfl
        | cons head tail =>
          cases split
          rw [List.cons_append, List.map_cons, List.nodup_cons] at distinct
          exact absurd (List.mem_map_of_mem (List.mem_append_right _ before)) distinct.1
    | none =>
      have new : unit ∉ seen.map Prod.fst := by
        intro member
        obtain ⟨⟨_, place⟩, inside, rfl⟩ := List.mem_map.mp member
        simp [(lookup_eq_some_iff_mem once).mpr inside] at known
      have still : (((unit, second) :: seen).map Prod.fst).Nodup := List.nodup_cons.mpr ⟨new, once⟩
      have moved (earlier : List Placement) :
          (earlier ++ (unit, second) :: seen).Perm ((unit, second) :: earlier ++ seen) :=
        List.perm_middle
      simp only [ih still]
      constructor
      · rintro ⟨earlier, other, place, again, later, rfl, distinct, inside, rfl⟩
        refine ⟨(unit, second) :: earlier, other, place, again, later, rfl, ?_, ?_, rfl⟩
        · exact ((moved earlier).map _).nodup_iff.mp distinct
        · exact (moved earlier).mem_iff.mp inside
      · rintro ⟨earlier, other, place, again, later, split, distinct, inside, rfl⟩
        cases earlier with
        | nil =>
          cases split
          exact absurd (List.mem_map_of_mem inside) new
        | cons head tail =>
          cases split
          refine ⟨tail, other, place, again, later, rfl, ?_, ?_, rfl⟩
          · exact ((moved tail).map _).nodup_iff.mpr distinct
          · exact (moved tail).mem_iff.mpr inside

/-- In a well bound list only units can be in conflict. -/
theorem Model.verify_eq_error_iff {model : Model} {violation : Violation}
    (bound : WellBound model.threads) :
    model.verify = .error violation ↔ unitConflict? [] model.placements = some violation := by
  have clear : threadConflict? 0 [] [] model.threads = none := by
    simpa [threadConflict?_eq_none_iff] using bound
  unfold verify conflict?
  rw [clear]
  cases unitConflict? [] model.placements <;> simp

end Checker

namespace Model

variable {model : Model} {decision : Decision} {violation : Violation}

/-- The ways in which a decision about a consistent model can fail. -/
inductive Refusal (model : Model) (decision : Decision) : Violation → Prop where
  | unknownContext {context : ContextId} (unbound : context ∉ contextIds model.threads) :
      Refusal model decision (.unknownContext context)
  | unknownMachine {machine : MachineId} (unknown : machine ∉ machineIds model.threads) :
      Refusal model decision (.unknownMachine machine)
  | unitNotParked {unit : UnitId} (named : .parkedRemoved unit ∈ decision) :
      Refusal model decision (.unitNotParked unit)
  | duplicateUnit {unit : UnitId} {first second : Location} {staged : Model}
      (leads : model.stageAll decision = .ok staged)
      (twice : [(unit, first), (unit, second)].Sublist staged.placements) :
      Refusal model decision (.duplicateUnit unit first second)

theorem refusal_of_stageAll (failed : model.stageAll decision = .error violation) :
    model.Refusal decision violation := by
  obtain ⟨earlier, delta, later, middle, rfl, leads, stops⟩ := exists_of_stageAll_eq_error failed
  obtain ⟨lacks, complains⟩ := stage_eq_error_iff.mp stops
  -- What a change does not find is not in the model at the start either.
  have unknown {machine : MachineId} (missing : machine ∉ machineIds middle.threads) :
      machine ∉ machineIds model.threads :=
    fun known => missing ((stageAll_extends_machineIds leads).subset known)
  have unbound {context : ContextId} (missing : context ∉ contextIds middle.threads) :
      context ∉ contextIds model.threads :=
    mt (stageAll_contextIds_perm leads).mem_iff.mpr missing
  cases delta with
  | scheduling | executing => cases complains; exact .unknownMachine (unknown lacks)
  | bind | contextState => cases complains; exact .unknownContext (unbound lacks)
  | parkedAdded => cases complains
  | parkedRemoved unit => cases complains; exact .unitNotParked (by simp)

theorem refusal_of_verify {staged : Model} (bound : WellBound model.threads)
    (leads : model.stageAll decision = .ok staged) (failed : staged.verify = .error violation) :
    model.Refusal decision violation := by
  rw [verify_eq_error_iff (stageAll_wellBound bound leads)] at failed
  obtain ⟨earlier, unit, first, second, later, split, _, before, rfl⟩ :=
    (unitConflict?_eq_some_iff (by simp)).mp failed
  apply Refusal.duplicateUnit leads
  rw [split]
  rw [List.append_nil] at before
  have one : [(unit, first)].Sublist earlier := List.singleton_sublist.mpr before
  exact one.append ((List.nil_sublist later).cons_cons _)

/-- A decision about a consistent model fails for want of what it names or because a unit would be
in two places. Wherever it stops, no machine and no context has two entries and no entry is dead;
an owner that is found has a context, so that a handover does not fail any more. -/
theorem handovers_cannot_break_bindings (verified : model.verify = .ok ()) (decision : Decision) :
    (∀ violation, model.commit decision = .error violation → model.Refusal decision violation) ∧
      ∀ earlier staged, earlier <+: decision → model.stageAll earlier = .ok staged →
        WellBound staged.threads ∧
          ∀ context owner, staged.threads.find? (·.holds context) = some owner →
            ∀ machine replacement, (replacement.or owner.context).isSome = true ∧
              ∃ next, handOver staged.threads machine context replacement = .ok next := by
  have bound : WellBound model.threads := (verify_eq_ok_iff.mp verified).bound
  constructor
  · intro violation failed
    rcases commit_eq_error_iff.mp failed with stops | ⟨staged, leads, rejected⟩
    · exact refusal_of_stageAll stops
    · exact refusal_of_verify bound leads rejected
  · intro earlier staged _ leads
    refine ⟨stageAll_wellBound bound leads, ?_⟩
    intro context owner found
    exact handOver_of_owner found

/-- A new machine takes a context with its queue, and the unit in the queue is then seen on the
context that nobody claimed. -/
def doubling : Decision := [.bind ⟨7⟩ ⟨0⟩, .contextState (some ⟨1⟩) ⟨⟨2⟩, none, [⟨⟨5⟩, ""⟩]⟩]

theorem handovers_cannot_break_bindings_while_doubling :
    let violation := Violation.duplicateUnit ⟨5⟩ (.runQueue ⟨2⟩) (.runQueue ⟨0⟩)
    twoMachines.verify = .ok () ∧ twoMachines.commit doubling = .error violation ∧
      twoMachines.Refusal doubling violation ∧
      ∃ staged, twoMachines.stageAll (doubling.take 1) = .ok staged ∧ WellBound staged.threads ∧
        ∃ next, handOver staged.threads ⟨1⟩ ⟨2⟩ none = .ok next := by
  intro violation
  have verified : twoMachines.verify = .ok () := rfl
  have fails : twoMachines.commit doubling = .error violation := rfl
  obtain ⟨refuses, keeps⟩ := handovers_cannot_break_bindings verified doubling
  obtain ⟨bound, hands⟩ := keeps _ _ (List.take_prefix 1 doubling) rfl
  exact ⟨verified, fails, refuses _ fails, _, rfl, bound, (hands ⟨2⟩ _ rfl ⟨1⟩ none).2⟩

end Model

end SchedReplay
