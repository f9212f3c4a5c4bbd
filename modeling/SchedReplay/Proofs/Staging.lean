import SchedReplay.Decision.Basic
import SchedReplay.Proofs.Consistency
import SchedReplay.Proofs.Release

/-! All that one change of a decision can do. Whatever the changes are and in whatever order they
come, machines stay in place, contexts are only permuted, and a well bound thread list stays well
bound at every step in between. -/
namespace SchedReplay

namespace Model

/-- The changes that can be made to a model, each with what it asks for and what it leads to. -/
inductive Staged (model : Model) : Delta → Model → Prop where
  | scheduling (machine : MachineId) (isScheduling : Bool)
      (known : machine ∈ machineIds model.threads) :
      Staged model (.scheduling machine isScheduling)
        { model with
          threads := updateFirst (·.isMachine machine) ({ · with isScheduling }) model.threads }
  | executing (machine : MachineId) (unit : Option WorkUnit)
      (known : machine ∈ machineIds model.threads) :
      Staged model (.executing machine unit)
        { model with
          threads :=
            updateFirst (·.isMachine machine) ({ · with executing := unit }) model.threads }
  | bind (machine : MachineId) (context : ContextId) (held : Context)
      (found : heldContext? model.threads context = some held) :
      Staged model (.bind machine context)
        { model with threads := handedOver model.threads machine held }
  | taken (machine : MachineId) (state : Context) (known : state.id ∈ contextIds model.threads) :
      Staged model (.contextState (some machine) state)
        { model with threads := handedOver model.threads machine state }
  | left (state : Context) (known : state.id ∈ contextIds model.threads) :
      Staged model (.contextState none state)
        { model with threads := disowned model.threads state }
  | parkedAdded (unit : ParkedUnit) :
      Staged model (.parkedAdded unit) { model with parked := model.parked ++ [unit] }
  | parkedRemoved (unit : UnitId) (known : unit ∈ model.parked.map (·.unit.id)) :
      Staged model (.parkedRemoved unit)
        { model with parked := model.parked.eraseP (·.unit.id = unit) }

variable {model next : Model} {delta : Delta}

theorem updateMachine_eq_ok_iff {machine : MachineId} {change : Thread → Thread}
    {threads changed : List Thread} :
    updateMachine machine change threads = .ok changed ↔ machine ∈ machineIds threads ∧
      changed = updateFirst (·.isMachine machine) change threads := by
  rw [← any_isMachine_iff]
  unfold updateMachine
  split <;> simp [*, eq_comm]

theorem map_eq_ok_iff {tried : Except Violation (List Thread)} {model next : Model} :
    tried.map ({ model with threads := · }) = .ok next ↔
      ∃ threads, tried = .ok threads ∧ { model with threads } = next := by
  cases tried <;> simp [Except.map]

theorem stage_eq_ok_iff : model.stage delta = .ok next ↔ model.Staged delta next := by
  constructor
  · intro staged
    cases delta with
    | scheduling machine isScheduling =>
      obtain ⟨threads, changed, rfl⟩ := map_eq_ok_iff.mp staged
      obtain ⟨known, rfl⟩ := updateMachine_eq_ok_iff.mp changed
      exact .scheduling machine isScheduling known
    | executing machine unit =>
      obtain ⟨threads, changed, rfl⟩ := map_eq_ok_iff.mp staged
      obtain ⟨known, rfl⟩ := updateMachine_eq_ok_iff.mp changed
      exact .executing machine unit known
    | bind machine context =>
      obtain ⟨threads, changed, rfl⟩ := map_eq_ok_iff.mp staged
      obtain ⟨held, found, rfl⟩ := handOver_none_eq_ok_iff.mp changed
      exact .bind machine context held found
    | contextState owner state =>
      cases owner with
      | none =>
        obtain ⟨threads, changed, rfl⟩ := map_eq_ok_iff.mp staged
        obtain ⟨known, rfl⟩ := disown_eq_ok_iff.mp changed
        exact .left state known
      | some machine =>
        obtain ⟨threads, changed, rfl⟩ := map_eq_ok_iff.mp staged
        obtain ⟨known, rfl⟩ := handOver_some_eq_ok_iff.mp changed
        exact .taken machine state known
    | parkedAdded unit =>
      cases staged
      exact .parkedAdded unit
    | parkedRemoved unit =>
      rw [stage] at staged
      split at staged
      · next known =>
        cases staged
        exact .parkedRemoved unit (by simpa using known)
      · cases staged
  · intro staged
    cases staged with
    | scheduling machine isScheduling known =>
      exact map_eq_ok_iff.mpr ⟨_, updateMachine_eq_ok_iff.mpr ⟨known, rfl⟩, rfl⟩
    | executing machine unit known =>
      exact map_eq_ok_iff.mpr ⟨_, updateMachine_eq_ok_iff.mpr ⟨known, rfl⟩, rfl⟩
    | bind machine context held found =>
      exact map_eq_ok_iff.mpr ⟨_, handOver_none_eq_ok_iff.mpr ⟨held, found, rfl⟩, rfl⟩
    | taken machine state known =>
      exact map_eq_ok_iff.mpr ⟨_, handOver_some_eq_ok_iff.mpr ⟨known, rfl⟩, rfl⟩
    | left state known => exact map_eq_ok_iff.mpr ⟨_, disown_eq_ok_iff.mpr ⟨known, rfl⟩, rfl⟩
    | parkedAdded unit => rfl
    | parkedRemoved unit known =>
      rw [stage, if_pos]
      simpa using known

/-- Contexts are neither lost nor doubled, whatever the model looks like. -/
theorem Staged.contextIds_perm (staged : model.Staged delta next) :
    (contextIds next.threads).Perm (contextIds model.threads) := by
  cases staged with
  | scheduling => exact .of_eq (contextIds_updateFirst (by simp [Thread.contextId]) _)
  | executing => exact .of_eq (contextIds_updateFirst (by simp [Thread.contextId]) _)
  | bind machine context held found =>
    exact contextIds_handedOver (mem_of_heldContext? found)
  | taken machine state known => exact contextIds_handedOver known
  | left state known => exact contextIds_disowned known
  | parkedAdded => exact .refl _
  | parkedRemoved => exact .refl _

theorem Staged.wellBound (staged : model.Staged delta next) (bound : WellBound model.threads) :
    WellBound next.threads := by
  have changed {p : Thread → Bool} {change : Thread → Thread}
      (machine : ∀ thread, (change thread).machine = thread.machine)
      (context : ∀ thread, (change thread).context = thread.context) :
      WellBound (updateFirst p change model.threads) := by
    refine ⟨?_, ?_, ?_⟩
    · rw [machineIds_updateFirst machine]
      exact bound.machines
    · rw [contextIds_updateFirst fun thread _ => by simp [Thread.contextId, context]]
      exact bound.contexts
    · intro thread member
      obtain ⟨before, inside, rfl | ⟨_, rfl⟩⟩ := mem_updateFirst member
      · exact bound.alive _ inside
      · simpa [Thread.isDead, machine, context] using bound.alive _ inside
  cases staged with
  | scheduling => exact changed (fun _ => rfl) (fun _ => rfl)
  | executing => exact changed (fun _ => rfl) (fun _ => rfl)
  | bind machine context held found =>
    exact wellBound_handedOver bound (mem_of_heldContext? found)
  | taken machine state known => exact wellBound_handedOver bound known
  | left state known => exact wellBound_disowned bound known
  | parkedAdded => exact bound
  | parkedRemoved => exact bound

theorem stageAll_nil_eq_ok_iff : model.stageAll [] = .ok next ↔ model = next := by
  simp [stageAll, pure, Except.pure]

theorem stageAll_cons_eq_ok_iff {rest : Decision} :
    model.stageAll (delta :: rest) = .ok next ↔
      ∃ middle, model.Staged delta middle ∧ middle.stageAll rest = .ok next := by
  simp only [stageAll, List.foldlM_cons, ← stage_eq_ok_iff]
  cases model.stage delta <;> simp [bind, Except.bind]

/-- What each change does to a reading of the model, a decision does as a fold over its changes. -/
theorem stageAll_eq_foldl {decision : Decision} (read : Model → σ) (after : σ → Delta → σ)
    (step : ∀ model delta next, WellBound model.threads → Staged model delta next →
      read next = after (read model) delta)
    (bound : WellBound model.threads) (staged : model.stageAll decision = .ok next) :
    read next = decision.foldl after (read model) := by
  induction decision generalizing model with
  | nil =>
    obtain rfl := stageAll_nil_eq_ok_iff.mp staged
    rfl
  | cons delta rest ih =>
    obtain ⟨middle, first, later⟩ := stageAll_cons_eq_ok_iff.mp staged
    rw [List.foldl_cons, ih (first.wellBound bound) later, step _ _ _ bound first]

theorem commit_eq_ok_iff {decision : Decision} {changes : Changes} :
    model.commit decision = .ok (next, changes) ↔
      model.stageAll decision = .ok next ∧ next.Consistent ∧ changes = .ofDecision decision := by
  rw [← verify_eq_ok_iff]
  unfold commit
  cases staged : model.stageAll decision with
  | error => simp [bind, Except.bind]
  | ok after =>
    have verified : after.verify = .ok () ∨ ∃ violation, after.verify = .error violation := by
      cases after.verify <;> simp
    rcases verified with fine | ⟨violation, refused⟩
    · simp only [bind, Except.bind, fine, pure, Except.pure]
      grind
    · simp only [bind, Except.bind, refused]
      grind

end Model

end SchedReplay
