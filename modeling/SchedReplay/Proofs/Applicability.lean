import SchedReplay.Decision.Effect
import SchedReplay.Proofs.Staging

/-! When a decision can be committed: each change has to find what it names, and in the end no unit
may be in two places. Nothing else can go wrong with a well bound thread list. -/
namespace SchedReplay

def Delta.AppliesTo (model : Model) : Delta → Prop
  | .scheduling machine _ | .executing machine _ => machine ∈ machineIds model.threads
  | .bind _ context => context ∈ contextIds model.threads
  | .contextState _ state => state.id ∈ contextIds model.threads
  | .parkedAdded _ => True
  | .parkedRemoved unit => unit ∈ model.parked.map (·.unit.id)

namespace Model

variable {model next : Model} {delta : Delta}

theorem Staged.appliesTo (staged : model.Staged delta next) : delta.AppliesTo model := by
  cases staged with
  | scheduling _ _ known => exact known
  | executing _ _ known => exact known
  | bind machine context held found =>
    have bound := mem_of_heldContext? found
    rwa [id_of_heldContext? found] at bound
  | taken _ _ known => exact known
  | left _ known => exact known
  | parkedAdded => trivial
  | parkedRemoved _ known => exact known

theorem exists_staged_iff : (∃ next, model.Staged delta next) ↔ delta.AppliesTo model := by
  constructor
  · rintro ⟨next, staged⟩
    exact staged.appliesTo
  · intro applies
    cases delta with
    | scheduling machine isScheduling => exact ⟨_, .scheduling machine isScheduling applies⟩
    | executing machine unit => exact ⟨_, .executing machine unit applies⟩
    | bind machine context =>
      obtain ⟨held, found⟩ := Option.isSome_iff_exists.mp (heldContext?_isSome_iff.mpr applies)
      exact ⟨_, .bind machine context held found⟩
    | contextState owner state =>
      cases owner with
      | none => exact ⟨_, .left state applies⟩
      | some machine => exact ⟨_, .taken machine state applies⟩
    | parkedAdded unit => exact ⟨_, .parkedAdded unit⟩
    | parkedRemoved unit => exact ⟨_, .parkedRemoved unit applies⟩

theorem exists_stageAll_cons_iff {rest : Decision} :
    (∃ next, model.stageAll (delta :: rest) = .ok next) ↔
      ∃ middle, model.Staged delta middle ∧ ∃ next, middle.stageAll rest = .ok next := by
  simp only [stageAll_cons_eq_ok_iff]
  constructor
  · rintro ⟨next, middle, first, later⟩
    exact ⟨middle, first, next, later⟩
  · rintro ⟨middle, first, next, later⟩
    exact ⟨next, middle, first, later⟩

/-- Observations need the contexts that they show and nothing else. -/
theorem exists_stageAll_observations_iff {observations : List Observation} :
    (∃ next, model.stageAll (observations.map Observation.delta) = .ok next) ↔
      ∀ observation ∈ observations, observation.context.id ∈ contextIds model.threads := by
  induction observations generalizing model with
  | nil => simp [stageAll_nil_eq_ok_iff]
  | cons observation rest ih =>
    rw [List.map_cons, exists_stageAll_cons_iff, List.forall_mem_cons]
    constructor
    · rintro ⟨middle, first, later⟩
      refine ⟨first.appliesTo, ?_⟩
      simpa only [first.contextIds_perm.mem_iff] using ih.mp later
    · rintro ⟨known, others⟩
      obtain ⟨middle, first⟩ := exists_staged_iff.mpr
        (show observation.delta.AppliesTo model from known)
      refine ⟨middle, first, ih.mpr ?_⟩
      simpa only [first.contextIds_perm.mem_iff] using others

/-- What every single change keeps, a decision keeps. -/
theorem stageAll_induction {decision : Decision} (Inv : Model → Prop)
    (step : ∀ model delta next, Staged model delta next → Inv model → Inv next)
    (staged : model.stageAll decision = .ok next) (initial : Inv model) : Inv next := by
  induction decision generalizing model with
  | nil =>
    obtain rfl := stageAll_nil_eq_ok_iff.mp staged
    exact initial
  | cons delta rest ih =>
    obtain ⟨middle, first, later⟩ := stageAll_cons_eq_ok_iff.mp staged
    exact ih later (step _ _ _ first initial)

theorem stageAll_wellBound {decision : Decision} (bound : WellBound model.threads)
    (staged : model.stageAll decision = .ok next) : WellBound next.threads :=
  stageAll_induction (WellBound ·.threads) (fun _ _ _ first => first.wellBound) staged bound

theorem stageAll_contextIds_perm {decision : Decision}
    (staged : model.stageAll decision = .ok next) :
    (contextIds next.threads).Perm (contextIds model.threads) :=
  stageAll_induction (fun middle => (contextIds middle.threads).Perm (contextIds model.threads))
    (fun _ _ _ first before => first.contextIds_perm.trans before) staged (.refl _)

theorem exists_commit_iff {decision : Decision} (bound : WellBound model.threads) :
    (∃ result, model.commit decision = .ok result) ↔
      ∃ next, model.stageAll decision = .ok next ∧ (next.units.map (·.id)).Nodup := by
  constructor
  · rintro ⟨⟨next, changes⟩, committed⟩
    obtain ⟨staged, consistent, _⟩ := commit_eq_ok_iff.mp committed
    exact ⟨next, staged, consistent.units⟩
  · rintro ⟨next, staged, units⟩
    exact ⟨⟨next, _⟩, commit_eq_ok_iff.mpr ⟨staged, ⟨stageAll_wellBound bound staged, units⟩, rfl⟩⟩

end Model

end SchedReplay
