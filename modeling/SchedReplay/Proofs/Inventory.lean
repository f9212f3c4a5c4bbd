import SchedReplay.Proofs.Applicability
import SchedReplay.Proofs.Ownership

/-! The units of a model by the kind of place that holds them: machines, contexts and the parked
ones. A decision leaves every machine that it does not name at its unit and replaces the contexts
that it shows, and a handover changes neither. -/
namespace SchedReplay

def runningUnits (threads : List Thread) : List WorkUnit := threads.filterMap (·.executing)

def runningElsewhere (threads : List Thread) (machine : MachineId) : List WorkUnit :=
  runningUnits (threads.filter (·.machine.any (· ≠ machine)))

def boundContexts (threads : List Thread) : List Context := threads.filterMap (·.context)

/-- Entries without a machine stand for their context alone: they run nothing and do not schedule. -/
def Inert (threads : List Thread) : Prop :=
  ∀ thread ∈ threads, thread.machine = none → thread.status = .idle

section Inert

variable {threads more : List Thread}

theorem inert_append (inert : Inert threads) (others : Inert more) : Inert (threads ++ more) := by
  intro thread member
  rcases List.mem_append.mp member with before | later
  · exact inert thread before
  · exact others thread later

theorem inert_dropDead (inert : Inert threads) : Inert (dropDead threads) := by
  intro thread member
  exact inert thread (List.mem_filter.mp member).1

theorem inert_updateFirst (inert : Inert threads) {p : Thread → Bool} {change : Thread → Thread}
    (kept : ∀ thread ∈ threads, p thread → (change thread).machine = none →
      (change thread).status = .idle) : Inert (updateFirst p change threads) := by
  intro thread member
  obtain ⟨before, inside, rfl | ⟨chosen, rfl⟩⟩ := mem_updateFirst member
  · exact inert _ inside
  · exact kept before inside chosen

theorem inert_vacate (inert : Inert threads) (p : Thread → Bool) :
    Inert (updateFirst p .vacate threads) :=
  inert_updateFirst inert fun thread inside _ => inert thread inside

theorem inert_hold (inert : Inert threads) (p : Thread → Bool) (state : Context) :
    Inert (updateFirst p (.hold state) threads) :=
  inert_updateFirst inert fun thread inside _ => inert thread inside

theorem inert_unclaimed (contexts : List Context) : Inert (contexts.map .unclaimed) := by
  intro thread member _
  obtain ⟨context, _, rfl⟩ := List.mem_map.mp member
  rfl

theorem inert_withMachine (inert : Inert threads) (machine : MachineId) :
    Inert (withMachine machine threads) := by
  unfold withMachine
  split
  · exact inert
  · apply inert_append inert
    intro thread member free
    simp [List.mem_singleton.mp member] at free

theorem inert_handedOver (inert : Inert threads) (machine : MachineId) (state : Context) :
    Inert (handedOver threads machine state) := by
  apply inert_dropDead
  apply inert_append _ (inert_unclaimed _)
  exact inert_hold (inert_vacate (inert_withMachine inert machine) _) _ state

theorem inert_disowned (inert : Inert threads) (state : Context) :
    Inert (disowned threads state) := by
  unfold disowned
  split
  · exact inert_hold inert _ state
  · apply inert_dropDead
    exact inert_append (inert_vacate inert _) (inert_unclaimed [state])

end Inert

namespace Model

variable {model next : Model} {delta : Delta} {decision : Decision}

theorem Staged.inert (staged : model.Staged delta next) (inert : Inert model.threads) :
    Inert next.threads := by
  have named {machine : MachineId} {change : Thread → Thread}
      (keeps : ∀ thread, (change thread).machine = thread.machine) :
      Inert (updateFirst (·.isMachine machine) change model.threads) := by
    refine inert_updateFirst inert fun thread _ is free => ?_
    rw [keeps, Thread.isMachine_iff.mp is] at free
    cases free
  cases staged with
  | scheduling => exact named fun _ => rfl
  | executing => exact named fun _ => rfl
  | bind machine _ held => exact inert_handedOver inert machine held
  | taken machine state => exact inert_handedOver inert machine state
  | left state => exact inert_disowned inert state
  | parkedAdded => exact inert
  | parkedRemoved => exact inert

theorem stageAll_inert (inert : Inert model.threads)
    (staged : model.stageAll decision = .ok next) : Inert next.threads :=
  stageAll_induction (Inert ·.threads) (fun _ _ _ first => first.inert) staged inert

theorem inert_seeded (width : Nat) : Inert (seeded width).threads := by
  intro thread member free
  obtain ⟨index, _, rfl⟩ := List.mem_map.mp member
  cases index with
  | zero => cases free
  | succ index => rfl

theorem Staged.machineIds_eq (staged : model.Staged delta next) :
    machineIds next.threads = delta.machine.elim (machineIds model.threads) fun machine =>
      machineIds (withMachine machine model.threads) := by
  have changed {machine : MachineId} {change : Thread → Thread}
      (keeps : ∀ thread, (change thread).machine = thread.machine)
      (entry : machine ∈ machineIds model.threads) :
      machineIds (updateFirst (·.isMachine machine) change model.threads) =
        machineIds (withMachine machine model.threads) := by
    rw [machineIds_updateFirst keeps, machineIds_withMachine, if_pos entry]
  cases staged with
  | scheduling _ _ entry => exact changed (fun _ => rfl) entry
  | executing _ _ entry => exact changed (fun _ => rfl) entry
  | bind => exact machineIds_handedOver
  | taken => exact machineIds_handedOver
  | left => exact machineIds_disowned
  | parkedAdded => rfl
  | parkedRemoved => rfl

/-- Machines keep their places, and new ones come after them. -/
theorem Staged.extends_machineIds (staged : model.Staged delta next) :
    machineIds model.threads <+: machineIds next.threads := by
  rw [staged.machineIds_eq]
  cases delta.machine with
  | none => exact List.prefix_rfl
  | some machine =>
    rw [Option.elim_some, machineIds_withMachine]
    split
    · exact List.prefix_rfl
    · exact List.prefix_append _ _

theorem Staged.mem_machineIds_iff (staged : model.Staged delta next) (machine : MachineId) :
    machine ∈ machineIds next.threads ↔
      machine ∈ machineIds model.threads ∨ delta.machine = some machine := by
  rw [staged.machineIds_eq]
  cases delta.machine with
  | none => simp
  | some named =>
    rw [Option.elim_some, machineIds_withMachine, Option.some.injEq]
    split
    · next entry => grind
    · simp [eq_comm]

theorem stageAll_mem_machineIds_iff (staged : model.stageAll decision = .ok next)
    (machine : MachineId) : machine ∈ machineIds next.threads ↔
      machine ∈ machineIds model.threads ∨ machine ∈ decision.filterMap Delta.machine := by
  induction decision generalizing model with
  | nil =>
    obtain rfl := stageAll_nil_eq_ok_iff.mp staged
    simp
  | cons delta rest ih =>
    obtain ⟨middle, first, later⟩ := stageAll_cons_eq_ok_iff.mp staged
    rw [ih later, first.mem_machineIds_iff, or_assoc]
    simp only [List.mem_filterMap, List.exists_mem_cons_iff]

theorem stageAll_extends_machineIds (staged : model.stageAll decision = .ok next) :
    machineIds model.threads <+: machineIds next.threads :=
  stageAll_induction (fun middle => machineIds model.threads <+: machineIds middle.threads)
    (fun _ _ _ first before => before.trans first.extends_machineIds) staged List.prefix_rfl

/-- Each unit of a model runs, waits on a context or is parked. -/
theorem units_perm (model : Model) : model.units.Perm
    (runningUnits model.threads ++ (boundContexts model.threads).flatMap Context.waiting ++
      model.parked.map (·.unit)) := by
  refine List.Perm.append_right _ ?_
  induction model.threads with
  | nil => exact .refl _
  | cons thread rest ih =>
    have running : runningUnits (thread :: rest) =
        thread.executing.toList ++ runningUnits rest := by
      cases unit : thread.executing <;> simp [runningUnits, unit]
    have waiting : (boundContexts (thread :: rest)).flatMap Context.waiting =
        thread.context.toList.flatMap Context.waiting ++
          (boundContexts rest).flatMap Context.waiting := by
      cases context : thread.context <;> simp [boundContexts, context]
    rw [List.flatMap_cons, running, waiting, Thread.units, List.append_assoc, List.append_assoc]
    refine List.Perm.append_left _ ?_
    exact (ih.append_left _).trans (List.perm_append_comm_assoc _ _ _)

theorem runningElsewhere_eq (bound : WellBound model.threads) (machine : MachineId) :
    runningElsewhere model.threads machine =
      ((machineIds model.threads).filter (· ≠ machine)).filterMap fun other =>
        (model.status other).executing := by
  unfold runningElsewhere runningUnits machineIds
  rw [List.filter_filterMap, List.filterMap_filterMap, List.filterMap_filter]
  apply List.filterMap_congr
  intro thread inside
  cases is : thread.machine with
  | none => simp
  | some other =>
    have status := status_of_mem bound inside is
    by_cases same : other = machine
    · simp [same, Option.filter]
    · simp [same, Option.filter, status, Thread.status]

theorem runningUnits_eq (bound : WellBound model.threads) (inert : Inert model.threads) :
    runningUnits model.threads =
      (machineIds model.threads).filterMap fun machine => (model.status machine).executing := by
  unfold runningUnits machineIds
  rw [List.filterMap_filterMap]
  apply List.filterMap_congr
  intro thread inside
  cases is : thread.machine with
  | none => exact congrArg Status.executing (inert thread inside is)
  | some machine => exact congrArg Status.executing (status_of_mem bound inside is).symm

theorem boundContexts_eq (bound : WellBound model.threads) :
    boundContexts model.threads = (contextIds model.threads).filterMap model.context? := by
  unfold boundContexts contextIds
  rw [List.filterMap_filterMap]
  apply List.filterMap_congr
  intro thread inside
  cases held : thread.context with
  | none => simp [Thread.contextId, held]
  | some context =>
    have holds : thread.contextId = some context.id := by simp [Thread.contextId, held]
    have owner : model.owner? context.id = some thread :=
      find?_eq_some_of_nodup bound.contexts inside holds
    simp [holds, context?, owner, held]

/-- A decision replaces each context by what it shows of it last. -/
theorem stageAll_boundContexts (bound : WellBound model.threads)
    (staged : model.stageAll decision = .ok next) :
    (boundContexts next.threads).Perm
      ((boundContexts model.threads).map fun context =>
        (lastObserved? context.id decision).getD context) := by
  -- The contexts are permuted only, so each is read off by its number before and after.
  have shown := stageAll_context? bound staged
  have replaced : (contextIds model.threads).filterMap next.context? =
      (boundContexts model.threads).map fun context =>
        (lastObserved? context.id decision).getD context := by
    rw [boundContexts_eq bound, List.map_filterMap]
    apply List.filterMap_congr
    intro context known
    obtain ⟨held, found⟩ := Option.isSome_iff_exists.mp (heldContext?_isSome_iff.mpr known)
    obtain rfl := id_of_heldContext? found
    rw [shown, show model.context? held.id = some held from found]
    cases seen : lastObserved? held.id decision <;> simp [seen]
  rw [boundContexts_eq (stageAll_wellBound bound staged), ← replaced]
  exact (stageAll_contextIds_perm staged).filterMap _

/-- Where machines that come new run nothing, the old ones run all there is. -/
theorem runningUnits_of_extends (bound : WellBound next.threads) (inert : Inert next.threads)
    (kept : machineIds model.threads <+: machineIds next.threads)
    (new : ∀ machine, machine ∉ machineIds model.threads →
      (next.status machine).executing = none) :
    runningUnits next.threads =
      (machineIds model.threads).filterMap fun machine => (next.status machine).executing := by
  obtain ⟨others, joined⟩ := kept
  have idle : (others.filterMap fun machine => (next.status machine).executing) = [] := by
    rw [List.filterMap_eq_nil_iff]
    intro machine member
    have disjoint := (List.nodup_append'.mp (joined ▸ bound.machines)).2.2
    exact new machine fun known => disjoint known member
  rw [runningUnits_eq bound inert, ← joined, List.filterMap_append, idle, List.append_nil]

end Model

section Key

variable [DecidableEq κ] {keys : List κ} {key : κ}

theorem filterMap_perm_of_nodup (nodup : keys.Nodup) (member : key ∈ keys) (read : κ → Option α) :
    (keys.filterMap read).Perm
      ((read key).toList ++ (keys.filter (· ≠ key)).filterMap read) := by
  have rest : keys.erase key = keys.filter (· ≠ key) := by
    rw [nodup.erase_eq_filter]
    apply List.filter_congr
    intro other _
    by_cases same : other = key <;> simp [same]
  have apart : (read key).toList ++ (keys.filter (· ≠ key)).filterMap read =
      (key :: keys.erase key).filterMap read := by
    rw [rest]
    cases first : read key <;> simp [first]
  rw [apart]
  exact (List.perm_cons_erase member).filterMap read

end Key

namespace Model

variable {model next : Model} {decision : Decision}

/-- A decision that names one machine leaves all others at what they run. -/
theorem runningUnits_perm (bound : WellBound model.threads) (inert : Inert model.threads)
    (staged : model.stageAll decision = .ok next) (machine : MachineId) (unit : Option WorkUnit)
    (known : machine ∈ machineIds model.threads ∨ unit = none)
    (named : (next.status machine).executing = unit)
    (others : ∀ other, other ≠ machine →
      (next.status other).executing = (model.status other).executing) :
    (runningUnits next.threads).Perm (unit.toList ++ runningElsewhere model.threads machine) := by
  have elsewhere : ((machineIds model.threads).filter (· ≠ machine)).filterMap
      (fun other => (next.status other).executing) = runningElsewhere model.threads machine := by
    rw [runningElsewhere_eq bound]
    apply List.filterMap_congr
    intro other member
    exact others other (by simpa using (List.mem_filter.mp member).2)
  -- A machine without an entry runs nothing, and what it gets is not a unit.
  have new (other : MachineId) (unknown : other ∉ machineIds model.threads) :
      (next.status other).executing = none := by
    by_cases same : other = machine
    · subst same
      exact named.trans (known.resolve_left unknown)
    · rw [others other same, status_of_not_mem unknown]
      rfl
  rw [runningUnits_of_extends (stageAll_wellBound bound staged) (stageAll_inert inert staged)
    (stageAll_extends_machineIds staged) new, ← elsewhere, ← named]
  by_cases member : machine ∈ machineIds model.threads
  · exact filterMap_perm_of_nodup bound.machines member _
  · have all : (machineIds model.threads).filter (· ≠ machine) = machineIds model.threads := by
      rw [List.filter_eq_self]
      intro other inside
      simpa using fun same : other = machine => member (same ▸ inside)
    rw [all, named, known.resolve_left member]
    exact .refl _

theorem runningUnits_of_status (bound : WellBound model.threads) (inert : Inert model.threads)
    (staged : model.stageAll decision = .ok next)
    (same : ∀ machine, (next.status machine).executing = (model.status machine).executing) :
    runningUnits next.threads = runningUnits model.threads := by
  rw [runningUnits_eq bound inert, runningUnits_of_extends (stageAll_wellBound bound staged)
    (stageAll_inert inert staged) (stageAll_extends_machineIds staged)]
  · simp only [same]
  · intro machine unknown
    rw [same, status_of_not_mem unknown]
    rfl

end Model

def Delta.parkedAfter (parked : List ParkedUnit) : Delta → List ParkedUnit
  | .parkedAdded unit => parked ++ [unit]
  | .parkedRemoved unit => parked.eraseP (·.unit.id = unit)
  | .scheduling _ _ | .executing _ _ | .bind _ _ | .contextState _ _ => parked

theorem Delta.parkedAfter_observations (parked : List ParkedUnit)
    (observations : List Observation) :
    (observations.map Observation.delta).foldl parkedAfter parked = parked := by
  induction observations with
  | nil => rfl
  | cons observation rest ih => exact ih

namespace Model

variable {model next : Model}

theorem Staged.parked {delta : Delta} (staged : model.Staged delta next) :
    next.parked = delta.parkedAfter model.parked := by
  cases staged <;> rfl

theorem stageAll_parked {decision : Decision} (staged : model.stageAll decision = .ok next) :
    next.parked = decision.foldl Delta.parkedAfter model.parked := by
  induction decision generalizing model with
  | nil =>
    obtain rfl := stageAll_nil_eq_ok_iff.mp staged
    rfl
  | cons delta rest ih =>
    obtain ⟨middle, first, later⟩ := stageAll_cons_eq_ok_iff.mp staged
    rw [List.foldl_cons, ih later, first.parked]

end Model

end SchedReplay
