import SchedReplay.Proofs.Outcome

/-! Changes that are made twice. One that has been made already is made once more without a trace,
down to the order of the entries, and what a decision sets stays set as long as none of its own
changes overrides it. -/
namespace SchedReplay

section Fixed

variable {threads : List Thread}

theorem updateFirst_eq_self {p : α → Bool} {f : α → α} {entries : List α}
    (keeps : ∀ entry ∈ entries.find? p, f entry = entry) : updateFirst p f entries = entries := by
  induction entries with
  | nil => rfl
  | cons first rest ih =>
    rw [updateFirst]
    by_cases is : p first = true
    · rw [if_pos is, keeps first (by simp [is])]
    · rw [if_neg is, ih (by simpa [is] using keeps)]

theorem Thread.hold_eq_self {thread : Thread} {state : Context}
    (holds : thread.context = some state) : thread.hold state = thread := by
  rw [hold, ← holds]

/-- A machine that takes the context it has leaves the list as it is. -/
theorem handedOver_eq_self (bound : WellBound threads) {owner : Thread} (inside : owner ∈ threads)
    {machine : MachineId} (is : owner.machine = some machine) {state : Context}
    (holds : owner.context = some state) : handedOver threads machine state = threads := by
  have known : withMachine machine threads = threads := by
    rw [withMachine, if_pos]
    exact List.any_eq_true.mpr ⟨owner, inside, Thread.isMachine_iff.mpr is⟩
  have nothing : displaced? threads machine state.id = none := by
    simp [displaced?, entryFor_of_mem bound inside is, holds]
  -- No other entry is the machine's, and no other holds the context.
  have kept (thread : Thread) (member : thread ∈ threads) : thread.handed machine state = thread := by
    by_cases same : thread = owner
    · rw [Thread.handed, same, if_pos is, Thread.hold_eq_self holds]
    · have holds : owner.contextId = some state.id := by simp [Thread.contextId, holds]
      have first : thread.machine ≠ some machine :=
        fun also => same (eq_of_key_eq bound.machines member inside also is)
      have second : thread.contextId ≠ some state.id :=
        fun also => same (eq_of_key_eq bound.contexts member inside also holds)
      rw [Thread.handed, if_neg first, Thread.without, if_neg second]
  rw [handedOver_eq bound, known, nothing, List.map_congr_left kept, List.map_id']
  simpa using dropDead_eq_self bound.alive

/-- A context that nobody owns is left where it is. -/
theorem disowned_eq_self {state : Context} {owner : Thread}
    (found : threads.find? (·.holds state.id) = some owner) (free : owner.machine = none)
    (holds : owner.context = some state) : disowned threads state = threads := by
  rw [disowned_of_free found free]
  apply updateFirst_eq_self
  intro thread first
  obtain rfl : owner = thread := Option.some.inj (found.symm.trans first)
  exact Thread.hold_eq_self holds

end Fixed

namespace Delta

/-- Whether a model says already what a change would have it say. -/
def IsMadeIn (model : Model) : Delta → Prop
  | scheduling machine isScheduling => machine ∈ machineIds model.threads ∧
      (model.status machine).isScheduling = isScheduling
  | executing machine unit => machine ∈ machineIds model.threads ∧
      (model.status machine).executing = unit
  | bind machine context => model.ownership context = some (some machine)
  | contextState owner state => model.ownership state.id = some owner ∧
      model.context? state.id = some state
  | parkedAdded _ | parkedRemoved _ => False

/-- Whether a change leaves a context, its state and its owner alone. -/
def Leaves (owner : Option MachineId) (context : ContextId) : Delta → Prop
  | bind machine taken => taken ≠ context ∧ owner ≠ some machine
  | contextState (some machine) state => state.id ≠ context ∧ owner ≠ some machine
  | contextState none state => state.id ≠ context
  | scheduling _ _ | executing _ _ | parkedAdded _ | parkedRemoved _ => True

/-- Whether a later change leaves alone what an earlier one has set. -/
def Spares (later : Delta) : Delta → Prop
  | scheduling machine _ => ∀ isScheduling, later ≠ scheduling machine isScheduling
  | executing machine _ => ∀ unit, later ≠ executing machine unit
  | bind machine context => later.Leaves (some machine) context
  | contextState owner state => later.Leaves owner state.id
  | parkedAdded _ | parkedRemoved _ => True

variable {later : Delta} {owner : Option MachineId} {context : ContextId}

theorem Leaves.after_eq_some (leaves : later.Leaves owner context) {own : Ownership}
    (owns : own context = some owner) : own.after later context = some owner := by
  cases later with
  | bind machine taken =>
    simp [Ownership.after, Ownership.claim, leaves.1.symm, owns, leaves.2]
  | contextState taker state =>
    cases taker with
    | none => simp [Ownership.after, Ownership.release, Ne.symm leaves, owns]
    | some machine =>
      simp [Ownership.after, Ownership.claim, leaves.1.symm, owns, leaves.2]
  | scheduling | executing | parkedAdded | parkedRemoved => exact owns

theorem Leaves.observed?_eq_none (leaves : later.Leaves owner context) :
    later.observed? context = none := by
  cases later with
  | contextState taker state =>
    have other : state.id ≠ context := by
      cases taker with
      | none => exact leaves
      | some machine => exact leaves.1
    simp [observed?, other]
  | scheduling | executing | bind | parkedAdded | parkedRemoved => rfl

end Delta

namespace Model

variable {model next : Model} {delta kept later : Delta} {decision : Decision}

theorem updateMachine_eq_self {machine : MachineId} {change : Thread → Thread}
    (keeps : ∀ thread, thread.status = model.status machine → change thread = thread) :
    updateFirst (·.isMachine machine) change model.threads = model.threads := by
  apply updateFirst_eq_self
  intro thread found
  apply keeps
  simp [status, thread?, Option.mem_def.mp found]

theorem exists_owner_of_ownership {context : ContextId} {owner : Option MachineId}
    (owns : model.ownership context = some owner) :
    ∃ thread, model.threads.find? (·.holds context) = some thread ∧ thread.machine = owner :=
  Option.map_eq_some_iff.mp owns

theorem context_of_owner {context : ContextId} {owner : Thread}
    (found : model.threads.find? (·.holds context) = some owner) :
    owner.context = model.context? context := by
  simp [context?, owner?, found]

/-- A change that has been made already makes no difference. -/
theorem staged_self (bound : WellBound model.threads) (made : delta.IsMadeIn model) :
    model.Staged delta model := by
  cases delta with
  | scheduling machine isScheduling =>
    have same : updateFirst (·.isMachine machine) ({ · with isScheduling }) model.threads =
        model.threads := by
      apply updateMachine_eq_self
      intro thread status
      rw [← made.2, ← status]
      rfl
    have staged := Staged.scheduling machine isScheduling made.1
    rwa [same] at staged
  | executing machine unit =>
    have same : updateFirst (·.isMachine machine) ({ · with executing := unit }) model.threads =
        model.threads := by
      apply updateMachine_eq_self
      intro thread status
      rw [← made.2, ← status]
      rfl
    have staged := Staged.executing machine unit made.1
    rwa [same] at staged
  | bind machine context =>
    obtain ⟨owner, found, is⟩ := exists_owner_of_ownership made
    obtain ⟨held, here, _⟩ := Option.map_eq_some_iff.mp (Thread.holds_iff.mp (List.find?_some found))
    have inside := List.mem_of_find?_eq_some found
    have staged := Staged.bind machine context held ((context_of_owner found).symm.trans here)
    rwa [handedOver_eq_self bound inside is here] at staged
  | contextState taker state =>
    obtain ⟨owns, shows⟩ := made
    obtain ⟨owner, found, is⟩ := exists_owner_of_ownership owns
    have inside := List.mem_of_find?_eq_some found
    have holds := (context_of_owner found).trans shows
    have known : state.id ∈ contextIds model.threads :=
      mem_contextIds.mpr ⟨owner, inside, Thread.holds_iff.mp (List.find?_some found)⟩
    cases taker with
    | none =>
      have staged := Staged.left state known
      rwa [disowned_eq_self found is holds] at staged
    | some machine =>
      have staged := Staged.taken machine state known
      rwa [handedOver_eq_self bound inside is holds] at staged
  | parkedAdded | parkedRemoved => exact made.elim

/-- What a change sets is so at once. -/
theorem Staged.isMadeIn (staged : model.Staged delta next) (bound : WellBound model.threads)
    (lasting : delta.isParking = false) : delta.IsMadeIn next := by
  cases delta with
  | scheduling machine isScheduling =>
    refine ⟨staged.mem_machineIds rfl, ?_⟩
    simp [staged.status bound, Status.after]
  | executing machine unit =>
    refine ⟨staged.mem_machineIds rfl, ?_⟩
    simp [staged.status bound, Status.after]
  | bind machine context =>
    rw [Delta.IsMadeIn, staged.ownership bound]
    simp [Ownership.after, Ownership.claim]
  | contextState taker state =>
    rw [Delta.IsMadeIn, staged.ownership bound, staged.context? bound]
    cases taker <;>
      simp [Ownership.after, Ownership.claim, Ownership.release, Delta.observed?]
  | parkedAdded | parkedRemoved => cases lasting

/-- What is set stays so while it is spared. -/
theorem Staged.isMadeIn_of_spares (staged : model.Staged later next)
    (bound : WellBound model.threads) (made : kept.IsMadeIn model) (spares : later.Spares kept) :
    kept.IsMadeIn next := by
  -- A machine keeps its entry whatever the later change is.
  have entry (machine : MachineId) (known : machine ∈ machineIds model.threads) :
      machine ∈ machineIds next.threads :=
    (staged.mem_machineIds_iff machine).mpr (.inl known)
  cases kept with
  | scheduling machine isScheduling =>
    refine ⟨entry machine made.1, ?_⟩
    rw [staged.status bound, ← made.2]
    cases later with
    | scheduling other flag =>
      have ne : other ≠ machine := fun same => spares flag (same ▸ rfl)
      simp [Status.after, ne]
    | executing other unit =>
      rw [Status.after]
      split <;> rfl
    | bind | contextState | parkedAdded | parkedRemoved => rfl
  | executing machine unit =>
    refine ⟨entry machine made.1, ?_⟩
    rw [staged.status bound, ← made.2]
    cases later with
    | scheduling other flag =>
      rw [Status.after]
      split <;> rfl
    | executing other unit =>
      have ne : other ≠ machine := fun same => spares unit (same ▸ rfl)
      simp [Status.after, ne]
    | bind | contextState | parkedAdded | parkedRemoved => rfl
  | bind machine context =>
    rw [Delta.IsMadeIn, staged.ownership bound]
    exact spares.after_eq_some made
  | contextState taker state =>
    rw [Delta.IsMadeIn, staged.ownership bound, staged.context? bound, spares.observed?_eq_none]
    exact ⟨spares.after_eq_some made.1, made.2⟩
  | parkedAdded | parkedRemoved => exact made

theorem isMadeIn_stageAll (bound : WellBound model.threads)
    (staged : model.stageAll decision = .ok next) (made : kept.IsMadeIn model)
    (spares : ∀ later ∈ decision, later.Spares kept) : kept.IsMadeIn next := by
  induction decision generalizing model with
  | nil =>
    obtain rfl := stageAll_nil_eq_ok_iff.mp staged
    exact made
  | cons delta rest ih =>
    obtain ⟨middle, first, later⟩ := stageAll_cons_eq_ok_iff.mp staged
    rw [List.forall_mem_cons] at spares
    exact ih (first.wellBound bound) later (first.isMadeIn_of_spares bound made spares.1) spares.2

/-- A decision whose changes spare each other has set in the end what it sets. -/
theorem forall_isMadeIn_of_stageAll (bound : WellBound model.threads)
    (staged : model.stageAll decision = .ok next)
    (spares : decision.Pairwise fun kept later => later.Spares kept) :
    ∀ delta ∈ decision, delta.isParking = false → delta.IsMadeIn next := by
  induction decision generalizing model with
  | nil => simp
  | cons delta rest ih =>
    obtain ⟨middle, first, later⟩ := stageAll_cons_eq_ok_iff.mp staged
    rw [List.pairwise_cons] at spares
    rw [List.forall_mem_cons]
    constructor
    · intro lasting
      exact isMadeIn_stageAll (first.wellBound bound) later (first.isMadeIn bound lasting) spares.1
    · exact ih (first.wellBound bound) later spares.2

theorem stageAll_self (bound : WellBound model.threads)
    (made : ∀ delta ∈ decision, delta.IsMadeIn model) : model.stageAll decision = .ok model := by
  induction decision with
  | nil => rfl
  | cons delta rest ih =>
    rw [List.forall_mem_cons] at made
    exact stageAll_cons_eq_ok_iff.mpr ⟨model, staged_self bound made.1, ih made.2⟩

end Model

end SchedReplay
