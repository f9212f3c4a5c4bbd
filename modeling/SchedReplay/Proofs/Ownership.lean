import SchedReplay.Proofs.Holding

/-! Who owns which context, as a map, and what each context was last seen to hold. A decision acts
on the map as a fold over its changes, however long its chains of handovers are. -/
namespace SchedReplay

/-- The owner of each context: none at all for a context that is not bound, and no machine for one
that nobody claimed. -/
abbrev Ownership := ContextId → Option (Option MachineId)

namespace Ownership

/-- The machine lets every other context of its own go unclaimed and takes this one. -/
def claim (own : Ownership) (machine : MachineId) (context : ContextId) : Ownership := fun other =>
  if other = context then some (some machine)
  else if own other = some (some machine) then some none
  else own other

def release (own : Ownership) (context : ContextId) : Ownership := fun other =>
  if other = context then some none else own other

def after (own : Ownership) : Delta → Ownership
  | .bind machine context => own.claim machine context
  | .contextState (some machine) state => own.claim machine state.id
  | .contextState none state => own.release state.id
  | .scheduling _ _ | .executing _ _ | .parkedAdded _ | .parkedRemoved _ => own

end Ownership

def Model.ownership (model : Model) : Ownership := fun context =>
  (model.owner? context).map (·.machine)

def Holder.machine? : Holder → Option MachineId
  | machine owner => some owner
  | nobody _ => none

/-- The machines among the holders. -/
def Holding.owners (holding : Holding) : Ownership := fun context =>
  (holding context).map Holder.machine?

theorem Model.ownership_eq_owners (model : Model) : model.ownership = model.holding.owners := by
  funext context
  simp only [ownership, Holding.owners, holding, Option.map_map]
  congr 1
  funext thread
  cases is : thread.machine <;> simp [Thread.holder, is, Holder.machine?]

theorem Holding.owners_after (holding : Holding) (delta : Delta) :
    (holding.after delta).owners = holding.owners.after delta := by
  have claims (machine : MachineId) (context : ContextId) :
      (holding.claim machine context).owners = holding.owners.claim machine context := by
    funext other
    simp only [owners, claim, Ownership.claim]
    split
    · rfl
    · rcases (holding other).eq_none_or_eq_some with missing | ⟨holder, found⟩
      · simp [missing]
      · cases holder with
        | machine owner => by_cases same : owner = machine <;> simp [found, same, Holder.machine?]
        | nobody status => simp [found, Holder.machine?]
  have releases (context : ContextId) :
      (holding.release context).owners = holding.owners.release context := by
    funext other
    simp only [owners, release, Ownership.release]
    split
    · rcases (holding other).eq_none_or_eq_some with missing | ⟨holder, found⟩
      · simp [missing, Holder.machine?]
      · cases holder <;> simp [found, Holder.left, Holder.machine?]
    · rfl
  cases delta with
  | bind machine context => exact claims machine context
  | contextState owner state =>
    cases owner with
    | none => exact releases state.id
    | some machine => exact claims machine state.id
  | scheduling => rfl
  | executing => rfl
  | parkedAdded => rfl
  | parkedRemoved => rfl

/-- The state in which a change shows a context. -/
def Delta.observed? (context : ContextId) : Delta → Option Context
  | .contextState _ state => if state.id = context then some state else none
  | _ => none

/-- The state in which a decision shows a context last. -/
def lastObserved? (context : ContextId) (decision : Decision) : Option Context :=
  decision.reverse.findSome? (·.observed? context)

theorem lastObserved?_cons (context : ContextId) (delta : Delta) (rest : Decision) :
    lastObserved? context (delta :: rest) =
      (lastObserved? context rest).or (delta.observed? context) := by
  simp [lastObserved?]

theorem foldl_observed? (context : ContextId) (decision : Decision) (held : Option Context) :
    decision.foldl (fun held delta => (delta.observed? context).or held) held =
      (lastObserved? context decision).or held := by
  induction decision generalizing held with
  | nil => rfl
  | cons delta rest ih => rw [List.foldl_cons, ih, lastObserved?_cons, Option.or_assoc]

namespace Model

variable {model next : Model} {delta : Delta}

theorem context?_handedOver (bound : WellBound model.threads) (machine : MachineId)
    {state : Context} (known : state.id ∈ contextIds model.threads) (context : ContextId) :
    { model with threads := handedOver model.threads machine state }.context? context =
      if context = state.id then some state else model.context? context := by
  simp only [context?, owner?, find?_holds_handedOver bound known]
  split
  · simp
  · cases model.threads.find? (·.holds context) with
    | none => simp
    | some thread =>
      by_cases is : thread.machine = some machine <;> simp [is, Thread.orphan]

theorem context?_disowned (bound : WellBound model.threads) {state : Context}
    (known : state.id ∈ contextIds model.threads) (context : ContextId) :
    { model with threads := disowned model.threads state }.context? context =
      if context = state.id then some state else model.context? context := by
  obtain ⟨owner, found⟩ := exists_holder known
  simp only [context?, owner?, find?_holds_disowned bound known]
  split
  · next this => simp [this, found]
  · simp

theorem Staged.ownership (staged : model.Staged delta next) (bound : WellBound model.threads) :
    next.ownership = model.ownership.after delta := by
  rw [ownership_eq_owners, ownership_eq_owners, staged.holding bound, Holding.owners_after]

/-- One change of a decision replaces the state of the context it shows and of no other. -/
theorem Staged.context? (staged : model.Staged delta next) (bound : WellBound model.threads)
    (context : ContextId) :
    next.context? context = (delta.observed? context).or (model.context? context) := by
  have status {machine : MachineId} {change : Thread → Thread}
      (keeps : ∀ thread, (change thread).context = thread.context) :
      { model with threads := updateFirst (·.isMachine machine) change model.threads }.context?
        context = model.context? context := by
    simp only [Model.context?, owner?, find?_holds_updateMachine keeps bound]
    cases model.threads.find? (·.holds context) with
    | none => rfl
    | some thread => by_cases is : thread.machine = some machine <;> simp [is, keeps]
  have shown {state : Context} :
      (if context = state.id then some state else model.context? context) =
        (if state.id = context then some state else none).or (model.context? context) := by
    by_cases same : context = state.id
    · simp [same]
    · simp [same, Ne.symm same]
  cases staged with
  | scheduling => exact status fun _ => rfl
  | executing => exact status fun _ => rfl
  | bind machine id held found =>
    rw [context?_handedOver bound machine (mem_of_heldContext? found), id_of_heldContext? found]
    split
    · next this => exact this ▸ found.symm
    · rfl
  | taken machine state known => exact (context?_handedOver bound machine known context).trans shown
  | left state known => exact (context?_disowned bound known context).trans shown
  | parkedAdded => rfl
  | parkedRemoved => rfl

theorem stageAll_context? {decision : Decision} (bound : WellBound model.threads)
    (staged : model.stageAll decision = .ok next) (context : ContextId) :
    next.context? context = (lastObserved? context decision).or (model.context? context) := by
  rw [← foldl_observed?]
  exact stageAll_eq_foldl (·.context? context) (fun held delta => (delta.observed? context).or held)
    (fun _ _ _ bound first => first.context? bound context) bound staged

theorem stageAll_ownership {decision : Decision} (bound : WellBound model.threads)
    (staged : model.stageAll decision = .ok next) :
    next.ownership = decision.foldl Ownership.after model.ownership ∧
      ∀ context, next.context? context =
        (lastObserved? context decision).or (model.context? context) := by
  constructor
  · exact stageAll_eq_foldl ownership Ownership.after
      (fun _ _ _ bound first => first.ownership bound) bound staged
  · exact stageAll_context? bound staged

/-- A commit hands contexts over as the ownership map says, one change after the other, and every
context is left as the decision showed it last or else as it was. -/
theorem commit_follows_ownership {decision : Decision} {changes : Changes}
    (consistent : model.verify = .ok ()) (committed : model.commit decision = .ok (next, changes)) :
    next.ownership = decision.foldl Ownership.after model.ownership ∧
      ∀ context, next.context? context =
        (lastObserved? context decision).or (model.context? context) := by
  have bound := (verify_eq_ok_iff.mp consistent).bound
  exact stageAll_ownership bound (commit_eq_ok_iff.mp committed).1

/-- Two machines swap their contexts, and the context that nobody claimed is seen anew. -/
def swap : Decision :=
  [.bind ⟨0⟩ ⟨1⟩, .contextState (some ⟨1⟩) ⟨⟨0⟩, some ⟨⟨6⟩, ""⟩, [⟨⟨5⟩, ""⟩]⟩,
    .contextState none ⟨⟨2⟩, none, [⟨⟨7⟩, ""⟩]⟩]

theorem commit_follows_ownership_of_swap :
    twoMachines.verify = .ok () ∧ ∃ next changes, twoMachines.commit swap = .ok (next, changes) ∧
      next.ownership = swap.foldl Ownership.after twoMachines.ownership ∧
      ∀ context, next.context? context =
        (lastObserved? context swap).or (twoMachines.context? context) :=
  ⟨rfl, _, _, rfl, commit_follows_ownership rfl rfl⟩

end Model

end SchedReplay
