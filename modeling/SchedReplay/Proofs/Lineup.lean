import Mathlib.Data.List.Infix
import SchedReplay.Proofs.Commitments
import SchedReplay.Proofs.Inventory

/-! Entries keep their places. Only unclaimed entries can go or move, and of these only the ones
whose context a decision hands over; what is left of the old list begins the new one. -/
namespace SchedReplay

/-- What an entry stands for: its machine, or else the context that nobody claimed. -/
inductive Identity where
  | machine (machine : MachineId)
  | unclaimed (context : ContextId)
  deriving DecidableEq

/-- Only a dead entry stands for nothing. -/
def Thread.identity (thread : Thread) : Option Identity :=
  match thread.machine with
  | some machine => some (.machine machine)
  | none => thread.contextId.map .unclaimed

/-- The context that a change hands over. -/
def Delta.context? : Delta → Option ContextId
  | bind _ context => some context
  | contextState _ state => some state.id
  | scheduling _ _ | executing _ _ | parkedAdded _ | parkedRemoved _ => none

/-- Whether an entry is unclaimed and holds one of the given contexts. -/
def Thread.isUnclaimedIn (contexts : List ContextId) (thread : Thread) : Bool :=
  thread.machine.isNone && thread.contextId.any (· ∈ contexts)

/-- The entries that stay where they are while the given contexts are handed over. -/
def settled (contexts : List ContextId) (threads : List Thread) : List Thread :=
  threads.filter (!·.isUnclaimedIn contexts)

/-- What these entries stand for, in order. -/
def lineup (contexts : List ContextId) (threads : List Thread) : List Identity :=
  (settled contexts threads).filterMap Thread.identity

section Lineup

variable {contexts : List ContextId} {threads : List Thread}

theorem lineup_append (more : List Thread) :
    lineup contexts (threads ++ more) = lineup contexts threads ++ lineup contexts more := by
  simp [lineup, settled]

theorem Thread.identity_eq_none_iff {thread : Thread} :
    thread.identity = none ↔ thread.isDead = true := by
  rw [Thread.isDead_iff]
  cases machine : thread.machine <;> simp [identity, contextId, machine]

theorem lineup_dropDead : lineup contexts (dropDead threads) = lineup contexts threads := by
  unfold lineup settled dropDead
  rw [List.filter_filter, List.filterMap_filter, List.filterMap_filter]
  apply List.filterMap_congr
  intro thread _
  cases dead : thread.isDead with
  | false => simp
  | true => simp [Thread.identity_eq_none_iff.mpr dead]

/-- What one entry adds to the list. -/
theorem lineup_cons (thread : Thread) : lineup contexts (thread :: threads) =
    (if thread.isUnclaimedIn contexts then [] else thread.identity.toList) ++
      lineup contexts threads := by
  unfold lineup settled
  cases moves : thread.isUnclaimedIn contexts with
  | true => simp [moves]
  | false => cases is : thread.identity <;> simp [moves, is]

theorem lineup_updateFirst {p : Thread → Bool} {change : Thread → Thread}
    (keeps : ∀ thread, p thread → lineup contexts [change thread] = lineup contexts [thread]) :
    lineup contexts (updateFirst p change threads) = lineup contexts threads := by
  induction threads with
  | nil => rfl
  | cons thread rest ih =>
    rw [updateFirst]
    split
    · next first =>
      rw [← List.singleton_append, lineup_append, keeps thread first, ← lineup_append,
        List.singleton_append]
    · rw [lineup_cons, ih, ← lineup_cons]

/-- A change to a machine's entry lets it stand for its machine. -/
theorem lineup_updateMachine {machine : MachineId} {change : Thread → Thread}
    (keeps : ∀ thread, (change thread).machine = thread.machine) :
    lineup contexts (updateFirst (·.isMachine machine) change threads) =
      lineup contexts threads := by
  apply lineup_updateFirst
  intro thread is
  rw [Thread.isMachine_iff] at is
  simp [lineup_cons, Thread.isUnclaimedIn, Thread.identity, keeps, is]

/-- Whatever becomes of the context of an entry, if the entry is unclaimed it did not count, and
does not count as long as it holds none or one that is handed over. -/
theorem lineup_updateHolder {context : ContextId} {change : Thread → Thread}
    (named : context ∈ contexts) (keeps : ∀ thread, (change thread).machine = thread.machine)
    (holds : ∀ thread, ∀ id ∈ (change thread).contextId, id = context) :
    lineup contexts (updateFirst (·.holds context) change threads) =
      lineup contexts threads := by
  apply lineup_updateFirst
  intro thread here
  rw [Thread.holds_iff] at here
  cases machine : thread.machine with
  | some machine => simp [lineup_cons, Thread.isUnclaimedIn, Thread.identity, keeps, machine]
  | none =>
    have held := holds thread
    cases after : (change thread).contextId with
    | none => simp [lineup_cons, Thread.isUnclaimedIn, Thread.identity, keeps, machine, here,
        named, after]
    | some id =>
      obtain rfl := held id after
      simp [lineup_cons, Thread.isUnclaimedIn, keeps, machine, here, named, after]

theorem lineup_withMachine (machine : MachineId) :
    lineup contexts threads <+: lineup contexts (withMachine machine threads) := by
  unfold withMachine
  split
  · exact List.prefix_rfl
  · rw [lineup_append]
    exact List.prefix_append _ _

theorem lineup_handedOver (machine : MachineId) {state : Context} (named : state.id ∈ contexts) :
    lineup contexts threads <+: lineup contexts (handedOver threads machine state) := by
  unfold handedOver
  rw [lineup_dropDead, lineup_append, lineup_updateMachine (Thread.machine_hold state),
    lineup_updateHolder named Thread.machine_vacate (by simp)]
  exact (lineup_withMachine machine).trans (List.prefix_append _ _)

theorem lineup_disowned {state : Context} (named : state.id ∈ contexts) :
    lineup contexts threads <+: lineup contexts (disowned threads state) := by
  unfold disowned
  split
  · rw [lineup_updateHolder named (Thread.machine_hold state) (by simp)]
  · rw [lineup_dropDead, lineup_append,
      lineup_updateHolder named Thread.machine_vacate (by simp)]
    exact List.prefix_append _ _

/-- Without dead entries every entry stands for something. -/
theorem map_identity_settled (alive : ∀ thread ∈ threads, thread.isDead = false) :
    (settled contexts threads).map Thread.identity = (lineup contexts threads).map some := by
  unfold lineup
  rw [List.map_filterMap, ← List.filterMap_eq_map]
  apply List.filterMap_congr
  intro thread member
  have lives := alive thread (List.mem_filter.mp member).1
  cases is : thread.identity with
  | none => simp [Thread.identity_eq_none_iff.mp is] at lives
  | some identity => simp [is]

end Lineup

namespace Model

variable {model next : Model} {contexts : List ContextId}

theorem Staged.extends_lineup {delta : Delta} (staged : model.Staged delta next)
    (named : ∀ context ∈ delta.context?, context ∈ contexts) :
    lineup contexts model.threads <+: lineup contexts next.threads := by
  have changed {machine : MachineId} {change : Thread → Thread}
      (keeps : ∀ thread, (change thread).machine = thread.machine) :
      lineup contexts model.threads <+:
        lineup contexts (updateFirst (·.isMachine machine) change model.threads) := by
    rw [lineup_updateMachine keeps]
  cases staged with
  | scheduling => exact changed fun _ => rfl
  | executing => exact changed fun _ => rfl
  | bind machine context held found =>
    have this := named context rfl
    rw [← id_of_heldContext? found] at this
    exact lineup_handedOver machine this
  | taken machine state => exact lineup_handedOver machine (named state.id rfl)
  | left state => exact lineup_disowned (named state.id rfl)
  | parkedAdded => exact List.prefix_rfl
  | parkedRemoved => exact List.prefix_rfl

/-- The contexts named anywhere in a decision count at each of its changes. -/
theorem stageAll_extends_lineup {decision : Decision}
    (named : ∀ delta ∈ decision, ∀ context ∈ delta.context?, context ∈ contexts)
    (staged : model.stageAll decision = .ok next) :
    lineup contexts model.threads <+: lineup contexts next.threads := by
  induction decision generalizing model with
  | nil =>
    obtain rfl := stageAll_nil_eq_ok_iff.mp staged
    exact List.prefix_rfl
  | cons delta rest ih =>
    obtain ⟨middle, first, later⟩ := stageAll_cons_eq_ok_iff.mp staged
    have kept := first.extends_lineup (named delta (.head _))
    exact kept.trans (ih (fun other member => named other (.tail _ member)) later)

theorem commit_extends_lineup {decision : Decision} {changes : Changes}
    (consistent : model.Consistent)
    (committed : model.commit decision = .ok (next, changes)) :
    (settled (decision.filterMap Delta.context?) model.threads).map Thread.identity <+:
      (settled (decision.filterMap Delta.context?) next.threads).map Thread.identity := by
  obtain ⟨staged, after, _⟩ := commit_eq_ok_iff.mp committed
  rw [map_identity_settled consistent.bound.alive, map_identity_settled after.bound.alive]
  refine (stageAll_extends_lineup ?_ staged).map some
  intro delta member context names
  exact List.mem_filterMap.mpr ⟨delta, member, names⟩

theorem Advance.extends_machineIds {committed : Option Event}
    (advance : model.Advance committed next) :
    machineIds model.threads <+: machineIds next.threads := by
  cases advance with
  | kept => exact List.prefix_rfl
  | seeded _ _ unpopulated =>
    subst unpopulated
    exact List.nil_prefix
  | committed _ fits => exact stageAll_extends_machineIds (commit_eq_ok_iff.mp fits).1

end Model

namespace Engine

theorem extends_machineIds_performAll (engine : Engine) {calls : List Call}
    (stays : .reset ∉ calls) :
    machineIds engine.model.threads <+: machineIds (engine.performAll calls).model.threads := by
  refine performAll_induction calls
    (machineIds engine.model.threads <+: machineIds ·.model.threads) engine List.prefix_rfl ?_
  intro before call member kept
  have keeps : call ≠ .reset := fun is => stays (is ▸ member)
  exact kept.trans ((before.perform_transition call).advance keeps).extends_machineIds

/-- A commit leaves every entry in its place but the unclaimed ones whose context it names, and
adds new ones after them. Machines stay in their places until the next run. -/
theorem entries_keep_their_places :
    (∀ (model next : Model) (decision : Decision) (changes : Changes), model.verify = .ok () →
      model.commit decision = .ok (next, changes) →
        let named := decision.filterMap Delta.context?
        (settled named model.threads).map Thread.identity <+:
            (settled named next.threads).map Thread.identity ∧
          machineIds model.threads <+: machineIds next.threads) ∧
    ∀ (engine : Engine) (calls : List Call), .reset ∉ calls →
      machineIds engine.model.threads <+: machineIds (engine.performAll calls).model.threads := by
  constructor
  · intro model next decision changes verified committed named
    have machines := Model.stageAll_extends_machineIds (Model.commit_eq_ok_iff.mp committed).1
    exact ⟨Model.commit_extends_lineup (Model.verify_eq_ok_iff.mp verified) committed, machines⟩
  · intro engine calls stays
    exact engine.extends_machineIds_performAll stays

/-- A new machine takes the context of the first one, and the second takes the unclaimed one,
whose entry goes. -/
theorem entries_keep_their_places_in_theft :
    let decision : Decision := [.bind ⟨7⟩ ⟨0⟩, .contextState (some ⟨1⟩) (.idle ⟨2⟩)]
    let next : Model := ⟨[⟨some ⟨0⟩, false, none, some ⟨⟨1⟩, ""⟩⟩,
      ⟨some ⟨1⟩, false, some (.idle ⟨2⟩), some ⟨⟨2⟩, ""⟩⟩,
      ⟨some ⟨7⟩, false, some ⟨⟨0⟩, none, [⟨⟨5⟩, ""⟩]⟩, none⟩, .unclaimed (.idle ⟨1⟩)], []⟩
    let named := decision.filterMap Delta.context?
    let engine : Engine := ⟨.start Model.twoMachines, .new⟩
    let calls : List Call := [.applyEvent (.schedule ⟨⟨7⟩, ⟨0⟩, .mstart⟩)]
    Model.twoMachines.commit decision = .ok (next, .ofDecision decision) ∧
      (settled named Model.twoMachines.threads).map Thread.identity =
        [some (.machine ⟨0⟩), some (.machine ⟨1⟩)] ∧
      (settled named Model.twoMachines.threads).map Thread.identity <+:
        (settled named next.threads).map Thread.identity ∧
      machineIds (engine.performAll calls).model.threads = [⟨0⟩, ⟨1⟩, ⟨7⟩] ∧
      machineIds engine.model.threads <+: machineIds (engine.performAll calls).model.threads := by
  intro decision next named engine calls
  obtain ⟨places, machines⟩ := entries_keep_their_places
  have committed : Model.twoMachines.commit decision = .ok (next, .ofDecision decision) := rfl
  exact ⟨committed, rfl, (places _ _ _ _ rfl committed).1, rfl, machines _ _ (by decide)⟩

end Engine

end SchedReplay
