import SchedReplay.Proofs.History
import SchedReplay.Proofs.Population

/-! Every model that is published is consistent, whether a decision led to it, a seed or the model
that the engine was given at the start. -/
namespace SchedReplay

namespace Hub

def waiting (hub : Hub) : List Update := hub.mailboxes.flatMap (·.waiting)

theorem mem_waiting_iff {hub : Hub} {update : Update} :
    update ∈ hub.waiting ↔ ∃ mailbox ∈ hub.mailboxes, update ∈ mailbox.waiting :=
  List.mem_flatMap

theorem mem_waiting_publish {hub : Hub} {update other : Update}
    (waits : other ∈ (hub.publish update).waiting) : other ∈ hub.waiting ∨ other = update := by
  obtain ⟨mailbox, delivered, waits⟩ := mem_waiting_iff.mp waits
  obtain ⟨before, reachable, rfl⟩ := List.mem_map.mp delivered
  have inside : before ∈ hub.mailboxes := (List.mem_filter.mp reachable).1
  unfold Mailbox.deliver at waits
  split at waits
  · exact .inl (mem_waiting_iff.mpr ⟨before, inside, waits⟩)
  · rcases List.mem_append.mp waits with old | new
    · exact .inl (mem_waiting_iff.mpr ⟨before, inside, old⟩)
    · exact .inr (List.mem_singleton.mp new)

/-- A subscriber that takes updates or goes away puts none into the queues. -/
theorem mem_waiting_updateMailbox {hub : Hub} {subscriber : Nat} {change : Mailbox → Mailbox}
    (shrinks : ∀ mailbox ∈ hub.mailboxes, mailbox.subscriber = subscriber →
      (change mailbox).waiting ⊆ hub.waiting)
    {update : Update} (waits : update ∈ (hub.updateMailbox subscriber change).waiting) :
    update ∈ hub.waiting := by
  obtain ⟨mailbox, changed, waits⟩ := mem_waiting_iff.mp waits
  obtain ⟨before, inside, rfl⟩ := List.mem_map.mp changed
  split at waits
  · next this => exact shrinks before inside this waits
  · exact mem_waiting_iff.mpr ⟨before, inside, waits⟩

theorem mem_waiting_receive {hub : Hub} {subscriber : Nat} {update : Update}
    (waits : update ∈ (hub.receive subscriber).2.waiting) : update ∈ hub.waiting := by
  unfold receive at waits
  split at waits
  · exact waits
  · next mailbox found =>
    split at waits
    · exact waits
    · next first rest queue =>
      refine mem_waiting_updateMailbox ?_ waits
      intro _ _ _ other left
      have inside : other ∈ mailbox.waiting := queue ▸ List.mem_cons_of_mem first left
      exact mem_waiting_iff.mpr ⟨mailbox, List.mem_of_find?_eq_some found, inside⟩

theorem mem_waiting_drain {hub : Hub} {subscriber : Nat} {update : Update}
    (waits : update ∈ (hub.drain subscriber).2.waiting) : update ∈ hub.waiting := by
  unfold drain at waits
  split at waits
  · exact waits
  · exact mem_waiting_updateMailbox (fun _ _ _ => List.nil_subset _) waits

theorem mem_waiting_drop {hub : Hub} {subscriber : Nat} {update : Update}
    (waits : update ∈ (hub.drop subscriber).2.waiting) : update ∈ hub.waiting := by
  unfold drop at waits
  split at waits
  · exact waits
  · refine mem_waiting_updateMailbox ?_ waits
    intro mailbox inside _ other left
    exact mem_waiting_iff.mpr ⟨mailbox, inside, left⟩

theorem mem_waiting_subscribe {hub : Hub} {capacity : Nat} {update : Update}
    (waits : update ∈ (hub.subscribe capacity).2.waiting) : update ∈ hub.waiting := by
  simpa [subscribe, waiting] using waits

end Hub

namespace Engine

/-- A call puts nothing into the queues but the update it publishes. -/
theorem mem_waiting_perform {engine : Engine} {call : Call} {update : Update}
    (waits : update ∈ (engine.perform call).2.hub.waiting) :
    update ∈ engine.hub.waiting ∨ engine.update? call = some update := by
  by_cases attempt : call.isAttempt = true
  · rw [engine.hub_of_isAttempt attempt] at waits
    cases published : engine.update? call with
    | none =>
      rw [published] at waits
      exact .inl waits
    | some new =>
      rw [published] at waits
      exact Or.imp_right (fun same => congrArg some same.symm) (Hub.mem_waiting_publish waits)
  · cases call with
    | reset =>
      exact Or.imp_right (fun same => congrArg some same.symm) (Hub.mem_waiting_publish waits)
    | subscribe capacity => exact .inl (Hub.mem_waiting_subscribe waits)
    | receive subscriber => exact .inl (Hub.mem_waiting_receive waits)
    | drain subscriber => exact .inl (Hub.mem_waiting_drain waits)
    | drop subscriber => exact .inl (Hub.mem_waiting_drop waits)
    | _ => exact absurd rfl attempt

end Engine

namespace Reconstruction.Transition

open Engine (Call Reply)

variable {state next : Reconstruction} {call : Call} {reply : Reply} {update : Option Update}

theorem consistent_committing {model : Model} {changes : Changes} (consistent : model.Consistent) :
    (state.committing model changes).snapshot.model.Consistent ∧
      ∀ snapshot, some (Update.committed (state.committing model changes).snapshot) =
        some (.committed snapshot) → snapshot.model.Consistent := by
  refine ⟨consistent, ?_⟩
  intro snapshot same
  cases same
  exact consistent

/-- A call leaves a consistent model and publishes none but consistent ones. -/
theorem consistent (ends : state.Transition call reply next update)
    (before : state.snapshot.model.Consistent) :
    next.snapshot.model.Consistent ∧
      ∀ snapshot, update = some (.committed snapshot) → snapshot.model.Consistent := by
  cases ends with
  | seeded _ _ small _ => exact consistent_committing (Model.consistent_seeded (Nat.le_of_lt small))
  | committed _ _ _ fits =>
    exact consistent_committing (Model.commit_eq_ok_iff.mp fits).2.1
  | noted live applies decides =>
    refine ⟨before, ?_⟩
    rename_i event
    cases event <;> simp [Event.notice?]
  | restarted => exact ⟨Model.consistent_empty, by simp⟩
  | _ => exact ⟨before, by simp⟩

end Reconstruction.Transition

namespace Engine

theorem consistent_of_started {start : Engine} (started : Started start) :
    start.model.Consistent ∧ start.hub.waiting = [] := by
  obtain ⟨model, checked, rfl⟩ := started.exists_eq
  exact ⟨Model.verify_eq_ok_iff.mp checked, rfl⟩

theorem Started.consistent_performAll {start : Engine} (started : Started start)
    (calls : List Call) : (start.performAll calls).model.Consistent := by
  refine performAll_induction calls (·.model.Consistent) start (consistent_of_started started).1 ?_
  intro engine call _ consistent
  exact ((engine.perform_transition call).consistent consistent).1

/-- In every state that calls lead to, the current model, the models that wait with subscribers
and the model that the next call publishes are consistent; so is the model of every seed. -/
theorem published_models_are_consistent {start : Engine} (started : Started start)
    (calls : List Call) :
    let engine := start.performAll calls
    engine.model.Consistent ∧
      (∀ mailbox ∈ engine.hub.mailboxes, ∀ snapshot,
        .committed snapshot ∈ mailbox.waiting → snapshot.model.Consistent) ∧
      (∀ call snapshot, engine.update? call = some (.committed snapshot) →
        snapshot.model.Consistent) ∧
      ∀ width, width < UInt32.size → (Model.seeded width).Consistent := by
  have all : (start.performAll calls).model.Consistent ∧
      ∀ snapshot, .committed snapshot ∈ (start.performAll calls).hub.waiting →
        snapshot.model.Consistent := by
    refine performAll_induction calls (fun engine => engine.model.Consistent ∧
      ∀ snapshot, .committed snapshot ∈ engine.hub.waiting → snapshot.model.Consistent) start ?_ ?_
    · obtain ⟨consistent, silent⟩ := consistent_of_started started
      exact ⟨consistent, by simp [silent]⟩
    · rintro engine call _ ⟨consistent, waiting⟩
      obtain ⟨after, published⟩ := (engine.perform_transition call).consistent consistent
      refine ⟨after, fun snapshot waits => ?_⟩
      rcases mem_waiting_perform waits with old | new
      · exact waiting snapshot old
      · exact published snapshot new
  refine ⟨all.1, ?_, ?_, ?_⟩
  · intro mailbox inside snapshot waits
    exact all.2 snapshot (Hub.mem_waiting_iff.mpr ⟨mailbox, inside, waits⟩)
  · intro call snapshot
    exact (((start.performAll calls).perform_transition call).consistent all.1).2 snapshot
  · intro width small
    exact Model.consistent_seeded (Nat.le_of_lt small)

theorem published_models_are_consistent_after_theft :
    let start : Engine := ⟨.start Model.twoMachines, .new⟩
    let engine := start.performAll [.subscribe 4, .applyEvent (.schedule ⟨⟨0⟩, ⟨1⟩, .mstart⟩)]
    Engine.ofModel Model.twoMachines = .ok start ∧
      engine.hub.mailboxes = [⟨0, 4, [.committed engine.snapshot], true⟩] ∧
      engine.model.Consistent := by
  intro start engine
  have accepted : Engine.ofModel Model.twoMachines = .ok start := rfl
  exact ⟨accepted, rfl, (published_models_are_consistent (.ofModel accepted) _).1⟩

end Engine

end SchedReplay
