import SchedReplay.Model.Consistency
import SchedReplay.Proofs.Binding

/-! Consistency as a property of the lists themselves, and the checker as a decision of it. -/
namespace SchedReplay

/-- Every unit that an entry holds, with the running one first. -/
def Thread.units (thread : Thread) : List WorkUnit :=
  thread.executing.toList ++ thread.context.toList.flatMap Context.waiting

namespace Model

def units (model : Model) : List WorkUnit :=
  model.threads.flatMap Thread.units ++ model.parked.map (·.unit)

/-- No machine and no context has two entries, every entry stands for one of them, and no unit is
in two places. -/
structure Consistent (model : Model) : Prop where
  bound : WellBound model.threads
  units : (model.units.map (·.id)).Nodup

theorem Consistent.nodup_parked {model : Model} (consistent : model.Consistent) :
    (model.parked.map (·.unit.id)).Nodup := by
  have once := consistent.units
  rw [Model.units, List.map_append, List.map_map] at once
  exact (List.nodup_append'.mp once).2.1

end Model

section Placements

theorem Context.map_fst_placements (context : Context) :
    context.placements.map Prod.fst = context.waiting.map (·.id) := by
  simp [placements, waiting, Function.comp_def]

theorem Thread.map_fst_placements (index : Nat) (thread : Thread) :
    (thread.placements index).map Prod.fst = thread.units.map (·.id) := by
  have queues : (thread.context.toList.flatMap Context.placements).map Prod.fst =
      (thread.context.toList.flatMap Context.waiting).map (·.id) := by
    cases thread.context <;> simp [Context.map_fst_placements]
  simp [placements, units, queues, Function.comp_def]

theorem map_fst_threadPlacements (index : Nat) (threads : List Thread) :
    (threadPlacements index threads).map Prod.fst =
      (threads.flatMap Thread.units).map (·.id) := by
  induction threads generalizing index with
  | nil => rfl
  | cons thread rest ih =>
    rw [threadPlacements, List.map_append, Thread.map_fst_placements, ih, List.flatMap_cons,
      List.map_append]

theorem Model.map_fst_placements (model : Model) :
    model.placements.map Prod.fst = model.units.map (·.id) := by
  rw [placements, units, List.map_append, List.map_append, map_fst_threadPlacements]
  simp [ParkedUnit.placement, Function.comp_def]

end Placements

section Checker

theorem nodup_toList (found : Option α) : found.toList.Nodup := by
  cases found <;> simp

theorem disjoint_toList_iff [DecidableEq α] {found : Option α} {seen : List α} :
    found.toList.Disjoint seen ↔ found.filter (· ∈ seen) = none := by
  cases found <;> simp [Option.filter]

theorem wellBound_cons_iff {thread : Thread} {rest : List Thread} :
    WellBound (thread :: rest) ↔ thread.isDead = false ∧
      (machineIds rest).Disjoint thread.machine.toList ∧
        (contextIds rest).Disjoint thread.contextId.toList ∧ WellBound rest := by
  constructor
  · rintro ⟨machines, contexts, alive⟩
    rw [machineIds_cons, List.nodup_append'] at machines
    rw [contextIds_cons, List.nodup_append'] at contexts
    rw [List.forall_mem_cons] at alive
    exact ⟨alive.1, List.disjoint_comm.mp machines.2.2, List.disjoint_comm.mp contexts.2.2,
      machines.2.1, contexts.2.1, alive.2⟩
  · rintro ⟨alive, machines, contexts, bound⟩
    refine ⟨?_, ?_, List.forall_mem_cons.mpr ⟨alive, bound.alive⟩⟩
    · rw [machineIds_cons, List.nodup_append']
      exact ⟨nodup_toList _, bound.machines, List.disjoint_comm.mp machines⟩
    · rw [contextIds_cons, List.nodup_append']
      exact ⟨nodup_toList _, bound.contexts, List.disjoint_comm.mp contexts⟩

/-- The scan of the entries finds no conflict just when there is none among them and none with
what was seen before. -/
theorem threadConflict?_eq_none_iff {index : Nat} {machines : List MachineId}
    {contexts : List ContextId} {threads : List Thread} :
    threadConflict? index machines contexts threads = none ↔ WellBound threads ∧
      (machineIds threads).Disjoint machines ∧ (contextIds threads).Disjoint contexts := by
  induction threads generalizing index machines contexts with
  | nil => simpa [threadConflict?] using ⟨List.nodup_nil, List.nodup_nil, by simp⟩
  | cons thread rest ih =>
    rw [threadConflict?, wellBound_cons_iff, machineIds_cons, contextIds_cons,
      List.disjoint_append_left, List.disjoint_append_left,
      @disjoint_toList_iff _ _ _ machines, @disjoint_toList_iff _ _ _ contexts]
    cases thread.isDead with
    | true => simp
    | false =>
      cases thread.machine.filter (· ∈ machines) with
      | some machine => simp
      | none =>
        cases thread.contextId.filter (· ∈ contexts) with
        | some context => simp
        | none =>
          simp only [Bool.false_eq_true, ↓reduceIte, ih, List.disjoint_append_right, true_and]
          tauto

/-- The scan of the placements finds no conflict just when no unit comes twice and none has been
seen before. -/
theorem unitConflict?_eq_none_iff {seen placements : List Placement} :
    unitConflict? seen placements = none ↔ (placements.map Prod.fst).Nodup ∧
      (placements.map Prod.fst).Disjoint (seen.map Prod.fst) := by
  induction placements generalizing seen with
  | nil => simp [unitConflict?]
  | cons placement rest ih =>
    obtain ⟨unit, location⟩ := placement
    have known : seen.lookup unit = none ↔ unit ∉ seen.map Prod.fst := by
      simp only [List.lookup_eq_none_iff, List.mem_map, not_exists, not_and, bne_iff_ne]
      exact ⟨fun other entry member => Ne.symm (other entry member),
        fun other entry member => Ne.symm (other entry member)⟩
    rw [unitConflict?, List.map_cons, List.nodup_cons, List.disjoint_cons_left, ← known]
    cases seen.lookup unit with
    | some first => simp
    | none =>
      simp only [ih, List.map_cons, List.disjoint_cons_right, true_and]
      tauto

theorem Model.verify_eq_ok_iff {model : Model} : model.verify = .ok () ↔ model.Consistent := by
  have checked : model.verify = .ok () ↔ model.conflict? = none := by
    unfold verify
    cases model.conflict? <;> simp
  rw [checked, conflict?]
  cases conflict : threadConflict? 0 [] [] model.threads with
  | some violation =>
    have clash : ¬ WellBound model.threads := by
      intro bound
      have clear : threadConflict? 0 [] [] model.threads = none :=
        threadConflict?_eq_none_iff.mpr
          ⟨bound, List.disjoint_nil_right _, List.disjoint_nil_right _⟩
      simp [clear] at conflict
    simpa using fun consistent : model.Consistent => clash consistent.bound
  | none =>
    have bound := (threadConflict?_eq_none_iff.mp conflict).1
    simp only [unitConflict?_eq_none_iff, map_fst_placements]
    exact ⟨fun clear => ⟨bound, clear.1⟩,
      fun consistent => ⟨consistent.units, List.disjoint_nil_right _⟩⟩

end Checker

/-- Two machines at work, each with a context of its own, and a context that nobody claimed. -/
def Model.twoMachines : Model where
  threads := [⟨some ⟨0⟩, false, some ⟨⟨0⟩, none, [⟨⟨5⟩, ""⟩]⟩, some ⟨⟨1⟩, ""⟩⟩,
    ⟨some ⟨1⟩, false, some (.idle ⟨1⟩), some ⟨⟨2⟩, ""⟩⟩, .unclaimed (.idle ⟨2⟩)]
  parked := []

example : Model.twoMachines.verify = .ok () := by rfl

end SchedReplay
