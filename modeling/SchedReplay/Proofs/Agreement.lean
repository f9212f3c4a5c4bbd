import SchedReplay.Proofs.Inventory

/-! What machines do, who holds the contexts and in what states they are tells all of a well bound
thread list but the order of its entries. -/
namespace SchedReplay

theorem Thread.ext_of_status {thread other : Thread} (machine : thread.machine = other.machine)
    (status : thread.status = other.status) (context : thread.context = other.context) :
    thread = other := by
  obtain ⟨_, _, _, _⟩ := thread
  obtain ⟨_, _, _, _⟩ := other
  cases machine
  cases status
  cases context
  rfl

theorem WellBound.nodup {threads : List Thread} (bound : WellBound threads) : threads.Nodup := by
  induction threads with
  | nil => exact List.nodup_nil
  | cons thread rest ih =>
    obtain ⟨alive, machines, contexts, others⟩ := wellBound_cons_iff.mp bound
    refine List.nodup_cons.mpr ⟨?_, ih others⟩
    intro again
    cases is : thread.machine with
    | some machine => exact machines (mem_machineIds.mpr ⟨thread, again, is⟩) (by simp [is])
    | none =>
      cases held : thread.context with
      | none => simp [Thread.isDead, is, held] at alive
      | some context =>
        have holds : thread.contextId = some context.id := by simp [Thread.contextId, held]
        exact contexts (mem_contextIds.mpr ⟨thread, again, holds⟩) (by simp [holds])

namespace Model

variable {model other : Model}

/-- The entry that holds a context is the only one to do so. -/
theorem exists_thread_iff (bound : WellBound model.threads) {holder : Holder} {state : Context} :
    (∃ thread ∈ model.threads, thread.holder = holder ∧ thread.context = some state) ↔
      model.holding state.id = some holder ∧ model.context? state.id = some state := by
  constructor
  · rintro ⟨thread, inside, rfl, held⟩
    have owner : model.owner? state.id = some thread :=
      find?_eq_some_of_nodup bound.contexts inside (by simp [Thread.contextId, held])
    simp [Model.holding, context?, owner, held]
  · rintro ⟨holds, shown⟩
    obtain ⟨thread, owner, rfl⟩ := Option.map_eq_some_iff.mp holds
    rw [context?, owner, Option.bind_some] at shown
    exact ⟨thread, List.mem_of_find?_eq_some owner, rfl, shown⟩

theorem context_eq_some_iff (bound : WellBound model.threads) {thread : Thread}
    (inside : thread ∈ model.threads) {machine : MachineId} (is : thread.machine = some machine)
    {state : Context} : thread.context = some state ↔
      model.holding state.id = some (.machine machine) ∧ model.context? state.id = some state := by
  rw [← exists_thread_iff bound]
  constructor
  · intro held
    exact ⟨thread, inside, Thread.holder_of_machine is, held⟩
  · rintro ⟨twin, member, holder, held⟩
    have same : thread = twin :=
      eq_of_key_eq bound.machines inside member is (Thread.holder_eq_machine_iff.mp holder)
    rwa [same]

/-- Two models that say the same of every machine and every context. -/
structure Agrees (model other : Model) : Prop where
  machines : ∀ machine, machine ∈ machineIds model.threads ↔ machine ∈ machineIds other.threads
  status : ∀ machine, model.status machine = other.status machine
  holding : model.holding = other.holding
  contexts : ∀ context, model.context? context = other.context? context

theorem Agrees.symm (agrees : model.Agrees other) : other.Agrees model where
  machines machine := (agrees.machines machine).symm
  status machine := (agrees.status machine).symm
  holding := agrees.holding.symm
  contexts context := (agrees.contexts context).symm

theorem Agrees.subset (agrees : model.Agrees other) (bound : WellBound model.threads)
    (others : WellBound other.threads) : model.threads ⊆ other.threads := by
  intro thread inside
  -- A machine tells its entry, and where there is none the context does.
  cases is : thread.machine with
  | some machine =>
    obtain ⟨twin, member, also⟩ := mem_machineIds.mp
      ((agrees.machines machine).mp (mem_machineIds.mpr ⟨thread, inside, is⟩))
    have status : thread.status = twin.status := by
      rw [← status_of_mem bound inside is, agrees.status, status_of_mem others member also]
    have context : thread.context = twin.context := by
      ext state
      rw [context_eq_some_iff bound inside is, agrees.holding, agrees.contexts,
        ← context_eq_some_iff others member also]
    rwa [Thread.ext_of_status (is.trans also.symm) status context]
  | none =>
    obtain ⟨state, held⟩ : ∃ state, thread.context = some state := by
      have alive := bound.alive thread inside
      simpa [Thread.isDead, is, Option.isSome_iff_exists] using alive
    have shown := (exists_thread_iff bound).mp ⟨thread, inside, rfl, held⟩
    rw [agrees.holding, agrees.contexts] at shown
    obtain ⟨twin, member, holder, also⟩ := (exists_thread_iff others).mpr shown
    obtain ⟨free, status⟩ := Thread.holder_eq_nobody_iff.mp
      (holder.trans (Thread.holder_eq_nobody_iff.mpr ⟨is, rfl⟩))
    rwa [Thread.ext_of_status (is.trans free.symm) status.symm (held.trans also.symm)]

/-- Well bound thread lists that say the same differ in the order of their entries at most. -/
theorem Agrees.perm (agrees : model.Agrees other) (bound : WellBound model.threads)
    (others : WellBound other.threads) : model.threads.Perm other.threads := by
  rw [List.perm_ext_iff_of_nodup bound.nodup others.nodup]
  intro thread
  constructor
  · intro inside
    exact agrees.subset bound others inside
  · intro inside
    exact agrees.symm.subset others bound inside

end Model

end SchedReplay
