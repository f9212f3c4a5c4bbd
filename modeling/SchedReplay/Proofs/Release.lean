import SchedReplay.Proofs.Handover

/-! What becomes of the entries of a well bound thread list when the owner of a context leaves it.
The context is found unclaimed in the state it was left in, and every other one where it was. -/
namespace SchedReplay

/-- The threads after the owner of a context, if it has one, has left it in the given state. -/
def disowned (threads : List Thread) (state : Context) : List Thread :=
  if (threads.find? (·.holds state.id)).all (·.machine.isNone) then
    updateFirst (·.holds state.id) (.hold state) threads
  else dropDead (updateFirst (·.holds state.id) .vacate threads ++ [.unclaimed state])

namespace Thread

variable {state : Context}

/-- The entry that a context with the given state has once nobody owns it; an unclaimed entry keeps
what else it has. -/
def released (state : Context) (owner : Thread) : Thread :=
  if owner.machine.isNone then owner.hold state else .unclaimed state

@[simp] theorem machine_released (owner : Thread) : (owner.released state).machine = none := by
  unfold released
  split
  · next free => simpa using free
  · rfl

@[simp] theorem context_released (owner : Thread) :
    (owner.released state).context = some state := by
  unfold released
  split <;> rfl

end Thread

section Disowned

variable {threads next : List Thread} {state : Context}

theorem disown_eq_ok_iff {state : Context} :
    disown threads state.id state = .ok next ↔
      state.id ∈ contextIds threads ∧ next = disowned threads state := by
  have known : (threads.find? (·.holds state.id)).isSome ↔ state.id ∈ contextIds threads := by
    simp [mem_contextIds]
  rw [← known]
  unfold disown disowned
  cases threads.find? (·.holds state.id) with
  | none => simp
  | some owner =>
    simp only [Option.isSome_some, true_and, Option.all_some]
    split <;> simp [eq_comm]

theorem exists_holder (known : state.id ∈ contextIds threads) :
    ∃ owner, threads.find? (·.holds state.id) = some owner := by
  rw [← Option.isSome_iff_exists]
  simpa [mem_contextIds] using known

theorem disowned_of_free {owner : Thread} (found : threads.find? (·.holds state.id) = some owner)
    (free : owner.machine = none) :
    disowned threads state = updateFirst (·.holds state.id) (.hold state) threads := by
  simp [disowned, found, free]

theorem disowned_of_owned {owner : Thread} (found : threads.find? (·.holds state.id) = some owner)
    (owned : owner.machine ≠ none) : disowned threads state =
      dropDead (updateFirst (·.holds state.id) .vacate threads ++ [.unclaimed state]) := by
  simp [disowned, found, owned]

theorem machineIds_disowned : machineIds (disowned threads state) = machineIds threads := by
  unfold disowned
  split
  · exact machineIds_updateFirst (Thread.machine_hold state) _ _
  · rw [machineIds_dropDead, machineIds_append, machineIds_updateFirst Thread.machine_vacate]
    simp

theorem contextIds_disowned (known : state.id ∈ contextIds threads) :
    (contextIds (disowned threads state)).Perm (contextIds threads) := by
  unfold disowned
  split
  · have keeps (thread : Thread) (holds : thread.holds state.id) :
        (thread.hold state).contextId = thread.contextId := by
      simp [Thread.holds_iff.mp holds]
    rw [contextIds_updateFirst keeps]
  · rw [contextIds_dropDead, contextIds_append, contextIds_vacate]
    exact (List.perm_append_singleton _ _).trans (List.perm_cons_erase known).symm

theorem wellBound_disowned (bound : WellBound threads) (known : state.id ∈ contextIds threads) :
    WellBound (disowned threads state) where
  machines := by
    rw [machineIds_disowned]
    exact bound.machines
  contexts := (contextIds_disowned known).nodup_iff.mpr bound.contexts
  alive := by
    unfold disowned
    split
    · rw [show updateFirst (·.holds state.id) (.hold state) threads = _ from
        updateFirst_eq_map bound.contexts state.id _]
      intro changed member
      obtain ⟨thread, before, rfl⟩ := List.mem_map.mp member
      by_cases holds : thread.contextId = some state.id
      · simp [holds, Thread.isDead]
      · simpa [holds] using bound.alive thread before
    · exact alive_dropDead

theorem find?_isMachine_disowned (bound : WellBound threads) (known : state.id ∈ contextIds threads)
    (machine : MachineId) :
    (disowned threads state).find? (·.isMachine machine) =
      (threads.find? (·.isMachine machine)).map (Thread.without state.id) := by
  obtain ⟨owner, found⟩ := exists_holder known
  have change (f : Thread → Thread) (keeps : ∀ thread, (f thread).machine = thread.machine) :
      (updateFirst (·.holds state.id) f threads).find? (·.isMachine machine) =
        (threads.find? (·.isMachine machine)).map fun thread =>
          if thread.contextId = some state.id then f thread else thread := by
    refine (congrArg _ (updateFirst_eq_map bound.contexts state.id f)).trans ?_
    rw [List.find?_map]
    congr 2
    funext thread
    simp only [Function.comp_apply, Thread.isMachine]
    split <;> simp [keeps]
  by_cases free : owner.machine = none
  · rw [disowned_of_free found free, change _ (Thread.machine_hold state)]
    apply Option.map_congr
    intro thread entry
    -- The owner has no machine, so no machine's entry holds the context.
    have other : thread.contextId ≠ some state.id := by
      intro holds
      have first := find?_eq_some_of_nodup bound.contexts (List.mem_of_find?_eq_some entry) holds
      have same : thread = owner := Option.some.inj (first.symm.trans found)
      have is := Thread.isMachine_iff.mp (List.find?_some entry)
      simp [same, free] at is
    simp [Thread.without, other]
  · have unclaimed : [Thread.unclaimed state].find? (·.isMachine machine) = none := by simp
    rw [disowned_of_owned found free, find?_dropDead fun _ => alive_of_isMachine,
      List.find?_append, change _ Thread.machine_vacate, unclaimed, Option.or_none]
    rfl

theorem mem_disowned (bound : WellBound threads) {thread : Thread} (member : thread ∈ threads)
    (other : thread.contextId ≠ some state.id) : thread ∈ disowned threads state := by
  have alive := bound.alive thread member
  have change (f : Thread → Thread) : thread ∈ updateFirst (·.holds state.id) f threads := by
    rw [show updateFirst (·.holds state.id) f threads = _ from
      updateFirst_eq_map bound.contexts state.id f]
    exact List.mem_map.mpr ⟨thread, member, by simp [other]⟩
  unfold disowned
  split
  · exact change _
  · exact List.mem_filter.mpr ⟨List.mem_append_left _ (change _), by simp [alive]⟩

theorem released_mem_disowned (bound : WellBound threads) {owner : Thread}
    (found : threads.find? (·.holds state.id) = some owner) :
    owner.released state ∈ disowned threads state := by
  by_cases free : owner.machine = none
  · rw [disowned_of_free found free, show updateFirst (·.holds state.id) (.hold state) threads = _
      from updateFirst_eq_map bound.contexts state.id _]
    have holding := Thread.holds_iff.mp (List.find?_some found)
    exact List.mem_map.mpr
      ⟨owner, List.mem_of_find?_eq_some found, by simp [holding, Thread.released, free]⟩
  · rw [disowned_of_owned found free]
    refine List.mem_filter.mpr ⟨List.mem_append_right _ ?_, by simp [Thread.isDead]⟩
    simp [Thread.released, free]

/-- The context is found unclaimed in its new state and every other one where it was. -/
theorem find?_holds_disowned (bound : WellBound threads) (known : state.id ∈ contextIds threads)
    (context : ContextId) :
    (disowned threads state).find? (·.holds context) =
      (threads.find? (·.holds context)).map fun thread =>
        if context = state.id then thread.released state else thread := by
  apply find?_holds_eq_map (contextIds_disowned known) bound.contexts
  intro thread member holds
  split
  · next same =>
    subst same
    have found := find?_eq_some_of_nodup bound.contexts member holds
    exact ⟨released_mem_disowned bound found, by simp [Thread.contextId]⟩
  · next other =>
    exact ⟨mem_disowned bound member (by simpa [holds] using other), holds⟩

end Disowned

end SchedReplay
