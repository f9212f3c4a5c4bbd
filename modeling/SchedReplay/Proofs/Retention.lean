import SchedReplay.Proofs.Acceptance
import SchedReplay.Proofs.Lineup
import SchedReplay.Proofs.Refusal

/-! What a handover keeps of a consistent list, whatever shapes its entries have. Every context
stays bound and every unit goes on running, unless it ran on the unclaimed entry of the context
that is handed over: that entry goes, and its unit with it. -/
namespace SchedReplay

section Running

variable {threads next : List Thread}

theorem runningUnits_append (more : List Thread) :
    runningUnits (threads ++ more) = runningUnits threads ++ runningUnits more :=
  List.filterMap_append

theorem runningUnits_updateFirst {p : Thread → Bool} {change : Thread → Thread}
    (keeps : ∀ thread, (change thread).executing = thread.executing) :
    runningUnits (updateFirst p change threads) = runningUnits threads := by
  induction threads with
  | nil => rfl
  | cons thread rest ih =>
    unfold runningUnits at ih ⊢
    rw [updateFirst]
    split
    · rw [List.filterMap_cons, List.filterMap_cons, keeps]
    · rw [List.filterMap_cons, List.filterMap_cons, ih]

theorem runningUnits_unclaimed (contexts : List Context) :
    runningUnits (contexts.map .unclaimed) = [] := by
  simp [runningUnits, Thread.unclaimed]

/-- Only the unclaimed entry of the context that is handed over has nothing left to stand for. -/
theorem isDead_handed {thread : Thread} (alive : thread.isDead = false) (machine : MachineId)
    (state : Context) :
    (thread.handed machine state).isDead = thread.isUnclaimedIn [state.id] := by
  cases is : thread.machine with
  | some owner => simp [Thread.isDead, Thread.isUnclaimedIn, is]
  | none =>
    obtain ⟨held, here⟩ : ∃ held, thread.context = some held := by
      simpa [Thread.isDead, is, Option.isSome_iff_exists] using alive
    have keeps : (thread.handed machine state).context =
        (some held).filter (·.id ≠ state.id) := by
      simp [Thread.handed, is, Thread.context_without, here]
    by_cases same : held.id = state.id
    · simp [Thread.isDead, Thread.isUnclaimedIn, Thread.contextId, is, here, keeps, same]
    · simp [Thread.isDead, Thread.isUnclaimedIn, Thread.contextId, is, here, keeps, same]

@[simp] theorem executing_handed (machine : MachineId) (state : Context) (thread : Thread) :
    (thread.handed machine state).executing = thread.executing := by
  unfold Thread.handed Thread.without
  split
  · rfl
  · split <;> rfl

theorem alive_withMachine (alive : ∀ thread ∈ threads, thread.isDead = false)
    (machine : MachineId) : ∀ thread ∈ withMachine machine threads, thread.isDead = false := by
  intro thread inside
  unfold withMachine at inside
  split at inside
  · exact alive thread inside
  · rcases List.mem_append.mp inside with old | new
    · exact alive thread old
    · simp [List.mem_singleton.mp new, Thread.isDead]

theorem runningUnits_settled_withMachine (machine : MachineId) (contexts : List ContextId) :
    runningUnits (settled contexts (withMachine machine threads)) =
      runningUnits (settled contexts threads) := by
  unfold withMachine
  split
  · rfl
  · simp [settled, runningUnits, Thread.isUnclaimedIn, Thread.ofMachine]

theorem runningUnits_dropDead_handed (alive : ∀ thread ∈ threads, thread.isDead = false)
    (machine : MachineId) (state : Context) :
    runningUnits (dropDead (threads.map (Thread.handed machine state))) =
      runningUnits (settled [state.id] threads) := by
  have kept : threads.filter ((!·.isDead) ∘ Thread.handed machine state) =
      settled [state.id] threads := by
    apply List.filter_congr
    intro thread inside
    simp [isDead_handed (alive thread inside)]
  unfold runningUnits dropDead
  rw [List.filter_map, kept, List.filterMap_map]
  apply List.filterMap_congr
  intro thread _
  exact executing_handed machine state thread

/-- What runs once a machine has taken a context is what ran on all entries but the unclaimed one
of the context. -/
theorem runningUnits_handedOver (bound : WellBound threads) (machine : MachineId)
    (state : Context) :
    runningUnits (handedOver threads machine state) = runningUnits (settled [state.id] threads) := by
  have unclaimed (contexts : List Context) :
      runningUnits (dropDead (contexts.map .unclaimed)) = [] := by
    rw [dropDead_eq_self, runningUnits_unclaimed]
    simp [Thread.isDead]
  rw [handedOver_eq bound, dropDead, List.filter_append, ← dropDead, ← dropDead,
    runningUnits_append, unclaimed, List.append_nil,
    runningUnits_dropDead_handed (alive_withMachine bound.alive machine),
    runningUnits_settled_withMachine]

theorem runningUnits_handOver (bound : WellBound threads) {machine : MachineId}
    {context : ContextId} {replacement : Option Context}
    (own : ∀ state ∈ replacement, state.id = context)
    (given : handOver threads machine context replacement = .ok next) :
    runningUnits next = runningUnits (settled [context] threads) := by
  cases replacement with
  | none =>
    obtain ⟨held, found, rfl⟩ := handOver_none_eq_ok_iff.mp given
    obtain rfl := id_of_heldContext? found
    exact runningUnits_handedOver bound machine held
  | some state =>
    obtain rfl := own state rfl
    obtain ⟨_, rfl⟩ := handOver_some_eq_ok_iff.mp given
    exact runningUnits_handedOver bound machine state

/-- A machine that leaves its context still has its entry. -/
theorem alive_leaving (bound : WellBound threads) {context : ContextId} {owner : Thread}
    (found : threads.find? (·.holds context) = some owner) (owned : owner.machine ≠ none)
    (state : Context) :
    ∀ thread ∈ updateFirst (·.holds context) .vacate threads ++ [.unclaimed state],
      thread.isDead = false := by
  intro thread inside
  rcases List.mem_append.mp inside with kept | new
  · obtain ⟨before, member, rfl | ⟨holds, rfl⟩⟩ := mem_updateFirst kept
    · exact bound.alive _ member
    · have first := find?_eq_some_of_nodup bound.contexts member (Thread.holds_iff.mp holds)
      have same : before = owner := Option.some.inj (first.symm.trans found)
      simp [Thread.isDead, same, Option.isSome_iff_ne_none.mpr owned]
  · simp [List.mem_singleton.mp new, Thread.isDead]

/-- A release drops no entry at all. -/
theorem disown_eq_ok (bound : WellBound threads) {context : ContextId} {state : Context}
    (left : disown threads context state = .ok next) : context ∈ contextIds threads ∧
      (next = updateFirst (·.holds context) (.hold state) threads ∨
        next = updateFirst (·.holds context) .vacate threads ++ [.unclaimed state]) := by
  unfold disown at left
  cases found : threads.find? (·.holds context) with
  | none => simp [found] at left
  | some owner =>
    have holds := Thread.holds_iff.mp (List.find?_some found)
    refine ⟨mem_contextIds.mpr ⟨owner, List.mem_of_find?_eq_some found, holds⟩, ?_⟩
    simp only [found] at left
    split at left
    · exact .inl (Except.ok.inj left).symm
    · next owned =>
      have alive := alive_leaving bound found (by simpa using owned) state
      rw [dropDead_eq_self alive] at left
      exact .inr (Except.ok.inj left).symm

theorem runningUnits_disown (bound : WellBound threads) {context : ContextId} {state : Context}
    (left : disown threads context state = .ok next) :
    runningUnits next = runningUnits threads := by
  obtain ⟨_, rfl | rfl⟩ := disown_eq_ok bound left
  · exact runningUnits_updateFirst fun _ => rfl
  · have idle : runningUnits [Thread.unclaimed state] = [] := rfl
    rw [runningUnits_append, idle, List.append_nil]
    exact runningUnits_updateFirst fun _ => rfl

end Running

section Waiting

variable {threads next : List Thread} {context : ContextId}

theorem boundContexts_handOver (bound : WellBound threads) {machine : MachineId}
    {replacement : Option Context} (own : ∀ state ∈ replacement, state.id = context)
    (given : handOver threads machine context replacement = .ok next) :
    (boundContexts next).Perm ((boundContexts threads).map fun held =>
      if held.id = context then replacement.getD held else held) := by
  have shown {delta : Delta} (staged : Model.stageAll ⟨threads, []⟩ [delta] = .ok ⟨next, []⟩) :=
    Model.stageAll_boundContexts (show WellBound (Model.mk threads []).threads from bound) staged
  cases replacement with
  | none =>
    have staged : Model.stageAll ⟨threads, []⟩ [.bind machine context] = .ok ⟨next, []⟩ := by
      simp [Model.stageAll, Model.stage, given, Except.map]
    simpa [lastObserved?, Delta.observed?] using shown staged
  | some state =>
    obtain rfl := own state rfl
    have staged : Model.stageAll ⟨threads, []⟩ [.contextState (some machine) state] =
        .ok ⟨next, []⟩ := by
      simp [Model.stageAll, Model.stage, given, Except.map]
    have replaced (held : Context) :
        (lastObserved? held.id [.contextState (some machine) state]).getD held =
          if held.id = state.id then state else held := by
      by_cases same : held.id = state.id
      · simp [lastObserved?, Delta.observed?, same]
      · simp [lastObserved?, Delta.observed?, same, Ne.symm same]
    simpa [replaced] using shown staged

theorem boundContexts_hold (bound : WellBound threads) (state : Context) :
    boundContexts (updateFirst (·.holds context) (.hold state) threads) =
      (boundContexts threads).map fun held => if held.id = context then state else held := by
  rw [show updateFirst (·.holds context) (.hold state) threads = _ from
    updateFirst_eq_map bound.contexts context _]
  unfold boundContexts
  rw [List.filterMap_map, List.map_filterMap]
  apply List.filterMap_congr
  intro thread _
  cases here : thread.context with
  | none => simp [Thread.contextId, here]
  | some held => by_cases same : held.id = context <;> simp [Thread.contextId, here, same]

theorem boundContexts_vacate (bound : WellBound threads) :
    boundContexts (updateFirst (·.holds context) .vacate threads) =
      (boundContexts threads).filter (·.id ≠ context) := by
  rw [show updateFirst (·.holds context) .vacate threads = _ from
    updateFirst_eq_map bound.contexts context _]
  unfold boundContexts
  rw [List.filterMap_map, List.filter_filterMap]
  apply List.filterMap_congr
  intro thread _
  exact Thread.context_without context thread

/-- The state a context is left in need not name it. -/
theorem boundContexts_disown (bound : WellBound threads) {state : Context}
    (left : disown threads context state = .ok next) :
    (boundContexts next).Perm ((boundContexts threads).map fun held =>
      if held.id = context then state else held) := by
  obtain ⟨known, rfl | rfl⟩ := disown_eq_ok bound left
  · rw [boundContexts_hold bound]
  · have ids := Model.map_id_boundContexts threads
    have replaced := map_replace_perm (ids ▸ bound.contexts) (ids ▸ known) state
    have appended : boundContexts (updateFirst (·.holds context) .vacate threads ++
        [.unclaimed state]) = (boundContexts threads).filter (·.id ≠ context) ++ [state] := by
      rw [← boundContexts_vacate bound]
      exact List.filterMap_append
    rw [appended]
    simp only [eq_comm (a := context)] at replaced
    exact (List.perm_append_singleton _ _).trans replaced.symm

theorem exists_handOver (known : context ∈ contextIds threads) (machine : MachineId)
    (replacement : Option Context) :
    ∃ next, handOver threads machine context replacement = .ok next := by
  cases given : handOver threads machine context replacement with
  | ok next => exact ⟨next, rfl⟩
  | error violation => exact absurd known (handOver_eq_error_iff.mp given).1

theorem exists_disown (known : context ∈ contextIds threads) (state : Context) :
    ∃ next, disown threads context state = .ok next := by
  cases left : disown threads context state with
  | ok next => exact ⟨next, rfl⟩
  | error violation => exact absurd known (disown_eq_error_iff.mp left).1

end Waiting

namespace Model

variable {model : Model}

/-- A bound context can be given to any machine and left by any owner. Either way no context is
lost and only the one changes. Who gives it up goes on running what it ran, except on the unclaimed
entry of a context that is claimed. -/
theorem handovers_keep_what_runs_and_waits (verified : model.verify = .ok ())
    {context : ContextId} (known : context ∈ contextIds model.threads) :
    (∀ machine replacement, (∀ state ∈ replacement, state.id = context) →
      ∃ next, handOver model.threads machine context replacement = .ok next ∧
        runningUnits next = runningUnits (settled [context] model.threads) ∧
        (boundContexts next).Perm ((boundContexts model.threads).map fun held =>
          if held.id = context then replacement.getD held else held)) ∧
    ∀ state, ∃ next, disown model.threads context state = .ok next ∧
      runningUnits next = runningUnits model.threads ∧
      (boundContexts next).Perm ((boundContexts model.threads).map fun held =>
        if held.id = context then state else held) := by
  have bound := (verify_eq_ok_iff.mp verified).bound
  constructor
  · intro machine replacement own
    obtain ⟨next, given⟩ := exists_handOver known machine replacement
    exact ⟨next, given, runningUnits_handOver bound own given, boundContexts_handOver bound own given⟩
  · intro state
    obtain ⟨next, left⟩ := exists_disown known state
    exact ⟨next, left, runningUnits_disown bound left, boundContexts_disown bound left⟩

/-- An unclaimed entry may run a unit in a model to start from, though no decision makes it. -/
def unclaimedWorker : Model where
  threads := [⟨some ⟨0⟩, false, some (.idle ⟨0⟩), some ⟨⟨3⟩, "main"⟩⟩,
    ⟨none, false, some (.idle ⟨1⟩), some ⟨⟨7⟩, "worker"⟩⟩]
  parked := []

theorem handovers_keep_what_runs_and_waits_at_claimed_context :
    let main := WorkUnit.mk ⟨3⟩ "main"
    let worker := WorkUnit.mk ⟨7⟩ "worker"
    let busy := Context.mk ⟨0⟩ none [⟨⟨5⟩, "job"⟩]
    unclaimedWorker.verify = .ok () ∧ ⟨0⟩ ∈ contextIds unclaimedWorker.threads ∧
      (∀ state ∈ some busy, state.id = ⟨0⟩) ∧
      ∃ next, handOver unclaimedWorker.threads ⟨1⟩ ⟨0⟩ (some busy) = .ok next ∧
        runningUnits next = [main, worker] ∧
        (boundContexts next).Perm [busy, .idle ⟨1⟩] := by
  intro main worker busy
  have verified : unclaimedWorker.verify = .ok () := rfl
  have known : ⟨0⟩ ∈ contextIds unclaimedWorker.threads := by decide
  have own : ∀ state ∈ some busy, state.id = ⟨0⟩ := by decide
  exact ⟨verified, known, own, (handovers_keep_what_runs_and_waits verified known).1 ⟨1⟩ _ own⟩

/-- The worker is gone once a machine has claimed its context. -/
theorem handovers_can_lose_units :
    let worker := WorkUnit.mk ⟨7⟩ "worker"
    unclaimedWorker.verify = .ok () ∧ worker ∈ runningUnits unclaimedWorker.threads ∧
      ∃ next, handOver unclaimedWorker.threads ⟨1⟩ ⟨1⟩ none = .ok next ∧
        worker ∉ runningUnits next :=
  ⟨rfl, by decide, _, rfl, by decide⟩

end Model

end SchedReplay
