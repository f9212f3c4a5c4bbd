import SchedReplay.Proofs.Outcome
import SchedReplay.Proofs.Reading

/-! Who schedules runs nothing, and an entry without a machine does neither. The dead entries that
a handover drops are therefore idle, and what runs goes on where it runs. -/
namespace SchedReplay

/-- A machine in the scheduler runs nothing. -/
def Status.Exclusive (status : Status) : Prop :=
  status.isScheduling = true → status.executing = none

section Exclusive

theorem Status.exclusive_initial (machine : MachineId) : (initial machine).Exclusive := by
  simp [Exclusive, initial]

theorem Status.exclusive_idle : idle.Exclusive := by
  simp [Exclusive, idle]

/-- An event that puts a machine into the scheduler takes its unit away, and one that gives it a
unit takes it out of the scheduler. -/
theorem Event.exclusive_decision {event : Event} {decision : Decision}
    (decides : event.decision? = some decision) {machine : MachineId} {status : Status}
    (before : status.Exclusive) : (decision.foldl (Status.after machine) status).Exclusive := by
  rw [event.status_decision decides]
  cases event with
  | schedule event | execute event | park event =>
    by_cases named : event.machine = machine
    · simp [Status.Exclusive, scheduling?, running?, named]
    · simpa [Status.Exclusive, scheduling?, running?, named] using before
  | queueStatus | ready | newContext | progress => exact before

theorem Engine.exclusive_performAll (calls : List Call) (machine : MachineId) :
    ((new.performAll calls).model.status machine).Exclusive := by
  refine commit_induction (fun _ model => (model.status machine).Exclusive) ?empty ?seeded ?commit
    calls
  case empty => exact Status.exclusive_idle
  case seeded =>
    intro width positive _
    rw [Model.status_seeded positive]
    exact Status.exclusive_initial machine
  case commit =>
    intro events model event decision next changes consistent before decides fits
    have staged := (Model.commit_eq_ok_iff.mp fits).1
    rw [Model.stageAll_status consistent.bound staged]
    exact event.exclusive_decision decides before

theorem Engine.exclusive_of_mem (calls : List Call) {thread : Thread}
    (member : thread ∈ (new.performAll calls).model.threads) : thread.status.Exclusive := by
  cases owned : thread.machine with
  | none =>
    rw [inert_performAll calls thread member owned]
    exact Status.exclusive_idle
  | some machine =>
    rw [← Model.status_of_mem (consistent_performAll calls).bound member owned]
    exact exclusive_performAll calls machine

end Exclusive

/-- The threads once a machine has taken a context, the dead entries still among them. -/
def taking (threads : List Thread) (machine : MachineId) (context : ContextId)
    (state : Context) : List Thread :=
  let free := updateFirst (·.holds context) .vacate (withMachine machine threads)
  let displaced := (free.find? (·.isMachine machine)).bind (·.context)
  updateFirst (·.isMachine machine) (.hold state) free ++ displaced.toList.map .unclaimed

/-- The threads once a machine has left a context, the dead entries still among them. -/
def leaving (threads : List Thread) (context : ContextId) (state : Context) : List Thread :=
  updateFirst (·.holds context) .vacate threads ++ [.unclaimed state]

/-- The entry of every machine is still there and says that the machine does what it did. -/
def Carries (threads next : List Thread) : Prop :=
  ∀ thread ∈ threads, thread.machine ≠ none →
    ∃ after ∈ next, after.machine = thread.machine ∧ after.status = thread.status

section Carries

variable {threads middle next : List Thread}

theorem Carries.of_subset (kept : threads ⊆ next) : Carries threads next := by
  intro thread member _
  exact ⟨thread, kept member, rfl, rfl⟩

theorem Carries.trans (first : Carries threads middle) (second : Carries middle next) :
    Carries threads next := by
  intro thread member owned
  obtain ⟨between, inside, machine, status⟩ := first thread member owned
  obtain ⟨after, last, machine', status'⟩ := second between inside (machine ▸ owned)
  exact ⟨after, last, machine'.trans machine, status'.trans status⟩

theorem Carries.append (carries : Carries threads next) (more : List Thread) :
    Carries threads (next ++ more) :=
  carries.trans (.of_subset (List.subset_append_left next more))

theorem carries_withMachine (machine : MachineId) : Carries threads (withMachine machine threads) :=
  .of_subset fun _ => mem_withMachine

theorem carries_dropDead : Carries threads (dropDead threads) := by
  intro thread member owned
  have alive : thread.isDead = false := by simp [Thread.isDead, owned]
  exact ⟨thread, List.mem_filter.mpr ⟨member, by simp [alive]⟩, rfl, rfl⟩

theorem carries_updateFirst {p : Thread → Bool} {change : Thread → Thread}
    (machine : ∀ thread, (change thread).machine = thread.machine)
    (status : ∀ thread, (change thread).status = thread.status) :
    Carries threads (updateFirst p change threads) := by
  induction threads with
  | nil => exact .of_subset (List.nil_subset _)
  | cons first rest ih =>
    intro thread member owned
    rw [updateFirst]
    split
    · rcases List.mem_cons.mp member with rfl | later
      · exact ⟨change thread, .head _, machine thread, status thread⟩
      · exact ⟨thread, .tail _ later, rfl, rfl⟩
    · rcases List.mem_cons.mp member with rfl | later
      · exact ⟨thread, .head _, rfl, rfl⟩
      · obtain ⟨after, inside, same⟩ := ih thread later owned
        exact ⟨after, .tail _ inside, same⟩

theorem carries_vacate (p : Thread → Bool) : Carries threads (updateFirst p .vacate threads) :=
  carries_updateFirst Thread.machine_vacate fun _ => rfl

theorem carries_hold (p : Thread → Bool) (state : Context) :
    Carries threads (updateFirst p (.hold state) threads) :=
  carries_updateFirst (Thread.machine_hold state) fun _ => rfl

theorem carries_taking (machine : MachineId) (context : ContextId) (state : Context) :
    Carries threads (taking threads machine context state) :=
  (((carries_withMachine machine).trans (carries_vacate _)).trans (carries_hold _ state)).append _

theorem carries_leaving (context : ContextId) (state : Context) :
    Carries threads (leaving threads context state) :=
  (carries_vacate _).append _

end Carries

/-- What is dropped from `undropped` is idle, and what ran before runs on the same machine after. -/
structure Spares (threads undropped next : List Thread) : Prop where
  dropped : ∀ thread ∈ undropped, thread.isDead = true → thread.status = .idle
  running : ∀ thread ∈ threads, ∀ unit, thread.executing = some unit →
    ∃ machine, thread.machine = some machine ∧
      ∃ after ∈ next, after.machine = some machine ∧ after.executing = some unit

section Spares

variable {threads undropped next : List Thread}

/-- In an inert list whatever runs has a machine, and dead entries have none. -/
theorem Inert.spares (inert : Inert threads) (left : Inert undropped)
    (carries : Carries threads next) : Spares threads undropped next where
  dropped thread member dead := left thread member (Thread.isDead_iff.mp dead).1
  running thread member unit runs := by
    cases owned : thread.machine with
    | none =>
      have idle := congrArg Status.executing (inert thread member owned)
      simp [Thread.status, Status.idle, runs] at idle
    | some machine =>
      obtain ⟨after, inside, is, same⟩ := carries thread member (by simp [owned])
      refine ⟨machine, rfl, after, inside, is.trans owned, ?_⟩
      exact (congrArg Status.executing same).trans runs

theorem inert_taking (inert : Inert threads) (machine : MachineId) (context : ContextId)
    (state : Context) : Inert (taking threads machine context state) := by
  apply inert_append _ (inert_unclaimed _)
  exact inert_hold (inert_vacate (inert_withMachine inert machine) _) _ state

theorem inert_leaving (inert : Inert threads) (context : ContextId) (state : Context) :
    Inert (leaving threads context state) :=
  inert_append (inert_vacate inert _) (inert_unclaimed [state])

theorem spares_handOver (inert : Inert threads) {machine : MachineId} {context : ContextId}
    {replacement : Option Context} (given : handOver threads machine context replacement = .ok next) :
    ∃ state, next = dropDead (taking threads machine context state) ∧
      Spares threads (taking threads machine context state) next := by
  unfold handOver at given
  cases found : heldContext? threads context with
  | none => simp [found] at given
  | some held =>
    simp only [found, Except.ok.injEq] at given
    refine ⟨replacement.getD held, given.symm, ?_⟩
    rw [← given]
    exact inert.spares (inert_taking inert machine context _)
      ((carries_taking machine context _).trans carries_dropDead)

/-- Only a context that somebody owns can leave a dead entry behind. -/
theorem spares_disown (inert : Inert threads) {context : ContextId} {state : Context}
    (left : disown threads context state = .ok next) :
    (next = dropDead (leaving threads context state) ∨
        next = updateFirst (·.holds context) (.hold state) threads) ∧
      Spares threads (leaving threads context state) next := by
  unfold disown at left
  cases found : threads.find? (·.holds context) with
  | none => simp [found] at left
  | some owner =>
    simp only [found] at left
    split at left
    · obtain rfl := Except.ok.inj left
      exact ⟨.inr rfl, inert.spares (inert_leaving inert context state) (carries_hold _ state)⟩
    · obtain rfl := Except.ok.inj left
      exact ⟨.inl rfl, inert.spares (inert_leaving inert context state)
        ((carries_leaving context state).trans carries_dropDead)⟩

end Spares

namespace Engine

/-- In every state that calls lead to, entries without a machine are idle and no entry both
schedules and runs a unit. So at every point of every decision, a handover or a release drops idle
entries only, and every unit that runs goes on running on its machine. -/
theorem unclaimed_entries_are_inert (calls : List Call) :
    let model := (new.performAll calls).model
    (∀ thread ∈ model.threads,
      (thread.machine = none → thread.executing = none ∧ thread.isScheduling = false) ∧
        ¬ (thread.isScheduling = true ∧ thread.executing.isSome = true)) ∧
    ∀ decision staged, model.stageAll decision = .ok staged →
      (∀ machine context replacement next,
        handOver staged.threads machine context replacement = .ok next →
          ∃ state, next = dropDead (taking staged.threads machine context state) ∧
            Spares staged.threads (taking staged.threads machine context state) next) ∧
      ∀ context state next, disown staged.threads context state = .ok next →
        (next = dropDead (leaving staged.threads context state) ∨
            next = updateFirst (·.holds context) (.hold state) staged.threads) ∧
          Spares staged.threads (leaving staged.threads context state) next := by
  intro model
  have inert : Inert model.threads := inert_performAll calls
  refine ⟨?entries, ?steps⟩
  case entries =>
    intro thread member
    have idle (free : thread.machine = none) :
        thread.executing = none ∧ thread.isScheduling = false := by
      simpa [Thread.status, Status.idle, and_comm] using inert thread member free
    refine ⟨idle, ?_⟩
    rintro ⟨schedules, runs⟩
    cases owned : thread.machine with
    | none => simp [(idle owned).1] at runs
    | some machine =>
      have exclusive := exclusive_performAll calls machine
      rw [Model.status_of_mem (consistent_performAll calls).bound member owned] at exclusive
      have stopped : thread.executing = none := exclusive schedules
      simp [stopped] at runs
  case steps =>
    intro decision staged leads
    have still : Inert staged.threads := Model.stageAll_inert inert leads
    refine ⟨?_, ?_⟩
    · intro machine context replacement next given
      exact spares_handOver still given
    · intro context state next left
      exact spares_disown still left

/-- A machine about to schedule takes the unclaimed context: the entry that held it is dropped, and
the unit of the machine is still there. -/
theorem unclaimed_entries_are_inert_in_mid_schedule :
    let model := (new.performAll [.seed (some 2)]).model
    let staged : Model := ⟨[⟨some ⟨0⟩, true, some (.idle ⟨0⟩), some Model.bootstrap⟩,
      .unclaimed (.idle ⟨1⟩)], []⟩
    let next : List Thread := [⟨some ⟨0⟩, true, some (.idle ⟨1⟩), some Model.bootstrap⟩,
      .unclaimed (.idle ⟨0⟩)]
    model.stageAll [.scheduling ⟨0⟩ true] = .ok staged ∧
      handOver staged.threads ⟨0⟩ ⟨1⟩ none = .ok next ∧
      ∃ state, (taking staged.threads ⟨0⟩ ⟨1⟩ state).countP (·.isDead) = 1 ∧
        Spares staged.threads (taking staged.threads ⟨0⟩ ⟨1⟩ state) next := by
  intro model staged next
  have leads : model.stageAll [.scheduling ⟨0⟩ true] = .ok staged := rfl
  have given : handOver staged.threads ⟨0⟩ ⟨1⟩ none = .ok next := rfl
  obtain ⟨state, _, spares⟩ := ((unclaimed_entries_are_inert _).2 _ _ leads).1 _ _ _ _ given
  exact ⟨leads, given, state, rfl, spares⟩

end Engine

end SchedReplay
