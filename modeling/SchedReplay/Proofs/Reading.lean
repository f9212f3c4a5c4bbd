import SchedReplay.Proofs.Commitments
import SchedReplay.Proofs.Ownership

/-! The model as a reading of what was committed: the last word of the history on a machine or a
context stands, however contexts changed hands since. -/
namespace SchedReplay

def Observation.of? (context : ContextId) (observation : Observation) : Option Context :=
  if observation.context.id = context then some observation.context else none

namespace Event

def running? (machine : MachineId) : Event → Option (Option WorkUnit)
  | schedule event => if event.machine = machine then some none else none
  | execute event => if event.machine = machine then some (some event.found) else none
  | park event => if event.machine = machine then some none else none
  | queueStatus _ | ready _ | newContext _ | progress _ => none

/-- Whether an event puts a machine into the scheduler or takes it out. -/
def scheduling? (machine : MachineId) : Event → Option Bool
  | schedule event => if event.machine = machine then some true else none
  | execute event => if event.machine = machine then some false else none
  | park _ | queueStatus _ | ready _ | newContext _ | progress _ => none

/-- What an event shows of contexts, in the order in which it was seen. -/
def observations : Event → List Observation
  | execute event => event.snapshots
  | queueStatus observation => [observation]
  | ready event => [event.update]
  | schedule _ | park _ | newContext _ | progress _ => []

variable {event : Event} {decision : Decision}

theorem status_decision (decides : event.decision? = some decision) (machine : MachineId)
    (status : Status) : decision.foldl (Status.after machine) status =
      ⟨(event.scheduling? machine).getD status.isScheduling,
        (event.running? machine).getD status.executing⟩ := by
  cases event with
  | schedule event =>
    cases decides
    by_cases named : event.machine = machine <;>
      simp [Schedule.decision, Status.after, scheduling?, running?, named]
  | execute event =>
    cases decides
    by_cases named : event.machine = machine <;>
      simp [Execute.decision, Status.after, Status.foldl_observations, scheduling?, running?, named]
  | park event =>
    cases decides
    by_cases named : event.machine = machine <;>
      simp [Park.decision, Status.after, scheduling?, running?, named]
  | queueStatus observation => cases decides; rfl
  | ready event => cases decides; rfl
  | newContext => cases decides
  | progress => cases decides

theorem lastObserved?_decision (decides : event.decision? = some decision) (context : ContextId) :
    lastObserved? context decision = latest? (·.of? context) event.observations := by
  have shown (observations : List Observation) :
      lastObserved? context (observations.map Observation.delta) =
        latest? (·.of? context) observations :=
    latest?_map _ _ _
  cases event with
  | schedule event => cases decides; rfl
  | execute event =>
    cases decides
    simp [Execute.decision, lastObserved?_cons, shown, Delta.observed?, observations]
  | park event => cases decides; rfl
  | queueStatus observation => cases decides; exact shown [observation]
  | ready event =>
    cases decides
    simp [Ready.decision, lastObserved?, Delta.observed?, observations,
      Observation.delta, Observation.of?]
  | newContext => cases decides
  | progress => cases decides

end Event

/-- What a machine does at the start: machine 0 runs the bootstrap unit. -/
def Status.initial (machine : MachineId) : Status :=
  ⟨false, if machine = ⟨0⟩ then some Model.bootstrap else none⟩

def statusRead (machine : MachineId) (events : List Event) : Status :=
  ⟨(latest? (·.scheduling? machine) events).getD (Status.initial machine).isScheduling,
    (latest? (·.running? machine) events).getD (Status.initial machine).executing⟩

def contextRead? (context : ContextId) (events : List Event) : Option Context :=
  latest? (·.of? context) (events.flatMap Event.observations)

namespace Model

/-- The model says of every machine and every context what the history says last. -/
structure ReadsAs (events : List Event) (model : Model) : Prop where
  status : ∀ machine, model.status machine = statusRead machine events
  context : ∀ context, model.context? context = (contextRead? context events).or
    (if context ∈ contextIds model.threads then some (.idle context) else none)

theorem status_seeded {width : Nat} (positive : 0 < width) (machine : MachineId) :
    (seeded width).status machine = .initial machine := by
  obtain ⟨rest, rfl⟩ : ∃ rest, width = rest + 1 := ⟨width - 1, by omega⟩
  rw [status, thread?, threads_seeded_succ]
  by_cases first : machine = ⟨0⟩
  · subst first
    rfl
  · have others : ((List.range rest).map fun index => seedThread (index + 1)).find?
        (·.isMachine machine) = none := by
      simp [seedThread]
    have zero : ¬ (seedThread 0).isMachine machine = true := by
      simpa [seedThread] using Ne.symm first
    rw [List.find?_cons_of_neg zero, others, Status.initial, if_neg first]
    rfl

theorem context?_seeded (width : Nat) (context : ContextId) : (seeded width).context? context =
    if context ∈ contextIds (seeded width).threads then some (.idle context) else none := by
  have idle (index : Nat) : (seedThread index).context = some (.idle ⟨.ofNat index⟩) := by
    cases index <;> rfl
  rw [context?, owner?]
  cases found : (seeded width).threads.find? (·.holds context) with
  | none =>
    have unbound : context ∉ contextIds (seeded width).threads := by
      simpa [mem_contextIds] using found
    rw [if_neg unbound]
    rfl
  | some thread =>
    have inside := List.mem_of_find?_eq_some found
    have holds := Thread.holds_iff.mp (List.find?_some found)
    rw [if_pos (mem_contextIds.mpr ⟨thread, inside, holds⟩)]
    obtain ⟨index, _, rfl⟩ := List.mem_map.mp inside
    rw [Thread.contextId, idle, Option.map_some, Option.some.injEq] at holds
    rw [Option.bind_some, idle, ← holds]
    rfl

theorem readsAs_seeded {width : Nat} (positive : 0 < width) : ReadsAs [] (seeded width) := by
  constructor
  · intro machine
    rw [status_seeded positive]
    rfl
  · intro context
    rw [context?_seeded]
    rfl

theorem ReadsAs.commit {events : List Event} {model next : Model} {event : Event}
    {decision : Decision} {changes : Changes} (reads : ReadsAs events model)
    (bound : WellBound model.threads) (decides : event.decision? = some decision)
    (fits : model.commit decision = .ok (next, changes)) : ReadsAs (events ++ [event]) next := by
  have staged := (commit_eq_ok_iff.mp fits).1
  constructor
  · intro machine
    rw [stageAll_status bound staged, Event.status_decision decides, reads.status]
    simp only [statusRead, latest?_append, latest?_singleton, Option.getD_or]
  · intro context
    have same : context ∈ contextIds next.threads ↔ context ∈ contextIds model.threads :=
      (stageAll_contextIds_perm staged).mem_iff
    rw [stageAll_context? bound staged, Event.lastObserved?_decision decides, reads.context,
      contextRead?, contextRead?, List.flatMap_append, latest?_append, List.flatMap_singleton,
      Option.or_assoc]
    simp only [same]

theorem ReadsAs.state_eq {events : List Event} {model : Model} (reads : ReadsAs events model)
    (bound : WellBound model.threads) {thread : Thread} (inside : thread ∈ model.threads)
    {state : Context} (holds : thread.context = some state) :
    state = (contextRead? state.id events).getD (.idle state.id) := by
  have holding : thread.contextId = some state.id := by rw [Thread.contextId, holds]; rfl
  have owner : model.owner? state.id = some thread :=
    find?_eq_some_of_nodup bound.contexts inside holding
  have read := reads.context state.id
  rw [context?, owner, Option.bind_some, holds,
    if_pos (mem_contextIds.mpr ⟨thread, inside, holding⟩)] at read
  cases seen : contextRead? state.id events with
  | none => simpa [seen] using read
  | some shown => simpa [seen] using read

/-- No context was seen that is not bound. -/
theorem ReadsAs.mem_contextIds {events : List Event} {model : Model} (reads : ReadsAs events model)
    {observation : Observation} (seen : observation ∈ events.flatMap Event.observations) :
    observation.context.id ∈ contextIds model.threads := by
  by_contra unbound
  have missing : model.context? observation.context.id = none := by
    have nobody : model.owner? observation.context.id = none := by
      simpa [owner?, SchedReplay.mem_contextIds] using unbound
    rw [context?, nobody, Option.bind_none]
  rw [reads.context, if_neg unbound, Option.or_none, contextRead?, latest?_eq_none_iff] at missing
  simpa [Observation.of?] using missing observation seen

end Model

namespace Engine

theorem readsAs_performAll (calls : List Call) :
    let model := (new.performAll calls).model
    let events := committedEvents (new.transcript calls)
    (model = .empty ∧ events = []) ∨ model.ReadsAs events := by
  refine commit_induction (fun events model => (model = .empty ∧ events = []) ∨ model.ReadsAs events)
    ?_ ?_ ?_ calls
  · exact .inl ⟨rfl, rfl⟩
  · intro width positive _
    exact .inr (Model.readsAs_seeded positive)
  · rintro events model event decision next changes consistent (⟨rfl, _⟩ | reads) decides fits
    · exact absurd fits (Model.commit_empty_ne_ok decides)
    · exact .inr (reads.commit consistent.bound decides fits)

/-- A machine does what the last event committed about it says, and a context holds what the last
observation committed of it shows; without any, things are as the run began. -/
theorem model_reads_as_committed (calls : List Call) :
    let engine := new.performAll calls
    let events := committedEvents (new.transcript calls)
    let seen := events.flatMap Event.observations
    (∀ thread ∈ engine.model.threads, ∀ machine, thread.machine = some machine →
      thread.executing = (latest? (·.running? machine) events).getD
        (if machine = ⟨0⟩ then some Model.bootstrap else none) ∧
      (thread.isScheduling = true ↔ latest? (·.scheduling? machine) events = some true)) ∧
    (∀ thread ∈ engine.model.threads, ∀ state, thread.context = some state →
      state = (latest? (·.of? state.id) seen).getD (.idle state.id)) ∧
    ∀ observation ∈ seen, observation.context.id ∈ contextIds engine.model.threads := by
  intro engine events seen
  have bound : WellBound engine.model.threads := (consistent_performAll calls).bound
  -- Before the seed there are no entries to read.
  rcases readsAs_performAll calls with ⟨unpopulated, unwritten⟩ | reads
  · have silent : seen = [] := by simp [seen, events, unwritten]
    have nobody : engine.model.threads = [] := by rw [unpopulated]; rfl
    simp [silent, nobody]
  refine ⟨?machines, ?contexts, ?bound⟩
  case machines =>
    intro thread inside machine is
    have status : thread.status = statusRead machine events :=
      (Model.status_of_mem bound inside is).symm.trans (reads.status machine)
    refine ⟨congrArg Status.executing status, ?_⟩
    have flag : thread.isScheduling = (latest? (·.scheduling? machine) events).getD false :=
      congrArg Status.isScheduling status
    rw [flag]
    cases latest? (·.scheduling? machine) events <;> simp
  case contexts =>
    intro thread inside state holds
    exact reads.state_eq bound inside holds
  case bound =>
    intro observation shown
    exact reads.mem_contextIds shown

/-- Machine 0 runs on after machine 7 has taken its context, whose queue moves along unseen. -/
theorem model_reads_as_committed_after_theft :
    let queue : Context := ⟨⟨0⟩, none, [⟨⟨5⟩, "worker"⟩]⟩
    let calls : List Call := [.seed (some 2),
      .applyEvent (.execute ⟨⟨0⟩, ⟨0⟩, ⟨⟨1⟩, "main"⟩, [⟨some ⟨0⟩, queue⟩]⟩),
      .applyEvent (.schedule ⟨⟨7⟩, ⟨0⟩, .mstart⟩)]
    let events := committedEvents (new.transcript calls)
    let robbed : Thread := ⟨some ⟨0⟩, false, none, some ⟨⟨1⟩, "main"⟩⟩
    let robber : Thread := ⟨some ⟨7⟩, true, some queue, none⟩
    (new.performAll calls).model.threads = [robbed, .unclaimed (.idle ⟨1⟩), robber] ∧
      robbed.executing = (latest? (·.running? ⟨0⟩) events).getD (some Model.bootstrap) ∧
      queue = (latest? (·.of? ⟨0⟩) (events.flatMap Event.observations)).getD (.idle ⟨0⟩) := by
  intro queue calls events robbed robber
  have entries : (new.performAll calls).model.threads =
      [robbed, .unclaimed (.idle ⟨1⟩), robber] := by decide +kernel
  obtain ⟨machines, contexts, _⟩ := model_reads_as_committed calls
  rw [entries] at machines contexts
  have runs := (machines robbed (by simp) ⟨0⟩ rfl).1
  rw [if_pos rfl] at runs
  exact ⟨entries, runs, contexts robber (by simp) queue rfl⟩

end Engine

end SchedReplay
