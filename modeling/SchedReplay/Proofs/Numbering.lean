import SchedReplay.Proofs.Announcement

/-! What is published, and in which order. A call publishes at most one update, and the snapshots
that a run publishes are numbered from one without a gap. -/
namespace SchedReplay

def Update.snapshot? : Update → Option Snapshot
  | committed snapshot => some snapshot
  | progress _ | reset => none

namespace Reconstruction.Transition

open Engine (Call Reply)

variable {state next : Reconstruction} {call : Call} {reply : Reply} {update : Option Update}

/-- Within a run a call publishes the snapshot that it brings about, which takes the next number, or
no snapshot at all. -/
theorem numbers (ends : state.Transition call reply next update) (stays : call ≠ .reset) :
    (update.bind Update.snapshot? = none ∧ next.snapshot = state.snapshot ∧
        next.counts.committed = state.counts.committed) ∨
      (update = some (.committed next.snapshot) ∧
        next.snapshot.sequence = state.snapshot.sequence + 1 ∧
        next.counts.committed = state.counts.committed + 1) := by
  cases ends with
  | seeded => exact .inr ⟨rfl, rfl, rfl⟩
  | committed => exact .inr ⟨rfl, rfl, rfl⟩
  | @noted _ event => cases event <;> exact .inl ⟨rfl, rfl, rfl⟩
  | restarted => exact absurd rfl stays
  | _ => exact .inl ⟨rfl, rfl, rfl⟩

end Reconstruction.Transition

namespace Engine

/-- The call publishes the update, or nothing: all who listen with room for more hear of it and of
nothing else. -/
def Publishes (engine : Engine) (call : Call) (update : Option Update) : Prop :=
  engine.update? call = update ∧
    ∀ subscriber mailbox, engine.hub.mailbox? subscriber = some mailbox →
      call.reader? ≠ some subscriber →
        (engine.perform call).2.hub.mailbox? subscriber = some { mailbox with
          waiting := mailbox.waiting ++ if mailbox.isFull then [] else update.toList }

/-- What the calls to an engine publish. -/
structure Disciplined (engine : Engine) : Prop where
  seed : ∀ width snapshot, (engine.perform (.seed width)).1 = .snapshot (.ok snapshot) →
    engine.Publishes (.seed width) (some (.committed snapshot))
  decision : ∀ call event snapshot, call.event? = some event → event.isStructural = true →
    (engine.perform call).1 = .snapshot (.ok snapshot) →
      engine.Publishes call (some (.committed snapshot))
  progress : ∀ call event snapshot, call.event? = some (.progress event) →
    (engine.perform call).1 = .snapshot (.ok snapshot) →
      engine.Publishes call (some (.progress event))
  newContext : ∀ call event, call.event? = some (.newContext event) → engine.Publishes call none
  unrecognized : ∀ probe family, Meaning.ofProbe probe = .ok (.unrecognized family) →
    engine.Publishes (.apply probe) none
  decoding : ∀ probe, engine.Publishes (.decode probe) none
  failure : ∀ call error, (engine.perform call).1.error? = some error → engine.Publishes call none
  listening : ∀ call, call.isAttempt = false → call ≠ .reset → engine.Publishes call none
  reset : engine.Publishes .reset (some .reset)

theorem announces_of_listening (engine : Engine) {call : Call} (listens : call.isAttempt = false)
    (stays : call ≠ .reset) : engine.announces call = none :=
  notice?_of_listening listens stays _

theorem announces_of_event? {engine : Engine} {call : Call} {event : Event} {snapshot : Snapshot}
    (applies : call.event? = some event)
    (answers : (engine.perform call).1 = .snapshot (.ok snapshot)) : engine.announces call =
      if event.isStructural then some (.committed snapshot) else event.notice? := by
  rw [announces, answers, notice?_of_event? applies]

theorem announces_of_error {engine : Engine} {call : Call} {error : EngineError}
    (reports : (engine.perform call).1.error? = some error) : engine.announces call = none := by
  cases call with
  | seed | apply | decode | applyEvent => exact notice?_of_error rfl reports
  | reset | subscribe | receive | drain | drop => cases reports

theorem publishes_announces {engine : Engine} (numbered : engine.hub.Numbered) (call : Call) :
    engine.Publishes call (engine.announces call) := by
  refine ⟨update?_eq_notice? engine call, ?_⟩
  intro subscriber mailbox found other
  rw [mailbox?_perform numbered, found]
  have unread (reader : Nat) (reads : call.reader? = some reader) : subscriber ≠ reader :=
    fun same => other (same ▸ reads)
  have silent (listens : call.isAttempt = false) (stays : call ≠ .reset := by simp) :
      engine.announces call = none := engine.announces_of_listening listens stays
  cases call with
  | subscribe capacity =>
    have known : subscriber ≠ engine.hub.issued := by
      rintro rfl
      rw [numbered.mailbox?_eq_none (Nat.le_refl _)] at found
      cases found
    simp [queueAfter, known, silent rfl]
  | receive reader | drain reader | drop reader =>
    simp [queueAfter, unread reader rfl, silent rfl]
  | seed | apply | decode | applyEvent | reset =>
    cases engine.announces _ with
    | none => simp [queueAfter]
    | some update => cases room : mailbox.isFull <;> simp [queueAfter, Mailbox.deliver, room]

theorem disciplined_of_numbered {engine : Engine} (numbered : engine.hub.Numbered) :
    engine.Disciplined := by
  have publishes {call : Call} {update : Option Update} (is : engine.announces call = update) :
      engine.Publishes call update := is ▸ publishes_announces numbered call
  refine {
    seed := fun _ _ answers => publishes (by rw [announces, answers]; rfl)
    decision := fun _ _ _ applies structural answers =>
      publishes ((announces_of_event? applies answers).trans (if_pos structural))
    progress := fun _ _ _ applies answers => publishes (announces_of_event? applies answers)
    newContext := fun call event applies => publishes ?_
    unrecognized := fun probe family means => publishes ?_
    decoding := fun _ => publishes rfl
    failure := fun _ _ reports => publishes (announces_of_error reports)
    listening := fun _ listens stays => publishes (engine.announces_of_listening listens stays)
    reset := publishes rfl }
  · refine notice?_of_silent ?_ ?_ ?_ _
    · intro other brings
      obtain rfl := Option.some.inj (applies.symm.trans brings)
      exact ⟨rfl, rfl⟩
    · rintro width rfl
      cases applies
    · rintro rfl
      cases applies
  · have silent : ∀ event, (Call.apply probe).event? = some event →
        event.isStructural = false ∧ event.notice? = none := by simp [Call.event?, means]
    exact notice?_of_silent silent (by simp) (by simp) _

/-- The snapshots that a history publishes, in order. -/
def publishedSnapshots (records : List Record) : List Snapshot :=
  (published records).filterMap Update.snapshot?

theorem publishedSnapshots_concat (records : List Record) (record : Record) :
    publishedSnapshots (records ++ [record]) =
      publishedSnapshots records ++ ((notice? record).bind Update.snapshot?).toList := by
  simp only [publishedSnapshots, published, List.filterMap_append]
  congr 1
  cases announced : notice? record with
  | none => simp [announced]
  | some update => cases update <;> simp [announced, Update.snapshot?]

/-- The snapshots of a run are numbered from one, and the last of them is the current one. -/
structure Tallied (snapshots : List Snapshot) (engine : Engine) : Prop where
  numbers : snapshots.map (·.sequence) = List.range' 1 snapshots.length
  sequence : engine.snapshot.sequence = snapshots.length
  committed : engine.stats.committed = snapshots.length
  current : ∀ last, snapshots.getLast? = some last → last = engine.snapshot

theorem Tallied.perform {snapshots : List Snapshot} {engine : Engine}
    (tallied : Tallied snapshots engine) {call : Call} (stays : call ≠ .reset) :
    Tallied (snapshots ++ ((engine.announces call).bind Update.snapshot?).toList)
      (engine.perform call).2 := by
  rw [announces, ← update?_eq_notice?]
  rcases (engine.perform_transition call).numbers stays with
    ⟨silent, same, count⟩ | ⟨commits, number, count⟩
  · rw [silent, Option.toList_none, List.append_nil]
    refine ⟨tallied.numbers, ?_, count.trans tallied.committed, ?_⟩
    · exact (congrArg Snapshot.sequence same).trans tallied.sequence
    · intro last is
      exact (tallied.current last is).trans same.symm
  · have next := number.trans (congrArg (· + 1) tallied.sequence)
    have last : (engine.perform call).2.run.snapshot.sequence = 1 + 1 * snapshots.length := by
      rw [next]
      omega
    rw [commits, Option.bind_some, Update.snapshot?, Option.toList_some]
    refine ⟨?_, ?_, ?_, ?_⟩
    · simp [List.range'_concat, tallied.numbers, last]
    · rw [List.length_append]
      exact next
    · rw [List.length_append]
      exact count.trans (congrArg (· + 1) tallied.committed)
    · intro latest is
      rw [List.getLast?_concat] at is
      exact (Option.some.inj is).symm

theorem tallied_performAll {start : Engine} (started : Started start) (calls : List Call) :
    Tallied (publishedSnapshots (currentRun (start.transcript calls)))
      (start.performAll calls) := by
  refine history_induction (fun records engine => Tallied (publishedSnapshots records) engine)
    ?_ ?_ ?_ calls
  · obtain ⟨model, _, rfl⟩ := started.exists_eq
    exact ⟨rfl, rfl, rfl, by simp [publishedSnapshots, published]⟩
  · intro engine records _
    exact ⟨rfl, rfl, rfl, by simp [publishedSnapshots, published]⟩
  · intro engine records call stays tallied
    rw [publishedSnapshots_concat]
    exact tallied.perform stays

theorem numbered_performAll {start : Engine} (started : Started start) (calls : List Call) :
    (start.performAll calls).hub.Numbered := by
  refine performAll_induction calls (fun engine => engine.hub.Numbered) start ?_ ?_
  · obtain ⟨model, _, rfl⟩ := started.exists_eq
    exact Hub.numbered_new
  · intro engine call _ numbered
    exact numbered_perform numbered call

/-- In every state that calls lead to, each call publishes what it should, once, and the snapshots
published since the last reset are numbered without a gap up to the current one. -/
theorem publications_are_numbered {start : Engine} (started : Started start) (calls : List Call) :
    let engine := start.performAll calls
    engine.Disciplined ∧ (∀ call, engine.Publishes call (engine.announces call)) ∧
      Tallied (publishedSnapshots (currentRun (start.transcript calls))) engine := by
  have numbered := numbered_performAll started calls
  exact ⟨disciplined_of_numbered numbered, publishes_announces numbered,
    tallied_performAll started calls⟩

theorem publications_are_numbered_on_two_machines :
    let start : Engine := ⟨.start Model.twoMachines, .new⟩
    let calls : List Call := [.subscribe 4, .applyEvent (.schedule ⟨⟨0⟩, ⟨1⟩, .mstart⟩), .reset,
      .seed (some 2), .applyEvent (.progress ⟨⟨0⟩, ⟨1⟩, 7, none, none⟩)]
    let snapshots := publishedSnapshots (currentRun (start.transcript calls))
    Engine.ofModel Model.twoMachines = .ok start ∧
      snapshots = [(start.performAll calls).snapshot] ∧
      Tallied snapshots (start.performAll calls) := by
  intro start calls snapshots
  have accepted : Engine.ofModel Model.twoMachines = .ok start := rfl
  exact ⟨accepted, rfl, (publications_are_numbered (.ofModel accepted) calls).2.2⟩

end Engine

end SchedReplay
