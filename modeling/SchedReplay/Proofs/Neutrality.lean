import SchedReplay.Proofs.Accounting

/-! Messages of a newer producer are neutral. A message of a kind that is not known here raises a
counter or two, and sessions that differ in these counters alone answer alike ever after. -/
namespace SchedReplay

open Wire (Message Probe)

namespace Reconstruction

/-- The state with more probes counted as unrecognized. -/
def padded (state : Reconstruction) (skipped : Nat) : Reconstruction :=
  { state with counts.unrecognized := state.counts.unrecognized + skipped }

def Step.padded (step : Step α) (skipped : Nat) : Step α :=
  { step with state := step.state.padded skipped }

variable (state : Reconstruction) (skipped : Nat)

@[simp] theorem snapshot_padded : (state.padded skipped).snapshot = state.snapshot := rfl

theorem attempt_padded {tried padded : Except EngineError (α × Reconstruction × Option Update)}
    (same : padded = tried.map fun (answer, next, update) => (answer, next.padded skipped, update)) :
    (state.padded skipped).attempt padded = (state.attempt tried).padded skipped := by
  subst same
  have corrupted : (state.padded skipped).corrupted = state.corrupted := rfl
  rcases state.corrupted.eq_false_or_eq_true with marked | live
  · rw [attempt_of_corrupted marked, attempt_of_corrupted (corrupted.trans marked)]
    rfl
  cases tried with
  | error error =>
    rw [attempt_error live]
    exact attempt_error (corrupted.trans live) error
  | ok result =>
    obtain ⟨answer, next, update⟩ := result
    rw [attempt_ok live]
    exact attempt_ok (corrupted.trans live) answer _ update

theorem seed_padded (width : Option UInt64) :
    (state.padded skipped).seed width = (state.seed width).padded skipped := by
  apply attempt_padded
  cases usableWidth width with
  | error => rfl
  | ok count =>
    by_cases unpopulated : state.snapshot.model.isEmpty = true
    · simp only [unpopulated, snapshot_padded, if_true]
      rfl
    · simp only [unpopulated, snapshot_padded]
      rfl

theorem skipping_padded : (state.padded skipped).skipping = state.skipping.padded skipped := by
  simp [padded, skipping, Nat.add_right_comm]

theorem decode_padded (probe : Probe) :
    (state.padded skipped).decode probe = (state.decode probe).padded skipped := by
  apply attempt_padded
  cases Meaning.ofProbe probe with
  | error => rfl
  | ok meaning =>
    cases meaning with
    | event => rfl
    | unrecognized =>
      have later := skipping_padded state skipped
      simp only [skipping] at later
      simp only [later]
      rfl

theorem applyEvent_padded (event : Event) :
    (state.padded skipped).applyEvent event = (state.applyEvent event).padded skipped := by
  apply attempt_padded
  cases decides : event.decision? with
  | none => cases event <;> rfl
  | some decision =>
    simp only [commitDecision, snapshot_padded]
    cases state.snapshot.model.commit decision <;> rfl

end Reconstruction

namespace Engine

def padded (engine : Engine) (skipped : Nat) : Engine :=
  { engine with run := engine.run.padded skipped }

variable (engine : Engine) (skipped : Nat)

theorem seed_padded (width : Option UInt64) : (engine.padded skipped).seed width =
    (engine.seed width).map id (·.padded skipped) := by
  simp only [seed, publishing, padded, Reconstruction.seed_padded]
  rfl

theorem decode_padded (probe : Probe) : (engine.padded skipped).decode probe =
    (engine.decode probe).map id (·.padded skipped) := by
  simp only [decode, publishing, padded, Reconstruction.decode_padded]
  rfl

theorem applyEvent_padded (event : Event) : (engine.padded skipped).applyEvent event =
    (engine.applyEvent event).map id (·.padded skipped) := by
  simp only [applyEvent, publishing, padded, Reconstruction.applyEvent_padded]
  rfl

end Engine

namespace Session

/-- The session with more messages counted, and more of them as unknown or unrecognized. -/
def padded (session : Session) (messages unknown skipped : Nat) : Session :=
  { session with
    engine := session.engine.padded skipped
    messages := session.messages + messages
    unrecognized := session.unrecognized + unknown }

section Padded

variable (session : Session) (messages unknown skipped : Nat)

@[simp] theorem engine_padded : (session.padded messages unknown skipped).engine =
    session.engine.padded skipped :=
  rfl

@[simp] theorem output_padded :
    (session.padded messages unknown skipped).output = session.output :=
  rfl

theorem onEvent_padded (event : Event) :
    (session.padded messages unknown skipped).onEvent event =
      (session.onEvent event).map id (·.padded messages unknown skipped) := by
  rw [onEvent, onEvent, engine_padded, Engine.applyEvent_padded]
  obtain ⟨answer, engine⟩ := session.engine.applyEvent event
  cases answer <;> rfl

theorem onWidth_padded (width : Option UInt64) :
    (session.padded messages unknown skipped).onWidth width =
      (session.onWidth width).map id (·.padded messages unknown skipped) := by
  rw [onWidth, onWidth, engine_padded, Engine.seed_padded]
  obtain ⟨answer, engine⟩ := session.engine.seed width
  cases answer <;> rfl

theorem onProbe_padded (probe : Probe) :
    (session.padded messages unknown skipped).onProbe probe =
      (session.onProbe probe).map id (·.padded messages unknown skipped) := by
  rw [onProbe, onProbe, engine_padded, Engine.decode_padded]
  obtain ⟨answer, engine⟩ := session.engine.decode probe
  cases answer with
  | error => rfl
  | ok event =>
    cases event with
    | none => rfl
    | some event => exact onEvent_padded { session with engine } messages unknown skipped event

theorem enterRun_padded : (session.padded messages unknown skipped).enterRun =
    session.enterRun.map (·.padded messages unknown skipped) := by
  simp only [enterRun, output_padded]
  change (if session.engine.isCorrupted = true then _ else _) = _
  cases session.engine.isCorrupted
  · cases session.output.start <;> rfl
  · rfl

theorem dispatch_padded (message : Message) :
    (session.padded messages unknown skipped).dispatch message =
      (session.dispatch message).map id (·.padded messages unknown skipped) := by
  cases message with
  | compilationError message =>
    simp only [dispatch, output_padded]
    cases session.output.failCompilation (message.getD "") <;> rfl
  | runtimeResult error =>
    simp only [dispatch, output_padded]
    cases session.output.exit error <;> rfl
  | runtimeOutput chunk =>
    simp only [dispatch, output_padded]
    cases session.output.append chunk <;> rfl
  | concurrencyWidth width =>
    simp only [dispatch, enterRun_padded]
    cases session.enterRun with
    | error => rfl
    | ok entered => exact entered.onWidth_padded messages unknown skipped width
  | runEvent probe =>
    simp only [dispatch, enterRun_padded]
    cases session.enterRun with
    | error => rfl
    | ok entered => exact entered.onProbe_padded messages unknown skipped probe
  | unknown => simp [dispatch, padded, Nat.add_right_comm]

theorem fail_padded (error : SessionError) :
    (session.padded messages unknown skipped).fail error =
      (session.fail error).padded messages unknown skipped := by
  cases error with
  | request | compilation => rfl
  | reconstruction | protocol | aborted =>
    rcases session.output.isFinal.eq_false_or_eq_true with final | goesOn
    · simp [fail, final]
    · simp [fail, goesOn, padded]

theorem counted_padded : (session.padded messages unknown skipped).counted =
    session.counted.padded messages unknown skipped := by
  simp [counted, padded, Nat.add_right_comm]

/-- What was counted before makes no difference to a message. -/
theorem process_padded (message : Message) :
    (session.padded messages unknown skipped).process message =
      (session.process message).map id (·.padded messages unknown skipped) := by
  have dispatched := dispatch_padded session.counted messages unknown skipped message
  rw [← counted_padded] at dispatched
  cases answers : session.counted.dispatch message with
  | mk answer after =>
    rw [answers] at dispatched
    cases answer with
    | error error =>
      rw [process_of_error answers, process_of_error dispatched, fail_padded]
      rfl
    | ok flow =>
      rw [process_of_ok answers, process_of_ok dispatched]
      rfl

theorem processAll_padded (arriving : List Message) :
    (session.padded messages unknown skipped).processAll arriving =
      (session.processAll arriving).padded messages unknown skipped := by
  induction arriving using List.reverseRecOn with
  | nil => rfl
  | append_singleton arriving message ih =>
    rw [processAll_concat, processAll_concat, ih, process_padded]
    rfl

theorem transcript_padded (arriving : List Message) :
    (session.padded messages unknown skipped).transcript arriving = session.transcript arriving := by
  induction arriving using List.reverseRecOn with
  | nil => rfl
  | append_singleton arriving message ih =>
    rw [transcript_concat, transcript_concat, ih, processAll_padded, process_padded]
    rfl

end Padded

/-! ### Newer messages -/

theorem process_unknown (session : Session) :
    session.process .unknown = (.ok .proceed, session.padded 1 1 0) :=
  rfl

/-- The probes of kinds that are not known, as a probe or within their family. -/
def unrecognizedProbes : List Probe :=
  [.unknown, .notification .unknown, .structureState .unknown]

/-- A probe of an unknown kind starts the output unless it runs, so it is neutral if it does. -/
theorem process_unrecognized {session : Session} {text : String}
    (running : session.output = .running text) (live : session.engine.isCorrupted = false)
    {probe : Probe} (newer : probe ∈ unrecognizedProbes) :
    session.process (.runEvent probe) = (.ok .proceed, session.padded 1 0 1) := by
  obtain ⟨family, means⟩ : ∃ family, Meaning.ofProbe probe = .ok (.unrecognized family) := by
    simp only [unrecognizedProbes, List.mem_cons, List.not_mem_nil, or_false] at newer
    rcases newer with rfl | rfl | rfl <;> exact ⟨_, rfl⟩
  have entered : session.counted.entered = session.counted := by
    simp [Session.entered, counted, running, ProgramOutput.output]
  have skipped : session.counted.engine.perform (.apply probe) =
      (.snapshot (.ok session.engine.run.snapshot), session.engine.padded 1) := by
    have applied : session.engine.run.apply probe =
        ⟨.ok session.engine.run.snapshot, session.engine.run.skipping, none⟩ := by
      rw [Reconstruction.apply_eq live, means]
    change Prod.map _ _ (session.engine.publishing (session.engine.run.apply probe)) = _
    rw [applied]
    rfl
  have goesOn : session.counted.output.isFinal = false := by
    rw [counted, running]
    rfl
  have stays : session.counted.engine.isCorrupted = false := live
  apply process_of_ok
  rw [dispatch_of_entered rfl stays goesOn, entered, answering, skipped]
  simp [Engine.Reply.error?, accepting, Engine.Call.event?, means, counted, padded]

/-- Where a message is neutral, it can be left out. -/
theorem neutral_of_process {session : Session} {before : List Message} {newer : Message}
    {messages unknown skipped : Nat} (neutral : (session.processAll before).process newer =
      (.ok .proceed, (session.processAll before).padded messages unknown skipped))
    (after : List Message) :
    session.transcript (before ++ newer :: after) = session.transcript before ++
      (newer, .ok .proceed) :: (session.processAll before).transcript after ∧
    session.processAll (before ++ newer :: after) =
      (session.processAll (before ++ after)).padded messages unknown skipped := by
  constructor
  · rw [transcript_append, transcript, neutral, transcript_padded]
  · rw [processAll_append, processAll_append, ← processAll_padded]
    change ((session.processAll before).process newer).2.processAll after = _
    rw [neutral]

/-- A fresh session whose updates are listened to by subscribers with queues of the given lengths. -/
def listenedTo (capacities : List Nat) : Session :=
  capacities.foldl (fun session capacity => (session.subscribe capacity).2) new

theorem coherent_listenedTo (capacities : List Nat) : (listenedTo capacities).Coherent := by
  suffices (listenedTo capacities).engine.run = .fresh by
    intro marked
    rw [Engine.isCorrupted, this] at marked
    cases marked
  induction capacities using List.reverseRecOn with
  | nil => rfl
  | append_singleton capacities capacity ih =>
    rw [listenedTo, List.foldl_concat]
    exact ih

/-- A message of a newer producer leaves the answers to all other messages and the session they lead
to as they would be without it, the counters of such messages apart: an unknown message everywhere,
and a probe of an unknown kind where the program is running. -/
theorem newer_messages_are_neutral (capacities : List Nat) (before after : List Message) :
    let start := listenedTo capacities
    let here := start.processAll before
    let plain := start.processAll (before ++ after)
    start.transcript (before ++ after) = start.transcript before ++ here.transcript after ∧
    (start.transcript (before ++ .unknown :: after) =
        start.transcript before ++ (.unknown, .ok .proceed) :: here.transcript after ∧
      start.processAll (before ++ .unknown :: after) = { plain with
        messages := plain.messages + 1
        unrecognized := plain.unrecognized + 1 }) ∧
    ∀ text, here.output = .running text → here.engine.isCorrupted = false ∧
      ∀ probe ∈ unrecognizedProbes,
        start.transcript (before ++ .runEvent probe :: after) =
          start.transcript before ++ (.runEvent probe, .ok .proceed) :: here.transcript after ∧
        start.processAll (before ++ .runEvent probe :: after) = { plain with
          messages := plain.messages + 1
          engine.run.counts.unrecognized := plain.engine.run.counts.unrecognized + 1 } := by
  intro start here plain
  refine ⟨start.transcript_append before after, ?unknown, ?unrecognized⟩
  case unknown =>
    exact neutral_of_process here.process_unknown after
  case unrecognized =>
    intro text running
    have coherent : here.Coherent := coherent_processAll (coherent_listenedTo capacities) before
    have live : here.engine.isCorrupted = false := by
      rw [← Bool.not_eq_true]
      intro marked
      have final := coherent marked
      rw [running] at final
      cases final
    refine ⟨live, ?_⟩
    intro probe newer
    exact neutral_of_process (process_unrecognized running live newer) after

/-- A notification of an unknown kind arrives between the width and a schedule. -/
theorem newer_messages_are_neutral_before_schedule :
    let width : Message := .concurrencyWidth (some 2)
    let newer : Message := .runEvent (.notification .unknown)
    let schedule : Message := .runEvent (.notification (.schedule ⟨some 1, some 1, none⟩))
    ((listenedTo [4]).processAll [width]).output = .running "" ∧
      (listenedTo [4]).transcript [width, newer, schedule] =
        [(width, .ok .proceed), (newer, .ok .proceed), (schedule, .ok .proceed)] ∧
      ((listenedTo [4]).processAll [width, newer, schedule]).engine.stats.unrecognized = 1 := by
  intro width newer schedule
  obtain ⟨_, _, law⟩ := newer_messages_are_neutral [4] [width] [schedule]
  have running : ((listenedTo [4]).processAll [width]).output = .running "" := rfl
  obtain ⟨answers, neutral⟩ := (law "" running).2 (.notification .unknown) (by decide)
  have accepted : (listenedTo [4]).transcript [width] ++ (newer, .ok .proceed) ::
      ((listenedTo [4]).processAll [width]).transcript [schedule] =
        [(width, .ok .proceed), (newer, .ok .proceed), (schedule, .ok .proceed)] := by
    decide +kernel
  have counted : ((listenedTo [4]).processAll [width, schedule]).engine.stats.unrecognized = 0 := by
    decide +kernel
  refine ⟨running, answers.trans accepted, ?_⟩
  simp only [List.singleton_append] at neutral
  rw [neutral]
  -- What the session holds is of no matter from here on, and would be computed if it were known.
  generalize (listenedTo [4]).processAll [width, schedule] = plain at counted ⊢
  exact congrArg (· + 1) counted

end Session

end SchedReplay
