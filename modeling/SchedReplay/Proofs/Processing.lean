import SchedReplay.Proofs.Transition
import SchedReplay.Session.Basic

/-! All that one message can do to a session. Laws about sessions go through the cases below; what
a message asks of the engine is one call, whose own cases are known. -/
namespace SchedReplay

/-- The call to the engine that a message asks for. -/
def Wire.Message.call? : Wire.Message → Option Engine.Call
  | concurrencyWidth width => some (.seed width)
  | runEvent probe => some (.apply probe)
  | compilationError _ | runtimeResult _ | runtimeOutput _ | unknown => none

namespace ProgramOutput

variable {output : ProgramOutput}

section Final

variable (final : output.isFinal = true)

include final

theorem start_of_isFinal : output.start = .error (output.outOfPlace "run message") := by
  simp [start, textFor, final, bind, Except.bind]

theorem append_of_isFinal (chunk : String) :
    output.append chunk = .error (output.outOfPlace "runtime output") := by
  simp [append, textFor, final, bind, Except.bind]

theorem exit_of_isFinal (runtimeError : Option String) :
    output.exit runtimeError = .error (output.outOfPlace "runtime result") := by
  simp [exit, textFor, final, bind, Except.bind]

end Final

section NotFinal

variable (goesOn : output.isFinal = false)

include goesOn

theorem start_of_not_isFinal : output.start = .ok (.running output.output) := by
  simp [start, textFor, goesOn, bind, Except.bind, pure, Except.pure]

theorem append_of_not_isFinal (chunk : String) :
    output.append chunk = .ok (.running (output.output ++ chunk)) := by
  simp [append, textFor, goesOn, bind, Except.bind, pure, Except.pure]

theorem exit_of_not_isFinal (runtimeError : Option String) :
    output.exit runtimeError = .ok (.exited output.output runtimeError) := by
  simp [exit, textFor, goesOn, bind, Except.bind, pure, Except.pure]

end NotFinal

theorem failCompilation_of_ne (begun : output ≠ .requesting) (message : String) :
    output.failCompilation message = .error (output.outOfPlace "compilation error") := by
  cases output <;> first | rfl | contradiction

end ProgramOutput

namespace Session

def counted (session : Session) : Session := { session with messages := session.messages + 1 }

def entered (session : Session) : Session :=
  { session with output := .running session.output.output }

/-- The session after its engine accepted a call that applies an event, if it applies one. -/
def accepting (session : Session) (engine : Engine) (event : Option Event) : Session :=
  { session with
    engine
    events := event.elim session.events (session.events.add ·.kind)
    highlights := event.elim session.highlights (highlightsAfter session.highlights) }

/-- The session after its reconstruction or its protocol failed. -/
def aborting (session : Session) (error : SessionError) : Session :=
  { session with output := session.output.abort error.message }

/-- What a message leads to: the answer and the session after it. -/
inductive Transition (session : Session) :
    Wire.Message → Except SessionError Flow → Session → Prop where
  | unknown :
      Transition session .unknown (.ok .proceed)
        { session.counted with unrecognized := session.unrecognized + 1 }
  | uncompiled {message : Option String} (unbegun : session.output = .requesting) :
      Transition session (.compilationError message) (.error (.compilation (message.getD "")))
        { session.counted with output := .compilationError (message.getD "") }
  | exited {error : Option String} (goesOn : session.output.isFinal = false) :
      Transition session (.runtimeResult error) (.ok .finished)
        { session.counted with output := .exited session.output.output error }
  | printed {chunk : String} (goesOn : session.output.isFinal = false) :
      Transition session (.runtimeOutput chunk) (.ok .proceed)
        { session.counted with output := .running (session.output.output ++ chunk) }
  | accepted {message : Wire.Message} {call : Engine.Call} (calls : message.call? = some call)
      (live : session.engine.isCorrupted = false) (goesOn : session.output.isFinal = false)
      (accepts : (session.engine.perform call).1.error? = none) :
      Transition session message (.ok .proceed)
        (session.counted.entered.accepting (session.engine.perform call).2 call.event?)
  | rejected {message : Wire.Message} {call : Engine.Call} {error : EngineError}
      (calls : message.call? = some call) (live : session.engine.isCorrupted = false)
      (goesOn : session.output.isFinal = false)
      (reports : (session.engine.perform call).1.error? = some error) :
      Transition session message (.error (.reconstruction error))
        ({ session.counted.entered with engine := (session.engine.perform call).2 }.aborting
          (.reconstruction error))
  | corrupted {message : Wire.Message} {call : Engine.Call} (calls : message.call? = some call)
      (marked : session.engine.isCorrupted = true) :
      Transition session message (.error (.reconstruction .corrupted))
        (session.counted.fail (.reconstruction .corrupted))
  | refused {message : Wire.Message} {call : Engine.Call} (calls : message.call? = some call)
      (live : session.engine.isCorrupted = false) (final : session.output.isFinal = true) :
      Transition session message (.error (session.output.outOfPlace "run message")) session.counted
  | belated {message : Wire.Message} {what : String} (calls : message.call? = none)
      (known : message ≠ .unknown) (final : session.output.isFinal = true) :
      Transition session message (.error (session.output.outOfPlace what)) session.counted
  | misplaced {message : Option String} {output : String}
      (begun : session.output = .running output) :
      Transition session (.compilationError message)
        (.error (session.output.outOfPlace "compilation error"))
        (session.counted.aborting (session.output.outOfPlace "compilation error"))

variable {session : Session}

/-- A failure is recorded in the output and nowhere else. -/
theorem fail_eq (session : Session) (error : SessionError) :
    session.fail error = { session with output := (session.fail error).output } := by
  cases error with
  | request | compilation => rfl
  | reconstruction | protocol | aborted =>
    simp only [fail]
    split <;> rfl

theorem fail_of_isFinal (final : session.output.isFinal = true) {error : SessionError}
    (delivered : ∀ cause, error ≠ .request cause) : session.fail error = session := by
  cases error with
  | request cause => exact absurd rfl (delivered cause)
  | compilation => rfl
  | reconstruction | protocol | aborted => simp [fail, final]

theorem fail_outOfPlace (session : Session) (final : session.output.isFinal = true)
    (state : ProgramOutput) (what : String) : session.fail (state.outOfPlace what) = session :=
  fail_of_isFinal final (by simp [ProgramOutput.outOfPlace])

theorem fail_reconstruction (session : Session) (goesOn : session.output.isFinal = false)
    (error : EngineError) :
    session.fail (.reconstruction error) = session.aborting (.reconstruction error) := by
  simp [fail, goesOn, aborting]

theorem fail_protocol (session : Session) (goesOn : session.output.isFinal = false)
    (reason : String) : session.fail (.protocol reason) = session.aborting (.protocol reason) := by
  simp [fail, goesOn, aborting]

/-- What a session makes of its engine's answer to a call. -/
def answering (session : Session) (call : Engine.Call) : Except SessionError Flow × Session :=
  match (session.engine.perform call).1.error? with
  | some error =>
    (.error (.reconstruction error), { session with engine := (session.engine.perform call).2 })
  | none => (.ok .proceed, session.accepting (session.engine.perform call).2 call.event?)

theorem onWidth_eq (width : Option UInt64) :
    session.onWidth width = session.answering (.seed width) := by
  have answers : (session.engine.perform (.seed width)) =
      (.snapshot (session.engine.seed width).1, (session.engine.seed width).2) := rfl
  rw [onWidth, answering, answers]
  cases (session.engine.seed width) with
  | mk answer engine => cases answer <;> rfl

/-- Decoding a probe and applying its event is one call to apply the probe. -/
theorem onProbe_eq (live : session.engine.isCorrupted = false) (probe : Wire.Probe) :
    session.onProbe probe = session.answering (.apply probe) := by
  have applied := Reconstruction.apply_eq live probe
  rw [onProbe, answering, Engine.perform, Engine.apply, Engine.publishing, applied, Engine.decode,
    Engine.publishing, Reconstruction.decode]
  cases means : Meaning.ofProbe probe with
  | error error =>
    simp only [Reconstruction.attempt_error live]
    rfl
  | ok meaning =>
    cases meaning with
    | unrecognized family =>
      simp only [Reconstruction.attempt_ok live]
      simp [accepting, Engine.Call.event?, means, Engine.Reply.error?, Reconstruction.skipping]
    | event event =>
      simp only [Reconstruction.attempt_ok live, onEvent, Engine.applyEvent, Engine.publishing,
        Hub.publish?, Engine.Call.event?, means]
      cases (session.engine.run.applyEvent event).answer <;> rfl

theorem enterRun_of_corrupted (marked : session.engine.isCorrupted = true) :
    session.enterRun = .error (.reconstruction .corrupted) := by
  simp [enterRun, marked]

theorem enterRun_of_isFinal (live : session.engine.isCorrupted = false)
    (final : session.output.isFinal = true) :
    session.enterRun = .error (session.output.outOfPlace "run message") := by
  simp [enterRun, live, ProgramOutput.start_of_isFinal final, bind, Except.bind]

theorem enterRun_of_not_isFinal (live : session.engine.isCorrupted = false)
    (goesOn : session.output.isFinal = false) : session.enterRun = .ok session.entered := by
  simp [enterRun, live, ProgramOutput.start_of_not_isFinal goesOn, entered, bind, Except.bind,
    pure, Except.pure]

variable {message : Wire.Message} {call : Engine.Call}

theorem dispatch_of_refused {error : SessionError} (calls : message.call? = some call)
    (refused : session.enterRun = .error error) :
    session.dispatch message = (.error error, session) := by
  cases message with
  | concurrencyWidth | runEvent => simp [dispatch, refused]
  | compilationError | runtimeResult | runtimeOutput | unknown => cases calls

theorem dispatch_of_entered (calls : message.call? = some call)
    (live : session.engine.isCorrupted = false) (goesOn : session.output.isFinal = false) :
    session.dispatch message = session.entered.answering call := by
  cases message with
  | concurrencyWidth width =>
    cases calls
    rw [dispatch, enterRun_of_not_isFinal live goesOn]
    exact onWidth_eq width
  | runEvent probe =>
    cases calls
    rw [dispatch, enterRun_of_not_isFinal live goesOn]
    exact @onProbe_eq session.entered live probe
  | compilationError | runtimeResult | runtimeOutput | unknown => cases calls

theorem process_of_error {error : SessionError} {after : Session}
    (dispatched : session.counted.dispatch message = (.error error, after)) :
    session.process message = (.error error, after.fail error) := by
  rw [counted] at dispatched
  rw [process, dispatched]

theorem process_of_ok {flow : Flow} {after : Session}
    (dispatched : session.counted.dispatch message = (.ok flow, after)) :
    session.process message = (.ok flow, after) := by
  rw [counted] at dispatched
  rw [process, dispatched]

theorem call_transition (calls : message.call? = some call) :
    session.Transition message (session.process message).1 (session.process message).2 := by
  rcases session.engine.isCorrupted.eq_false_or_eq_true with marked | live
  · have refused : session.counted.enterRun = .error (.reconstruction .corrupted) :=
      enterRun_of_corrupted marked
    rw [process_of_error (dispatch_of_refused calls refused)]
    exact .corrupted calls marked
  rcases session.output.isFinal.eq_false_or_eq_true with final | goesOn
  · have refused : session.counted.enterRun = .error (session.output.outOfPlace "run message") :=
      enterRun_of_isFinal live final
    have kept : session.counted.fail (session.output.outOfPlace "run message") = session.counted :=
      fail_outOfPlace session.counted final _ _
    rw [process_of_error (dispatch_of_refused calls refused), kept]
    exact .refused calls live final
  have entered : session.counted.dispatch message = session.counted.entered.answering call :=
    dispatch_of_entered calls live goesOn
  rw [answering] at entered
  cases reports : (session.engine.perform call).1.error? with
  | some error =>
    have reports' : (session.counted.entered.engine.perform call).1.error? = some error := reports
    rw [reports'] at entered
    rw [process_of_error entered, fail_reconstruction _ rfl]
    exact .rejected calls live goesOn reports
  | none =>
    have accepts : (session.counted.entered.engine.perform call).1.error? = none := reports
    rw [accepts] at entered
    rw [process_of_ok entered]
    exact .accepted calls live goesOn reports

/-- A message that concerns the output alone, in a state that has no place for it. -/
theorem belated_transition {what : String} (calls : message.call? = none)
    (known : message ≠ .unknown) (final : session.output.isFinal = true)
    (refused : session.counted.dispatch message =
      (.error (session.output.outOfPlace what), session.counted)) :
    session.Transition message (session.process message).1 (session.process message).2 := by
  have kept : session.counted.fail (session.output.outOfPlace what) = session.counted :=
    fail_outOfPlace session.counted final _ _
  rw [process_of_error refused, kept]
  exact .belated calls known final

theorem compilationError_transition (message : Option String) :
    session.Transition (.compilationError message) (session.process (.compilationError message)).1
      (session.process (.compilationError message)).2 := by
  by_cases unbegun : session.output = .requesting
  · have dispatched : session.counted.dispatch (.compilationError message) =
        (.error (.compilation (message.getD "")),
          { session.counted with output := .compilationError (message.getD "") }) := by
      simp [dispatch, counted, unbegun, ProgramOutput.failCompilation]
    rw [process_of_error dispatched]
    exact .uncompiled unbegun
  have refused : session.counted.dispatch (.compilationError message) =
      (.error (session.output.outOfPlace "compilation error"), session.counted) := by
    simp [dispatch, counted, ProgramOutput.failCompilation_of_ne unbegun]
  rcases session.output.isFinal.eq_false_or_eq_true with final | goesOn
  · exact belated_transition rfl (by simp) final refused
  · obtain ⟨output, begun⟩ : ∃ output, session.output = .running output := by
      cases is : session.output <;> simp [is, ProgramOutput.isFinal] at unbegun goesOn ⊢
    have aborted : session.counted.fail (session.output.outOfPlace "compilation error") =
        session.counted.aborting (session.output.outOfPlace "compilation error") :=
      fail_protocol session.counted goesOn _
    rw [process_of_error refused, aborted]
    exact .misplaced begun

theorem runtimeResult_transition (error : Option String) :
    session.Transition (.runtimeResult error) (session.process (.runtimeResult error)).1
      (session.process (.runtimeResult error)).2 := by
  rcases session.output.isFinal.eq_false_or_eq_true with final | goesOn
  · refine @belated_transition _ _ "runtime result" rfl (by simp) final ?_
    simp [dispatch, counted, withOutput, ProgramOutput.exit_of_isFinal final]
  · have dispatched : session.counted.dispatch (.runtimeResult error) =
        (.ok .finished, { session.counted with output := .exited session.output.output error }) := by
      simp [dispatch, counted, withOutput, ProgramOutput.exit_of_not_isFinal goesOn]
    rw [process_of_ok dispatched]
    exact .exited goesOn

theorem runtimeOutput_transition (chunk : String) :
    session.Transition (.runtimeOutput chunk) (session.process (.runtimeOutput chunk)).1
      (session.process (.runtimeOutput chunk)).2 := by
  rcases session.output.isFinal.eq_false_or_eq_true with final | goesOn
  · refine @belated_transition _ _ "runtime output" rfl (by simp) final ?_
    simp [dispatch, counted, withOutput, ProgramOutput.append_of_isFinal final]
  · have dispatched : session.counted.dispatch (.runtimeOutput chunk) =
        (.ok .proceed,
          { session.counted with output := .running (session.output.output ++ chunk) }) := by
      simp [dispatch, counted, withOutput, ProgramOutput.append_of_not_isFinal goesOn]
    rw [process_of_ok dispatched]
    exact .printed goesOn

/-- Every message ends in one of the ways listed. -/
theorem process_transition (session : Session) (message : Wire.Message) :
    session.Transition message (session.process message).1 (session.process message).2 := by
  cases message with
  | unknown => exact .unknown
  | compilationError message => exact compilationError_transition message
  | runtimeResult error => exact runtimeResult_transition error
  | runtimeOutput chunk => exact runtimeOutput_transition chunk
  | concurrencyWidth width => exact call_transition rfl
  | runEvent probe => exact call_transition rfl

end Session

end SchedReplay
