import SchedReplay.CommandLine.Performance
import SchedReplay.Proofs.Processing

/-! A driven session ends in the output state that matches its outcome, whatever its stream holds
and wherever the stream ends. -/
namespace SchedReplay

/-- The outcomes of a session with the output that each of them leaves. -/
inductive Settled : Except SessionError Unit → ProgramOutput → Prop where
  | exited (text : String) (error : Option String) : Settled (.ok ()) (.exited text error)
  | uncompiled (message : String) :
      Settled (.error (.compilation message)) (.compilationError message)
  | unreached (cause : StreamError) :
      Settled (.error (.request cause)) (.requestError cause.message)
  | diverged (text : String) (error : EngineError) :
      Settled (.error (.reconstruction error))
        (.visualizationAborted text (SessionError.reconstruction error).message)
  | misled (text reason : String) :
      Settled (.error (.protocol reason))
        (.visualizationAborted text (SessionError.protocol reason).message)

/-- The exit code that stands for an output at the end of its session. -/
def ProgramOutput.exitCode : ProgramOutput → UInt32
  | exited _ _ => 0
  | requestError _ => 1
  | compilationError _ => 3
  | visualizationAborted _ _ | requesting | running _ => 4

namespace Settled

variable {outcome : Except SessionError Unit} {output : ProgramOutput}

theorem isFinal (settled : Settled outcome output) : output.isFinal = true := by
  cases settled <;> rfl

theorem ok_iff (settled : Settled outcome output) :
    outcome = .ok () ↔ ∃ text error, output = .exited text error := by
  cases settled <;> simp

theorem compilation_iff (settled : Settled outcome output) (message : String) :
    outcome = .error (.compilation message) ↔ output = .compilationError message := by
  cases settled <;> simp

theorem request_iff (settled : Settled outcome output) (text : String) :
    (∃ cause, outcome = .error (.request cause) ∧ cause.message = text) ↔
      output = .requestError text := by
  cases settled <;> simp

theorem aborted_iff (settled : Settled outcome output) (reason : String) :
    (∃ error, outcome = .error error ∧ error.message = reason ∧
      ((∃ cause, error = .reconstruction cause) ∨ ∃ why, error = .protocol why)) ↔
      ∃ text, output = .visualizationAborted text reason := by
  cases settled <;> simp

theorem exitCode_eq (settled : Settled outcome output) :
    CommandLine.exitCode outcome = output.exitCode := by
  cases settled <;> rfl

end Settled

namespace Session

variable {session next : Session} {message : Wire.Message} {answer : Except SessionError Flow}

theorem Transition.messages (ends : session.Transition message answer next) :
    next.messages = session.messages + 1 := by
  cases ends with
  | corrupted => rw [fail_eq]; rfl
  | _ => rfl

/-- A message that leaves a session running leaves its output open. -/
theorem Transition.goesOn (ends : session.Transition message (.ok .proceed) next)
    (goesOn : session.output.isFinal = false) : next.output.isFinal = false := by
  cases ends with
  | unknown => exact goesOn
  | printed => rfl
  | accepted => rfl

theorem Transition.settled_of_error {error : SessionError}
    (ends : session.Transition message (.error error) next)
    (goesOn : session.output.isFinal = false) : Settled (.error error) next.output := by
  cases ends with
  | uncompiled => exact .uncompiled _
  | rejected => exact .diverged _ _
  | corrupted =>
    rw [fail_reconstruction session.counted goesOn]
    exact .diverged _ _
  | refused _ _ final => simp [final] at goesOn
  | belated _ _ final => simp [final] at goesOn
  | misplaced => exact .misled _ _

theorem Transition.settled_of_finished (ends : session.Transition message (.ok .finished) next) :
    Settled (.ok ()) next.output := by
  cases ends
  exact .exited _ _

/-- The session after items that all leave it running. -/
def pass? (session : Session) : List Item → Option Session
  | [] => some session
  | item :: items =>
    if (session.take item).outcome.isNone then (session.take item).session.pass? items else none

theorem messages_take (session : Session) (item : Item) :
    (session.take item).session.messages = session.messages + [item].countP (·.isOk) := by
  cases item with
  | error error => rfl
  | ok message =>
    have counts := (session.process_transition message).messages
    rw [take]
    split <;> simp_all [Except.isOk, Except.toBool]

/-- An item leaves a session running, or ends it in the output that matches the outcome. -/
theorem take_cases (item : Item) (goesOn : session.output.isFinal = false) :
    ((session.take item).outcome = none ∧ (session.take item).session.output.isFinal = false) ∨
      ∃ outcome, (session.take item).outcome = some outcome ∧
        Settled outcome (session.take item).session.output := by
  cases item with
  | error error => exact .inr ⟨_, rfl, .unreached error⟩
  | ok message =>
    have ends := session.process_transition message
    rcases processed : session.process message with ⟨answer, next⟩
    rw [processed] at ends
    simp only [take, processed]
    cases answer with
    | error error => exact .inr ⟨_, rfl, ends.settled_of_error goesOn⟩
    | ok flow =>
      cases flow with
      | finished => exact .inr ⟨_, rfl, ends.settled_of_finished⟩
      | proceed => exact .inl ⟨rfl, ends.goesOn goesOn⟩

theorem settled_streamEnded (goesOn : session.output.isFinal = false) :
    Settled session.streamEnded.1 session.streamEnded.2.output := by
  simp only [streamEnded, goesOn]
  exact fail_protocol session goesOn _ ▸ .misled _ _

theorem drive_cons_of_ended {item : Item} {outcome : Except SessionError Unit}
    (ended : (session.take item).outcome = some outcome) (items : List Item) :
    session.drive (item :: items) = ⟨outcome, (session.take item).session, 0⟩ := by
  rcases taken : session.take item with ⟨next, found, pause⟩
  rw [taken] at ended
  obtain rfl : found = some outcome := ended
  simp only [drive, taken]

theorem drive_cons_of_running {item : Item} (running : (session.take item).outcome = none)
    (items : List Item) :
    session.drive (item :: items) =
      { (session.take item).session.drive items with
        pauses := ((session.take item).session.drive items).pauses +
          if (session.take item).pause then 1 else 0 } := by
  rcases taken : session.take item with ⟨next, found, pause⟩
  rw [taken] at running
  obtain rfl : found = none := running
  simp only [drive, taken]

theorem settled_drive (items : List Item) (goesOn : session.output.isFinal = false) :
    Settled (session.drive items).outcome (session.drive items).session.output := by
  induction items generalizing session with
  | nil => exact settled_streamEnded goesOn
  | cons item items ih =>
    rcases take_cases item goesOn with ⟨running, still⟩ | ⟨outcome, ended, settled⟩
    · rw [drive_cons_of_running running]
      exact ih still
    · rw [drive_cons_of_ended ended]
      exact settled

/-- Either no item ends a session, or the first that does is the last to have an effect. -/
theorem drive_stops (session : Session) (items : List Item) :
    ((∃ reached, session.pass? items = some reached) ∧
      (session.drive items).session.messages = session.messages + items.countP (·.isOk)) ∨
    ∃ before item after reached, items = before ++ item :: after ∧
      session.pass? before = some reached ∧ (reached.take item).outcome.isSome = true ∧
      (∀ others, session.drive (before ++ item :: others) = session.drive items) ∧
      (session.drive items).session.messages =
        session.messages + (before ++ [item]).countP (·.isOk) := by
  induction items generalizing session with
  | nil =>
    refine .inl ⟨⟨session, rfl⟩, ?_⟩
    simp only [drive, streamEnded]
    split
    · rfl
    · rw [fail_eq]
      rfl
  | cons item items ih =>
    have one := messages_take session item
    cases taken : (session.take item).outcome with
    | some outcome =>
      right
      refine ⟨[], item, items, session, rfl, rfl, by simp [taken], ?_, ?_⟩
      · intro others
        exact (drive_cons_of_ended taken others).trans (drive_cons_of_ended taken items).symm
      · rw [drive_cons_of_ended taken, one]
        rfl
    | none =>
      rcases ih (session.take item).session with ⟨⟨reached, passed⟩, counted⟩ |
        ⟨before, last, after, reached, rfl, passed, ended, same, counted⟩
      · left
        refine ⟨⟨reached, by simp [pass?, taken, passed]⟩, ?_⟩
        rw [drive_cons_of_running taken, counted, one, Nat.add_assoc, ← List.countP_append]
        rfl
      · right
        refine ⟨item :: before, last, after, reached, rfl, by simp [pass?, taken, passed], ended,
          ?_, ?_⟩
        · intro others
          rw [List.cons_append, drive_cons_of_running taken, drive_cons_of_running taken, same]
        · rw [drive_cons_of_running taken, counted, one, Nat.add_assoc, ← List.countP_append]
          rfl

/-- A driven session ends in the output that its outcome stands for, and the exit code follows it.
The items behind the first one that ends the session have no effect, and the messages up to there
are counted. -/
theorem driven_sessions_settle (items : List Item) :
    let driven := new.drive items
    let output := driven.session.output
    output.isFinal = true ∧
    (driven.outcome = .ok () ↔ ∃ text error, output = .exited text error) ∧
    (∀ message, driven.outcome = .error (.compilation message) ↔
      output = .compilationError message) ∧
    (∀ text, (∃ cause, driven.outcome = .error (.request cause) ∧ cause.message = text) ↔
      output = .requestError text) ∧
    (∀ reason, (∃ error, driven.outcome = .error error ∧ error.message = reason ∧
        ((∃ cause, error = .reconstruction cause) ∨ ∃ why, error = .protocol why)) ↔
      ∃ text, output = .visualizationAborted text reason) ∧
    CommandLine.exitCode driven.outcome = output.exitCode ∧
    (((∃ reached, new.pass? items = some reached) ∧
        driven.session.messages = items.countP (·.isOk)) ∨
      ∃ before item after reached, items = before ++ item :: after ∧
        new.pass? before = some reached ∧ (reached.take item).outcome.isSome = true ∧
        (∀ others, new.drive (before ++ item :: others) = driven) ∧
        driven.session.messages = (before ++ [item]).countP (·.isOk)) := by
  intro driven output
  have settled : Settled driven.outcome output := settled_drive items rfl
  refine ⟨settled.isFinal, settled.ok_iff, settled.compilation_iff, settled.request_iff,
    settled.aborted_iff, settled.exitCode_eq, ?_⟩
  have stops := drive_stops new items
  simpa only [show new.messages = 0 from rfl, Nat.zero_add] using stops

end Session

end SchedReplay
