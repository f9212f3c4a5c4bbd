import SchedReplay.Proofs.Latch
import SchedReplay.Proofs.Processing

/-! A session is a front end of its engine. Until its output is final it makes the calls that its
messages ask for and passes their errors on; afterwards it makes none. -/
namespace SchedReplay

theorem Wire.Message.call?_ne_reset {message : Wire.Message} {call : Engine.Call}
    (calls : message.call? = some call) : call ≠ .reset := by
  rintro rfl
  cases message <;> cases calls

namespace Session

def processAll (session : Session) (messages : List Wire.Message) : Session :=
  messages.foldl (fun session message => (session.process message).2) session

/-- The calls that messages make to the engine, those that find the output final making none. -/
def calls (session : Session) : List Wire.Message → List Engine.Call
  | [] => []
  | message :: messages =>
    (if session.output.isFinal then [] else message.call?.toList) ++
      (session.process message).2.calls messages

/-- A session whose engine failed knows of it. -/
def Coherent (session : Session) : Prop :=
  session.engine.isCorrupted = true → session.output.isFinal = true

namespace Transition

variable {session next : Session} {message : Wire.Message} {answer : Except SessionError Flow}

theorem engine_eq (ends : session.Transition message answer next) (coherent : session.Coherent) :
    next.engine = session.engine.performAll
      (if session.output.isFinal then [] else message.call?.toList) := by
  cases ends with
  | unknown | uncompiled | exited | printed | misplaced =>
    simp only [Wire.Message.call?, Option.toList_none, ite_self]
    rfl
  | accepted calls _ goesOn =>
    rw [goesOn, calls]
    rfl
  | rejected calls _ goesOn =>
    rw [goesOn, calls]
    rfl
  | corrupted _ marked =>
    rw [fail_eq, coherent marked]
    rfl
  | refused _ _ final =>
    rw [final]
    rfl
  | belated _ _ final =>
    rw [final]
    rfl

theorem coherent (ends : session.Transition message answer next) (coherent : session.Coherent) :
    next.Coherent := by
  intro marked
  cases ends with
  | unknown => exact coherent marked
  | uncompiled | exited | rejected | misplaced => rfl
  | printed goesOn => simp [coherent marked] at goesOn
  | accepted calls live _ accepts =>
    have keeps := Wire.Message.call?_ne_reset calls
    rcases ((session.engine.perform_transition _).corrupted_iff keeps).mp marked with before | fails
    · simp [Engine.isCorrupted, before] at live
    · simp [accepts] at fails
  | corrupted _ before =>
    have final : session.counted.output.isFinal = true := coherent before
    rw [fail_of_isFinal final (by simp)]
    exact final
  | refused _ _ final => exact final
  | belated _ _ final => exact final

/-- Until the output is final, a message that makes a call fails just as the call does. -/
theorem error_iff (ends : session.Transition message answer next) (coherent : session.Coherent)
    (goesOn : session.output.isFinal = false) {call : Engine.Call}
    (calls : message.call? = some call) (error : SessionError) :
    answer = .error error ↔
      ∃ cause, (session.engine.perform call).1.error? = some cause ∧
        error = .reconstruction cause := by
  cases ends with
  | unknown | uncompiled | exited | printed | misplaced => cases calls
  | accepted names _ _ accepts =>
    obtain rfl := Option.some.inj (names.symm.trans calls)
    simp [accepts]
  | rejected names _ _ reports =>
    obtain rfl := Option.some.inj (names.symm.trans calls)
    simp [reports, eq_comm]
  | corrupted _ marked => simp [coherent marked] at goesOn
  | refused _ _ final => simp [final] at goesOn
  | belated _ _ final => simp [final] at goesOn

/-- Once the output is final, messages are counted and nothing more. -/
theorem of_isFinal (ends : session.Transition message answer next)
    (final : session.output.isFinal = true) :
    next.output = session.output ∧ next.engine = session.engine ∧
      next.highlights = session.highlights ∧ next.events = session.events := by
  cases ends with
  | unknown => exact ⟨rfl, rfl, rfl, rfl⟩
  | uncompiled unbegun => simp [unbegun, ProgramOutput.isFinal] at final
  | exited goesOn => simp [final] at goesOn
  | printed goesOn => simp [final] at goesOn
  | accepted _ _ goesOn => simp [final] at goesOn
  | rejected _ _ goesOn => simp [final] at goesOn
  | corrupted =>
    have kept : session.counted.output.isFinal = true := final
    rw [fail_of_isFinal kept (by simp)]
    exact ⟨rfl, rfl, rfl, rfl⟩
  | refused => exact ⟨rfl, rfl, rfl, rfl⟩
  | belated => exact ⟨rfl, rfl, rfl, rfl⟩
  | misplaced begun => simp [begun, ProgramOutput.isFinal] at final

/-- Once the output is final, a message that would make a call is refused. -/
theorem answer_of_isFinal (ends : session.Transition message answer next)
    (final : session.output.isFinal = true) {call : Engine.Call}
    (calls : message.call? = some call) :
    answer = .error (if session.engine.isCorrupted then .reconstruction .corrupted
      else session.output.outOfPlace "run message") := by
  cases ends with
  | unknown | uncompiled | exited | printed | misplaced => cases calls
  | accepted _ _ goesOn => simp [final] at goesOn
  | rejected _ _ goesOn => simp [final] at goesOn
  | corrupted _ marked => simp [marked]
  | refused _ live => simp [live]
  | belated none => simp [none] at calls

end Transition

theorem coherent_processAll {session : Session} (coherent : session.Coherent)
    (messages : List Wire.Message) : (session.processAll messages).Coherent := by
  induction messages generalizing session with
  | nil => exact coherent
  | cons message rest ih => exact ih ((session.process_transition message).coherent coherent)

theorem engine_processAll {session : Session} (coherent : session.Coherent)
    (messages : List Wire.Message) :
    (session.processAll messages).engine = session.engine.performAll (session.calls messages) := by
  induction messages generalizing session with
  | nil => rfl
  | cons message rest ih =>
    have ends := session.process_transition message
    rw [calls, Engine.performAll_append, ← ends.engine_eq coherent]
    exact ih (ends.coherent coherent)

theorem coherent_new : new.Coherent := by
  intro marked
  cases marked

/-- The engine of a session is the one that the calls of its messages lead to. A message that makes
a call fails just as the call does. A failed engine comes with a final output, and once the output
is final nothing but the count of messages changes. -/
theorem sessions_front_their_engine (messages : List Wire.Message) :
    let session := new.processAll messages
    let direct := Engine.new.performAll (new.calls messages)
    session.engine = direct ∧
    (session.engine.isCorrupted = true → session.output.isFinal = true) ∧
    ∀ message, let answer := (session.process message).1
      (session.output.isFinal = false → ∀ call, Wire.Message.call? message = some call →
        ∀ error, answer = .error error ↔
          ∃ cause, (direct.perform call).1.error? = some cause ∧ error = .reconstruction cause) ∧
      (session.output.isFinal = true →
        let after := (session.process message).2
        after.output = session.output ∧ after.engine = session.engine ∧
          after.highlights = session.highlights ∧ after.events = session.events ∧
          ∀ call, message.call? = some call →
            (session.engine.isCorrupted = true → answer = .error (.reconstruction .corrupted)) ∧
            (session.engine.isCorrupted = false →
              answer = .error (session.output.outOfPlace "run message"))) := by
  intro session direct
  have same : session.engine = direct := engine_processAll coherent_new messages
  have coherent : session.Coherent := coherent_processAll coherent_new messages
  refine ⟨same, coherent, ?_⟩
  intro message answer
  have ends := session.process_transition message
  constructor
  · intro goesOn call calls error
    rw [← same]
    exact ends.error_iff coherent goesOn calls error
  · intro final after
    obtain ⟨output, engine, highlights, events⟩ := ends.of_isFinal final
    refine ⟨output, engine, highlights, events, ?_⟩
    intro call calls
    have answers := ends.answer_of_isFinal final calls
    constructor
    · intro marked
      simpa [marked] using answers
    · intro live
      simpa [live] using answers

/-- A context that nobody owns is reported by the engine first and stops everything after that. -/
theorem sessions_front_their_engine_at_unknown_context :
    let schedule (context : UInt64) : Wire.Message :=
      .runEvent (.notification (.schedule ⟨some 1, some context, none⟩))
    let running := new.processAll [.concurrencyWidth (some 1)]
    let stopped := new.processAll [.concurrencyWidth (some 1), schedule 5]
    running.output.isFinal = false ∧
      (running.process (schedule 5)).1 =
        .error (.reconstruction (.invariant (.unknownContext ⟨5⟩))) ∧
      stopped.output.isFinal = true ∧ stopped.engine.isCorrupted = true ∧
      (stopped.process (schedule 0)).2.engine = stopped.engine ∧
      (stopped.process (schedule 0)).1 = .error (.reconstruction .corrupted) := by
  intro schedule running stopped
  have goesOn : running.output.isFinal = false := by decide +kernel
  have final : stopped.output.isFinal = true := by decide +kernel
  have marked : stopped.engine.isCorrupted = true := by decide +kernel
  obtain ⟨_, _, first⟩ := sessions_front_their_engine [.concurrencyWidth (some 1)]
  obtain ⟨_, _, second⟩ := sessions_front_their_engine [.concurrencyWidth (some 1), schedule 5]
  have fails := ((first (schedule 5)).1 goesOn _ rfl _).mpr
    ⟨.invariant (.unknownContext ⟨5⟩), by decide +kernel, rfl⟩
  obtain ⟨_, engine, _, _, refused⟩ := (second (schedule 0)).2 final
  exact ⟨goesOn, fails, final, marked, engine, (refused _ rfl).1 marked⟩

end Session

end SchedReplay
