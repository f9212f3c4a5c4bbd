import SchedReplay.Proofs.Accounting
import SchedReplay.Proofs.Finality

/-! The text of an output is what was accepted of the program's output, in the order of its arrival.
The end of a run and a failure of its reconstruction move the text to another state and leave it as
it is. -/
namespace SchedReplay

namespace Session

open Wire (Message)

/-- The chunk of program output that an accepted message carried. -/
def acceptedChunk? : Record → Option String
  | (.runtimeOutput chunk, .ok .proceed) => some chunk
  | _ => none

def acceptedText (records : List Record) : String := String.join (records.filterMap acceptedChunk?)

theorem acceptedText_append (records more : List Record) :
    acceptedText (records ++ more) = acceptedText records ++ acceptedText more := by
  unfold acceptedText
  rw [List.filterMap_append, String.join_append]

theorem acceptedText_of_eq_none {record : Record} (silent : acceptedChunk? record = none) :
    acceptedText [record] = "" := by
  unfold acceptedText
  rw [List.filterMap_cons_none silent]
  rfl

theorem acceptedChunk?_error (message : Message) (error : SessionError) :
    acceptedChunk? (message, .error error) = none := by
  cases message <;> rfl

theorem acceptedChunk?_of_call? {message : Message} {call : Engine.Call}
    (calls : message.call? = some call) (answer : Except SessionError Flow) :
    acceptedChunk? (message, answer) = none := by
  cases message <;> first | rfl | cases calls

variable {session next : Session} {message : Message} {answer : Except SessionError Flow}

theorem Outlasts.text_eq {error : SessionError} (outlasts : session.Outlasts error) :
    (session.fail error).output.output = session.output.output := by
  rcases session.output.isFinal.eq_false_or_eq_true with final | goesOn
  · rw [outlasts.final final]
  · exact outlasts.text goesOn

/-- Unless a message prints, it moves the text at most to another state. -/
theorem Transition.text_eq (ends : session.Transition message answer next) :
    next.output.output = session.output.output ++ acceptedText [(message, answer)] := by
  have unprinted (silent : acceptedChunk? (message, answer) = none)
      (same : next.output.output = session.output.output) :
      next.output.output = session.output.output ++ acceptedText [(message, answer)] := by
    rw [acceptedText_of_eq_none silent, String.append_empty, same]
  cases ends with
  | printed =>
    unfold acceptedText
    simp [acceptedChunk?, ProgramOutput.output]
  | unknown | exited => exact unprinted rfl rfl
  | uncompiled unbegun => exact unprinted rfl (by rw [unbegun]; rfl)
  | accepted calls => exact unprinted (acceptedChunk?_of_call? calls _) rfl
  | rejected | refused | belated | misplaced => exact unprinted (acceptedChunk?_error _ _) rfl
  | corrupted =>
    have kept : session.counted.Outlasts (.reconstruction .corrupted) :=
      outlasts_of_delivered _ (by simp)
    exact unprinted (acceptedChunk?_error _ _) kept.text_eq

theorem text_processAll (session : Session) (messages : List Message) :
    (session.processAll messages).output.output =
      session.output.output ++ acceptedText (session.transcript messages) := by
  induction messages using List.reverseRecOn with
  | nil => exact String.append_empty.symm
  | append_singleton messages message ih =>
    rw [processAll_concat, transcript_concat, acceptedText_append, ← String.append_assoc, ← ih]
    exact (process_transition _ message).text_eq

/-- Chunks are accepted until the output is final. -/
theorem process_runtimeOutput (session : Session) (chunk : String) :
    let (answer, after) := session.process (.runtimeOutput chunk)
    (answer, after.output) =
      if session.output.isFinal then
        (.error (session.output.outOfPlace "runtime output"), session.output)
      else (.ok .proceed, .running (session.output.output ++ chunk)) := by
  rcases session.output.isFinal.eq_false_or_eq_true with final | goesOn
  · have refused : session.counted.dispatch (.runtimeOutput chunk) =
        (.error (session.output.outOfPlace "runtime output"), session.counted) := by
      simp [dispatch, counted, withOutput, ProgramOutput.append_of_isFinal final]
    rw [process_of_error refused, fail_outOfPlace session.counted final, if_pos final]
    rfl
  · have printed : session.counted.dispatch (.runtimeOutput chunk) = (.ok .proceed,
        { session.counted with output := .running (session.output.output ++ chunk) }) := by
      simp [dispatch, counted, withOutput, ProgramOutput.append_of_not_isFinal goesOn]
    rw [process_of_ok printed, if_neg (by simp [goesOn])]

/-- In every state that messages lead a session to, the text of the output consists of the accepted
chunks, in the order of their arrival, and more messages add the chunks accepted of them. A chunk is
accepted as long as the output is not final, and a refused one leaves the output as it is. -/
theorem outputs_hold_what_was_accepted (messages : List Message) :
    let session := new.processAll messages
    session.output.output = String.join ((new.transcript messages).filterMap acceptedChunk?) ∧
    (∀ chunk, let (answer, after) := session.process (.runtimeOutput chunk)
      (answer, after.output) =
        if session.output.isFinal then
          (.error (session.output.outOfPlace "runtime output"), session.output)
        else (.ok .proceed, .running (session.output.output ++ chunk))) ∧
    ∀ more, (session.processAll more).output.output = session.output.output ++
      String.join ((session.transcript more).filterMap acceptedChunk?) := by
  intro session
  refine ⟨?_, session.process_runtimeOutput, session.text_processAll⟩
  rw [text_processAll]
  exact String.empty_append

end Session

end SchedReplay
