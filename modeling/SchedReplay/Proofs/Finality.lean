import SchedReplay.Proofs.Fronting

/-! What an output outlasts. Through messages and errors the text of the program only grows and a
final output stays as it is. A failed request is the exception: it replaces whatever is there. -/
namespace SchedReplay

/-- An output that goes on from an earlier one has its text, and is the same if that one was
final. -/
structure ProgramOutput.Continues (before after : ProgramOutput) : Prop where
  final : before.isFinal = true → after = before
  text : ∃ more, after.output = before.output ++ more

namespace ProgramOutput.Continues

variable {before middle after : ProgramOutput}

theorem refl (output : ProgramOutput) : Continues output output :=
  ⟨fun _ => rfl, "", String.append_empty.symm⟩

theorem of_text (goesOn : before.isFinal = false) (more : String)
    (text : after.output = before.output ++ more) : Continues before after :=
  ⟨fun final => by simp [goesOn] at final, more, text⟩

theorem trans (first : Continues before middle) (second : Continues middle after) :
    Continues before after := by
  refine ⟨fun final => ?_, ?_⟩
  · have same := first.final final
    rw [second.final (same ▸ final), same]
  · obtain ⟨more, text⟩ := first.text
    obtain ⟨rest, later⟩ := second.text
    exact ⟨more ++ rest, by rw [later, text, String.append_assoc]⟩

end ProgramOutput.Continues

namespace Session

/-- What befalls a session: a message comes, or whoever drives the session reports an error. -/
inductive Incident where
  | message (message : Wire.Message)
  | failure (error : SessionError)

def undergo (session : Session) : Incident → Session
  | .message message => (session.process message).2
  | .failure error => session.fail error

def undergoAll (session : Session) (incidents : List Incident) : Session :=
  incidents.foldl undergo session

/-- An error leaves a final output alone and any other one with its text. -/
structure Outlasts (session : Session) (error : SessionError) : Prop where
  final : session.output.isFinal = true → (session.fail error).output = session.output
  text : session.output.isFinal = false →
    (session.fail error).output.output = session.output.output

variable {session next : Session}

theorem outlasts_of_delivered (session : Session) {error : SessionError}
    (delivered : ∀ cause, error ≠ .request cause) : session.Outlasts error := by
  constructor
  · intro final
    rw [fail_of_isFinal final delivered]
  · intro goesOn
    cases error with
    | request cause => exact absurd rfl (delivered cause)
    | compilation => rfl
    | reconstruction | protocol | aborted =>
      simp [fail, goesOn, ProgramOutput.abort, ProgramOutput.output]

/-- A failed request spares an output only where there is nothing to lose. -/
theorem outlasts_request_iff (cause : StreamError) : session.Outlasts (.request cause) ↔
    (session.output.isFinal = true → session.output = .requestError cause.message) ∧
      (session.output.isFinal = false → session.output.output = "") := by
  constructor
  · rintro ⟨final, text⟩
    exact ⟨fun ended => (final ended).symm, fun goesOn => (text goesOn).symm⟩
  · rintro ⟨final, text⟩
    exact ⟨fun ended => (final ended).symm, fun goesOn => (text goesOn).symm⟩

theorem Outlasts.continues {error : SessionError} (outlasts : session.Outlasts error) :
    session.output.Continues (session.fail error).output := by
  rcases session.output.isFinal.eq_false_or_eq_true with final | goesOn
  · rw [outlasts.final final]
    exact .refl _
  · exact .of_text goesOn "" ((outlasts.text goesOn).trans String.append_empty.symm)

theorem Transition.continues_output {message : Wire.Message} {answer : Except SessionError Flow}
    (ends : session.Transition message answer next) : session.output.Continues next.output := by
  rcases session.output.isFinal.eq_false_or_eq_true with final | goesOn
  · rw [(ends.of_isFinal final).1]
    exact .refl _
  · cases ends with
    | uncompiled unbegun =>
      refine .of_text goesOn "" ?_
      simp [unbegun, ProgramOutput.output]
    | printed => exact .of_text goesOn _ rfl
    | corrupted => exact (outlasts_of_delivered session.counted (by simp)).continues
    | _ => exact .of_text goesOn "" String.append_empty.symm

theorem continues_undergoAll (session : Session) {incidents : List Incident}
    (delivered : ∀ cause, .failure (.request cause) ∉ incidents) :
    session.output.Continues (session.undergoAll incidents).output := by
  induction incidents generalizing session with
  | nil => exact .refl _
  | cons incident rest ih =>
    have first : session.output.Continues (session.undergo incident).output := by
      cases incident with
      | message message => exact (session.process_transition message).continues_output
      | failure error =>
        refine (session.outlasts_of_delivered fun cause is => ?_).continues
        exact delivered cause (is ▸ .head _)
    exact first.trans (ih _ fun cause member => delivered cause (.tail _ member))

/-- After any messages and errors, an error leaves a final output as it is and any other one with
its text, unless it is a failed request that finds something to lose. So through more of them,
failed requests apart, final outputs stay and texts only grow. -/
theorem outputs_outlast_all_but_failed_requests (incidents : List Incident) :
    let session := new.undergoAll incidents
    (∀ error, session.Outlasts error ↔ ∀ cause, error = .request cause →
      (session.output.isFinal = true → session.output = .requestError cause.message) ∧
        (session.output.isFinal = false → session.output.output = "")) ∧
    ∀ more, (∀ cause, .failure (.request cause) ∉ more) →
      session.output.Continues (session.undergoAll more).output := by
  intro session
  constructor
  · intro error
    by_cases delivered : ∀ cause, error ≠ .request cause
    · refine iff_of_true (session.outlasts_of_delivered delivered) ?_
      intro cause is
      exact absurd is (delivered cause)
    · push Not at delivered
      obtain ⟨cause, rfl⟩ := delivered
      rw [outlasts_request_iff]
      refine ⟨fun spared other is => ?_, fun spared => spared cause rfl⟩
      cases is
      exact spared
  · intro more delivered
    exact session.continues_undergoAll delivered

theorem outputs_outlast_all_but_failed_requests_after_exit :
    let session := new.undergoAll [.message (.runtimeOutput "hello"), .message (.runtimeResult none)]
    session.output = .exited "hello" none ∧ session.Outlasts .aborted ∧
      session.output.Continues
        (session.undergoAll [.failure .aborted, .message (.runtimeOutput "late")]).output := by
  intro session
  obtain ⟨outlasts, continues⟩ := outputs_outlast_all_but_failed_requests
    [.message (.runtimeOutput "hello"), .message (.runtimeResult none)]
  exact ⟨rfl, (outlasts _).mpr (by simp), continues _ (by simp)⟩

/-- A request that fails takes an exited program's output away, and a running one's text. -/
theorem failed_requests_replace_outputs :
    let running := new.undergoAll [.message (.runtimeOutput "hello")]
    let exited := running.undergo (.message (.runtimeResult none))
    let error : SessionError := .request (.unreadable "connection reset")
    exited.output = .exited "hello" none ∧
      (exited.fail error).output = .requestError "connection reset" ∧
      running.output = .running "hello" ∧ (running.fail error).output.output = "" ∧
      ¬ ∀ incidents error, (new.undergoAll incidents).Outlasts error := by
  refine ⟨rfl, rfl, rfl, rfl, fun outlasts => ?_⟩
  have kept := (outlasts [.message (.runtimeOutput "hello"), .message (.runtimeResult none)]
    (.request (.unreadable "connection reset"))).final rfl
  cases kept

end Session

end SchedReplay
