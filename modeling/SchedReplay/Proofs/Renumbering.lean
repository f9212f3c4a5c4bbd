import SchedReplay.Proofs.Settlement

/-! Sessions that are driven with the same items but for the numbers of lines that could not be
decoded. Such a number shows only where it ends the session. -/
namespace SchedReplay

/-- The same error where lines have other numbers. -/
def StreamError.renumber (moved : Nat → Nat) : StreamError → StreamError
  | undecodable line fault => undecodable (moved line) fault
  | error => error

def SessionError.renumber (moved : Nat → Nat) : SessionError → SessionError
  | request error => request (error.renumber moved)
  | error => error

abbrev Item.renumber (moved : Nat → Nat) (item : Item) : Item :=
  item.mapError (StreamError.renumber moved)

namespace Session

/-- The session that it would have been if the line that ended it had another number. -/
def renumber (moved : Nat → Nat) (outcome : Except SessionError Unit) (session : Session) :
    Session :=
  match outcome with
  | .error (.request error) => session.fail (.request (error.renumber moved))
  | _ => session

def Driven.renumber (moved : Nat → Nat) (driven : Driven) : Driven :=
  { driven with
    outcome := driven.outcome.mapError (SessionError.renumber moved)
    session := driven.session.renumber moved driven.outcome }

/-- Outcomes that do not come from the stream have no numbers. -/
theorem Driven.renumber_of_ne {driven : Driven}
    (other : ∀ error, driven.outcome ≠ .error (.request error)) (moved : Nat → Nat) :
    driven.renumber moved = driven := by
  obtain ⟨outcome, session, pauses⟩ := driven
  rcases outcome with error | ⟨⟩
  · cases error with
    | request error => exact absurd rfl (other error)
    | _ => rfl
  · rfl

theorem process_ne_request (session : Session) (message : Wire.Message) (error : StreamError) :
    (session.process message).1 ≠ .error (.request error) := by
  intro fails
  have ends := session.process_transition message
  rw [fails] at ends
  cases ends

theorem take_message_ne_request (session : Session) (message : Wire.Message) (error : StreamError) :
    (session.take (.ok message)).outcome ≠ some (.error (.request error)) := by
  have never := process_ne_request session message
  rcases processed : session.process message with ⟨answer, next⟩
  rw [processed] at never
  simp only [take, processed]
  rcases answer with fault | _ | _
  · simpa using never error
  · simp
  · simp

theorem drive_renumber (session : Session) (moved : Nat → Nat) (items : List Item) :
    session.drive (items.map (Item.renumber moved)) = (session.drive items).renumber moved := by
  induction items generalizing session with
  | nil =>
    have other (error : StreamError) : (session.drive []).outcome ≠ .error (.request error) := by
      cases final : session.output.isFinal <;> simp [drive, streamEnded, final, endedEarly]
    exact (Driven.renumber_of_ne other moved).symm
  | cons item items ih =>
    cases item with
    | error error => rfl
    | ok message =>
      -- A message never ends a session with an error of the stream, so there is nothing to move.
      have never := take_message_ne_request session message
      rw [List.map_cons, show Item.renumber moved (.ok message) = .ok message from rfl]
      cases taken : (session.take (.ok message)).outcome with
      | some outcome =>
        rw [drive_cons_of_ended taken, drive_cons_of_ended taken]
        have other (error : StreamError) : outcome ≠ .error (.request error) := fun fails =>
          never error (taken.trans (congrArg some fails))
        exact (Driven.renumber_of_ne other moved).symm
      | none =>
        rw [drive_cons_of_running taken, drive_cons_of_running taken, ih]
        rfl

theorem finish_renumber (session : Session) (moved : Nat → Nat)
    (outcome : Except SessionError Unit) :
    (session.renumber moved outcome).finish =
      ({ session.finish.1 with output := (session.renumber moved outcome).output },
        session.finish.2) := by
  rcases outcome with error | ⟨⟩
  · cases error <;> rfl
  · rfl

end Session

end SchedReplay
