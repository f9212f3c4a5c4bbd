import SchedReplay.Session.Basic

/-! Driving a session with a stream: messages are processed until the program exits, something
fails or the stream ends. Time passes only in pauses after probes, so that a human can follow. -/
namespace SchedReplay

abbrev Item := Except StreamError Wire.Message

namespace Session

/-- A session after one item; no outcome while the stream goes on. -/
structure Taken where
  session : Session
  outcome : Option (Except SessionError Unit)
  pause : Bool

/-- A pause follows every probe that leaves the session running. -/
def isProbe : Wire.Message → Bool
  | .runEvent _ => true
  | _ => false

def take (session : Session) : Item → Taken
  | .error error => ⟨session.fail (.request error), some (.error (.request error)), false⟩
  | .ok message =>
    match session.process message with
    | (.error error, session) => ⟨session, some (.error error), false⟩
    | (.ok .finished, session) => ⟨session, some (.ok ()), false⟩
    | (.ok .proceed, session) => ⟨session, none, isProbe message⟩

/-- The error of a stream that ends before the program does. -/
def endedEarly : SessionError := .protocol "stream ended before the program exited"

/-- The session at the end of its stream. -/
def streamEnded (session : Session) : Except SessionError Unit × Session :=
  if session.output.isFinal then (.ok (), session)
  else (.error endedEarly, session.fail endedEarly)

/-- No pause lasts longer than thirty years of 365 days. -/
def longestPauseMs : Nat := 30 * 365 * 24 * 60 * 60 * 1000

/-- How long a pause lasts when it is asked to last `delay` milliseconds. -/
def pauseMs (delay : Nat) : Nat := min delay longestPauseMs

/-- A driven session, its outcome, and how many pauses it took. -/
structure Driven where
  outcome : Except SessionError Unit
  session : Session
  pauses : Nat

def drive (session : Session) : List Item → Driven
  | [] =>
    let (outcome, session) := session.streamEnded
    ⟨outcome, session, 0⟩
  | item :: items =>
    match session.take item with
    | ⟨session, some outcome, _⟩ => ⟨outcome, session, 0⟩
    | ⟨session, none, pause⟩ =>
      let driven := drive session items
      { driven with pauses := driven.pauses + if pause then 1 else 0 }

end Session

end SchedReplay
