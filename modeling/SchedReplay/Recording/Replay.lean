import SchedReplay.Display.Renderer
import SchedReplay.Recording.Items

/-! Replaying a recorded run with one subscriber that reads nothing until the run is over. -/
namespace SchedReplay.Recording

structure Settings where
  renderer : Renderer
  capacity : Nat
  stepDelayMs : Nat

/-- A replayed run: the session before it was finished, its summary, and what the subscriber got. -/
structure Replay where
  outcome : Except SessionError Unit
  elapsedMs : Nat
  session : Session
  summary : Summary
  updates : List String

/-- Replays an opened recording, or finishes at once if it could not be opened. -/
def replay (settings : Settings) (source : Except StreamError (List UInt8)) : Replay :=
  let (subscriber, session) := Session.new.subscribe settings.capacity
  let driven : Session.Driven :=
    match source with
    | .error error => ⟨.error (.request error), session, 0⟩
    | .ok bytes => session.drive (items bytes)
  let (summary, hub) := driven.session.finish
  { outcome := driven.outcome
    elapsedMs := driven.pauses * Session.pauseMs settings.stepDelayMs
    session := driven.session
    summary
    updates := ((hub.drain subscriber).1.getD []).map settings.renderer.render }

end SchedReplay.Recording
