import SchedReplay.Engine.Basic
import SchedReplay.Session.Highlights
import SchedReplay.Session.Output
import SchedReplay.Session.Tally

/-! The session of one run: every message of the stream goes to the part that it concerns, and a
failure of any part moves the output into the state that tells why the run stopped. -/
namespace SchedReplay

structure Session where
  engine : Engine
  output : ProgramOutput
  highlights : Highlights
  messages : Nat
  events : Tally
  unrecognized : Nat
  deriving DecidableEq

/-- Whether more messages are worth reading. -/
inductive Flow where
  | proceed
  | finished
  deriving DecidableEq

structure Summary where
  messages : Nat
  events : Tally
  unrecognized : Nat
  commits : Nat
  newContexts : Nat
  droppedUpdates : Nat
  output : ProgramOutput
  lastSnapshot : Snapshot
  deriving DecidableEq

namespace Session

def new : Session := ⟨.new, .requesting, [], 0, .zero, 0⟩

/-- The session once a run-level message arrived. A run whose reconstruction failed reports that,
and not the state of its output. -/
def enterRun (session : Session) : Except SessionError Session := do
  if session.engine.isCorrupted then .error (.reconstruction .corrupted)
  else return { session with output := ← session.output.start }

/-- What an accepted event means for the highlights: a machine in the scheduler runs nothing. -/
def highlightsAfter (highlights : Highlights) : Event → Highlights
  | .schedule event => highlights.erase event.machine
  | .progress event => highlights.note event
  | _ => highlights

/-- Applies an event and takes note of it once the engine accepted it. -/
def onEvent (session : Session) (event : Event) : Except SessionError Flow × Session :=
  match session.engine.applyEvent event with
  | (.error error, engine) => (.error (.reconstruction error), { session with engine })
  | (.ok _, engine) =>
    (.ok .proceed,
      { session with
        engine
        events := session.events.add event.kind
        highlights := highlightsAfter session.highlights event })

/-- Seeds the engine of a session that entered its run. -/
def onWidth (session : Session) (width : Option UInt64) : Except SessionError Flow × Session :=
  match session.engine.seed width with
  | (.error error, engine) => (.error (.reconstruction error), { session with engine })
  | (.ok _, engine) => (.ok .proceed, { session with engine })

/-- Handles a probe in a session that entered its run. -/
def onProbe (session : Session) (probe : Wire.Probe) : Except SessionError Flow × Session :=
  match session.engine.decode probe with
  | (.error error, engine) => (.error (.reconstruction error), { session with engine })
  | (.ok none, engine) => (.ok .proceed, { session with engine })
  | (.ok (some event), engine) => onEvent { session with engine } event

/-- The session with a new output state, unless there is an error instead. -/
def withOutput (session : Session) (flow : Flow) :
    Except SessionError ProgramOutput → Except SessionError Flow × Session
  | .error error => (.error error, session)
  | .ok output => (.ok flow, { session with output })

/-- Hands a message to the part of the session that it concerns. -/
def dispatch (session : Session) : Wire.Message → Except SessionError Flow × Session
  | .compilationError message =>
    let message := message.getD ""
    match session.output.failCompilation message with
    | .error error => (.error error, session)
    | .ok output => (.error (.compilation message), { session with output })
  | .runtimeResult errorMessage => session.withOutput .finished (session.output.exit errorMessage)
  | .runtimeOutput chunk => session.withOutput .proceed (session.output.append chunk)
  | .concurrencyWidth width =>
    match session.enterRun with
    | .error error => (.error error, session)
    | .ok session => session.onWidth width
  | .runEvent probe =>
    match session.enterRun with
    | .error error => (.error error, session)
    | .ok session => session.onProbe probe
  | .unknown => (.ok .proceed, { session with unrecognized := session.unrecognized + 1 })

/-- Records in the output why the session stopped. A failed request always shows; the other
errors leave a final output alone. -/
def fail (session : Session) (error : SessionError) : Session :=
  match error with
  | .request cause => { session with output := .requestError cause.message }
  | .compilation _ => session
  | error =>
    if session.output.isFinal then session
    else { session with output := session.output.abort error.message }

def process (session : Session) (message : Wire.Message) : Except SessionError Flow × Session :=
  match { session with messages := session.messages + 1 }.dispatch message with
  | (.error error, session) => (.error error, session.fail error)
  | (.ok flow, session) => (.ok flow, session)

/-- The summary of the session, and what is left for its subscribers. -/
def finish (session : Session) : Summary × Hub :=
  let stats := session.engine.stats
  ({ messages := session.messages
     events := session.events
     unrecognized := session.unrecognized + stats.unrecognized
     commits := stats.committed
     newContexts := stats.newContexts
     droppedUpdates := stats.droppedUpdates
     output := session.output
     lastSnapshot := session.engine.snapshot },
    session.engine.reset.hub.close)

def subscribe (session : Session) (capacity : Nat) : Nat × Session :=
  let (subscriber, engine) := session.engine.subscribe capacity
  (subscriber, { session with engine })

def receive (session : Session) (subscriber : Nat) : Option Receipt × Session :=
  let (receipt, engine) := session.engine.receive subscriber
  (receipt, { session with engine })

def drain (session : Session) (subscriber : Nat) : Option (List Update) × Session :=
  let (updates, engine) := session.engine.drain subscriber
  (updates, { session with engine })

def drop (session : Session) (subscriber : Nat) : Bool × Session :=
  let (known, engine) := session.engine.drop subscriber
  (known, { session with engine })

end Session

end SchedReplay
