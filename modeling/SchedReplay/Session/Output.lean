import SchedReplay.Session.Error

/-! What became of the program: its output while it runs, and how the run ended. Output arrives
only before the end; a message that comes too late is an error of the protocol. -/
namespace SchedReplay

inductive ProgramOutput where
  | requesting
  | running (output : String)
  | exited (output : String) (runtimeError : Option String)
  | compilationError (message : String)
  | requestError (message : String)
  | visualizationAborted (output reason : String)
  deriving DecidableEq

namespace ProgramOutput

def isFinal : ProgramOutput → Bool
  | requesting => false
  | running _ => false
  | _ => true

def output : ProgramOutput → String
  | running output => output
  | exited output _ => output
  | visualizationAborted output _ => output
  | _ => ""

def phase : ProgramOutput → String
  | requesting => "requesting"
  | running _ => "running"
  | exited _ _ => "exited"
  | compilationError _ => "compilation error"
  | requestError _ => "request error"
  | visualizationAborted _ _ => "visualization aborted"

/-- The error of `what` arriving in a state that has no place for it. -/
def outOfPlace (state : ProgramOutput) (what : String) : SessionError :=
  .protocol s!"{what} received while {state.phase}"

/-- The output so far, if `what` may still arrive. -/
def textFor (state : ProgramOutput) (what : String) : Except SessionError String :=
  if state.isFinal then .error (state.outOfPlace what) else .ok state.output

/-- The program sends its first message, or another one. -/
def start (state : ProgramOutput) : Except SessionError ProgramOutput := do
  return .running (← state.textFor "run message")

def append (state : ProgramOutput) (chunk : String) : Except SessionError ProgramOutput := do
  return .running ((← state.textFor "runtime output") ++ chunk)

def exit (state : ProgramOutput) (runtimeError : Option String) : Except SessionError ProgramOutput := do
  return .exited (← state.textFor "runtime result") runtimeError

/-- Compilation can only fail before anything else arrived. -/
def failCompilation (state : ProgramOutput) (message : String) : Except SessionError ProgramOutput :=
  match state with
  | requesting => .ok (.compilationError message)
  | state => .error (state.outOfPlace "compilation error")

/-- The reconstruction ended; the program's output is kept. -/
def abort (state : ProgramOutput) (reason : String) : ProgramOutput :=
  .visualizationAborted state.output reason

end ProgramOutput

end SchedReplay
