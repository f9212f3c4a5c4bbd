import SchedReplay.Engine.Reconstruction
import SchedReplay.Wire.Decoding

/-! Why a session ends without an exit of the program. Failures of the stream, of the program's
compilation and of the reconstruction stay apart all the way to the user. -/
namespace SchedReplay

/-- A failure of the stream that delivers messages. -/
inductive StreamError where
  | unopenable (path reason : String)
  | undecodable (line : Nat) (fault : Json.Fault)
  | unreadable (reason : String)
  deriving DecidableEq

def StreamError.message : StreamError → String
  | unopenable path reason => s!"failed to open event source {path}: {reason}"
  | undecodable line fault => s!"failed to decode message on line {line}: {fault.message}"
  | unreadable reason => reason

inductive SessionError where
  | request (error : StreamError)
  | compilation (message : String)
  | reconstruction (error : EngineError)
  | protocol (reason : String)
  | aborted
  deriving DecidableEq

namespace SessionError

def message : SessionError → String
  | request error => "request failed: " ++ error.message
  | compilation message => "compilation failed: " ++ message
  | reconstruction error => "visualization aborted: " ++ error.message
  | protocol reason => "protocol error: " ++ reason
  | aborted => "run aborted"

/-- The messages of an error and of what caused it, outermost first. -/
def chain (error : SessionError) : List String :=
  error.message ::
    match error with
    | request (.unopenable path reason) => [(StreamError.unopenable path reason).message, reason]
    | request (.undecodable line fault) =>
      [(StreamError.undecodable line fault).message, fault.message]
    | request (.unreadable reason) => [reason]
    | reconstruction error => [error.message]
    | _ => []

end SessionError

end SchedReplay
