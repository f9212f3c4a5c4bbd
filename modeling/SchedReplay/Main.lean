import SchedReplay.CommandLine.Performance

/-! The program: reads the files that the arguments name and carries out the actions. -/
namespace SchedReplay

/-- The number of a system error, which some calls give negated. -/
def errorNumber (code : UInt32) : UInt32 := if 0 - code < code then 0 - code else code

/-- A file as the command line sees it. -/
def readFile (path : String) : IO FileContent := do
  try
    let content ← IO.FS.readBinFile path
    return .bytes content.toList
  catch error =>
    match error with
    | .noFileOrDirectory .. => return .missing
    | .permissionDenied .. => return .forbidden
    | .inappropriateType _ code _ => return if errorNumber code = 21 then .directory else .obstructed
    | .invalidArgument _ code _ =>
      return if errorNumber code = 36 then .overlong else .unopenable error.toString
    | error => return .unreadable error.toString

/-- The files that the arguments name, with their contents. -/
def readFiles (words : List String) : IO (String → FileContent) := do
  match Args.parse words with
  | .error _ => return fun _ => .missing
  | .ok args =>
    let recording ← readFile args.recording
    match args.source with
    | none => return fun _ => recording
    | some path =>
      let source ← readFile path
      return fun wanted => if wanted = path then source else recording

/-- The longest time that one call to sleep can take. -/
def longestSleepMs : Nat := UInt32.size - 1

/-- Sleeps as often as it takes. -/
def pause (milliseconds : Nat) : IO Unit := do
  for _ in [0:milliseconds / longestSleepMs] do
    IO.sleep longestSleepMs.toUInt32
  IO.sleep (milliseconds % longestSleepMs).toUInt32

def carryOut : Action → IO Unit
  | .print text => do
    let out ← IO.getStdout
    out.putStr text
    out.flush
  | .complain text => IO.eprint text
  | .pause milliseconds => pause milliseconds

end SchedReplay

open SchedReplay in
def main (words : List String) : IO UInt32 := do
  let performance := CommandLine.perform (← readFiles words) words
  performance.actions.forM carryOut
  return performance.exitCode
