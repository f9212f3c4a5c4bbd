import SchedReplay.CommandLine.Args
import SchedReplay.CommandLine.File
import SchedReplay.Recording.Items

/-! What the command does, as a list of actions in their order. A display reads the updates while
the run goes on, so that every state is printed before the pause behind it. -/
namespace SchedReplay

inductive Action where
  | print (text : String)
  | complain (text : String)
  | pause (milliseconds : Nat)
  deriving DecidableEq

/-- The actions of a command and the code it exits with. -/
structure Performance where
  actions : List Action
  exitCode : UInt32

namespace Performance

def stdout (performance : Performance) : String :=
  String.join (performance.actions.map fun
    | .print text => text
    | _ => "")

def stderr (performance : Performance) : String :=
  String.join (performance.actions.map fun
    | .complain text => text
    | _ => "")

end Performance

namespace CommandLine

def exitSuccess : UInt32 := 0

def exitError : UInt32 := 1

def exitUsage : UInt32 := 2

def exitCompilation : UInt32 := 3

def exitAborted : UInt32 := 4

/-- Every error that leaves the visualization aborted exits with the same code. -/
def exitCode : Except SessionError Unit → UInt32
  | .ok () => exitSuccess
  | .error (.compilation _) => exitCompilation
  | .error (.reconstruction _) => exitAborted
  | .error (.protocol _) => exitAborted
  | .error .aborted => exitAborted
  | .error (.request _) => exitError

def usage : String :=
  "usage: RECORDING [--source FILE] [--runtime-version VERSION] [--step-delay-ms N]\n" ++
    "  [--format text|json] [--channel-capacity N] [-q|--quiet] [-h|--help]\n"

def errorLine (causes : List String) : Action :=
  .complain ("error: " ++ ": ".intercalate causes ++ "\n")

def banner (args : Args) : List Action :=
  if args.quiet then []
  else
    [.print "slowmo v0.1.0\n", .print s!"recording: {args.recording}\n",
      .print s!"runtime: {args.runtimeVersion}\n"]

def sourceText : FileContent → Except String String
  | .unopenable reason => .error reason
  | .unreadable reason => .error reason
  | .bytes content =>
    match Text.Utf8.decode content with
    | .ok text => .ok (String.ofList text)
    | .error _ => .error "stream did not contain valid UTF-8"

/-- The program's source, if it was asked for, or the causes of the failure to read it. -/
def readSource (files : String → FileContent) (args : Args) :
    Except (List String) (Option String) :=
  match args.source with
  | none => .ok none
  | some path =>
    match sourceText (files path) with
    | .ok text => .ok (some text)
    | .error reason => .error [s!"Failed to read program source: {path}", reason]

def openRecording (files : String → FileContent) (path : String) :
    Except StreamError (List Item) :=
  match files path with
  | .unopenable reason => .error (.unopenable path reason)
  | .unreadable reason => .ok [.error (.unreadable reason)]
  | .bytes content => .ok (Recording.items content)

def printUpdates (renderer : Renderer) (updates : Option (List Update)) : List Action :=
  (updates.getD []).map fun update => .print (renderer.render update ++ "\n")

structure Show where
  renderer : Renderer
  subscriber : Nat
  delayMs : Nat

/-- Plays the items of a stream, showing what each one publishes. -/
def play (display : Show) (session : Session) :
    List Item → Except SessionError Unit × Session × List Action
  | [] =>
    let (outcome, session) := session.streamEnded
    (outcome, session, [])
  | item :: items =>
    let taken := session.take item
    let (updates, session) := taken.session.drain display.subscriber
    let shown := printUpdates display.renderer updates
    match taken.outcome with
    | some outcome => (outcome, session, shown)
    | none =>
      let paused : List Action :=
        if taken.pause && display.delayMs != 0 then [.pause (Session.pauseMs display.delayMs)]
        else []
      let (outcome, session, actions) := play display session items
      (outcome, session, shown ++ paused ++ actions)

def summaryLine (summary : Summary) : String :=
  let events := summary.events.entries.map fun (kind, count) => s!"{kind.text}: {count}"
  s!"{summary.messages} messages, {summary.commits} commits, {summary.newContexts} new units, " ++
    s!"{summary.unrecognized} unrecognized, {summary.droppedUpdates} skipped updates (" ++
    ", ".intercalate events ++ ")\n"

/-- What the program printed, how it failed, and the totals of the session. -/
def report (summary : Summary) : List Action :=
  let output := summary.output.output
  (if output.isEmpty then []
   else
     [.complain ("\nprogram output:\n" ++ String.ofList (Text.trimEnd output.toList) ++ "\n")]) ++
    (match summary.output with
     | .exited _ (some error) => [.complain s!"program exited with error: {error}\n"]
     | _ => []) ++
    [.complain (summaryLine summary)]

def playRecording (args : Args) (source : Option String) (items : List Item) : Performance :=
  let (subscriber, session) := Session.new.subscribe args.channelCapacity
  let renderer := Renderer.new args.format source
  let (outcome, session, actions) := play ⟨renderer, subscriber, args.stepDelayMs⟩ session items
  let (summary, hub) := session.finish
  let closing := printUpdates renderer (hub.drain subscriber).1
  let reported := if args.quiet then [] else report summary
  let failure :=
    match outcome with
    | .ok () => []
    | .error error => [errorLine error.chain]
  ⟨banner args ++ actions ++ closing ++ reported ++ failure, exitCode outcome⟩

def performArgs (files : String → FileContent) (args : Args) : Performance :=
  match readSource files args with
  | .error causes => ⟨[errorLine causes], exitError⟩
  | .ok source =>
    match openRecording files args.recording with
    | .error error =>
      let failure := SessionError.request error
      ⟨banner args ++ [errorLine failure.chain], exitCode (.error failure)⟩
    | .ok items => playRecording args source items

/-- The whole command, given its words and the files it may read. -/
def perform (files : String → FileContent) (words : List String) : Performance :=
  match Args.parse words with
  | .error .help => ⟨[.print usage], exitSuccess⟩
  | .error .usage => ⟨[.complain usage], exitUsage⟩
  | .ok args => performArgs files args

end CommandLine

end SchedReplay
