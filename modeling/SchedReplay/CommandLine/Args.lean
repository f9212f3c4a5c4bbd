import SchedReplay.Display.Renderer

/-! The arguments of the command line: one recording and options in any order, each option at most
once. Words are read from left to right, and the first one that asks for help or cannot be read
decides. -/
namespace SchedReplay

structure Args where
  recording : String
  source : Option String
  runtimeVersion : String
  stepDelayMs : Nat
  format : Format
  quiet : Bool
  channelCapacity : Nat
  deriving DecidableEq

namespace Args

/-- Why there is nothing to run. -/
inductive Refusal where
  | help
  | usage
  deriving DecidableEq

/-- The arguments read so far. -/
structure Draft where
  recording : Option String
  source : Option String
  runtimeVersion : Option String
  stepDelayMs : Option Nat
  format : Option Format
  quiet : Bool
  channelCapacity : Option Nat
  deriving DecidableEq

def defaultRuntimeVersion : String := "go1.24"

def defaultCapacity : Nat := 1024

namespace Draft

def empty : Draft := ⟨none, none, none, none, none, false, none⟩

/-- Fills a place that is still empty. -/
def once (current value : Option α) : Except Refusal (Option α) :=
  match current, value with
  | none, some value => .ok (some value)
  | _, _ => .error .usage

/-- The name of a file, which is not empty. -/
def path? (text : String) : Option String := if text.isEmpty then none else some text

/-- A natural number below `2^64` in digits, behind an optional plus sign. -/
def natural? (text : String) : Option Nat :=
  let digits :=
    match text.toList with
    | '+' :: digits => digits
    | digits => digits
  let value := Nat.ofDigitChars 10 digits 0
  if digits.isEmpty || !digits.all Char.isDigit || UInt64.size ≤ value then none else some value

def positive? (text : String) : Option Nat := (natural? text).filter (0 < ·)

def format? : String → Option Format
  | "text" => some .text
  | "json" => some .json
  | _ => none

def set (draft : Draft) (name value : String) : Except Refusal Draft :=
  match name with
  | "source" => return { draft with source := ← once draft.source (path? value) }
  | "runtime-version" =>
    return { draft with runtimeVersion := ← once draft.runtimeVersion (some value) }
  | "step-delay-ms" =>
    return { draft with stepDelayMs := ← once draft.stepDelayMs (natural? value) }
  | "format" => return { draft with format := ← once draft.format (format? value) }
  | "channel-capacity" =>
    return { draft with channelCapacity := ← once draft.channelCapacity (positive? value) }
  | _ => .error .usage

def setQuiet (draft : Draft) : Except Refusal Draft :=
  if draft.quiet then .error .usage else .ok { draft with quiet := true }

/-- A word that is no option names the recording. -/
def setRecording (draft : Draft) (word : String) : Except Refusal Draft :=
  return { draft with recording := ← once draft.recording (path? word) }

/-- A single letter behind a dash. -/
def setFlag (draft : Draft) : Char → Except Refusal Draft
  | 'q' => draft.setQuiet
  | 'h' => .error .help
  | _ => .error .usage

/-- Splits the text behind two dashes at its first equals sign. -/
def splitValue (text : List Char) : String × Option String :=
  (String.ofList (text.takeWhile (· != '=')),
    match text.dropWhile (· != '=') with
    | [] => none
    | _ :: value => some (String.ofList value))

/-- Whether a word may not be taken for the value of an option. -/
def looksLikeOption (word : String) : Bool :=
  match word.toList with
  | '-' :: _ :: _ => true
  | _ => false

def read (draft : Draft) : List String → Except Refusal Draft
  | [] => .ok draft
  | word :: rest =>
    match word.toList with
    | ['-', '-'] => rest.foldlM setRecording draft
    | '-' :: '-' :: option =>
      match splitValue option with
      | ("help", none) => .error .help
      | ("quiet", none) => do (← draft.setQuiet).read rest
      | (name, some value) => do (← draft.set name value).read rest
      | (name, none) =>
        match rest with
        | [] => .error .usage
        | value :: rest =>
          if looksLikeOption value then .error .usage
          else do (← draft.set name value).read rest
    | '-' :: flag :: flags => do (← (flag :: flags).foldlM setFlag draft).read rest
    | _ => do (← draft.setRecording word).read rest

/-- The arguments of a draft that names a recording, with defaults for what is missing. -/
def finish (draft : Draft) : Except Refusal Args :=
  match draft.recording with
  | none => .error .usage
  | some recording =>
    .ok {
      recording
      source := draft.source
      runtimeVersion := draft.runtimeVersion.getD defaultRuntimeVersion
      stepDelayMs := draft.stepDelayMs.getD 0
      format := draft.format.getD .text
      quiet := draft.quiet
      channelCapacity := draft.channelCapacity.getD defaultCapacity }

end Draft

def parse (words : List String) : Except Refusal Args := do
  (← Draft.empty.read words).finish

end Args

end SchedReplay
