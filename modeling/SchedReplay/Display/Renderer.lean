import SchedReplay.Display.Record
import SchedReplay.Display.Text
import SchedReplay.Text.Blank
import SchedReplay.Text.Lines

/-! Rendering updates in one of two formats. With the program's source at hand, progress is shown
with the line that was reached. -/
namespace SchedReplay

inductive Format where
  | text
  | json
  deriving DecidableEq

structure Renderer where
  format : Format
  source : Option (List (List Char))

namespace Renderer

def new (format : Format) (source : Option String) : Renderer :=
  ⟨format, source.map fun text => Text.charLines text.toList⟩

/-- The line with a given number, counted from one. -/
def sourceLine? (renderer : Renderer) (number : Nat) : Option (List Char) :=
  match renderer.source, number with
  | some lines, index + 1 => lines[index]?
  | _, _ => none

def progressText (renderer : Renderer) (event : Event.Progress) : String :=
  let line := event.line.toNat
  s!"{event.machine.text} {event.unit.text} line {line}" ++
    match renderer.sourceLine? line with
    | none => ""
    | some text => ": " ++ String.ofList (Text.trim text)

def render (renderer : Renderer) (update : Update) : String :=
  match renderer.format with
  | .json => update.toJson.render
  | .text =>
    match update with
    | .committed snapshot => snapshot.render
    | .progress event => renderer.progressText event
    | .reset => "-- reset --"

end Renderer

end SchedReplay
