import SchedReplay.Session.Drive
import SchedReplay.Text.Blank
import SchedReplay.Text.Lines
import SchedReplay.Text.Utf8

/-! Recorded streams: one message a line. Blank lines and lines that start with `#` carry no
message, but they count when a line is named. -/
namespace SchedReplay.Recording

/-- Whether a trimmed line carries no message. -/
def isSkipped : List Char → Bool
  | [] => true
  | c :: _ => c == '#'

/-- The item of the line with a given number, if it has one. -/
def item? (number : Nat) (line : List UInt8) : Option Item :=
  match Text.Utf8.decode line with
  | .error fault => some (.error (.unreadable fault.message))
  | .ok text =>
    let text := Text.trim text
    if isSkipped text then none
    else
      match Wire.Message.decode (String.ofList text) with
      | .error fault => some (.error (.undecodable number fault))
      | .ok message => some (.ok message)

/-- The items of lines, of which the first has a given number. -/
def itemsFrom (number : Nat) : List (List UInt8) → List Item
  | [] => []
  | line :: lines => (item? number line).toList ++ itemsFrom (number + 1) lines

def items (bytes : List UInt8) : List Item := itemsFrom 1 (Text.byteLines bytes)

end SchedReplay.Recording
