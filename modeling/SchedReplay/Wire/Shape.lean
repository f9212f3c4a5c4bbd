import SchedReplay.Json.Reader
import SchedReplay.Wire.Fields

/-! Reading JSON text for the shape it should have. Whatever has another shape is refused where it
stands, before the text behind it is looked at. A record skips the members it does not know; a
tagged value keeps them all, because the tag that says which ones matter may come last. -/
namespace SchedReplay.Wire

/-- How a value is read; the first argument is the fuel. -/
abbrev Shape := Nat → Json.Reader Json

namespace Shape

/-- A value without parts that passes a test. An array or an object is refused at its bracket, any
other value once it has been read. -/
def scalar (accepts : Json → Bool) : Shape := fun fuel text =>
  match Json.skipBlanks text with
  | '[' :: _ => .error .unexpected
  | '\x7b' :: _ => .error .unexpected
  | text => do
    let (value, rest) ← Json.readValue .keep fuel 0 text
    if accepts value then .ok (value, rest) else .error .unexpected

def text : Shape := scalar fun value => (string? value).isSome

def uint64 : Shape := scalar fun value => (uint64? value).isSome

def uint32 : Shape := scalar fun value => (uint32? value).isSome

def null : Shape := scalar fun
  | .null => true
  | _ => false

def nothing : Shape := scalar fun _ => false

def optional (shape : Shape) : Shape := fun fuel text =>
  match Json.skipBlanks text with
  | 'n' :: rest => null fuel ('n' :: rest)
  | text => shape fuel text

def list (item : Shape) : Shape := fun fuel text =>
  match Json.skipBlanks text with
  | '[' :: rest =>
    match Json.skipBlanks rest with
    | ']' :: rest => .ok (.arr [], rest)
    | _ => do
      let (items, rest) ← Json.readItems (item fuel) fuel rest
      .ok (.arr items, rest)
  | text => nothing fuel text

/-- A name, or an object with one name and `null`. -/
def name : Shape := fun fuel text => do
  match Json.skipBlanks text with
  | [] => .error .truncated
  | '"' :: rest => Shape.text fuel ('"' :: rest)
  | '\x7b' :: rest =>
    match ← Shape.text fuel rest with
    | (.str name, rest) =>
      let (value, rest) ← null fuel (← Json.expectMark ':' rest)
      .ok (.obj [(name, value)], ← Json.expectMark '\x7d' rest)
    | _ => .error .unexpected
  | _ :: _ => .error .malformed

/-! ### Records -/

/-- Reads on behind the name of a member; a field may come only once. -/
def field (fields : List (String × Shape)) (fuel : Nat) (seen : List String) (name : String) :
    Json.Reader (Option Json) := fun text =>
  match fields.lookup name with
  | none => do return (none, ← Json.skipValue fuel (← Json.expectMark ':' text))
  | some shape =>
    if seen.contains name then .error .unexpected else Json.readBehindColon (shape fuel) text

/-- The fields in an array, each but the first behind a comma. Those missing at the end are left
out, and nothing else may follow. -/
def elements (fuel : Nat) :
    (first : Bool) → List (String × Shape) → Json.Reader (List (String × Json))
  | _, [], text => do return ([], ← Json.expectMark ']' text)
  | first, (name, shape) :: fields, text => do
    match Json.skipBlanks text with
    | ']' :: rest => .ok ([], rest)
    | text =>
      let (value, rest) ← shape fuel (← if first then .ok text else Json.expectMark ',' text)
      let (members, rest) ← elements fuel false fields rest
      .ok ((name, value) :: members, rest)

/-- A record with the given fields, which comes out as an object of those that are there. -/
def record (fields : List (String × Shape)) : Shape := fun fuel text => do
  match Json.skipBlanks text with
  | '[' :: rest =>
    let (members, rest) ← elements fuel true fields rest
    .ok (.obj members, rest)
  | '\x7b' :: rest =>
    match Json.skipBlanks rest with
    | '\x7d' :: rest => .ok (.obj [], rest)
    | _ =>
      let (members, rest) ← Json.readMembers .keep (field fields fuel) fuel [] rest
      .ok (.obj members, rest)
  | text => nothing fuel text

/-! ### Tagged values -/

/-- A value inside an outermost array or object. -/
def inner : Shape := fun fuel => Json.readValue .keep fuel (Json.maxDepth - 1)

/-- Reads on behind the name of a member; the tag may come only once, and it is a text. -/
def member (tagName : String) (fuel : Nat) (seen : List String) (name : String) :
    Json.Reader (Option Json) :=
  if name = tagName then
    if seen.contains tagName then fun _ => .error .unexpected
    else Json.readBehindColon (Shape.text fuel)
  else Json.readBehindColon (inner fuel)

def tagged (tagName : String) : Shape := fun fuel text => do
  match Json.skipBlanks text with
  | '[' :: rest =>
    match Json.skipBlanks rest with
    | ']' :: rest => .ok (.arr [], rest)
    | _ =>
      let (tag, rest) ← Shape.text fuel rest
      match Json.skipBlanks rest with
      | ']' :: rest => .ok (.arr [tag], rest)
      | _ =>
        let (items, rest) ← Json.readItems (inner fuel) fuel (← Json.expectMark ',' rest)
        .ok (.arr (tag :: items), rest)
  | '\x7b' :: rest =>
    match Json.skipBlanks rest with
    | '\x7d' :: rest => .ok (.obj [], rest)
    | _ =>
      let (members, rest) ← Json.readMembers .keep (member tagName fuel) fuel [] rest
      .ok (.obj members, rest)
  | text => nothing fuel text

end Shape

end SchedReplay.Wire
