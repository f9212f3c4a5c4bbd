/-! JSON values. Objects keep their members in order, repeated names included, because the wire
format tells a repeated field from a single one. -/
namespace SchedReplay

/-- A number is a natural numeral, or any other literal kept as written. -/
inductive Json.Number where
  | natural (value : Nat)
  | other (literal : String)
  deriving DecidableEq

inductive Json where
  | null
  | bool (value : Bool)
  | num (value : Json.Number)
  | str (value : String)
  | arr (items : List Json)
  | obj (members : List (String × Json))

namespace Json

instance : Inhabited Json := ⟨.null⟩

def ofNat (value : Nat) : Json := .num (.natural value)

/-- An absent value is written as `null`. -/
def ofOption (encode : α → Json) : Option α → Json
  | none => .null
  | some value => encode value

def ofList (encode : α → Json) (values : List α) : Json := .arr (values.map encode)

end Json

end SchedReplay
