import SchedReplay.Json.Basic

/-! The two shapes of the wire format. A record is an object, or an array of its fields in order;
a tagged value is a record whose tag, wherever it stands, names the variant the other members
belong to. Names that are not fields are ignored, a repeated field is refused. -/
namespace SchedReplay.Wire

/-- What a record says about each of its fields. -/
abbrev Fields := String → Option Json

def repeated (members : List (String × Json)) (name : String) : Bool :=
  1 < members.countP (·.1 == name)

/-- The fields of a record with the given names, missing ones at the end of an array included. -/
def fields? (names : List String) : Json → Option Fields
  | .obj members => if names.any (repeated members) then none else some (members.lookup ·)
  | .arr items =>
    if names.length < items.length then none else some ((names.zip items).lookup ·)
  | _ => none

/-! ### Fields -/

def required (decode : Json → Option α) (field : Option Json) : Option α := field.bind decode

/-- A missing field and `null` are the same. -/
def optional (decode : Json → Option α) : Option Json → Option (Option α)
  | none | some .null => some none
  | some value => (decode value).map some

theorem optional_some (decode : Json → Option α) {value : Json} (present : value ≠ .null) :
    optional decode (some value) = (decode value).map some := by
  unfold optional
  split
  · contradiction
  · next absent => exact absurd (Option.some.inj absent) present
  · next same => rw [← Option.some.inj same]

/-- A missing field takes the default, but `null` does not. -/
def defaulted (default : α) (decode : Json → Option α) : Option Json → Option α
  | none => some default
  | some value => decode value

def string? : Json → Option String
  | .str value => some value
  | _ => none

/-- A natural numeral below `bound`. -/
def natural? (bound : Nat) : Json → Option Nat
  | .num (.natural value) => if value < bound then some value else none
  | _ => none

def uint64? (value : Json) : Option UInt64 := (natural? UInt64.size value).map .ofNat

def uint32? (value : Json) : Option UInt32 := (natural? UInt32.size value).map .ofNat

def list? (decode : Json → Option α) : Json → Option (List α)
  | .arr items => items.mapM decode
  | _ => none

/-! ### Tags -/

/-- Where a tagged value stands. Inside another tagged value a tag may be given by position. -/
inductive Place where
  | outermost
  | nested
  deriving DecidableEq

def unknownName : String := "unknown"

/-- The tag of a tagged value, which must be given once, and the record of its variant. -/
def untag? (tagName : String) : Json → Option (Json × Json)
  | .obj members =>
    match members.filter (·.1 == tagName) with
    | [(_, tag)] => some (tag, .obj (members.filter (·.1 != tagName)))
    | _ => none
  | .arr (tag :: items) => some (tag, .arr items)
  | _ => none

/-- The name a tag stands for. A position counts the variants from zero, and every position from
the end of `names` on is the unknown variant. -/
def variantName? (place : Place) (names : List String) : Json → Option String
  | .str name => some name
  | .num (.natural position) =>
    if place = .nested ∧ position < UInt64.size then some (names.getD position unknownName) else none
  | _ => none

def tagged? (place : Place) (tagName : String) (names : List String) (value : Json) :
    Option (String × Json) := do
  let (tag, body) ← untag? tagName value
  return (← variantName? place names tag, body)

/-- An unknown variant may have any members, but no elements. -/
def unknown? (variant : α) : Json → Option α
  | .arr (_ :: _) => none
  | _ => some variant

def tag (tagName name : String) (members : List (String × Json)) : Json :=
  .obj ((tagName, .str name) :: members)

end SchedReplay.Wire
