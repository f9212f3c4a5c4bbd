import SchedReplay.Json.Basic

/-! Compact JSON text: no blanks, members in order, and in strings only the quote, the backslash
and the control characters below U+0020 escaped. -/
namespace SchedReplay.Json

def hexDigit (value : Nat) : Char := Nat.digitChar (value % 16)

/-- The written form of one character of a string. -/
def escape (c : Char) : List Char :=
  if c = '"' then ['\\', '"']
  else if c = '\\' then ['\\', '\\']
  else if c.toNat < 0x20 then
    match c with
    | '\x08' => ['\\', 'b']
    | '\x0c' => ['\\', 'f']
    | '\n' => ['\\', 'n']
    | '\r' => ['\\', 'r']
    | '\t' => ['\\', 't']
    | c => ['\\', 'u', '0', '0', hexDigit (c.toNat / 16), hexDigit c.toNat]
  else [c]

def quoted (text : String) : List Char := '"' :: (text.toList.flatMap escape ++ ['"'])

def Number.chars : Number → List Char
  | natural value => Nat.toDigits 10 value
  | other literal => literal.toList

mutual

def chars : Json → List Char
  | null => ['n', 'u', 'l', 'l']
  | bool true => ['t', 'r', 'u', 'e']
  | bool false => ['f', 'a', 'l', 's', 'e']
  | num value => value.chars
  | str value => quoted value
  | arr [] => ['[', ']']
  | arr (item :: items) => '[' :: (item.chars ++ itemsChars items)
  | obj [] => ['\x7b', '\x7d']
  | obj ((name, value) :: members) =>
    '\x7b' :: (quoted name ++ ':' :: (value.chars ++ membersChars members))

/-- The elements after the first, and the closing bracket. -/
def itemsChars : List Json → List Char
  | [] => [']']
  | item :: items => ',' :: (item.chars ++ itemsChars items)

/-- The members after the first, and the closing brace. -/
def membersChars : List (String × Json) → List Char
  | [] => ['\x7d']
  | (name, value) :: members =>
    ',' :: (quoted name ++ ':' :: (value.chars ++ membersChars members))

end

def render (value : Json) : String := String.ofList value.chars

end SchedReplay.Json
