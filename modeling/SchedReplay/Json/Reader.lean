import SchedReplay.Json.Literal

/-! Reading JSON text. The grammar is the strict one: four blanks, no trailing comma, no raw
control character, and in a value that is kept paired surrogates, numbers in the range of doubles
and at most 127 nested arrays and objects. Fuel is as long as the text, so that it never runs
out. -/
namespace SchedReplay.Json

/-- A text is faulty because it ends too early, because it is no JSON, or because it holds another
value than its reader looks for. -/
inductive Fault where
  | truncated
  | malformed
  | unexpected
  deriving DecidableEq

namespace Fault

def message : Fault → String
  | truncated => "the text ends inside a value"
  | malformed => "the text is not JSON"
  | unexpected => "the value has the wrong shape"

end Fault

/-- Reads a value from the front of a text and hands on the text after it. -/
abbrev Reader (α : Type) := List Char → Except Fault (α × List Char)

/-- What a value is read for. One that is skipped only has to follow the grammar: its numbers may be
of any size and its escapes need not pair. -/
inductive Purpose where
  | keep
  | skip
  deriving DecidableEq

def isBlank (c : Char) : Bool := c == ' ' || c == '\t' || c == '\n' || c == '\r'

def skipBlanks (text : List Char) : List Char := text.dropWhile isBlank

/-- The text after `word`, which must stand at its front. -/
def expectWord : List Char → List Char → Except Fault (List Char)
  | [], text => .ok text
  | _ :: _, [] => .error .truncated
  | w :: word, c :: text => if w = c then expectWord word text else .error .malformed

/-! ### Strings -/

def hexValue? (c : Char) : Option Nat :=
  if c.isDigit then some (c.toNat - '0'.toNat)
  else if 'a' ≤ c ∧ c ≤ 'f' then some (c.toNat - 'a'.toNat + 10)
  else if 'A' ≤ c ∧ c ≤ 'F' then some (c.toNat - 'A'.toNat + 10)
  else none

/-- Four hexadecimal digits. Where fewer than four bytes are left the text ends too early. -/
def readHex4 : Reader Nat
  | a :: b :: c :: d :: rest =>
    match hexValue? a, hexValue? b, hexValue? c, hexValue? d with
    | some a, some b, some c, some d => .ok (((a * 16 + b) * 16 + c) * 16 + d, rest)
    | _, _, _, _ => .error .malformed
  | short =>
    if (String.ofList short).utf8ByteSize < 4 then .error .truncated else .error .malformed

def isHighSurrogate (code : Nat) : Bool := 0xD800 ≤ code && code ≤ 0xDBFF

def isLowSurrogate (code : Nat) : Bool := 0xDC00 ≤ code && code ≤ 0xDFFF

/-- The character of a code unit; a high surrogate needs the low one in an escape behind it. -/
def pairUnit (code : Nat) : Reader Char := fun text =>
  if isLowSurrogate code then .error .malformed
  else if isHighSurrogate code then
    match text with
    | [] | ['\\'] => .error .truncated
    | '\\' :: 'u' :: rest => do
      let (low, rest) ← readHex4 rest
      if isLowSurrogate low then
        .ok (Char.ofNat ((code - 0xD800) * 0x400 + (low - 0xDC00) + 0x10000), rest)
      else .error .malformed
    | _ => .error .malformed
  else .ok (Char.ofNat code, text)

/-- The character of a `\u` escape. A skipped one stands for itself. -/
def readUnicode (purpose : Purpose) : Reader Char := fun text => do
  let (code, rest) ← readHex4 text
  match purpose with
  | .keep => pairUnit code rest
  | .skip => .ok (Char.ofNat code, rest)

/-- The character an escape stands for, from behind its backslash. -/
def readEscape (purpose : Purpose) : Reader Char
  | [] => .error .truncated
  | '"' :: rest => .ok ('"', rest)
  | '\\' :: rest => .ok ('\\', rest)
  | '/' :: rest => .ok ('/', rest)
  | 'b' :: rest => .ok ('\x08', rest)
  | 'f' :: rest => .ok ('\x0c', rest)
  | 'n' :: rest => .ok ('\n', rest)
  | 'r' :: rest => .ok ('\r', rest)
  | 't' :: rest => .ok ('\t', rest)
  | 'u' :: rest => readUnicode purpose rest
  | _ :: _ => .error .malformed

/-- The characters of a string up to its closing quote; each takes one unit of fuel. -/
def readChars (purpose : Purpose) : Nat → Reader (List Char)
  | 0, _ => .error .truncated
  | _ + 1, [] => .error .truncated
  | _ + 1, '"' :: rest => .ok ([], rest)
  | fuel + 1, '\\' :: rest => do
    let (c, rest) ← readEscape purpose rest
    let (cs, rest) ← readChars purpose fuel rest
    .ok (c :: cs, rest)
  | fuel + 1, c :: rest =>
    if c.toNat < 0x20 then .error .malformed
    else do
      let (cs, rest) ← readChars purpose fuel rest
      .ok (c :: cs, rest)

def readString (purpose : Purpose) (fuel : Nat) : Reader String := fun text => do
  let (cs, rest) ← readChars purpose fuel text
  .ok (String.ofList cs, rest)

/-! ### Numbers -/

def readDigits : Reader (List Char) := fun text =>
  match text.takeWhile Char.isDigit, text with
  | [], [] => .error .truncated
  | [], _ :: _ => .error .malformed
  | digits, text => .ok (digits, text.dropWhile Char.isDigit)

/-- Digits without a leading zero. -/
def readWhole : Reader (List Char) := fun text => do
  match ← readDigits text with
  | ('0' :: _ :: _, _) => .error .malformed
  | whole => .ok whole

def readFraction : Reader (Option (List Char))
  | '.' :: rest => do
    let (digits, rest) ← readDigits rest
    .ok (some digits, rest)
  | text => .ok (none, text)

/-- The optional sign of an exponent; `true` for minus. -/
def readSign : List Char → Bool × List Char
  | '-' :: rest => (true, rest)
  | '+' :: rest => (false, rest)
  | text => (false, text)

def readExponent : Reader (Option (Bool × List Char))
  | [] => .ok (none, [])
  | c :: rest =>
    if c == 'e' || c == 'E' then do
      let (negative, rest) := readSign rest
      let (digits, rest) ← readDigits rest
      .ok (some (negative, digits), rest)
    else .ok (none, c :: rest)

def readLiteral (negative : Bool) : Reader Literal := fun text => do
  let (whole, rest) ← readWhole text
  let (fraction, rest) ← readFraction rest
  let (exponent, rest) ← readExponent rest
  .ok (⟨negative, whole, fraction, exponent⟩, rest)

/-- A number literal. One that is kept lies within the range of doubles; one that is skipped is
malformed also where the text ends inside it. -/
def readNumber (purpose : Purpose) (negative : Bool) : Reader Number := fun text =>
  match purpose, readLiteral negative text with
  | .keep, .error fault => .error fault
  | .skip, .error _ => .error .malformed
  | .keep, .ok (literal, rest) =>
    if literal.exceedsDouble then .error .malformed else .ok (literal.toNumber, rest)
  | .skip, .ok (literal, rest) => .ok (literal.toNumber, rest)

/-! ### Values -/

/-- The elements of an array up to its closing bracket, `item` reading one of them. -/
def readItems (item : Reader α) : Nat → Reader (List α)
  | 0, _ => .error .truncated
  | fuel + 1, text => do
    let (value, rest) ← item text
    match skipBlanks rest with
    | ']' :: rest => .ok ([value], rest)
    | ',' :: rest =>
      let (values, rest) ← readItems item fuel rest
      .ok (value :: values, rest)
    | [] => .error .truncated
    | _ :: _ => .error .malformed

/-- The text after the mark `c`, which must come next. -/
def expectMark (c : Char) (text : List Char) : Except Fault (List Char) :=
  match skipBlanks text with
  | [] => .error .truncated
  | next :: rest => if next = c then .ok rest else .error .malformed

/-- The members of an object up to its closing brace. `readRest seen name` reads on behind the name
of a member, names in `seen` having come before, and hands over the value if it is kept. -/
def readMembers (purpose : Purpose) (readRest : List String → String → Reader (Option α)) :
    Nat → List String → Reader (List (String × α))
  | 0, _, _ => .error .truncated
  | fuel + 1, seen, text => do
    let (name, rest) ← readString purpose (fuel + 1) (← expectMark '"' text)
    let (value, rest) ← readRest seen name rest
    let member := (value.map (name, ·)).toList
    match skipBlanks rest with
    | '\x7d' :: rest => .ok (member, rest)
    | ',' :: rest =>
      let (members, rest) ← readMembers purpose readRest fuel (name :: seen) rest
      .ok (member ++ members, rest)
    | [] => .error .truncated
    | _ :: _ => .error .malformed

def readBehindColon (item : Reader α) : Reader (Option α) := fun text => do
  let (value, rest) ← item (← expectMark ':' text)
  .ok (some value, rest)

/-- A value whose arrays and objects nest at most `depth` levels. -/
def readValue (purpose : Purpose) (fuel : Nat) : Nat → Reader Json
  | depth, text =>
    match skipBlanks text with
    | [] => .error .truncated
    | 'n' :: rest => do .ok (.null, ← expectWord ['u', 'l', 'l'] rest)
    | 't' :: rest => do .ok (.bool true, ← expectWord ['r', 'u', 'e'] rest)
    | 'f' :: rest => do .ok (.bool false, ← expectWord ['a', 'l', 's', 'e'] rest)
    | '"' :: rest => do
      let (value, rest) ← readString purpose fuel rest
      .ok (.str value, rest)
    | '[' :: rest =>
      match depth with
      | 0 => .error .malformed
      | depth + 1 =>
        match skipBlanks rest with
        | ']' :: rest => .ok (.arr [], rest)
        | _ => do
          let (items, rest) ← readItems (readValue purpose fuel depth) fuel rest
          .ok (.arr items, rest)
    | '\x7b' :: rest =>
      match depth with
      | 0 => .error .malformed
      | depth + 1 =>
        match skipBlanks rest with
        | '\x7d' :: rest => .ok (.obj [], rest)
        | _ => do
          let readRest _ _ := readBehindColon (readValue purpose fuel depth)
          let (members, rest) ← readMembers purpose readRest fuel [] rest
          .ok (.obj members, rest)
    | '-' :: rest => do
      let (value, rest) ← readNumber purpose true rest
      .ok (.num value, rest)
    | c :: rest =>
      if c.isDigit then do
        let (value, rest) ← readNumber purpose false (c :: rest)
        .ok (.num value, rest)
      else .error .malformed

/-- The deepest nesting of arrays and objects in a value that is kept. -/
def maxDepth : Nat := 127

/-- The text after a value that is skipped, which may nest as deep as it likes. -/
def skipValue (fuel : Nat) (text : List Char) : Except Fault (List Char) := do
  let (_, rest) ← readValue .skip fuel fuel text
  return rest

/-- Nothing but blanks may follow a value. -/
def expectEnd (rest : List Char) : Except Fault Unit :=
  match skipBlanks rest with
  | [] => .ok ()
  | _ :: _ => .error .malformed

def parse (text : String) : Except Fault Json := do
  let chars := text.toList
  let (value, rest) ← readValue .keep chars.length maxDepth chars
  expectEnd rest
  return value

end SchedReplay.Json
