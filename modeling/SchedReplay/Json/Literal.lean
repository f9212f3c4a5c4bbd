import SchedReplay.Json.Basic

/-! Number literals and the bound on their size. A literal is refused when the double nearest to
it would be infinite; the estimate keeps the leading digits that fit in 64 bits and rounds the
significand, the power of ten and their product one after the other. -/
namespace SchedReplay.Json

/-- A number literal in its parts; `exponent` holds its sign (`true` for minus) and digits. -/
structure Literal where
  negative : Bool
  whole : List Char
  fraction : Option (List Char)
  exponent : Option (Bool × List Char)

namespace Literal

/-- Appends leading digits to `value` while it stays below `2^64`; also the digits left over. -/
def absorb (value : Nat) : List Char → Nat × List Char
  | [] => (value, [])
  | digit :: rest =>
    let next := Nat.ofDigitChars 10 [digit] value
    if next < UInt64.size then absorb next rest else (value, digit :: rest)

/-- The significand and the power of ten that scales it. -/
def scaled (literal : Literal) : Nat × Int :=
  let (value, dropped) := absorb 0 literal.whole
  let fraction := literal.fraction.getD []
  let (value, unread) := absorb value fraction
  let shift := (dropped.length : Int) + unread.length - fraction.length
  match literal.exponent with
  | none => (value, shift)
  | some (negative, digits) =>
    let exponent := Int.ofNat (Nat.ofDigitChars 10 digits 0)
    (value, if negative then shift - exponent else shift + exponent)

/-- Rounds to 53 significant bits, a half to the even neighbour. -/
def roundToDouble (value : Nat) : Nat :=
  let bits := value.log2 + 1
  if bits ≤ 53 then value
  else
    let unit := Nat.pow 2 (bits - 53)
    let kept := value / unit
    let rest := value % unit
    if 2 * rest > unit ∨ (2 * rest = unit ∧ kept % 2 = 1) then (kept + 1) * unit else kept * unit

/-- The least value that rounds to an infinite double. -/
def doubleBound : Nat := Nat.pow 2 1024 - Nat.pow 2 970

def exceedsDouble (literal : Literal) : Bool :=
  match literal.scaled with
  | (value, .ofNat power) =>
    value != 0 &&
      (308 < power || doubleBound ≤ roundToDouble value * roundToDouble (Nat.pow 10 power))
  | (_, .negSucc _) => false

def text (literal : Literal) : List Char :=
  (if literal.negative then ['-'] else []) ++ literal.whole ++
    (match literal.fraction with
     | none => []
     | some digits => '.' :: digits) ++
    (match literal.exponent with
     | none => []
     | some (negative, digits) => 'e' :: (if negative then ['-'] else []) ++ digits)

/-- Only digits without sign, fraction and exponent make a natural numeral. -/
def toNumber (literal : Literal) : Number :=
  match literal.negative, literal.fraction, literal.exponent with
  | false, none, none => .natural (Nat.ofDigitChars 10 literal.whole 0)
  | _, _, _ => .other (String.ofList literal.text)

example : exceedsDouble ⟨false, ['1'], none, some (false, ['3', '0', '8'])⟩ = false := by decide +kernel
example : exceedsDouble ⟨false, ['1', '8'], none, some (false, ['3', '0', '7'])⟩ = true := by decide +kernel
example : exceedsDouble ⟨false, ['0'], none, some (false, ['9', '9', '9'])⟩ = false := by decide +kernel

end Literal

end SchedReplay.Json
