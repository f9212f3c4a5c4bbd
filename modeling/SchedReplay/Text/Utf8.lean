/-! UTF-8 decoding that says where a byte sequence first goes wrong. -/
namespace SchedReplay.Text.Utf8

/-- Where decoding stopped: the bytes of the broken sequence that were read, or `none` where the
input ends inside a sequence that could still be completed. -/
structure Fault where
  index : Nat
  length : Option Nat
  deriving DecidableEq

def Fault.message (fault : Fault) : String :=
  match fault.length with
  | some count => s!"invalid utf-8 sequence of {count} bytes from index {fault.index}"
  | none => s!"incomplete utf-8 byte sequence from index {fault.index}"

/-- The ranges of the bytes that must follow a first byte. -/
def tails? (lead : UInt8) : Option (List (UInt8 × UInt8)) :=
  if lead < 0x80 then some []
  else if lead < 0xC2 then none
  else if lead < 0xE0 then some [(0x80, 0xBF)]
  else if lead = 0xE0 then some [(0xA0, 0xBF), (0x80, 0xBF)]
  else if lead = 0xED then some [(0x80, 0x9F), (0x80, 0xBF)]
  else if lead < 0xF0 then some [(0x80, 0xBF), (0x80, 0xBF)]
  else if lead = 0xF0 then some [(0x90, 0xBF), (0x80, 0xBF), (0x80, 0xBF)]
  else if lead < 0xF4 then some [(0x80, 0xBF), (0x80, 0xBF), (0x80, 0xBF)]
  else if lead = 0xF4 then some [(0x80, 0x8F), (0x80, 0xBF), (0x80, 0xBF)]
  else none

/-- Takes one byte from each range in turn; `count` bytes of the sequence came before. -/
def takeTails (count : Nat) :
    List (UInt8 × UInt8) → List UInt8 → Except (Option Nat) (List UInt8 × List UInt8)
  | [], rest => .ok ([], rest)
  | _ :: _, [] => .error none
  | (low, high) :: ranges, byte :: rest =>
    if low ≤ byte ∧ byte ≤ high then do
      let (taken, rest) ← takeTails (count + 1) ranges rest
      .ok (byte :: taken, rest)
    else .error (some count)

/-- The code point of a first byte and the bytes that follow it. -/
def codePoint (lead : UInt8) (taken : List UInt8) : Nat :=
  let high :=
    match taken.length with
    | 0 => lead.toNat
    | 1 => lead.toNat % 32
    | 2 => lead.toNat % 16
    | _ => lead.toNat % 8
  taken.foldl (fun value byte => value * 64 + byte.toNat % 64) high

/-- Decodes bytes that start at `index`; each character takes at least one unit of fuel. -/
def decodeFrom : Nat → Nat → List UInt8 → Except Fault (List Char)
  | _, _, [] => .ok []
  | 0, index, _ :: _ => .error ⟨index, none⟩
  | fuel + 1, index, lead :: rest =>
    match tails? lead with
    | none => .error ⟨index, some 1⟩
    | some ranges =>
      match takeTails 1 ranges rest with
      | .error length => .error ⟨index, length⟩
      | .ok (taken, rest) =>
        (decodeFrom fuel (index + 1 + taken.length) rest).map
          (Char.ofNat (codePoint lead taken) :: ·)

def decode (bytes : List UInt8) : Except Fault (List Char) := decodeFrom bytes.length 0 bytes

example : (decode [0xE2, 0x82, 0xAC, 0x21]).toOption = some ['€', '!'] := by decide
example : decode [0x61, 0xE2, 0x82] = .error ⟨1, none⟩ := by rfl
example : decode [0xED, 0xA0, 0x80] = .error ⟨0, some 1⟩ := by rfl

end SchedReplay.Text.Utf8
