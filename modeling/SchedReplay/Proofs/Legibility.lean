import Mathlib.Data.List.Forall2
import Mathlib.Tactic.SplitIfs
import SchedReplay.Text.Utf8

/-! Which byte sequences are text. The decoder goes by a table of first bytes and ranges; what it
accepts are the encodings of texts and nothing else, and it returns the text that was encoded. -/
namespace SchedReplay.Text.Utf8

def encode (text : List Char) : List UInt8 := text.flatMap String.utf8EncodeChar

/-- A byte that goes on with a character. -/
def IsTail (byte : UInt8) : Prop := 0x80 ≤ byte.toNat ∧ byte.toNat < 0xC0

/-- The well-formed sequences of one character: none is longer than it has to be, stands for a
surrogate or goes beyond the last code point. -/
def IsCharacter (lead : UInt8) : List UInt8 → Prop
  | [] => lead.toNat < 0x80
  | [second] => 0xC2 ≤ lead.toNat ∧ lead.toNat < 0xE0 ∧ IsTail second
  | [second, third] =>
    0xE0 ≤ lead.toNat ∧ lead.toNat < 0xF0 ∧ IsTail second ∧ IsTail third ∧
      (lead.toNat = 0xE0 → 0xA0 ≤ second.toNat) ∧ (lead.toNat = 0xED → second.toNat < 0xA0)
  | [second, third, fourth] =>
    0xF0 ≤ lead.toNat ∧ lead.toNat ≤ 0xF4 ∧ IsTail second ∧ IsTail third ∧ IsTail fourth ∧
      (lead.toNat = 0xF0 → 0x90 ≤ second.toNat) ∧ (lead.toNat = 0xF4 → second.toNat < 0x90)
  | _ :: _ :: _ :: _ :: _ => False

section Sequences

def InRange (range : UInt8 × UInt8) (byte : UInt8) : Prop := range.1 ≤ byte ∧ byte ≤ range.2

theorem takeTails_cons_eq_ok_iff {count : Nat} {range : UInt8 × UInt8}
    {ranges : List (UInt8 × UInt8)} {byte : UInt8} {bytes taken rest : List UInt8} :
    takeTails count (range :: ranges) (byte :: bytes) = .ok (taken, rest) ↔
      InRange range byte ∧
        ∃ more, takeTails (count + 1) ranges bytes = .ok (more, rest) ∧ byte :: more = taken := by
  rw [takeTails, InRange]
  split
  · next within =>
    rw [and_iff_right within]
    cases takeTails (count + 1) ranges bytes with
    | error length => simp [bind, Except.bind]
    | ok pair =>
      obtain ⟨more, left⟩ := pair
      simp [bind, Except.bind, and_comm]
  · next outside => simp [outside]

theorem takeTails_eq_ok_iff {count : Nat} {ranges : List (UInt8 × UInt8)}
    {bytes taken rest : List UInt8} :
    takeTails count ranges bytes = .ok (taken, rest) ↔
      bytes = taken ++ rest ∧ List.Forall₂ InRange ranges taken := by
  induction ranges generalizing count bytes taken with
  | nil => cases taken <;> simp [takeTails]
  | cons range ranges ih =>
    cases bytes with
    | nil => cases taken <;> simp [takeTails]
    | cons byte bytes =>
      rw [takeTails_cons_eq_ok_iff]
      simp only [ih]
      constructor
      · rintro ⟨within, more, ⟨rfl, fits⟩, rfl⟩
        exact ⟨rfl, .cons within fits⟩
      · rintro ⟨same, fits⟩
        cases fits with
        | cons within fits =>
          cases same
          exact ⟨within, _, ⟨rfl, fits⟩, rfl⟩

/-- The table of first bytes, read as a table of sequences. -/
theorem isCharacter_iff {lead : UInt8} {taken : List UInt8} :
    IsCharacter lead taken ↔
      ∃ ranges, tails? lead = some ranges ∧ List.Forall₂ InRange ranges taken := by
  have byte := lead.toNat_lt
  simp only [tails?, UInt8.lt_iff_toNat_lt, ← UInt8.toNat_inj, UInt8.reduceToNat]
  split_ifs
  all_goals
    simp only [Option.some.injEq, exists_eq_left', false_and, exists_false]
    rcases taken with _ | ⟨second, _ | ⟨third, _ | ⟨fourth, _ | ⟨fifth, more⟩⟩⟩⟩ <;>
      simp only [IsCharacter, IsTail, InRange, List.forall₂_cons, List.forall₂_nil_left_iff,
        List.forall₂_nil_right_iff, UInt8.le_iff_toNat_le, UInt8.reduceToNat, reduceCtorEq,
        iff_true, iff_false, and_true, and_false] <;>
      omega

end Sequences

section Characters

theorem utf8EncodeChar_ofNat {code : Nat} (valid : code.isValidChar) :
    String.utf8EncodeChar (Char.ofNat code) =
      if code ≤ 0x7F then [UInt8.ofNat code]
      else if code ≤ 0x7FF then [UInt8.ofNat (code / 64 % 32 + 192), UInt8.ofNat (code % 64 + 128)]
      else if code ≤ 0xFFFF then
        [UInt8.ofNat (code / 4096 % 16 + 224), UInt8.ofNat (code / 64 % 64 + 128),
          UInt8.ofNat (code % 64 + 128)]
      else
        [UInt8.ofNat (code / 262144 % 8 + 240), UInt8.ofNat (code / 4096 % 64 + 128),
          UInt8.ofNat (code / 64 % 64 + 128), UInt8.ofNat (code % 64 + 128)] := by
  have same : (Char.ofNat code).val.toNat = code := by
    rw [Char.ofNat, dif_pos valid]
    rfl
  rw [String.utf8EncodeChar, same]

theorem encodeChar_of_isCharacter {lead : UInt8} {taken : List UInt8}
    (is : IsCharacter lead taken) :
    String.utf8EncodeChar (Char.ofNat (codePoint lead taken)) = lead :: taken := by
  have ofNat_eq (byte : UInt8) {value : Nat} (same : value = byte.toNat) :
      UInt8.ofNat value = byte := by
    rw [same, UInt8.ofNat_toNat]
  rcases taken with _ | ⟨second, _ | ⟨third, _ | ⟨fourth, _ | ⟨fifth, more⟩⟩⟩⟩
  · change String.utf8EncodeChar (Char.ofNat lead.toNat) = _
    simp only [IsCharacter] at is
    rw [utf8EncodeChar_ofNat (.inl (by omega)), if_pos (by omega), ofNat_eq lead rfl]
  · change String.utf8EncodeChar (Char.ofNat (lead.toNat % 32 * 64 + second.toNat % 64)) = _
    simp only [IsCharacter, IsTail] at is
    rw [utf8EncodeChar_ofNat (.inl (by omega)), if_neg (by omega), if_pos (by omega),
      ofNat_eq lead (by omega), ofNat_eq second (by omega)]
  · change String.utf8EncodeChar (Char.ofNat
      ((lead.toNat % 16 * 64 + second.toNat % 64) * 64 + third.toNat % 64)) = _
    simp only [IsCharacter, IsTail] at is
    rw [utf8EncodeChar_ofNat (by unfold Nat.isValidChar; omega), if_neg (by omega),
      if_neg (by omega), if_pos (by omega), ofNat_eq lead (by omega), ofNat_eq second (by omega),
      ofNat_eq third (by omega)]
  · change String.utf8EncodeChar (Char.ofNat
      (((lead.toNat % 8 * 64 + second.toNat % 64) * 64 + third.toNat % 64) * 64 +
        fourth.toNat % 64)) = _
    simp only [IsCharacter, IsTail] at is
    rw [utf8EncodeChar_ofNat (.inr (by omega)), if_neg (by omega), if_neg (by omega),
      if_neg (by omega), ofNat_eq lead (by omega), ofNat_eq second (by omega),
      ofNat_eq third (by omega), ofNat_eq fourth (by omega)]
  · cases is

theorem isCharacter_of_encodeChar {c : Char} {lead : UInt8} {taken : List UInt8}
    (encodes : String.utf8EncodeChar c = lead :: taken) :
    IsCharacter lead taken ∧ Char.ofNat (codePoint lead taken) = c := by
  have valid : c.toNat.isValidChar := c.valid
  rw [← c.ofNat_toNat, utf8EncodeChar_ofNat valid] at encodes
  suffices IsCharacter lead taken ∧ codePoint lead taken = c.toNat by
    rw [this.2, c.ofNat_toNat]
    exact ⟨this.1, rfl⟩
  unfold Nat.isValidChar at valid
  split_ifs at encodes <;> cases encodes <;>
    simp only [IsCharacter, IsTail, codePoint, List.length_cons, List.length_nil,
      List.foldl_cons, List.foldl_nil, UInt8.toNat_ofNat'] <;>
    omega

/-- The bytes of a character are those that the table lets through. -/
theorem encodeChar_eq_iff {c : Char} {lead : UInt8} {taken : List UInt8} :
    String.utf8EncodeChar c = lead :: taken ↔
      IsCharacter lead taken ∧ Char.ofNat (codePoint lead taken) = c := by
  constructor
  · exact isCharacter_of_encodeChar
  · rintro ⟨is, rfl⟩
    exact encodeChar_of_isCharacter is

end Characters

section Texts

theorem encode_cons (c : Char) (text : List Char) :
    encode (c :: text) = String.utf8EncodeChar c ++ encode text := List.flatMap_cons

theorem encode_eq_nil_iff {text : List Char} : encode text = [] ↔ text = [] := by
  cases text with
  | nil => simp [encode]
  | cons c text => simp [encode_cons, String.utf8EncodeChar_ne_nil]

theorem decodeFrom_nil_eq_ok_iff {fuel index : Nat} {text : List Char} :
    decodeFrom fuel index [] = .ok text ↔ [] = encode text := by
  have returned : decodeFrom fuel index [] = .ok [] := by cases fuel <;> rfl
  rw [returned, Except.ok.injEq, eq_comm, ← encode_eq_nil_iff, eq_comm]

theorem decodeFrom_cons_eq_ok_iff {fuel index : Nat} {lead : UInt8} {rest : List UInt8}
    {text : List Char} :
    decodeFrom (fuel + 1) index (lead :: rest) = .ok text ↔
      ∃ c taken left more, String.utf8EncodeChar c = lead :: taken ∧ rest = taken ++ left ∧
        decodeFrom fuel (index + 1 + taken.length) left = .ok more ∧ text = c :: more := by
  rw [decodeFrom]
  constructor
  · intro decoded
    split at decoded
    · cases decoded
    · next ranges known =>
      split at decoded
      · cases decoded
      · next taken left found =>
        obtain ⟨rfl, fits⟩ := takeTails_eq_ok_iff.mp found
        have encodes := encodeChar_eq_iff.mpr ⟨isCharacter_iff.mpr ⟨ranges, known, fits⟩, rfl⟩
        cases later : decodeFrom fuel (index + 1 + taken.length) left with
        | error fault =>
          rw [later] at decoded
          cases decoded
        | ok more =>
          rw [later] at decoded
          cases decoded
          exact ⟨_, taken, left, more, encodes, rfl, later, rfl⟩
  · rintro ⟨c, taken, left, more, encodes, rfl, later, rfl⟩
    obtain ⟨is, rfl⟩ := encodeChar_eq_iff.mp encodes
    obtain ⟨ranges, known, fits⟩ := isCharacter_iff.mp is
    have found : takeTails 1 ranges (taken ++ left) = .ok (taken, left) :=
      takeTails_eq_ok_iff.mpr ⟨rfl, fits⟩
    simp only [known, found, later, Except.map]

theorem decodeFrom_eq_ok_iff {fuel index : Nat} {bytes : List UInt8} {text : List Char}
    (enough : bytes.length ≤ fuel) :
    decodeFrom fuel index bytes = .ok text ↔ bytes = encode text := by
  -- Every character has a first byte, so that the fuel outlasts the bytes that are left.
  induction fuel generalizing index bytes text with
  | zero =>
    obtain rfl := List.length_eq_zero_iff.mp (Nat.le_zero.mp enough)
    exact decodeFrom_nil_eq_ok_iff
  | succ fuel ih =>
    cases bytes with
    | nil => exact decodeFrom_nil_eq_ok_iff
    | cons lead rest =>
      rw [decodeFrom_cons_eq_ok_iff]
      constructor
      · rintro ⟨c, taken, left, more, encodes, rfl, later, rfl⟩
        have shorter : left.length ≤ fuel := by
          simp only [List.length_cons, List.length_append] at enough
          omega
        rw [encode_cons, encodes, ← (ih shorter).mp later, List.cons_append]
      · intro encoded
        cases text with
        | nil => cases encoded
        | cons c text =>
          obtain ⟨first, taken, encodes⟩ :=
            List.exists_cons_of_ne_nil (String.utf8EncodeChar_ne_nil (c := c))
          rw [encode_cons, encodes, List.cons_append] at encoded
          obtain ⟨rfl, rfl⟩ := List.cons.inj encoded
          have shorter : (encode text).length ≤ fuel := by
            simp only [List.length_cons, List.length_append] at enough
            omega
          exact ⟨c, taken, encode text, text, encodes, rfl, (ih shorter).mpr rfl, rfl⟩

theorem decode_eq_ok_iff {bytes : List UInt8} {text : List Char} :
    decode bytes = .ok text ↔ bytes = encode text :=
  decodeFrom_eq_ok_iff (Nat.le_refl _)

theorem ne_encode_of_decode {bytes : List UInt8} {fault : Fault}
    (found : decode bytes = .error fault) (text : List Char) : bytes ≠ encode text := by
  intro is
  rw [decode_eq_ok_iff.mpr is] at found
  cases found

theorem encode_injective {text other : List Char} (same : encode text = encode other) :
    text = other := by
  have decoded := decode_eq_ok_iff.mpr same
  rw [decode_eq_ok_iff.mpr rfl] at decoded
  exact Except.ok.inj decoded

end Texts

end SchedReplay.Text.Utf8
