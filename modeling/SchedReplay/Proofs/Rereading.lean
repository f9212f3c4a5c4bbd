import Mathlib.Data.List.TakeWhile
import SchedReplay.Json.Reader
import SchedReplay.Json.Writer
import SchedReplay.Proofs.Delimiting

/-! Reading back what was written: the text of a value is read as that value, and the text behind
it is left alone. -/
namespace SchedReplay.Json

/-- What may stand behind a value: nothing, or a mark that divides or ends an array or an object. -/
def Closes (rest : List Char) : Prop := ∀ c ∈ rest.head?, c = ',' ∨ c = ']' ∨ c = '\x7d'

theorem Closes.endsNumeral {rest : List Char} (closes : Closes rest) : Text.EndsNumeral rest := by
  intro c next
  rcases closes c next with rfl | rfl | rfl <;> rfl

@[simp] theorem ok_bind (value : α) (next : α → Except Fault β) :
    ((.ok value : Except Fault α) >>= next) = next value :=
  rfl

/-! ### Numbers -/

theorem le_ofDigitChars (digits : List Char) (value : Nat) :
    value ≤ Nat.ofDigitChars 10 digits value := by
  rw [Nat.ofDigitChars_eq_ofDigitChars_zero]
  have scale : value ≤ 10 ^ digits.length * value :=
    Nat.le_mul_of_pos_left value (Nat.pow_pos (by decide))
  omega

theorem Literal.absorb_of_lt {digits : List Char} {value : Nat}
    (small : Nat.ofDigitChars 10 digits value < UInt64.size) :
    absorb value digits = (Nat.ofDigitChars 10 digits value, []) := by
  induction digits generalizing value with
  | nil => rfl
  | cons digit digits ih =>
    have next : Nat.ofDigitChars 10 [digit] value < UInt64.size :=
      lt_of_le_of_lt (le_ofDigitChars digits _) small
    rw [absorb, if_pos next]
    exact ih small

theorem Literal.roundToDouble_le (value : Nat) : roundToDouble value ≤ 2 * value := by
  simp only [roundToDouble]
  generalize amount : Nat.pow 2 (value.log2 + 1 - 53) = unit
  split
  · omega
  · next wide =>
    have positive : value ≠ 0 := by
      rintro rfl
      exact wide (by decide)
    have unit_le : unit ≤ 2 ^ value.log2 :=
      amount ▸ Nat.pow_le_pow_right (by decide) (by omega)
    have fits : unit ≤ value := unit_le.trans (Nat.log2_self_le positive)
    have below : value / unit * unit ≤ value := Nat.div_mul_le_self _ _
    split
    · rw [Nat.add_mul]
      omega
    · omega

/-- Rounding at most doubles a number, and the range of doubles is far beyond 65 bits. -/
theorem Literal.exceedsDouble_of_lt {whole : List Char}
    (small : Nat.ofDigitChars 10 whole 0 < UInt64.size) :
    exceedsDouble ⟨false, whole, none, none⟩ = false := by
  have scaled : scaled ⟨false, whole, none, none⟩ = (Nat.ofDigitChars 10 whole 0, .ofNat 0) := by
    simp [Literal.scaled, absorb_of_lt small, absorb]
  have one : roundToDouble (Nat.pow 10 0) = 1 := by decide
  have room : 2 * UInt64.size ≤ doubleBound := by decide +kernel
  have near : ¬ doubleBound ≤ roundToDouble (Nat.ofDigitChars 10 whole 0) := by
    have := roundToDouble_le (Nat.ofDigitChars 10 whole 0)
    omega
  simp only [exceedsDouble, scaled, one, Nat.mul_one, near, Nat.not_lt_zero, decide_false,
    Bool.or_false, Bool.and_false]

theorem head?_toDigits_ne_zero {value : Nat} (positive : 0 < value) :
    (Nat.toDigits 10 value).head? ≠ some '0' := by
  induction value using Nat.strongRecOn with
  | _ value ih =>
    by_cases single : value < 10
    · rw [Nat.toDigits_of_lt_base single, List.head?_cons, Ne, Option.some.injEq,
        Nat.digitChar_eq_zero]
      omega
    · rw [Nat.toDigits_of_base_le (by decide) (by omega), List.head?_append,
        List.head?_eq_some_head Nat.toDigits_ne_nil, Option.some_or,
        ← List.head?_eq_some_head Nat.toDigits_ne_nil]
      exact ih (value / 10) (by omega) (by omega)

theorem readDigits_append {digits rest : List Char} (nonempty : digits ≠ [])
    (numeric : ∀ c ∈ digits, c.isDigit) (ends : Text.EndsNumeral rest) :
    readDigits (digits ++ rest) = .ok (digits, rest) := by
  unfold readDigits
  rw [List.takeWhile_append_of_pos numeric, ends.takeWhile_eq_nil, List.append_nil]
  split
  · contradiction
  · contradiction
  · rw [List.dropWhile_append_of_pos numeric, ends.dropWhile_eq_self]

theorem readLiteral_toDigits {rest : List Char} (closes : Closes rest) (value : Nat) :
    readLiteral false (Nat.toDigits 10 value ++ rest) =
      .ok (⟨false, Nat.toDigits 10 value, none, none⟩, rest) := by
  have digits : readDigits (Nat.toDigits 10 value ++ rest) = .ok (Nat.toDigits 10 value, rest) :=
    readDigits_append Nat.toDigits_ne_nil
      (fun c inside => Nat.isDigit_of_mem_toDigits (by decide) (by decide) inside)
      closes.endsNumeral
  have whole : readWhole (Nat.toDigits 10 value ++ rest) = .ok (Nat.toDigits 10 value, rest) := by
    rw [readWhole, digits, ok_bind]
    split
    · next second others _ zero =>
      rcases Nat.eq_zero_or_pos value with rfl | positive
      · simp at zero
      · exact absurd (by simp_all) (head?_toDigits_ne_zero positive)
    · rfl
  have fraction : readFraction rest = .ok (none, rest) := by
    unfold readFraction
    split
    · simp [Closes] at closes
    · rfl
  have exponent : readExponent rest = .ok (none, rest) := by
    cases rest with
    | nil => rfl
    | cons c rest => rcases closes c rfl with rfl | rfl | rfl <;> rfl
  simp [readLiteral, whole, fraction, exponent]

theorem readNumber_toDigits {rest : List Char} (closes : Closes rest) {value : Nat}
    (small : value < UInt64.size) :
    readNumber .keep false (Nat.toDigits 10 value ++ rest) = .ok (.natural value, rest) := by
  have digits : Nat.ofDigitChars 10 (Nat.toDigits 10 value) 0 = value :=
    Nat.ofDigitChars_ten_toDigits
  have inRange := Literal.exceedsDouble_of_lt (digits.symm ▸ small)
  simp [readNumber, readLiteral_toDigits closes, inRange, Literal.toNumber, digits]

/-! ### Strings -/

theorem hexValue?_hexDigit (value : Nat) : hexValue? (hexDigit value) = some (value % 16) := by
  have table : ∀ digit < 16, hexValue? digit.digitChar = some digit := by decide
  exact table _ (Nat.mod_lt _ (by decide))

theorem readUnicode_of_control {c : Char} (control : c.toNat < 0x20) (rest : List Char) :
    readUnicode .keep ('0' :: '0' :: hexDigit (c.toNat / 16) :: hexDigit c.toNat :: rest) =
      .ok (c, rest) := by
  have zero : hexValue? '0' = some 0 := rfl
  have code : c.toNat / 16 % 16 * 16 + c.toNat % 16 = c.toNat := by omega
  have single : isLowSurrogate c.toNat = false ∧ isHighSurrogate c.toNat = false := by
    constructor <;> simp [isLowSurrogate, isHighSurrogate] <;> omega
  simp [readUnicode, readHex4, zero, hexValue?_hexDigit, code, pairUnit, single]

theorem readChars_escape {fuel : Nat} {rest left text : List Char} (c : Char)
    (reads : readChars .keep fuel rest = .ok (text, left)) :
    readChars .keep (fuel + 1) (escape c ++ rest) = .ok (c :: text, left) := by
  -- One case for each form in which a character is written, the five short escapes apart.
  unfold escape
  split
  · next quote => subst quote; simp [readChars, readEscape, reads]
  split
  · next backslash => subst backslash; simp [readChars, readEscape, reads]
  split
  · next control =>
    split
    · simp [readChars, readEscape, reads]
    · simp [readChars, readEscape, reads]
    · simp [readChars, readEscape, reads]
    · simp [readChars, readEscape, reads]
    · simp [readChars, readEscape, reads]
    · simp [readChars, readEscape, readUnicode_of_control control, reads]
  · next control => simp [readChars, control, reads]

theorem readChars_flatMap {fuel : Nat} (text rest : List Char) (enough : text.length < fuel) :
    readChars .keep fuel (text.flatMap escape ++ '"' :: rest) = .ok (text, rest) := by
  induction text generalizing fuel with
  | nil =>
    obtain ⟨fuel, rfl⟩ := Nat.exists_eq_add_of_lt enough
    rfl
  | cons c text ih =>
    obtain ⟨fuel, rfl⟩ : ∃ less, fuel = less + 1 := ⟨fuel - 1, by omega⟩
    rw [List.flatMap_cons, List.append_assoc]
    exact readChars_escape c (ih (by simpa using enough))

theorem readString_quoted {fuel : Nat} (text : String) (rest : List Char)
    (enough : text.toList.length < fuel) :
    readString .keep fuel (text.toList.flatMap escape ++ '"' :: rest) = .ok (text, rest) := by
  simp [readString, readChars_flatMap text.toList rest enough]

theorem escape_ne_nil (c : Char) : escape c ≠ [] := by
  unfold escape
  split
  · decide
  split
  · decide
  split
  · split <;> simp
  · simp

theorem length_le_flatMap_escape (text : List Char) :
    text.length ≤ (text.flatMap escape).length := by
  induction text with
  | nil => rfl
  | cons c text ih =>
    have first := List.length_pos_iff.mpr (escape_ne_nil c)
    rw [List.flatMap_cons, List.length_append, List.length_cons]
    omega

theorem length_add_two_le_quoted (text : String) : text.toList.length + 2 ≤ (quoted text).length := by
  have inside := length_le_flatMap_escape text.toList
  rw [quoted, List.length_cons, List.length_append, List.length_singleton]
  omega

/-! ### Values -/

/-- A value whose numbers have 64 bits and whose arrays and objects nest at most `depth` levels. -/
inductive Fits : Nat → Json → Prop
  | null : Fits depth .null
  | bool : Fits depth (.bool value)
  | num (small : value < UInt64.size) : Fits depth (.num (.natural value))
  | str : Fits depth (.str value)
  | arr (items : ∀ item ∈ values, Fits depth item) : Fits (depth + 1) (.arr values)
  | obj (members : ∀ member ∈ values, Fits depth member.2) : Fits (depth + 1) (.obj values)

theorem Fits.mono {depth deeper : Nat} {value : Json} (fits : Fits depth value)
    (le : depth ≤ deeper) : Fits deeper value := by
  induction fits generalizing deeper with
  | null => exact .null
  | bool => exact .bool
  | num small => exact .num small
  | str => exact .str
  | arr _ ih =>
    obtain ⟨deeper, rfl⟩ : ∃ less, deeper = less + 1 := ⟨deeper - 1, by omega⟩
    exact .arr fun item inside => ih item inside (by omega)
  | obj _ ih =>
    obtain ⟨deeper, rfl⟩ : ∃ less, deeper = less + 1 := ⟨deeper - 1, by omega⟩
    exact .obj fun member inside => ih member inside (by omega)

theorem skipBlanks_cons {c : Char} (mark : isBlank c = false) (rest : List Char) :
    skipBlanks (c :: rest) = c :: rest :=
  List.dropWhile_cons_of_neg (by simp [mark])

theorem skipBlanks_quoted (text : String) (rest : List Char) :
    skipBlanks (quoted text ++ rest) = quoted text ++ rest :=
  skipBlanks_cons rfl _

theorem isBlank_of_isDigit {c : Char} (digit : c.isDigit) : isBlank c = false := by
  by_contra blank
  simp only [isBlank, Bool.not_eq_false, Bool.or_eq_true, beq_iff_eq] at blank
  rcases blank with ((rfl | rfl) | rfl) | rfl <;> contradiction

theorem exists_toDigits_eq_cons (value : Nat) :
    ∃ c tail, Nat.toDigits 10 value = c :: tail ∧ c.isDigit := by
  obtain ⟨c, tail, digits⟩ := List.exists_cons_of_ne_nil (Nat.toDigits_ne_nil (b := 10) (n := value))
  exact ⟨c, tail, digits, Nat.isDigit_of_mem_toDigits (by decide) (by decide)
    (digits ▸ List.mem_cons_self)⟩

/-- What the first character of its text tells of a value. -/
structure Leads (depth : Nat) (value : Json) (c : Char) : Prop where
  mark : isBlank c = false
  content : c ≠ ']'
  null : c = 'n' → value = .null
  nests : c = '[' ∨ c = '\x7b' → 0 < depth

theorem Fits.exists_leads {depth : Nat} {value : Json} (fits : Fits depth value) :
    ∃ c tail, value.chars = c :: tail ∧ Leads depth value c := by
  cases fits with
  | null => exact ⟨_, _, rfl, rfl, by decide, fun _ => rfl, by simp⟩
  | @bool _ value => cases value <;> exact ⟨_, _, rfl, rfl, by decide, by simp, by simp⟩
  | @num value =>
    obtain ⟨c, tail, digits, digit⟩ := exists_toDigits_eq_cons value
    refine ⟨c, tail, digits, isBlank_of_isDigit digit, ?_, ?_, ?_⟩
    · rintro rfl; contradiction
    · rintro rfl; contradiction
    · rintro (rfl | rfl) <;> contradiction
  | str => exact ⟨_, _, rfl, rfl, by decide, by simp, by simp⟩
  | @arr items => cases items <;> exact ⟨_, _, by rw [chars], rfl, by decide, by simp, by simp⟩
  | @obj members => cases members <;> exact ⟨_, _, by rw [chars], rfl, by decide, by simp, by simp⟩

theorem Fits.skipBlanks_append {depth : Nat} {value : Json} (fits : Fits depth value)
    (rest : List Char) : skipBlanks (value.chars ++ rest) = value.chars ++ rest := by
  obtain ⟨c, tail, text, leads⟩ := fits.exists_leads
  rw [text]
  exact skipBlanks_cons leads.mark _

theorem Fits.append_ne_bracket {depth : Nat} {value : Json} (fits : Fits depth value)
    (rest tail : List Char) : value.chars ++ rest ≠ ']' :: tail := by
  obtain ⟨c, _, text, leads⟩ := fits.exists_leads
  rw [text]
  exact fun same => leads.content (List.cons.inj same).1

theorem readValue_of_isDigit {c : Char} {text rest : List Char} {value : Number}
    {purpose : Purpose} (digit : c.isDigit)
    (reads : readNumber purpose false (c :: text) = .ok (value, rest)) (fuel depth : Nat) :
    readValue purpose fuel depth (c :: text) = .ok (.num value, rest) := by
  unfold readValue
  rw [skipBlanks_cons (isBlank_of_isDigit digit)]
  split <;> simp_all

/-! ### Arrays and objects -/

/-- A reader takes the text of a value for that value, whatever stands behind it. -/
def Reads (reader : Reader Json) (value : Json) : Prop :=
  ∀ rest, Closes rest → reader (value.chars ++ rest) = .ok (value, rest)

theorem closes_itemsChars (items : List Json) (rest : List Char) :
    Closes (itemsChars items ++ rest) := by
  cases items <;> simp [Closes, itemsChars]

theorem closes_membersChars (members : List (String × Json)) (rest : List Char) :
    Closes (membersChars members ++ rest) := by
  cases members <;> simp [Closes, membersChars]

section Sequences

variable {fuel : Nat} {text rest left : List Char}

theorem readItems_last {reader : Reader α} {value : α}
    (item : reader text = .ok (value, ']' :: rest)) :
    readItems reader (fuel + 1) text = .ok ([value], rest) := by
  rw [readItems, item]
  rfl

theorem readItems_cons {reader : Reader α} {value : α} {values : List α}
    (item : reader text = .ok (value, ',' :: rest))
    (items : readItems reader fuel rest = .ok (values, left)) :
    readItems reader (fuel + 1) text = .ok (value :: values, left) := by
  simp [readItems, item, skipBlanks_cons (show isBlank ',' = false from rfl), items]

theorem readItems_itemsChars {reader : Reader Json} {item : Json} {items : List Json}
    (reads : ∀ value ∈ item :: items, Reads reader value) (enough : items.length < fuel)
    (rest : List Char) :
    readItems reader fuel (item.chars ++ (itemsChars items ++ rest)) =
      .ok (item :: items, rest) := by
  obtain ⟨fuel, rfl⟩ : ∃ less, fuel = less + 1 := ⟨fuel - 1, by omega⟩
  have first := reads item List.mem_cons_self _ (closes_itemsChars items rest)
  induction items generalizing item fuel with
  | nil => exact readItems_last first
  | cons next items ih =>
    obtain ⟨fuel, rfl⟩ : ∃ less, fuel = less + 1 := ⟨fuel - 1, by simp at enough; omega⟩
    rw [itemsChars, List.cons_append, List.append_assoc] at first ⊢
    have others := ih (fun value inside => reads value (.tail _ inside)) fuel
      (by simpa using enough) (reads next (by simp) _ (closes_itemsChars items rest))
    exact readItems_cons first others

/-- What stands behind each name is read as the member's value, the names before it being seen. -/
def ReadsMembers (readRest : List String → String → Reader (Option Json)) :
    (seen : List String) → List (String × Json) → Prop
  | _, [] => True
  | seen, (name, value) :: members =>
    (∀ rest, Closes rest →
      readRest seen name (':' :: (value.chars ++ rest)) = .ok (some value, rest)) ∧
    ReadsMembers readRest (name :: seen) members

variable {readRest : List String → String → Reader (Option Json)} {seen : List String}
  {name : String} {value : Json} {members : List (String × Json)}

theorem readMembers_last (enough : name.toList.length ≤ fuel)
    (member : readRest seen name text = .ok (some value, '\x7d' :: rest)) :
    readMembers .keep readRest (fuel + 1) seen (quoted name ++ text) =
      .ok ([(name, value)], rest) := by
  have named := readString_quoted name text (Nat.lt_succ_of_le enough)
  simp [readMembers, quoted, expectMark, skipBlanks_cons (show isBlank '"' = false from rfl),
    skipBlanks_cons (show isBlank '\x7d' = false from rfl), named, member]

theorem readMembers_cons (enough : name.toList.length ≤ fuel)
    (member : readRest seen name text = .ok (some value, ',' :: rest))
    (others : readMembers .keep readRest fuel (name :: seen) rest = .ok (members, left)) :
    readMembers .keep readRest (fuel + 1) seen (quoted name ++ text) =
      .ok ((name, value) :: members, left) := by
  have named := readString_quoted name text (Nat.lt_succ_of_le enough)
  simp [readMembers, quoted, expectMark, skipBlanks_cons (show isBlank '"' = false from rfl),
    skipBlanks_cons (show isBlank ',' = false from rfl), named, member, others]

theorem readMembers_membersChars (reads : ReadsMembers readRest seen ((name, value) :: members))
    (enough : (membersChars ((name, value) :: members)).length ≤ fuel) (rest : List Char) :
    readMembers .keep readRest fuel seen
        (quoted name ++ ':' :: (value.chars ++ (membersChars members ++ rest))) =
      .ok ((name, value) :: members, rest) := by
  obtain ⟨fuel, rfl⟩ : ∃ less, fuel = less + 1 :=
    ⟨fuel - 1, by simp [membersChars] at enough; omega⟩
  have room := length_add_two_le_quoted name
  have first := reads.1 _ (closes_membersChars members rest)
  simp only [membersChars, List.length_cons, List.length_append] at enough
  induction members generalizing seen name value fuel with
  | nil => exact readMembers_last (by omega) first
  | cons next members ih =>
    obtain ⟨next, succ⟩ := next
    simp only [membersChars, List.length_cons, List.length_append] at enough
    obtain ⟨fuel, rfl⟩ : ∃ less, fuel = less + 1 := ⟨fuel - 1, by omega⟩
    have others := ih reads.2 fuel (length_add_two_le_quoted next)
      (reads.2.1 _ (closes_membersChars members rest)) (by omega)
    refine readMembers_cons (by omega) ?_ others
    simpa [membersChars] using first

end Sequences

theorem readValue_items {text rest : List Char} {items : List Json} {purpose : Purpose}
    {fuel depth : Nat} (unblank : skipBlanks text = text) (content : ∀ tail, text ≠ ']' :: tail)
    (reads : readItems (readValue purpose fuel depth) fuel text = .ok (items, rest)) :
    readValue purpose fuel (depth + 1) ('[' :: text) = .ok (.arr items, rest) := by
  rw [readValue, skipBlanks_cons rfl]
  simp only [unblank, reads, ok_bind]

theorem readValue_members {text rest : List Char} {name : String} {members : List (String × Json)}
    {purpose : Purpose} {fuel depth : Nat}
    (reads : readMembers purpose (fun _ _ => readBehindColon (readValue purpose fuel depth)) fuel []
      (quoted name ++ text) = .ok (members, rest)) :
    readValue purpose fuel (depth + 1) ('\x7b' :: (quoted name ++ text)) =
      .ok (.obj members, rest) := by
  rw [readValue, skipBlanks_cons rfl]
  simp only [skipBlanks_quoted, reads, ok_bind]
  rfl

theorem readsMembers_of_forall {readRest : List String → String → Reader (Option Json)}
    {seen : List String} {members : List (String × Json)}
    (reads : ∀ member ∈ members, ∀ seen rest, Closes rest →
      readRest seen member.1 (':' :: (member.2.chars ++ rest)) = .ok (some member.2, rest)) :
    ReadsMembers readRest seen members := by
  induction members generalizing seen with
  | nil => trivial
  | cons member members ih =>
    exact ⟨reads member List.mem_cons_self seen, ih fun other inside => reads other (.tail _ inside)⟩

theorem Reads.behindColon {reader : Reader Json} {value : Json} (reads : Reads reader value)
    {rest : List Char} (closes : Closes rest) :
    readBehindColon reader (':' :: (value.chars ++ rest)) = .ok (some value, rest) := by
  simp [readBehindColon, expectMark, skipBlanks_cons, isBlank, reads rest closes]

theorem length_lt_chars_arr (items : List Json) : items.length < (arr items).chars.length ∧
    ∀ item ∈ items, item.chars.length < (arr items).chars.length := by
  have written : items.length < (itemsChars items).length ∧
      ∀ item ∈ items, item.chars.length < (itemsChars items).length := by
    induction items with
    | nil => simp [itemsChars]
    | cons first items ih =>
      rw [itemsChars, List.length_cons, List.length_cons, List.length_append]
      refine ⟨by omega, ?_⟩
      intro item inside
      rcases List.mem_cons.mp inside with rfl | inside
      · omega
      · have := ih.2 item inside
        omega
  have opened : (itemsChars items).length ≤ (arr items).chars.length := by
    cases items <;> simp [itemsChars, chars]
  exact ⟨by omega, fun item inside => lt_of_lt_of_le (written.2 item inside) opened⟩

theorem length_membersChars_le (members : List (String × Json)) :
    (membersChars members).length ≤ (obj members).chars.length := by
  cases members <;> simp [membersChars, chars]

theorem length_lt_chars_obj {members : List (String × Json)} {member : String × Json}
    (inside : member ∈ members) : member.2.chars.length < (obj members).chars.length := by
  have written : member.2.chars.length < (membersChars members).length := by
    induction members with
    | nil => contradiction
    | cons first members ih =>
      simp only [membersChars, List.length_cons, List.length_append]
      rcases List.mem_cons.mp inside with rfl | inside
      · omega
      · have := ih inside
        omega
  exact lt_of_lt_of_le written (length_membersChars_le members)

theorem chars_arr_append (item : Json) (items : List Json) (rest : List Char) :
    (arr (item :: items)).chars ++ rest = '[' :: (item.chars ++ (itemsChars items ++ rest)) := by
  simp [chars]

theorem chars_obj_append (name : String) (value : Json) (members : List (String × Json))
    (rest : List Char) : (obj ((name, value) :: members)).chars ++ rest =
      '\x7b' :: (quoted name ++ ':' :: (value.chars ++ (membersChars members ++ rest))) := by
  simp [chars]

/-- Fuel of the length of the text suffices. -/
theorem Fits.reads {depth : Nat} {value : Json} (fits : Fits depth value) {fuel : Nat}
    (enough : value.chars.length ≤ fuel) : Reads (readValue .keep fuel depth) value := by
  -- The parts of a value are read with the fuel of the whole, as its depth is what goes down.
  induction fits with
  | null =>
    intro rest closes
    simp [readValue, chars, skipBlanks_cons, isBlank, expectWord]
  | @bool _ value =>
    intro rest closes
    cases value <;> simp [readValue, chars, skipBlanks_cons, isBlank, expectWord]
  | @num value _ small =>
    intro rest closes
    obtain ⟨c, tail, digits, digit⟩ := exists_toDigits_eq_cons value
    have reads := readNumber_toDigits closes small
    rw [chars, Number.chars]
    rw [digits, List.cons_append] at reads ⊢
    exact readValue_of_isDigit digit reads fuel _
  | @str _ text =>
    intro rest closes
    have room := length_add_two_le_quoted text
    have short : text.toList.length < fuel := by
      rw [chars] at enough
      omega
    simp [readValue, chars, quoted, skipBlanks_cons, isBlank, readString_quoted text rest short]
  | @arr values depth fits ih =>
    intro rest closes
    have room := length_lt_chars_arr values
    cases values with
    | nil => simp [readValue, chars, skipBlanks_cons, isBlank]
    | cons item values =>
      have first := fits item List.mem_cons_self
      rw [chars_arr_append]
      refine readValue_items (first.skipBlanks_append _) (first.append_ne_bracket _)
        (readItems_itemsChars ?_ ?_ rest)
      · exact fun value inside => ih value inside ((room.2 value inside).le.trans enough)
      · exact lt_of_lt_of_le (Nat.lt_of_succ_lt room.1) enough
  | @obj members depth fits ih =>
    intro rest closes
    cases members with
    | nil => simp [readValue, chars, skipBlanks_cons, isBlank]
    | cons member members =>
      obtain ⟨name, value⟩ := member
      have text := (length_membersChars_le _).trans enough
      rw [chars_obj_append]
      refine readValue_members (readMembers_membersChars (readsMembers_of_forall ?_) text rest)
      intro member inside seen rest closes
      exact (ih member inside ((length_lt_chars_obj inside).le.trans enough)).behindColon closes

/-- No value that fits is lost on its way through text. -/
theorem parse_render {value : Json} (fits : Fits maxDepth value) :
    parse value.render = .ok value := by
  have reads := fits.reads le_rfl [] (by simp [Closes])
  rw [List.append_nil] at reads
  simp [parse, render, reads, expectEnd, skipBlanks, pure, Except.pure]

end SchedReplay.Json
