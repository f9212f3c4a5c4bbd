/-! Text that shows where it ends: what was written can be told from the text behind it. This holds
of numerals, and it is passed on to labelled parts, parts that may be missing, and lists. -/
namespace SchedReplay.Text

/-- In front of any text that may follow, a written form determines its value and where it ends. -/
def Delimited (follows : List Char → Prop) (write : α → List Char) : Prop :=
  ∀ ⦃value other⦄ ⦃rest left : List Char⦄, follows rest → follows left →
    write value ++ rest = write other ++ left → value = other ∧ rest = left

/-- A part that may be missing, with what stands in its place. -/
def optional (absent : List Char) (write : α → List Char) (value : Option α) : List Char :=
  value.elim absent write

/-- The items of a list, the first behind a mark and each later one behind the separator. -/
def listed (separator : List Char) (write : α → List Char) : List Char → List α → List Char
  | _, [] => []
  | mark, first :: more => mark ++ (write first ++ listed separator write separator more)

theorem listed_eq_intercalate (separator : List Char) (write : α → List Char) (mark : List Char)
    {values : List α} (inhabited : values ≠ []) :
    listed separator write mark values = mark ++ separator.intercalate (values.map write) := by
  induction values generalizing mark with
  | nil => contradiction
  | cons first more ih =>
    cases more with
    | nil => simp [listed]
    | cons second more => rw [listed, ih separator (by simp)]; simp

namespace Delimited

variable {follows : List Char → Prop} {write : α → List Char}

theorem mono {narrower : List Char → Prop} (delimited : Delimited follows write)
    (narrow : ∀ rest, narrower rest → follows rest) : Delimited narrower write := by
  intro value other rest left behind behindOther
  exact delimited (narrow rest behind) (narrow left behindOther)

theorem labelled (delimited : Delimited follows write) (label : List Char) :
    Delimited follows fun value => label ++ write value := by
  intro value other rest left behind behindOther same
  rw [List.append_assoc, List.append_assoc] at same
  exact delimited behind behindOther (List.append_cancel_left same)

theorem optional {absent : List Char} (delimited : Delimited follows write)
    (apart : ∀ value rest left, follows left → write value ++ rest ≠ absent ++ left) :
    Delimited follows (optional absent write) := by
  intro value other rest left behind behindOther same
  cases value with
  | none =>
    cases other with
    | none => exact ⟨rfl, List.append_cancel_left same⟩
    | some other => exact absurd same.symm (apart other left rest behind)
  | some value =>
    cases other with
    | none => exact absurd same (apart value rest left behindOther)
    | some other =>
      obtain ⟨values, tails⟩ := delimited behind behindOther same
      exact ⟨congrArg some values, tails⟩

/-- A list ends where neither its mark nor another separator follows. -/
theorem listed {ends : List Char → Prop} {separator mark : List Char}
    (delimited : Delimited follows write) (divides : ∀ rest, follows (separator ++ rest))
    (closes : ∀ rest, ends rest → follows rest ∧ ¬ separator <+: rest)
    (apart : ∀ rest, ends rest → ¬ mark <+: rest) :
    Delimited ends (listed separator write mark) := by
  intro values
  induction values generalizing mark with
  | nil =>
    intro others rest left behind _ same
    cases others with
    | nil => exact ⟨rfl, same⟩
    | cons other others =>
      exact absurd ⟨_, by simpa [Text.listed] using same.symm⟩ (apart rest behind)
  | cons value values ih =>
    intro others rest left behind behindOther same
    cases others with
    | nil => exact absurd ⟨_, by simpa [Text.listed] using same⟩ (apart left behindOther)
    | cons other others =>
      have continues (values : List α) {rest : List Char} (behind : ends rest) :
          follows (Text.listed separator write separator values ++ rest) := by
        cases values with
        | nil => exact (closes rest behind).1
        | cons value values => simpa [Text.listed] using divides _
      simp only [Text.listed, List.append_assoc, List.append_cancel_left_eq] at same
      obtain ⟨rfl, later⟩ :=
        delimited (continues values behind) (continues others behindOther) same
      obtain ⟨rfl, tails⟩ :=
        ih (fun rest behind => (closes rest behind).2) behind behindOther later
      exact ⟨rfl, tails⟩

end Delimited

/-! ### Numerals -/

/-- What may stand behind a numeral: nothing, or a character that is no digit. -/
def EndsNumeral (rest : List Char) : Prop := ∀ c ∈ rest.head?, c.isDigit = false

@[simp] theorem endsNumeral_cons {c : Char} {rest : List Char} :
    EndsNumeral (c :: rest) ↔ c.isDigit = false := by
  simp [EndsNumeral]

namespace EndsNumeral

variable {rest : List Char} (ends : EndsNumeral rest)

include ends

theorem takeWhile_eq_nil : rest.takeWhile Char.isDigit = [] := by
  cases rest with
  | nil => rfl
  | cons c rest => simp [endsNumeral_cons.mp ends]

theorem dropWhile_eq_self : rest.dropWhile Char.isDigit = rest := by
  cases rest with
  | nil => rfl
  | cons c rest => simp [endsNumeral_cons.mp ends]

theorem takeWhile_toDigits_append (value : Nat) :
    (Nat.toDigits 10 value ++ rest).takeWhile Char.isDigit = Nat.toDigits 10 value := by
  have digits : ∀ c ∈ Nat.toDigits 10 value, c.isDigit = true :=
    fun c inside => Nat.isDigit_of_mem_toDigits (by decide) (by decide) inside
  rw [List.takeWhile_append_of_pos digits, ends.takeWhile_eq_nil, List.append_nil]

end EndsNumeral

theorem delimited_toDigits : Delimited EndsNumeral (Nat.toDigits 10) := by
  intro value other rest left ends endsOther same
  have digits : Nat.toDigits 10 value = Nat.toDigits 10 other := by
    rw [← ends.takeWhile_toDigits_append value, same, endsOther.takeWhile_toDigits_append]
  refine ⟨?value, ?tails⟩
  case value =>
    calc
      value = Nat.ofDigitChars 10 (Nat.toDigits 10 value) 0 := Nat.ofDigitChars_ten_toDigits.symm
      _ = Nat.ofDigitChars 10 (Nat.toDigits 10 other) 0 := by rw [digits]
      _ = other := Nat.ofDigitChars_ten_toDigits
  case tails =>
    rw [digits] at same
    exact List.append_cancel_left same

/-- A number behind a mark, as identifiers are written. -/
theorem delimited_numbered {number : α → Nat} (injective : Function.Injective number)
    (mark : Char) : Delimited EndsNumeral fun value => mark :: Nat.toDigits 10 (number value) := by
  intro value other rest left ends endsOther same
  obtain ⟨numbers, tails⟩ := delimited_toDigits.labelled [mark] ends endsOther same
  exact ⟨injective numbers, tails⟩

end SchedReplay.Text
