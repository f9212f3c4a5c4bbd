import SchedReplay.Proofs.Rereading

/-! Compact text tells values apart: it determines the value it was written from, also as the front
of a longer text, and it holds no control character. -/
namespace SchedReplay.Json

/-- A value whose numbers are natural numerals, of any size. -/
inductive Plain : Json → Prop
  | null : Plain .null
  | bool : Plain (.bool value)
  | num : Plain (.num (.natural value))
  | str : Plain (.str value)
  | arr (items : ∀ item ∈ values, Plain item) : Plain (.arr values)
  | obj (members : ∀ member ∈ values, Plain member.2) : Plain (.obj values)

@[simp] theorem plain_bool {value : Bool} : Plain (.bool value) := .bool

@[simp] theorem plain_str {text : String} : Plain (.str text) := .str

@[simp] theorem plain_obj {members : List (String × Json)} :
    Plain (.obj members) ↔ ∀ member ∈ members, Plain member.2 := by
  constructor
  · rintro (_ | _ | _ | _ | _ | plain)
    exact plain
  · exact .obj

theorem Plain.ofOption {encode : α → Json} (plain : ∀ value, Plain (encode value)) :
    ∀ value : Option α, Plain (Json.ofOption encode value)
  | none => .null
  | some value => plain value

theorem Plain.ofList {encode : α → Json} (plain : ∀ value, Plain (encode value))
    (values : List α) : Plain (Json.ofList encode values) := by
  apply Plain.arr
  intro item inside
  obtain ⟨value, _, rfl⟩ := List.mem_map.mp inside
  exact plain value

/-! ### Characters of the text -/

/-- Characters from U+0020 on, none of which ends a line. -/
def Printable (text : List Char) : Prop := ∀ c ∈ text, 0x20 ≤ c.toNat

@[simp] theorem printable_nil : Printable [] := by simp [Printable]

@[simp] theorem printable_cons {c : Char} {text : List Char} :
    Printable (c :: text) ↔ 0x20 ≤ c.toNat ∧ Printable text := by
  simp [Printable]

@[simp] theorem printable_append {text rest : List Char} :
    Printable (text ++ rest) ↔ Printable text ∧ Printable rest := by
  simp [Printable, or_imp, forall_and]

theorem printable_hexDigit (value : Nat) : 0x20 ≤ (hexDigit value).toNat := by
  have table : ∀ digit < 16, 0x20 ≤ digit.digitChar.toNat := by decide
  exact table _ (Nat.mod_lt _ (by decide))

theorem printable_escape (c : Char) : Printable (escape c) := by
  unfold escape
  split
  · simp
  split
  · simp
  split
  · split <;> simp [printable_hexDigit]
  · next visible => simpa using visible

theorem printable_quoted (text : String) : Printable (quoted text) := by
  have inside : Printable (text.toList.flatMap escape) := by
    intro c written
    obtain ⟨source, _, written⟩ := List.mem_flatMap.mp written
    exact printable_escape source c written
  simp [quoted, inside]

theorem printable_toDigits (value : Nat) : Printable (Nat.toDigits 10 value) := by
  intro c inside
  have digit := Nat.isDigit_of_mem_toDigits (by decide) (by decide) inside
  have visible : 0x20 ≤ '0'.toNat := by decide
  exact visible.trans (Char.isDigit_iff_toNat.mp digit).1

theorem printable_itemsChars {items : List Json} (printable : ∀ item ∈ items, Printable item.chars) :
    Printable (itemsChars items) := by
  induction items with
  | nil => simp [itemsChars]
  | cons item items ih =>
    have others := ih fun other inside => printable other (.tail _ inside)
    simp [itemsChars, printable item List.mem_cons_self, others]

theorem printable_membersChars {members : List (String × Json)}
    (printable : ∀ member ∈ members, Printable member.2.chars) :
    Printable (membersChars members) := by
  induction members with
  | nil => simp [membersChars]
  | cons member members ih =>
    have others := ih fun other inside => printable other (.tail _ inside)
    have first := printable member List.mem_cons_self
    simp [membersChars, printable_quoted, first, others]

theorem Plain.printable {value : Json} (plain : Plain value) : Printable value.chars := by
  induction plain with
  | null => simp [chars]
  | @bool value => cases value <;> simp [chars]
  | @num value => exact printable_toDigits value
  | @str text => exact printable_quoted text
  | @arr items _ ih =>
    cases items with
    | nil => simp [chars]
    | cons item items =>
      have others := printable_itemsChars fun other inside => ih other (.tail _ inside)
      simp [chars, ih item List.mem_cons_self, others]
  | @obj members _ ih =>
    cases members with
    | nil => simp [chars]
    | cons member members =>
      have others := printable_membersChars fun other inside => ih other (.tail _ inside)
      have first := ih member List.mem_cons_self
      simp [chars, printable_quoted, first, others]

/-! ### Texts that determine their values -/

/-- The sort of a value: the first character of its text, but one for all numbers and one for both
truth values. -/
def sort : Json → Char
  | null => 'n'
  | bool _ => 't'
  | num _ => '0'
  | str _ => '"'
  | arr _ => '['
  | obj _ => '\x7b'

/-- The sort of the values whose text starts with `c`. -/
def sortOf (c : Char) : Char := if c.isDigit then '0' else if c = 'f' then 't' else c

theorem Plain.exists_chars_eq_cons {value : Json} (plain : Plain value) :
    ∃ c tail, value.chars = c :: tail ∧ sortOf c = value.sort := by
  cases plain with
  | null => exact ⟨_, _, rfl, rfl⟩
  | @bool value => cases value <;> exact ⟨_, _, rfl, rfl⟩
  | @num value =>
    obtain ⟨c, tail, digits, digit⟩ := exists_toDigits_eq_cons value
    exact ⟨c, tail, digits, if_pos digit⟩
  | str => exact ⟨_, _, rfl, rfl⟩
  | @arr items => cases items <;> exact ⟨_, _, by rw [chars], rfl⟩
  | @obj members => cases members <;> exact ⟨_, _, by rw [chars], rfl⟩

section Prefixes

variable {rest left : List Char}

theorem Plain.sort_eq {value other : Json} (plain : Plain value) (plainOther : Plain other)
    (same : value.chars ++ rest = other.chars ++ left) : value.sort = other.sort := by
  obtain ⟨c, tail, text, sorted⟩ := plain.exists_chars_eq_cons
  obtain ⟨d, _, textOther, sortedOther⟩ := plainOther.exists_chars_eq_cons
  rw [text, textOther] at same
  rw [← sorted, ← sortedOther, (List.cons.inj same).1]

theorem Plain.append_ne_bracket {value : Json} (plain : Plain value) :
    value.chars ++ rest ≠ ']' :: left := by
  obtain ⟨c, tail, text, sorted⟩ := plain.exists_chars_eq_cons
  rw [text]
  intro same
  rw [(List.cons.inj same).1] at sorted
  unfold sort at sorted
  split at sorted <;> contradiction

theorem quoted_append_inj {text other : String}
    (same : quoted text ++ rest = quoted other ++ left) : text = other ∧ rest = left := by
  have reads (fuel : Nat) (text : String) (rest : List Char) (enough : text.toList.length < fuel) :
      readString .keep fuel ((quoted text ++ rest).tail) = .ok (text, rest) := by
    simpa [quoted] using readString_quoted text rest enough
  have first := reads (text.toList.length + other.toList.length + 1) text rest (by omega)
  rw [same, reads _ other left (by omega)] at first
  cases first
  exact ⟨rfl, rfl⟩

/-- A text that starts with this value, up to a mark that closes it, starts with no other value. -/
def Determined (value : Json) : Prop :=
  ∀ other, Plain other → ∀ rest left, Closes rest → Closes left →
    value.chars ++ rest = other.chars ++ left → value = other ∧ rest = left

theorem itemsChars_append_inj {items others : List Json} (determined : ∀ item ∈ items, Determined item)
    (plain : ∀ other ∈ others, Plain other)
    (same : itemsChars items ++ rest = itemsChars others ++ left) : items = others ∧ rest = left := by
  induction items generalizing others with
  | nil =>
    cases others with
    | nil => exact ⟨rfl, by simpa [itemsChars] using same⟩
    | cons other others => simp [itemsChars] at same
  | cons item items ih =>
    cases others with
    | nil => simp [itemsChars] at same
    | cons other others =>
      simp only [itemsChars, List.cons_append, List.append_assoc, List.cons.injEq, true_and] at same
      obtain ⟨rfl, behind⟩ := determined item List.mem_cons_self other (plain other List.mem_cons_self)
        _ _ (closes_itemsChars items rest) (closes_itemsChars others left) same
      obtain ⟨rfl, tails⟩ := ih (fun value inside => determined value (.tail _ inside))
        (fun value inside => plain value (.tail _ inside)) behind
      exact ⟨rfl, tails⟩

theorem membersChars_append_inj {members others : List (String × Json)}
    (determined : ∀ member ∈ members, Determined member.2) (plain : ∀ other ∈ others, Plain other.2)
    (same : membersChars members ++ rest = membersChars others ++ left) :
    members = others ∧ rest = left := by
  induction members generalizing others with
  | nil =>
    cases others with
    | nil => exact ⟨rfl, by simpa [membersChars] using same⟩
    | cons other others => simp [membersChars] at same
  | cons member members ih =>
    cases others with
    | nil => simp [membersChars] at same
    | cons other others =>
      simp only [membersChars, List.cons_append, List.append_assoc, List.cons.injEq, true_and] at same
      obtain ⟨names, same⟩ := quoted_append_inj same
      obtain ⟨values, behind⟩ := determined member List.mem_cons_self other.2
        (plain other List.mem_cons_self) _ _ (closes_membersChars members rest)
        (closes_membersChars others left) (List.cons.inj same).2
      obtain ⟨rfl, tails⟩ := ih (fun value inside => determined value (.tail _ inside))
        (fun value inside => plain value (.tail _ inside)) behind
      exact ⟨congrArg (· :: members) (Prod.ext names values), tails⟩

theorem arr_append_inj {items others : List Json} (plain : ∀ item ∈ items, Plain item)
    (determined : ∀ item ∈ items, Determined item) (plainOthers : ∀ other ∈ others, Plain other)
    (same : (arr items).chars ++ rest = (arr others).chars ++ left) :
    items = others ∧ rest = left := by
  cases items with
  | nil =>
    cases others with
    | nil => exact ⟨rfl, by simpa [chars] using same⟩
    | cons other others =>
      rw [chars_arr_append] at same
      have bracket := (List.cons.inj same).2.symm
      exact absurd bracket (plainOthers other List.mem_cons_self).append_ne_bracket
  | cons item items =>
    rw [chars_arr_append] at same
    cases others with
    | nil =>
      have bracket := (List.cons.inj same).2
      exact absurd bracket (plain item List.mem_cons_self).append_ne_bracket
    | cons other others =>
      rw [chars_arr_append] at same
      apply itemsChars_append_inj determined plainOthers
      simpa [itemsChars] using (List.cons.inj same).2

theorem obj_append_inj {members others : List (String × Json)}
    (determined : ∀ member ∈ members, Determined member.2)
    (plainOthers : ∀ other ∈ others, Plain other.2)
    (same : (obj members).chars ++ rest = (obj others).chars ++ left) :
    members = others ∧ rest = left := by
  cases members with
  | nil =>
    cases others with
    | nil => exact ⟨rfl, by simpa [chars] using same⟩
    | cons other others => simp [chars, quoted] at same
  | cons member members =>
    cases others with
    | nil => simp [chars, quoted] at same
    | cons other others =>
      rw [chars_obj_append, chars_obj_append] at same
      apply membersChars_append_inj determined plainOthers
      simpa [membersChars] using (List.cons.inj same).2

end Prefixes

theorem Plain.determined {value : Json} (plain : Plain value) : Determined value := by
  -- The first characters of the two texts are the same, so the two values are of the same sort.
  induction plain with
  | null =>
    intro other plain rest left _ _ same
    have sorts := Plain.null.sort_eq plain same
    cases plain with
    | null => exact ⟨rfl, by simpa [chars] using same⟩
    | _ => cases sorts
  | @bool value =>
    intro other plain rest left _ _ same
    have sorts := Plain.bool.sort_eq plain same
    cases plain with
    | @bool other => cases value <;> cases other <;> simp_all [chars]
    | _ => cases sorts
  | @num value =>
    intro other plain rest left closes closesLeft same
    have sorts := Plain.num.sort_eq plain same
    cases plain with
    | @num other =>
      obtain ⟨rfl, tails⟩ :=
        Text.delimited_toDigits closes.endsNumeral closesLeft.endsNumeral same
      exact ⟨rfl, tails⟩
    | _ => cases sorts
  | @str text =>
    intro other plain rest left _ _ same
    have sorts := Plain.str.sort_eq plain same
    cases plain with
    | @str other =>
      obtain ⟨rfl, tails⟩ := quoted_append_inj same
      exact ⟨rfl, tails⟩
    | _ => cases sorts
  | @arr items plainItems ih =>
    intro other plain rest left _ _ same
    have sorts := (Plain.arr plainItems).sort_eq plain same
    cases plain with
    | @arr others plainOthers =>
      obtain ⟨rfl, tails⟩ := arr_append_inj plainItems ih plainOthers same
      exact ⟨rfl, tails⟩
    | _ => cases sorts
  | @obj members plainMembers ih =>
    intro other plain rest left _ _ same
    have sorts := (Plain.obj plainMembers).sort_eq plain same
    cases plain with
    | @obj others plainOthers =>
      obtain ⟨rfl, tails⟩ := obj_append_inj ih plainOthers same
      exact ⟨rfl, tails⟩
    | _ => cases sorts

theorem render_inj {value other : Json} (plain : Plain value) (plainOther : Plain other)
    (same : value.render = other.render) : value = other := by
  have texts : value.chars ++ [] = other.chars ++ [] := by
    rw [String.ofList_injective same]
  exact (plain.determined other plainOther [] [] (by simp [Closes]) (by simp [Closes]) texts).1

end SchedReplay.Json
