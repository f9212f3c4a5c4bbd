/-! The Unicode property White_Space, and text without it at either end. -/
namespace SchedReplay.Text

/-- Whether a character has the Unicode property White_Space. -/
def isBlank (c : Char) : Bool :=
  let code := c.toNat
  (0x09 ≤ code && code ≤ 0x0D) || code == 0x20 || code == 0x85 || code == 0xA0 ||
    code == 0x1680 || (0x2000 ≤ code && code ≤ 0x200A) || code == 0x2028 || code == 0x2029 ||
    code == 0x202F || code == 0x205F || code == 0x3000

def trimStart (text : List Char) : List Char := text.dropWhile isBlank

def trimEnd (text : List Char) : List Char := (text.reverse.dropWhile isBlank).reverse

def trim (text : List Char) : List Char := trimEnd (trimStart text)

section Trimming

variable {text inner : List Char}

theorem trimStart_eq_iff : trimStart text = inner ↔
    (∃ before, text = before ++ inner ∧ ∀ c ∈ before, isBlank c = true) ∧
      ∀ c ∈ inner.head?, isBlank c = false := by
  constructor
  · rintro rfl
    refine ⟨⟨text.takeWhile isBlank, List.takeWhile_append_dropWhile.symm,
      List.all_eq_true.mp List.all_takeWhile⟩, fun c is => ?_⟩
    have stops := List.head?_dropWhile_not isBlank text
    rwa [← trimStart, Option.mem_def.mp is] at stops
  · rintro ⟨⟨before, rfl, blank⟩, first⟩
    rw [trimStart, List.dropWhile_append_of_pos blank]
    cases inner with
    | nil => rfl
    | cons c inner => exact List.dropWhile_cons_of_neg (by simp [first c rfl])

theorem trimEnd_eq_iff : trimEnd text = inner ↔
    (∃ after, text = inner ++ after ∧ ∀ c ∈ after, isBlank c = true) ∧
      ∀ c ∈ inner.getLast?, isBlank c = false := by
  rw [trimEnd, ← trimStart, List.reverse_eq_iff, trimStart_eq_iff, List.head?_reverse]
  refine and_congr_left' ⟨?_, ?_⟩
  · rintro ⟨before, mirrored, blank⟩
    refine ⟨before.reverse, ?_, by simpa using blank⟩
    rw [List.reverse_eq_iff.mp mirrored, List.reverse_append, List.reverse_reverse]
  · rintro ⟨after, rfl, blank⟩
    exact ⟨after.reverse, List.reverse_append, by simpa using blank⟩

/-- A text and what is left of it without the blanks at either end. -/
structure Trimmed (text inner : List Char) : Prop where
  around : ∃ before after, text = before ++ inner ++ after ∧
    ∀ c ∈ before ++ after, isBlank c = true
  first : ∀ c ∈ inner.head?, isBlank c = false
  last : ∀ c ∈ inner.getLast?, isBlank c = false

theorem trimmed_trim (text : List Char) : Trimmed text (trim text) := by
  obtain ⟨⟨before, opened, front⟩, first⟩ := trimStart_eq_iff.mp (Eq.refl (trimStart text))
  obtain ⟨⟨after, closed, back⟩, last⟩ := trimEnd_eq_iff.mp (Eq.refl (trim text))
  refine ⟨⟨before, after, ?_, ?_⟩, fun c is => first c ?_, last⟩
  · rw [List.append_assoc, ← closed, ← opened]
  · simpa [or_imp, forall_and] using ⟨front, back⟩
  · rw [closed, List.head?_append, Option.mem_def.mp is]
    rfl

/-- The trimmed text is all that can be left. -/
theorem trim_eq_iff : trim text = inner ↔ Trimmed text inner := by
  refine ⟨fun is => is ▸ trimmed_trim text, ?_⟩
  rintro ⟨⟨before, after, rfl, blank⟩, first, last⟩
  obtain ⟨front, back⟩ := List.forall_mem_append.mp blank
  cases inner with
  | nil =>
    have gone : trimStart (before ++ [] ++ after) = [] :=
      trimStart_eq_iff.mpr ⟨⟨_, (List.append_nil _).symm, by simpa using blank⟩, by simp⟩
    rw [trim, gone]
    rfl
  | cons c inner =>
    have opened : trimStart (before ++ c :: inner ++ after) = c :: inner ++ after :=
      trimStart_eq_iff.mpr ⟨⟨before, List.append_assoc .., front⟩, first⟩
    rw [trim, opened]
    exact trimEnd_eq_iff.mpr ⟨⟨after, rfl, back⟩, last⟩

end Trimming

end SchedReplay.Text
