/-! Splitting into lines, for characters and for bytes alike. -/
namespace SchedReplay.Text

/-- The lines of a text. Each ends at `lf`, and one `cr` right before that end belongs to it; a
last line may lack the end. -/
def lines [DecidableEq α] (lf cr : α) : List α → List (List α)
  | [] => []
  | c :: rest =>
    if c = lf then [] :: lines lf cr rest
    else if c = cr ∧ rest.head? = some lf then lines lf cr rest
    else
      match lines lf cr rest with
      | [] => [[c]]
      | line :: more => (c :: line) :: more

/-- A line that holds neither mark ends at the next `lf`. -/
theorem lines_append_end [DecidableEq α] {lf cr : α} {line : List α}
    (unmarked : ∀ c ∈ line, c ≠ lf ∧ c ≠ cr) (rest : List α) :
    lines lf cr (line ++ lf :: rest) = line :: lines lf cr rest := by
  induction line with
  | nil => simp [lines]
  | cons c line ih =>
    have first := unmarked c List.mem_cons_self
    have others := ih fun other inside => unmarked other (.tail _ inside)
    simp [lines, first, others]

def charLines (text : List Char) : List (List Char) := lines '\n' '\r' text

def byteLines (text : List UInt8) : List (List UInt8) := lines 0x0A 0x0D text

example : charLines ['a', '\r', '\n', '\r', '\r', '\n', 'b', '\r'] =
    [['a'], ['\r'], ['b', '\r']] := by decide

end SchedReplay.Text
