import Mathlib.Data.List.Forall2
import SchedReplay.Proofs.Legibility
import SchedReplay.Proofs.Renumbering
import SchedReplay.Recording.Replay

/-! What a recording says, line by line. Blank lines and comments can be put in and taken out: they
move the numbers under which lines are reported, and nothing else follows from them. -/
namespace SchedReplay.Recording

/-- A line that carries no message: it is text, and blank or a comment once it is trimmed. -/
def IsSilent (line : List UInt8) : Prop :=
  ∃ text inner, line = Text.Utf8.encode text ∧ Text.Trimmed text inner ∧
    (inner = [] ∨ inner.head? = some '#')

/-- What a line that is not silent yields. Only a decoding error names the line. -/
inductive Yields (number : Nat) (line : List UInt8) : Item → Prop where
  | unreadable {fault : Text.Utf8.Fault} (invalid : ∀ text, line ≠ Text.Utf8.encode text)
      (found : Text.Utf8.decode line = .error fault) :
      Yields number line (.error (.unreadable fault.message))
  | undecodable {text inner : List Char} {fault : Json.Fault} (is : line = Text.Utf8.encode text)
      (trimmed : Text.Trimmed text inner)
      (fails : Wire.Message.decode (String.ofList inner) = .error fault) :
      Yields number line (.error (.undecodable number fault))
  | message {text inner : List Char} {message : Wire.Message} (is : line = Text.Utf8.encode text)
      (trimmed : Text.Trimmed text inner)
      (decodes : Wire.Message.decode (String.ofList inner) = .ok message) :
      Yields number line (.ok message)

section Lists

theorem filterMap_eq_iff_forall₂ {f : α → Option β} {gives : α → β → Prop} {values : List α}
    (some_iff : ∀ value ∈ values, ∀ result, f value = some result ↔ gives value result)
    (some_of_mem : ∀ value ∈ values, f value ≠ none) (results : List β) :
    values.filterMap f = results ↔ List.Forall₂ gives values results := by
  induction values generalizing results with
  | nil => simp [eq_comm]
  | cons value values ih =>
    rw [List.forall_mem_cons] at some_iff some_of_mem
    obtain ⟨result, found⟩ := Option.ne_none_iff_exists'.mp some_of_mem.1
    rw [List.filterMap_cons_some found, List.forall₂_cons_left_iff]
    simp only [← ih some_iff.2 some_of_mem.2, ← some_iff.1, found, Option.some.injEq]
    simp [eq_comm]

theorem filter_zipIdx_moved (p : α → Bool) (moved : Nat → Nat) (start added : Nat) (lines : List α)
    (moves : ∀ number, start ≤ number → number < start + lines.length →
      moved number = number + added) :
    (lines.zipIdx (start + added)).filter (fun line => p line.1) =
      ((lines.zipIdx start).filter fun line => p line.1).map (Prod.map id moved) := by
  have all : lines.zipIdx (start + added) = (lines.zipIdx start).map (Prod.map id moved) := by
    rw [Nat.add_comm, ← List.map_snd_add_zipIdx_eq_zipIdx]
    refine List.map_congr_left fun line is => ?_
    obtain ⟨low, high, -⟩ := List.mem_zipIdx is
    exact Prod.ext rfl (moves line.2 low high).symm
  rw [all, List.filter_map]
  rfl

theorem exists_map_eq {first second : List (α × Nat)}
    (same : first.map Prod.fst = second.map Prod.fst) (distinct : (first.map Prod.snd).Nodup) :
    ∃ moved, second = first.map (Prod.map id moved) := by
  induction first generalizing second with
  | nil => exact ⟨id, by simpa using same.symm⟩
  | cons entry first ih =>
    cases second with
    | nil => cases same
    | cons target second =>
      obtain ⟨head, tail⟩ := List.cons.inj same
      rw [List.map_cons, List.nodup_cons] at distinct
      obtain ⟨moved, rfl⟩ := ih tail distinct.2
      -- The entry's own number occurs nowhere else, so the others still move as they did.
      refine ⟨fun number => if number = entry.2 then target.2 else moved number, ?_⟩
      rw [List.map_cons]
      refine congrArg₂ _ (Prod.ext head.symm (if_pos rfl).symm) ?_
      refine List.map_congr_left fun later is => Prod.ext rfl ?_
      have elsewhere : later.2 ≠ entry.2 := fun found =>
        distinct.1 (found ▸ List.mem_map_of_mem is)
      exact (if_neg elsewhere).symm

end Lists

section Lines

variable {number : Nat} {line : List UInt8} {item : Item}

theorem isSkipped_iff {inner : List Char} :
    isSkipped inner = true ↔ inner = [] ∨ inner.head? = some '#' := by
  cases inner <;> simp [isSkipped]

theorem isSilent_encode_iff {text : List Char} :
    IsSilent (Text.Utf8.encode text) ↔ isSkipped (Text.trim text) = true := by
  rw [isSkipped_iff]
  constructor
  · rintro ⟨other, inner, same, trimmed, silent⟩
    rwa [Text.Utf8.encode_injective same, Text.trim_eq_iff.mpr trimmed]
  · exact fun silent => ⟨text, Text.trim text, rfl, Text.trimmed_trim text, silent⟩

theorem item?_of_isSilent (silent : IsSilent line) : item? number line = none := by
  obtain ⟨text, _, rfl, -⟩ := id silent
  simp [item?, Text.Utf8.decode_eq_ok_iff.mpr rfl, isSilent_encode_iff.mp silent]

/-- A line of text is decoded without the blanks at either end, unless it is silent. -/
theorem item?_encode {text inner : List Char} (trimmed : Text.Trimmed text inner)
    (speaks : ¬ IsSilent (Text.Utf8.encode text)) : item? number (Text.Utf8.encode text) =
      match Wire.Message.decode (String.ofList inner) with
      | .error fault => some (.error (.undecodable number fault))
      | .ok message => some (.ok message) := by
  obtain rfl := Text.trim_eq_iff.mpr trimmed
  have spoken : isSkipped (Text.trim text) = false := by
    simpa using mt isSilent_encode_iff.mpr speaks
  simp only [item?, Text.Utf8.decode_eq_ok_iff.mpr rfl, spoken]
  rfl

theorem Yields.item?_eq (yields : Yields number line item) (speaks : ¬ IsSilent line) :
    item? number line = some item := by
  cases yields with
  | unreadable _ found => simp [item?, found]
  | undecodable is trimmed fails =>
    subst is
    rw [item?_encode trimmed speaks, fails]
  | message is trimmed decodes =>
    subst is
    rw [item?_encode trimmed speaks, decodes]

theorem exists_yields (number : Nat) (line : List UInt8) : ∃ item, Yields number line item := by
  cases decoded : Text.Utf8.decode line with
  | error fault => exact ⟨_, .unreadable (Text.Utf8.ne_encode_of_decode decoded) decoded⟩
  | ok text =>
    have is := Text.Utf8.decode_eq_ok_iff.mp decoded
    have trimmed := Text.trimmed_trim text
    cases result : Wire.Message.decode (String.ofList (Text.trim text)) with
    | error fault => exact ⟨_, .undecodable is trimmed result⟩
    | ok message => exact ⟨_, .message is trimmed result⟩

theorem Yields.renumber (yields : Yields number line item) (moved : Nat → Nat) :
    Yields (moved number) line (item.renumber moved) := by
  cases yields with
  | unreadable invalid found => exact .unreadable invalid found
  | undecodable is trimmed fails => exact .undecodable is trimmed fails
  | message is trimmed decodes => exact .message is trimmed decodes

theorem item?_eq_none_iff : item? number line = none ↔ IsSilent line := by
  refine ⟨fun given => ?_, item?_of_isSilent⟩
  by_contra speaks
  obtain ⟨item, yields⟩ := exists_yields number line
  rw [yields.item?_eq speaks] at given
  cases given

theorem item?_eq_some_iff (speaks : ¬ IsSilent line) :
    item? number line = some item ↔ Yields number line item := by
  refine ⟨fun given => ?_, fun yields => yields.item?_eq speaks⟩
  obtain ⟨found, yields⟩ := exists_yields number line
  rw [yields.item?_eq speaks] at given
  exact Option.some.inj given ▸ yields

theorem item?_moved (moved : Nat → Nat) :
    item? (moved number) line = (item? number line).map (Item.renumber moved) := by
  by_cases silent : IsSilent line
  · rw [item?_of_isSilent silent, item?_of_isSilent silent, Option.map_none]
  · obtain ⟨item, yields⟩ := exists_yields number line
    rw [yields.item?_eq silent, (yields.renumber moved).item?_eq silent, Option.map_some]

instance : DecidablePred IsSilent := fun line =>
  decidable_of_iff ((item? 0 line).isNone = true)
    (by rw [Option.isNone_iff_eq_none, item?_eq_none_iff])

end Lines

/-- The lines of a recording that are not silent, each with its number. -/
def meaningful (bytes : List UInt8) : List (List UInt8 × Nat) :=
  ((Text.byteLines bytes).zipIdx 1).filter fun line => ¬ IsSilent line.1

section Items

variable {bytes other : List UInt8}

theorem itemsFrom_eq (number : Nat) (lines : List (List UInt8)) :
    itemsFrom number lines = (lines.zipIdx number).filterMap fun line => item? line.2 line.1 := by
  induction lines generalizing number with
  | nil => rfl
  | cons line lines ih =>
    rw [itemsFrom, ih, List.zipIdx_cons, List.filterMap_cons]
    cases item? number line <;> rfl

theorem items_eq (bytes : List UInt8) :
    items bytes = (meaningful bytes).filterMap fun line => item? line.2 line.1 := by
  rw [items, itemsFrom_eq, meaningful, List.filterMap_filter]
  refine List.filterMap_congr fun line _ => ?_
  by_cases silent : IsSilent line.1
  · simp [silent, item?_eq_none_iff]
  · simp [silent]

theorem not_isSilent_of_meaningful {line : List UInt8 × Nat} (is : line ∈ meaningful bytes) :
    ¬ IsSilent line.1 := by
  simpa using (List.mem_filter.mp is).2

theorem items_eq_iff (stream : List Item) :
    items bytes = stream ↔
      List.Forall₂ (fun line item => Yields line.2 line.1 item) (meaningful bytes) stream := by
  rw [items_eq]
  refine filterMap_eq_iff_forall₂ (fun line is item => ?_) (fun line is => ?_) stream
  · exact item?_eq_some_iff (not_isSilent_of_meaningful is)
  · exact mt item?_eq_none_iff.mp (not_isSilent_of_meaningful is)

/-- Another recording with the same meaningful lines; the numbers tell where they moved. -/
def Moved (moved : Nat → Nat) (bytes other : List UInt8) : Prop :=
  meaningful other = (meaningful bytes).map (Prod.map id moved)

theorem Moved.items {moved : Nat → Nat} (same : Moved moved bytes other) :
    items other = (items bytes).map (Item.renumber moved) := by
  rw [items_eq, items_eq, same, List.filterMap_map, List.map_filterMap]
  exact List.filterMap_congr fun line _ => item?_moved moved

/-- Where lines move when `added` lines are put in behind the first `kept`. -/
def movedBy (kept added number : Nat) : Nat := if number ≤ kept then number else number + added

theorem moved_of_insertion {before inserted after : List (List UInt8)}
    (first : Text.byteLines bytes = before ++ after)
    (second : Text.byteLines other = before ++ inserted ++ after)
    (silent : ∀ line ∈ inserted, IsSilent line) :
    Moved (movedBy before.length inserted.length) bytes other := by
  have gone :
      (inserted.zipIdx (1 + before.length)).filter (fun line => ¬ IsSilent line.1) = [] := by
    rw [List.filter_eq_nil_iff]
    intro line is
    simp [silent line.1 (List.fst_mem_of_mem_zipIdx is)]
  have stay := filter_zipIdx_moved (fun line => ¬ IsSilent line)
    (movedBy before.length inserted.length) 1 0 before fun number _ high => if_pos (by omega)
  have move := filter_zipIdx_moved (fun line => ¬ IsSilent line)
    (movedBy before.length inserted.length) (1 + before.length) inserted.length after
    fun number low _ => if_neg (by omega)
  rw [Moved, meaningful, meaningful, first, second, List.zipIdx_append, List.zipIdx_append,
    List.zipIdx_append, List.filter_append, List.filter_append, List.filter_append, gone,
    List.append_nil, List.map_append, ← stay, ← move, List.length_append, Nat.add_assoc]

theorem map_fst_meaningful (bytes : List UInt8) :
    (meaningful bytes).map Prod.fst = (Text.byteLines bytes).filter (¬ IsSilent ·) := by
  conv_rhs => rw [← List.zipIdx_map_fst 1 (Text.byteLines bytes), List.filter_map]
  rfl

theorem nodup_map_snd_meaningful (bytes : List UInt8) :
    ((meaningful bytes).map Prod.snd).Nodup := by
  have sublist := (List.filter_sublist (p := fun line => ¬ IsSilent line.1)
    (l := (Text.byteLines bytes).zipIdx 1)).map Prod.snd
  rw [List.zipIdx_map_snd] at sublist
  exact sublist.nodup List.nodup_range'

theorem exists_moved
    (same : (Text.byteLines bytes).filter (¬ IsSilent ·) =
      (Text.byteLines other).filter (¬ IsSilent ·)) :
    ∃ moved, Moved moved bytes other := by
  rw [← map_fst_meaningful, ← map_fst_meaningful] at same
  exact exists_map_eq same (nodup_map_snd_meaningful bytes)

end Items

/-- A replay of which the outcome names lines by other numbers. -/
def Replay.renumber (moved : Nat → Nat) (replay : Replay) : Replay :=
  let session := replay.session.renumber moved replay.outcome
  { replay with
    outcome := replay.outcome.mapError (SessionError.renumber moved)
    session
    summary := { replay.summary with output := session.output } }

theorem Moved.replay {moved : Nat → Nat} {bytes other : List UInt8} (same : Moved moved bytes other)
    (settings : Settings) :
    replay settings (.ok other) = (replay settings (.ok bytes)).renumber moved := by
  simp only [Recording.replay, same.items, Session.drive_renumber, Session.Driven.renumber,
    Session.finish_renumber, Replay.renumber]

/-- A recording yields one item for each line that is not silent, in the order of the lines, and
only decoding errors tell the number of their line, where silent lines count. So recordings that
differ in silent lines alone have the same items up to these numbers, which move by as many lines as
are put in before them, and so have all sessions that are driven or replayed with them. -/
theorem annotations_only_move_line_numbers (bytes : List UInt8) :
    (∀ stream, items bytes = stream ↔
      List.Forall₂ (fun line item => Yields line.2 line.1 item) (meaningful bytes) stream) ∧
    ∀ other,
      (∀ before inserted after, Text.byteLines bytes = before ++ after →
        Text.byteLines other = before ++ inserted ++ after → (∀ line ∈ inserted, IsSilent line) →
          Moved (movedBy before.length inserted.length) bytes other) ∧
      ((Text.byteLines bytes).filter (¬ IsSilent ·) = (Text.byteLines other).filter (¬ IsSilent ·) →
        ∃ moved, Moved moved bytes other) ∧
      ∀ moved, Moved moved bytes other →
        items other = (items bytes).map (Item.renumber moved) ∧
        (∀ session : Session,
          session.drive (items other) = (session.drive (items bytes)).renumber moved) ∧
        ∀ settings, replay settings (.ok other) = (replay settings (.ok bytes)).renumber moved := by
  refine ⟨items_eq_iff, fun other => ⟨fun before inserted after => moved_of_insertion, exists_moved,
    fun moved same => ⟨same.items, fun session => ?_, same.replay⟩⟩⟩
  rw [same.items, session.drive_renumber]

theorem annotations_only_move_line_numbers_behind_comment :
    let bytes : List UInt8 := [0x78]
    let other : List UInt8 := [0x23, 0x0A, 0x20, 0x0D, 0x0A, 0x78]
    items bytes = [.error (.undecodable 1 .malformed)] ∧
      items other = [.error (.undecodable 3 .malformed)] := by
  intro bytes other
  have single : items bytes = [.error (.undecodable 1 .malformed)] := by rfl
  obtain ⟨-, differ⟩ := annotations_only_move_line_numbers bytes
  obtain ⟨insertion, -, moves⟩ := differ other
  have moved := insertion [] [[0x23], [0x20]] [[0x78]] (by decide) (by decide) (by decide)
  refine ⟨single, ?_⟩
  rw [(moves _ moved).1, single]
  rfl

end SchedReplay.Recording
