import Mathlib.Data.List.Forall2
import SchedReplay.Proofs.Rereading
import SchedReplay.Wire.Decoding

/-! Shapes and the values written for them. A shape takes a value when it reads its text as that
value and stops where it ends. -/
namespace SchedReplay.Wire

open Json (Fits)

/-- A shape reads the text of a value that nests at most `depth` levels, given the fuel for it. -/
structure Shape.Takes (shape : Shape) (depth : Nat) (value : Json) : Prop where
  fits : Fits depth value
  reads : ∀ fuel, value.chars.length ≤ fuel → Json.Reads (shape fuel) value

namespace Shape

variable {shape : Shape} {value : Json} {depth : Nat}

theorem takes_scalar {accepts : Json → Bool} (fits : ∀ depth, Fits depth value)
    (accepted : accepts value) : (scalar accepts).Takes depth value := by
  refine ⟨fits depth, fun fuel enough rest closes => ?_⟩
  obtain ⟨c, tail, text, leads⟩ := (fits 0).exists_leads
  have shallow : ¬ (c = '[' ∨ c = '\x7b') := fun mark => absurd (leads.nests mark) (by decide)
  have reads := (fits 0).reads enough rest closes
  rw [text, List.cons_append] at reads ⊢
  unfold scalar
  rw [Json.skipBlanks_cons leads.mark]
  split
  · next mark => exact absurd (.inl (List.cons.inj mark).1) shallow
  · next mark => exact absurd (.inr (List.cons.inj mark).1) shallow
  · simp [reads, accepted]

theorem takes_null : null.Takes depth .null := takes_scalar (fun _ => .null) rfl

theorem takes_text (value : String) : text.Takes depth (.str value) :=
  takes_scalar (fun _ => .str) rfl

theorem takes_name (value : String) : name.Takes depth (.str value) := by
  refine ⟨.str, fun fuel enough rest closes => ?_⟩
  have reads := (@takes_text 0 value).reads fuel enough rest closes
  rw [name, show Json.skipBlanks (Json.chars (.str value) ++ rest) =
    Json.chars (.str value) ++ rest from Json.skipBlanks_quoted value rest]
  exact reads

theorem takes_optional_null : (optional shape).Takes depth .null := by
  refine ⟨.null, fun fuel enough rest closes => ?_⟩
  have reads := (@takes_null 0).reads fuel enough rest closes
  rw [optional, (@Fits.null 0).skipBlanks_append]
  exact reads

theorem Takes.optional (takes : shape.Takes depth value) (present : value ≠ .null) :
    (optional shape).Takes depth value := by
  refine ⟨takes.fits, fun fuel enough rest closes => ?_⟩
  obtain ⟨c, tail, text, leads⟩ := takes.fits.exists_leads
  have full := takes.reads fuel enough rest closes
  rw [text, List.cons_append] at full ⊢
  unfold Shape.optional
  rw [Json.skipBlanks_cons leads.mark]
  split
  · next absent => exact absurd (leads.null (List.cons.inj absent).1) present
  · exact full

theorem takes_list {items : List Json} (takes : ∀ item ∈ items, shape.Takes depth item) :
    (list shape).Takes (depth + 1) (.arr items) := by
  refine ⟨.arr fun item inside => (takes item inside).fits, fun fuel enough rest closes => ?_⟩
  have room := Json.length_lt_chars_arr items
  cases items with
  | nil => simp [list, Json.chars, Json.skipBlanks_cons, Json.isBlank]
  | cons item items =>
    have first := (takes item List.mem_cons_self).fits
    have content := first.append_ne_bracket (Json.itemsChars items ++ rest)
    have each : ∀ value ∈ item :: items, Json.Reads (shape fuel) value :=
      fun value inside => (takes value inside).reads fuel ((room.2 value inside).le.trans enough)
    have sequence := Json.readItems_itemsChars each
      (lt_of_lt_of_le (Nat.lt_of_succ_lt room.1) enough) rest
    rw [Json.chars_arr_append, list, Json.skipBlanks_cons rfl]
    simp only [first.skipBlanks_append, sequence, Json.ok_bind]

/-! ### Records -/

/-- The members of an object give the fields of a record, each in its turn. -/
def Gives (depth : Nat) (fields : List (String × Shape)) (members : List (String × Json)) : Prop :=
  List.Forall₂ (fun field member => field.1 = member.1 ∧ field.2.Takes depth member.2) fields members

theorem Gives.fits {fields : List (String × Shape)} {members : List (String × Json)}
    (gives : Gives depth fields members) : ∀ member ∈ members, Fits depth member.2 := by
  induction gives with
  | nil => simp
  | cons same _ ih => exact List.forall_mem_cons.mpr ⟨same.2.fits, ih⟩

theorem lookup_of_mem {fields : List (String × Shape)} (names : (fields.map Prod.fst).Nodup)
    {field : String × Shape} (inside : field ∈ fields) :
    fields.lookup field.1 = some field.2 := by
  obtain ⟨before, after, rfl⟩ := List.append_of_mem inside
  refine List.lookup_eq_some_iff.mpr ⟨before, after, rfl, ?_⟩
  intro other earlier
  rw [List.map_append, List.map_cons, List.nodup_append] at names
  exact bne_iff_ne.mpr (names.2.2 _ (List.mem_map_of_mem earlier) _ List.mem_cons_self).symm

theorem readsMembers_field {fields given : List (String × Shape)} {members : List (String × Json)}
    {fuel : Nat} {seen : List String} (names : (fields.map Prod.fst).Nodup)
    (known : given ⊆ fields) (once : (given.map Prod.fst).Nodup)
    (fresh : ∀ field ∈ given, field.1 ∉ seen) (gives : Gives depth given members)
    (enough : ∀ member ∈ members, member.2.chars.length ≤ fuel) :
    Json.ReadsMembers (field fields fuel) seen members := by
  -- On the fields still to be given: those before are in `seen`, and none of them comes again.
  induction gives generalizing seen with
  | nil => trivial
  | @cons first member given members same _ ih =>
    obtain ⟨name, value⟩ := member
    obtain ⟨rfl, takes⟩ := same
    rw [List.map_cons, List.nodup_cons] at once
    refine ⟨?here, ih (fun _ inside => known (.tail _ inside)) once.2 ?unseen
      (fun other inside => enough other (.tail _ inside))⟩
    case here =>
      intro rest closes
      have shaped := lookup_of_mem names (known List.mem_cons_self)
      have unseen : first.1 ∉ seen := fresh first List.mem_cons_self
      have reads := takes.reads fuel (enough _ List.mem_cons_self)
      simp [field, shaped, unseen, reads.behindColon closes]
    case unseen =>
      intro other inside
      have apart : other.1 ≠ first.1 :=
        fun same => once.1 (same ▸ List.mem_map_of_mem inside)
      simp [apart, fresh other (.tail _ inside)]

theorem takes_record {fields : List (String × Shape)} {members : List (String × Json)}
    (names : (fields.map Prod.fst).Nodup) (gives : Gives depth fields members) :
    (record fields).Takes (depth + 1) (.obj members) := by
  refine ⟨.obj gives.fits, fun fuel enough rest closes => ?_⟩
  have reads : Json.ReadsMembers (field fields fuel) [] members :=
    readsMembers_field names (List.Subset.refl _) names (by simp) gives
      fun member inside => (Json.length_lt_chars_obj inside).le.trans enough
  cases members with
  | nil => simp [record, Json.chars, Json.skipBlanks_cons, Json.isBlank]
  | cons member members =>
    obtain ⟨name, value⟩ := member
    have sequence := Json.readMembers_membersChars reads
      ((Json.length_membersChars_le _).trans enough) rest
    rw [Json.chars_obj_append, record, Json.skipBlanks_cons rfl]
    simp only [Json.skipBlanks_quoted, sequence, Json.ok_bind]
    rfl

/-! ### Tagged values -/

theorem takes_tagged {tagName : String} (name : String) {members : List (String × Json)}
    (shallow : depth < Json.maxDepth) (body : Fits (depth + 1) (.obj members))
    (apart : tagName ∉ members.map Prod.fst) :
    (tagged tagName).Takes (depth + 1) (tag tagName name members) := by
  have fits : ∀ member ∈ members, Fits depth member.2 := by
    cases body
    assumption
  refine ⟨.obj (List.forall_mem_cons.mpr ⟨.str, fits⟩), fun fuel enough rest closes => ?_⟩
  have reads : Json.ReadsMembers (member tagName fuel) [] ((tagName, .str name) :: members) := by
    refine ⟨?tag, ?others⟩
    case tag =>
      intro rest closes
      have text := (@takes_text 0 name).reads fuel
        ((Json.length_lt_chars_obj List.mem_cons_self).le.trans enough)
      simp [member, text.behindColon closes]
    case others =>
      refine Json.readsMembers_of_forall fun other inside seen rest closes => ?_
      have different : other.1 ≠ tagName := fun same => apart (same ▸ List.mem_map_of_mem inside)
      -- The object itself takes one of the levels a reader allows.
      have reads := ((fits other inside).mono (Nat.le_pred_of_lt shallow)).reads
        ((Json.length_lt_chars_obj (.tail _ inside)).le.trans enough)
      rw [member, if_neg different]
      exact reads.behindColon closes
  have sequence := Json.readMembers_membersChars reads
    ((Json.length_membersChars_le _).trans enough) rest
  rw [tag, Json.chars_obj_append, tagged, Json.skipBlanks_cons rfl]
  simp only [Json.skipBlanks_quoted, sequence, Json.ok_bind]
  rfl

end Shape

theorem decode_render {shape : Shape} {ofJson? : Json → Option α} {depth : Nat} {value : Json}
    {message : α} (takes : shape.Takes depth value) (means : ofJson? value = some message) :
    decode shape ofJson? value.render = .ok message := by
  have whole := takes.reads value.chars.length le_rfl [] (by simp [Json.Closes])
  rw [List.append_nil] at whole
  simp [decode, Json.render, whole, means, Json.expectEnd, Json.skipBlanks, pure, Except.pure]

end SchedReplay.Wire
