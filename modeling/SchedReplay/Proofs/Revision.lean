import Mathlib.Data.List.Nodup
import Mathlib.Data.Option.Basic
import Mathlib.Data.Setoid.Basic
import SchedReplay.Wire.Fields

/-! Revisions of what is sent. A newer sender may order the members of an object another way, add
members that no field is named after, and write `null` for what is not there. A reader that goes by
the fields and the tag does not notice, however deep in the value it happens. -/
namespace SchedReplay.Wire

structure Field (σ : Type) where
  name : String
  /-- Whether `null` and no member at all mean the same. -/
  isOptional : Bool
  schema : σ

/-- Where a value has records inside. A tagged value is a record whose fields its tag tells. -/
inductive Schema where
  | leaf
  | list (item : Schema)
  | record (fields : List (Field Schema))
  | tagged (place : Place) (tagName : String) (variants : List (String × List (Field Schema)))

def Field.optional (name : String) (schema : Schema) : Field Schema := ⟨name, true, schema⟩

/-- A field whose value `null` is not the same as no member. -/
def Field.plain (name : String) (schema : Schema) : Field Schema := ⟨name, false, schema⟩

/-- The fields of a variant. A variant that is not known has none. -/
def variantFields (variants : List (String × List (Field Schema))) (name : String) :
    List (Field Schema) := (variants.lookup name).getD []

/-- One change to a value that its meaning does not depend on, at any depth. -/
inductive Revises : Schema → Json → Json → Prop where
  | reorder {fields : List (Field Schema)} {members others : List (String × Json)}
      (same : members.Perm others) : Revises (.record fields) (.obj members) (.obj others)
  | insert {fields : List (Field Schema)} {before after : List (String × Json)} {name : String}
      {value : Json} (foreign : name ∉ fields.map (·.name)) :
      Revises (.record fields) (.obj (before ++ after)) (.obj (before ++ (name, value) :: after))
  | null {fields : List (Field Schema)} {members : List (String × Json)} {field : Field Schema}
      (known : field ∈ fields) (optional : field.isOptional = true)
      (absent : field.name ∉ members.map Prod.fst) :
      Revises (.record fields) (.obj members) (.obj ((field.name, .null) :: members))
  | member {fields : List (Field Schema)} {before after : List (String × Json)}
      {field : Field Schema} {old new : Json} (known : field ∈ fields)
      (inside : Revises field.schema old new) :
      Revises (.record fields) (.obj (before ++ (field.name, old) :: after))
        (.obj (before ++ (field.name, new) :: after))
  | element {earlier later : List (Field Schema)} {before after : List Json} {field : Field Schema}
      {old new : Json} (position : before.length = earlier.length)
      (inside : Revises field.schema old new) :
      Revises (.record (earlier ++ field :: later)) (.arr (before ++ old :: after))
        (.arr (before ++ new :: after))
  | item {schema : Schema} {before after : List Json} {old new : Json}
      (inside : Revises schema old new) :
      Revises (.list schema) (.arr (before ++ old :: after)) (.arr (before ++ new :: after))
  | tagged {place : Place} {tagName name : String} {variants : List (String × List (Field Schema))}
      {members others : List (String × Json)} {tag : Json} (given : (tagName, tag) ∈ members)
      (names : variantName? place (variants.map Prod.fst) tag = some name)
      (inside : Revises (.record (.plain tagName .leaf :: variantFields variants name))
        (.obj members) (.obj others)) :
      Revises (.tagged place tagName variants) (.obj members) (.obj others)
  | taggedItems {place : Place} {tagName name : String}
      {variants : List (String × List (Field Schema))} {items others : List Json} {tag : Json}
      (names : variantName? place (variants.map Prod.fst) tag = some name)
      (inside : Revises (.record (variantFields variants name)) (.arr items) (.arr others)) :
      Revises (.tagged place tagName variants) (.arr (tag :: items)) (.arr (tag :: others))

/-- A reader that cannot tell a value from its revision. -/
def Follows (schema : Schema) (ofJson? : Json → Option α) : Prop :=
  ∀ old new, Revises schema old new → ofJson? old = ofJson? new

theorem follows_leaf (ofJson? : Json → Option α) : Follows .leaf ofJson? := nofun

theorem Revises.ne_null {schema : Schema} {old new : Json} (revises : Revises schema old new) :
    old ≠ .null ∧ new ≠ .null := by
  cases revises <;> simp

/-! ### Fields -/

/-- The same field before and after a revision. -/
inductive Field.Agrees (field : Field Schema) : Option Json → Option Json → Prop where
  | same (value : Option Json) : Agrees field value value
  | null (optional : field.isOptional = true) : Agrees field none (some .null)
  | revised {old new : Json} (revises : Revises field.schema old new) :
      Agrees field (some old) (some new)

theorem Field.Agrees.tag {tagName : String} {old new : Option Json}
    (agrees : (Field.plain tagName .leaf).Agrees old new) : old = new := by
  cases agrees with
  | same => rfl
  | null optional => cases optional
  | revised revises => cases revises

theorem follows_list {schema : Schema} {decode : Json → Option α}
    (follows : Follows schema decode) : Follows (.list schema) (list? decode) := by
  intro old new revises
  cases revises with
  | item inside => simp [list?, List.mapM_append, List.mapM_cons, follows _ _ inside]

/-! ### Members -/

theorem lookup_cons_of_ne {name key : String} (apart : name ≠ key) (value : Json)
    (members : List (String × Json)) :
    ((key, value) :: members).lookup name = members.lookup name := by
  rw [List.lookup_cons, beq_eq_false_iff_ne.mpr apart]

theorem lookup_eq_head?_filter (members : List (String × Json)) (name : String) :
    members.lookup name = (members.filter (·.1 == name)).head?.map Prod.snd := by
  induction members with
  | nil => rfl
  | cons member members ih =>
    obtain ⟨key, value⟩ := member
    by_cases same : key = name
    · simp [same]
    · simp [lookup_cons_of_ne (Ne.symm same), same, ih]

theorem lookup_eq_of_perm {members others : List (String × Json)} (same : members.Perm others)
    {name : String} (single : repeated members name = false) :
    members.lookup name = others.lookup name := by
  have few : (members.filter (·.1 == name)).length ≤ 1 := by
    simpa [repeated, List.countP_eq_length_filter] using single
  have filtered := same.filter (·.1 == name)
  have equal : members.filter (·.1 == name) = others.filter (·.1 == name) := by
    generalize members.filter (·.1 == name) = found at few filtered ⊢
    match found with
    | [] => exact filtered.nil_eq
    | [only] => exact List.singleton_perm.mp filtered
    | _ :: _ :: _ => simp at few
  rw [lookup_eq_head?_filter, lookup_eq_head?_filter, equal]

/-- What two objects say of a field is alike: both repeat it, or it agrees. -/
structure Field.Alike (field : Field Schema) (members others : List (String × Json)) : Prop where
  repeats : repeated members field.name = repeated others field.name
  agrees : repeated members field.name = false →
    field.Agrees (members.lookup field.name) (others.lookup field.name)

theorem Field.agrees_lookup {field changed : Field Schema}
    (same : field.name = changed.name → field = changed) {old new : Json}
    (inside : Revises changed.schema old new)
    (before after : List (String × Json)) :
    field.Agrees ((before ++ (changed.name, old) :: after).lookup field.name)
      ((before ++ (changed.name, new) :: after).lookup field.name) := by
  rw [List.lookup_append, List.lookup_append]
  cases earlier : before.lookup field.name with
  | some value => exact .same _
  | none =>
    by_cases is : field.name = changed.name
    · obtain rfl := same is
      simpa [List.lookup_cons] using Field.Agrees.revised inside
    · rw [lookup_cons_of_ne is, lookup_cons_of_ne is]
      exact .same _

theorem Revises.alike {fields : List (Field Schema)} {members others : List (String × Json)}
    (revises : Revises (.record fields) (.obj members) (.obj others))
    (once : (fields.map (·.name)).Nodup) {field : Field Schema} (known : field ∈ fields) :
    field.Alike members others := by
  cases revises with
  | reorder same =>
    refine ⟨by simp [repeated, same.countP_eq], fun single => ?_⟩
    rw [lookup_eq_of_perm same single]
    exact .same _
  | @insert _ before after name value foreign =>
    have other : field.name ≠ name := fun same => foreign (same ▸ List.mem_map_of_mem known)
    refine ⟨by simp [repeated, other.symm], fun _ => ?_⟩
    rw [List.lookup_append, List.lookup_append, lookup_cons_of_ne other]
    exact .same _
  | @null _ _ changed among optional absent =>
    by_cases is : field.name = changed.name
    · obtain rfl := List.inj_on_of_nodup_map once known among is
      have missing : members.filter (·.1 == field.name) = [] := by
        rw [List.filter_eq_nil_iff]
        intro member inside named
        exact absent (beq_iff_eq.mp named ▸ List.mem_map_of_mem inside)
      refine ⟨by simp [repeated, List.countP_eq_length_filter, missing], fun _ => ?_⟩
      rw [lookup_eq_head?_filter, missing, List.lookup_cons_self]
      exact .null optional
    · refine ⟨by simp [repeated, Ne.symm is], fun _ => ?_⟩
      rw [lookup_cons_of_ne is]
      exact .same _
  | @member _ before after changed old new among inside =>
    refine ⟨by simp [repeated, List.countP_append, List.countP_cons], fun _ => ?_⟩
    exact Field.agrees_lookup (List.inj_on_of_nodup_map once known among) inside before after

/-! ### Records -/

def AgreeOn (fields : List (Field Schema)) (before after : Fields) : Prop :=
  ∀ field ∈ fields, field.Agrees (before field.name) (after field.name)

/-- A record and its revision say the same of each of their fields. -/
def SameFields (fields : List (Field Schema)) (old new : Json) : Prop :=
  Option.Rel (AgreeOn fields) (fields? (fields.map (·.name)) old)
    (fields? (fields.map (·.name)) new)

namespace AgreeOn

variable {fields : List (Field Schema)} {before after : Fields} {schema : Schema}
  {decode : Json → Option α} (agrees : AgreeOn fields before after) (name : String)

include agrees

theorem optional (known : .optional name schema ∈ fields) (follows : Follows schema decode) :
    Wire.optional decode (before name) = Wire.optional decode (after name) := by
  have field := agrees _ known
  simp only [Field.optional] at field
  generalize before name = old at field ⊢
  generalize after name = new at field ⊢
  cases field with
  | same => rfl
  | null => rfl
  | revised revises =>
    obtain ⟨present, still⟩ := revises.ne_null
    rw [optional_some decode present, optional_some decode still, follows _ _ revises]

/-- A field that is there before and after, or has not changed. -/
theorem plain (known : .plain name schema ∈ fields) (follows : Follows schema decode) :
    before name = after name ∨ ∃ old new, before name = some old ∧ after name = some new ∧
      decode old = decode new := by
  have field := agrees _ known
  simp only [Field.plain] at field
  generalize before name = old at field ⊢
  generalize after name = new at field ⊢
  cases field with
  | same => exact .inl rfl
  | null optional => cases optional
  | revised revises => exact .inr ⟨_, _, rfl, rfl, follows _ _ revises⟩

theorem required (known : .plain name schema ∈ fields) (follows : Follows schema decode) :
    Wire.required decode (before name) = Wire.required decode (after name) := by
  rcases agrees.plain name known follows with same | ⟨old, new, was, is, same⟩
  · rw [same]
  · rw [was, is]
    exact same

theorem defaulted (default : α) (known : .plain name schema ∈ fields)
    (follows : Follows schema decode) :
    Wire.defaulted default decode (before name) = Wire.defaulted default decode (after name) := by
  rcases agrees.plain name known follows with same | ⟨old, new, was, is, same⟩
  · rw [same]
  · rw [was, is]
    exact same

end AgreeOn

theorem sameFields_of_alike {fields : List (Field Schema)} {members others : List (String × Json)}
    (alike : ∀ field ∈ fields, field.Alike members others) :
    SameFields fields (.obj members) (.obj others) := by
  have repeats : (fields.map (·.name)).any (repeated members) =
      (fields.map (·.name)).any (repeated others) := by
    rw [Bool.eq_iff_iff, List.any_eq_true, List.any_eq_true]
    refine exists_congr fun name => and_congr_right fun known => ?_
    obtain ⟨field, inside, rfl⟩ := List.mem_map.mp known
    rw [(alike field inside).repeats]
  simp only [SameFields, fields?, ← repeats]
  cases single : (fields.map (·.name)).any (repeated members) with
  | true => exact .none
  | false =>
    refine .some fun field known => (alike field known).agrees ?_
    exact Bool.eq_false_iff.mpr (List.any_eq_false.mp single _ (List.mem_map_of_mem known))

theorem zip_append_cons {earlier later : List String} {before after : List Json}
    (position : before.length = earlier.length) (name : String) (value : Json) :
    (earlier ++ name :: later).zip (before ++ value :: after) =
      earlier.zip before ++ (name, value) :: later.zip after := by
  rw [List.zip_append position.symm, List.zip_cons_cons]

theorem Revises.sameFields {fields : List (Field Schema)} {old new : Json}
    (revises : Revises (.record fields) old new) (once : (fields.map (·.name)).Nodup) :
    SameFields fields old new := by
  have among (changed : Field Schema) (known : changed ∈ fields) (field : Field Schema)
      (inside : field ∈ fields) (same : field.name = changed.name) : field = changed :=
    List.inj_on_of_nodup_map once inside known same
  cases revises with
  | @element earlier later before after changed old new position inside =>
    simp only [SameFields, fields?, List.length_append, List.length_cons, List.map_append,
      List.map_cons, zip_append_cons (position.trans (List.length_map _).symm)]
    split
    · exact .none
    · exact .some fun field known =>
        Field.agrees_lookup (among changed (by simp) field known) inside _ _
  | reorder same => exact sameFields_of_alike fun field => (Revises.reorder same).alike once
  | insert foreign => exact sameFields_of_alike fun field => (Revises.insert foreign).alike once
  | null known optional absent =>
    exact sameFields_of_alike fun field => (Revises.null known optional absent).alike once
  | member known inside =>
    exact sameFields_of_alike fun field => (Revises.member known inside).alike once

/-- A reader of records that goes by the fields. -/
def FollowsFields (fields : List (Field Schema)) (ofJson? : Json → Option α) : Prop :=
  ∀ old new, SameFields fields old new → ofJson? old = ofJson? new

theorem FollowsFields.record {fields : List (Field Schema)} {ofJson? : Json → Option α}
    (follows : FollowsFields fields ofJson?) (once : (fields.map (·.name)).Nodup) :
    Follows (.record fields) ofJson? :=
  fun old new revises => follows old new (revises.sameFields once)

theorem followsFields_bind {fields : List (Field Schema)} {read : Fields → Option α}
    (reads : ∀ before after, AgreeOn fields before after → read before = read after) :
    FollowsFields fields fun value => (fields? (fields.map (·.name)) value).bind read := by
  intro old new same
  rw [SameFields] at same
  change (fields? _ old).bind read = (fields? _ new).bind read
  generalize fields? (fields.map (·.name)) old = before at same ⊢
  generalize fields? (fields.map (·.name)) new = after at same ⊢
  cases same with
  | none => rfl
  | some agrees => exact reads _ _ agrees

/-! ### Tags -/

theorem untag?_obj (tagName : String) (members : List (String × Json)) :
    untag? tagName (.obj members) =
      if repeated members tagName then none
      else (members.lookup tagName).map fun tag =>
        (tag, .obj (members.filter (·.1 != tagName))) := by
  simp only [untag?, repeated, List.countP_eq_length_filter, lookup_eq_head?_filter]
  generalize members.filter (·.1 == tagName) = tags
  match tags with
  | [] => rfl
  | [only] => rfl
  | _ :: _ :: _ => simp

section Apart

variable {name tagName : String} (apart : name ≠ tagName) (members : List (String × Json))

include apart

/-- Taking out the tag leaves the members of other names. -/
theorem filter_filter_ne : (members.filter (·.1 != tagName)).filter (·.1 == name) =
    members.filter (·.1 == name) := by
  rw [List.filter_filter]
  refine List.filter_congr fun member _ => ?_
  by_cases named : member.1 = name <;> simp [named, apart]

theorem lookup_filter_ne :
    (members.filter (·.1 != tagName)).lookup name = members.lookup name := by
  rw [lookup_eq_head?_filter, filter_filter_ne apart, lookup_eq_head?_filter]

theorem repeated_filter_ne :
    repeated (members.filter (·.1 != tagName)) name = repeated members name := by
  rw [repeated, List.countP_eq_length_filter, filter_filter_ne apart, repeated,
    List.countP_eq_length_filter]

end Apart

theorem lookup_eq_of_mem {members : List (String × Json)} {name : String} {value : Json}
    (given : (name, value) ∈ members) (single : repeated members name = false) :
    members.lookup name = some value := by
  have inside : (name, value) ∈ members.filter (·.1 == name) := by simpa using given
  rw [repeated, List.countP_eq_length_filter] at single
  rw [lookup_eq_head?_filter]
  generalize members.filter (·.1 == name) = found at inside single
  match found with
  | [only] => simp [← List.mem_singleton.mp inside]
  | _ :: _ :: _ => simp at single

theorem Field.Alike.filter_ne {field : Field Schema} {members others : List (String × Json)}
    (alike : field.Alike members others) {tagName : String} (apart : field.name ≠ tagName) :
    field.Alike (members.filter (·.1 != tagName)) (others.filter (·.1 != tagName)) := by
  refine ⟨?_, fun single => ?_⟩
  · rw [repeated_filter_ne apart, repeated_filter_ne apart, alike.repeats]
  · rw [lookup_filter_ne apart, lookup_filter_ne apart]
    exact alike.agrees (by rwa [repeated_filter_ne apart] at single)

/-- A tagged value and its revision name the same variant, and say the same of its fields. -/
inductive SameVariant (place : Place) (tagName : String)
    (variants : List (String × List (Field Schema))) (old new : Json) : Prop where
  | refused (before : tagged? place tagName (variants.map Prod.fst) old = none)
      (after : tagged? place tagName (variants.map Prod.fst) new = none)
  | named (name : String) (body revised : Json)
      (before : tagged? place tagName (variants.map Prod.fst) old = some (name, body))
      (after : tagged? place tagName (variants.map Prod.fst) new = some (name, revised))
      (fields : SameFields (variantFields variants name) body revised)
      (unknown : ∀ {α : Type} (variant : α), unknown? variant body = unknown? variant revised)

/-- The tag is not among the fields of a variant, and no two of these have one name. -/
def Distinct (tagName : String) (variants : List (String × List (Field Schema))) : Prop :=
  ∀ variant ∈ variants, (tagName :: variant.2.map (·.name)).Nodup

theorem Distinct.nodup {tagName : String} {variants : List (String × List (Field Schema))}
    (distinct : Distinct tagName variants) (name : String) :
    (tagName :: (variantFields variants name).map (·.name)).Nodup := by
  unfold variantFields
  cases found : variants.lookup name with
  | none => simp
  | some fields =>
    obtain ⟨earlier, later, rfl, _⟩ := List.lookup_eq_some_iff.mp found
    exact distinct (name, fields) (by simp)

theorem Revises.sameVariant {place : Place} {tagName : String}
    {variants : List (String × List (Field Schema))} {old new : Json}
    (revises : Revises (.tagged place tagName variants) old new)
    (distinct : Distinct tagName variants) : SameVariant place tagName variants old new := by
  cases revises with
  | @tagged _ _ name _ members others tag given names inside =>
    have alike {field} (known : field ∈ Field.plain tagName .leaf :: variantFields variants name) :
        field.Alike members others := inside.alike (distinct.nodup name) known
    have tags := alike List.mem_cons_self
    have repeats : repeated members tagName = repeated others tagName := tags.repeats
    cases single : repeated members tagName with
    | true =>
      refine .refused ?_ ?_
      · simp [tagged?, untag?_obj, single]
      · simp [tagged?, untag?_obj, ← repeats, single]
    | false =>
      have same : members.lookup tagName = others.lookup tagName := (tags.agrees single).tag
      have found := lookup_eq_of_mem given single
      refine .named name (.obj (members.filter (·.1 != tagName)))
        (.obj (others.filter (·.1 != tagName))) ?_ ?_ ?_ (fun _ => rfl)
      · simp [tagged?, untag?_obj, single, found, names]
      · simp [tagged?, untag?_obj, ← repeats, single, ← same, found, names]
      · refine sameFields_of_alike fun field known => ?_
        have apart : field.name ≠ tagName := by
          intro is
          exact (List.nodup_cons.mp (distinct.nodup name)).1 (is ▸ List.mem_map_of_mem known)
        exact (alike (.tail _ known)).filter_ne apart
  | @taggedItems _ _ name _ items others tag names inside =>
    have tagged (items : List Json) : tagged? place tagName (variants.map Prod.fst)
        (.arr (tag :: items)) = some (name, .arr items) := by
      simp [tagged?, untag?, names]
    have once := (List.nodup_cons.mp (distinct.nodup name)).2
    refine .named name _ _ (tagged items) (tagged others) (inside.sameFields once) ?_
    intro α variant
    generalize variantFields variants name = fields at inside
    cases inside with
    | @element _ _ before => cases before <;> rfl

/-- A reader of what stands beside the tag. It may go by the fields, or take anything. -/
def FollowsBody (fields : List (Field Schema)) (ofJson? : Json → Option α) : Prop :=
  ∀ old new, SameFields fields old new →
    (∀ {β : Type} (variant : β), unknown? variant old = unknown? variant new) →
      ofJson? old = ofJson? new

theorem follows_tagged {place : Place} {tagName : String}
    {variants : List (String × List (Field Schema))} (distinct : Distinct tagName variants)
    {read : String × Json → Option α}
    (reads : ∀ name, FollowsBody (variantFields variants name) fun body => read (name, body)) :
    Follows (.tagged place tagName variants) fun value =>
      (tagged? place tagName (variants.map Prod.fst) value).bind read := by
  intro old new revises
  cases revises.sameVariant distinct with
  | refused before after => simp [before, after]
  | named name body revised before after fields unknown =>
    simp only [before, after, Option.bind_some]
    exact reads name body revised fields unknown

/-- Any number of revisions, each made or taken back. -/
theorem Follows.eqvGen {schema : Schema} {ofJson? : Json → Option α}
    (follows : Follows schema ofJson?) {old new : Json}
    (revisions : Relation.EqvGen (Revises schema) old new) :
    ofJson? old = ofJson? new := by
  have coarser : Relation.EqvGen.setoid (Revises schema) ≤ Setoid.ker ofJson? :=
    Setoid.eqvGen_le follows
  exact coarser revisions

end SchedReplay.Wire
