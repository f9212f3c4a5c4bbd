import Mathlib.Data.List.Nodup
import SchedReplay.Proofs.Shapes
import SchedReplay.Wire.Encoding

/-! Decoding undoes encoding. Every wire type is carried by its shape: what is written for a value
is taken by the shape and means that value again. -/
namespace SchedReplay.Wire

open Json (Fits)

/-- A type's shape, writer and reader agree on every value of the type. -/
structure Carried (depth : Nat) (shape : Shape) (toJson : α → Json) (ofJson? : Json → Option α) :
    Prop where
  takes : ∀ value, shape.Takes depth (toJson value)
  means : ∀ value, ofJson? (toJson value) = some value
  present : ∀ value, toJson value ≠ .null

section Carried

variable {depth : Nat} {shape : Shape} {toJson : α → Json} {ofJson? : Json → Option α}

theorem Carried.takes_option (carried : Carried depth shape toJson ofJson?) (value : Option α) :
    (Shape.optional shape).Takes depth (Json.ofOption toJson value) := by
  cases value with
  | none => exact Shape.takes_optional_null
  | some value => exact (carried.takes value).optional (carried.present value)

theorem Carried.means_option (carried : Carried depth shape toJson ofJson?) (value : Option α) :
    optional ofJson? (some (Json.ofOption toJson value)) = some value := by
  cases value with
  | none => rfl
  | some value =>
    rw [Json.ofOption, optional_some ofJson? (carried.present value), carried.means,
      Option.map_some]

theorem Carried.list (carried : Carried depth shape toJson ofJson?) :
    Carried (depth + 1) (.list shape) (Json.ofList toJson) (list? ofJson?) where
  takes values := Shape.takes_list fun item written => by
    obtain ⟨value, _, rfl⟩ := List.mem_map.mp written
    exact carried.takes value
  means values := by
    induction values with
    | nil => rfl
    | cons value values ih =>
      simp only [list?, Json.ofList, List.map_cons, List.mapM_cons, carried.means] at ih ⊢
      simp [ih]
  present values := by simp [Json.ofList]

theorem Carried.decode_render (carried : Carried depth shape toJson ofJson?) (value : α) :
    decode shape ofJson? (toJson value).render = .ok value :=
  Wire.decode_render (carried.takes value) (carried.means value)

/-- A value without parts is tested by the reader that is to read it. -/
theorem carried_scalar (fits : ∀ value depth, Fits depth (toJson value))
    (means : ∀ value, ofJson? (toJson value) = some value)
    (present : ∀ value, toJson value ≠ .null) :
    Carried depth (.scalar fun json => (ofJson? json).isSome) toJson ofJson? where
  takes value := Shape.takes_scalar (fits value) (by simp [means])
  means := means
  present := present

end Carried

theorem carried_text : Carried depth .text .str string? :=
  carried_scalar (fun _ _ => .str) (fun _ => rfl) (by simp)

theorem carried_uint64 : Carried depth .uint64 ofUInt64 uint64? := by
  refine carried_scalar (fun value _ => .num value.toNat_lt_size) ?_ (by simp [ofUInt64, Json.ofNat])
  intro value
  simp [uint64?, natural?, ofUInt64, Json.ofNat, value.toNat_lt_size]

theorem carried_uint32 : Carried depth .uint32 ofUInt32 uint32? := by
  have small (value : UInt32) : value.toNat < UInt64.size :=
    value.toNat_lt_size.trans (by decide)
  refine carried_scalar (fun value _ => .num (small value)) ?_ (by simp [ofUInt32, Json.ofNat])
  intro value
  simp [uint32?, natural?, ofUInt32, Json.ofNat, value.toNat_lt_size]

theorem Reason.carried (place : Place) : Carried depth .name toJson (ofJson? place) where
  takes reason := Shape.takes_name reason.text
  means reason := by cases reason <;> rfl
  present _ := by simp [toJson]

/-! ### Records -/

@[simp] theorem required_some (decode : Json → Option α) (value : Json) :
    required decode (some value) = decode value :=
  rfl

@[simp] theorem defaulted_some (default : α) (decode : Json → Option α) (value : Json) :
    defaulted default decode (some value) = decode value :=
  rfl

@[simp] theorem string?_str (text : String) : string? (.str text) = some text := rfl

theorem fields?_obj {names : List String} {members : List (String × Json)}
    (once : (members.map Prod.fst).Nodup) :
    fields? names (.obj members) = some (members.lookup ·) := by
  have single (name : String) : repeated members name = false := by
    have bound := List.nodup_iff_count_le_one.mp once name
    rw [List.count_eq_countP, List.countP_map] at bound
    simpa [repeated, Function.comp_def] using bound
  simp [fields?, single]

theorem takes_id (id : Option UInt64) : (Shape.optional .uint64).Takes depth (ofId id) :=
  carried_uint64.takes_option id

theorem takes_ofText (text : Option String) : (Shape.optional .text).Takes depth (ofText text) :=
  carried_text.takes_option text

@[simp] theorem optional_ofId (id : Option UInt64) : optional uint64? (some (ofId id)) = some id :=
  (@carried_uint64 0).means_option id

@[simp] theorem optional_ofText (text : Option String) :
    optional string? (some (ofText text)) = some text :=
  (@carried_text 0).means_option text

theorem Request.carried : Carried (depth + 1) shape toJson ofJson? where
  takes request := Shape.takes_record (by decide)
    (.cons ⟨rfl, Shape.takes_text _⟩ (.cons ⟨rfl, Shape.takes_text _⟩ .nil))
  means request := by
    rw [ofJson?, toJson, fields?_obj (by simp)]
    simp [List.lookup_cons]
  present _ := by simp [toJson]

theorem Location.carried : Carried (depth + 1) shape toJson ofJson? where
  takes location := Shape.takes_record (by decide)
    (.cons ⟨rfl, takes_ofText _⟩ (.cons ⟨rfl, carried_uint32.takes_option _⟩
      (.cons ⟨rfl, takes_ofText _⟩ .nil)))
  means location := by
    rw [ofJson?, toJson, fields?_obj (by simp)]
    simp [List.lookup_cons, (@carried_uint32 0).means_option]
  present _ := by simp [toJson]

theorem UnitInfo.carried : Carried (depth + 1) shape toJson ofJson? where
  takes record := Shape.takes_record (by decide)
    (.cons ⟨rfl, takes_id _⟩ (.cons ⟨rfl, takes_ofText _⟩ .nil))
  means record := by
    rw [ofJson?, toJson, fields?_obj (by simp)]
    simp [List.lookup_cons]
  present _ := by simp [toJson]

theorem Schedule.carried (place : Place) : Carried (depth + 1) shape toJson (ofJson? place) where
  takes record := Shape.takes_record (by decide)
    (.cons ⟨rfl, takes_id _⟩ (.cons ⟨rfl, takes_id _⟩
      (.cons ⟨rfl, (Reason.carried place).takes_option _⟩ .nil)))
  means record := by
    rw [ofJson?, toJson, members, fields?_obj (by simp)]
    simp [List.lookup_cons, (@Reason.carried 0 place).means_option]
  present _ := by simp [toJson]

theorem NewContext.carried : Carried (depth + 2) shape toJson ofJson? where
  takes record := Shape.takes_record (by decide)
    (.cons ⟨rfl, takes_id _⟩ (.cons ⟨rfl, takes_id _⟩
      (.cons ⟨rfl, Location.carried.takes_option _⟩ .nil)))
  means record := by
    rw [ofJson?, toJson, members, fields?_obj (by simp)]
    simp [List.lookup_cons, (@Location.carried 0).means_option]
  present _ := by simp [toJson]

theorem Park.carried : Carried (depth + 2) shape toJson ofJson? where
  takes record := Shape.takes_record (by decide)
    (.cons ⟨rfl, takes_id _⟩ (.cons ⟨rfl, UnitInfo.carried.takes_option _⟩
      (.cons ⟨rfl, takes_ofText _⟩ .nil)))
  means record := by
    rw [ofJson?, toJson, members, fields?_obj (by simp)]
    simp [List.lookup_cons, (@UnitInfo.carried 0).means_option]
  present _ := by simp [toJson]

theorem QueueStatus.carried : Carried (depth + 3) shape toJson ofJson? where
  takes record := Shape.takes_record (by decide)
    (.cons ⟨rfl, takes_id _⟩ (.cons ⟨rfl, takes_id _⟩
      (.cons ⟨rfl, UnitInfo.carried.takes_option _⟩
        (.cons ⟨rfl, UnitInfo.carried.list.takes _⟩ .nil))))
  means record := by
    rw [ofJson?, toJson, members, fields?_obj (by simp)]
    simp [List.lookup_cons, (@UnitInfo.carried 0).means_option, (@UnitInfo.carried 0).list.means]
  present _ := by simp [toJson]

theorem Execute.carried : Carried (depth + 5) shape toJson ofJson? where
  takes record := Shape.takes_record (by decide)
    (.cons ⟨rfl, takes_id _⟩ (.cons ⟨rfl, takes_id _⟩
      (.cons ⟨rfl, UnitInfo.carried.takes_option _⟩
        (.cons ⟨rfl, QueueStatus.carried.list.takes _⟩ .nil))))
  means record := by
    rw [ofJson?, toJson, members, fields?_obj (by simp)]
    simp [List.lookup_cons, (@UnitInfo.carried 0).means_option, (@QueueStatus.carried 0).list.means]
  present _ := by simp [toJson]

theorem Ready.carried : Carried (depth + 4) shape toJson ofJson? where
  takes record := Shape.takes_record (by decide)
    (.cons ⟨rfl, takes_id _⟩ (.cons ⟨rfl, QueueStatus.carried.takes_option _⟩ .nil))
  means record := by
    rw [ofJson?, toJson, members, fields?_obj (by simp)]
    simp [List.lookup_cons, (@QueueStatus.carried 0).means_option]
  present _ := by simp [toJson]

theorem Progress.carried : Carried (depth + 2) shape toJson ofJson? where
  takes record := Shape.takes_record (by decide)
    (.cons ⟨rfl, takes_id _⟩ (.cons ⟨rfl, takes_id _⟩
      (.cons ⟨rfl, Location.carried.takes_option _⟩ .nil)))
  means record := by
    rw [ofJson?, toJson, members, fields?_obj (by simp)]
    simp [List.lookup_cons, (@Location.carried 0).means_option]
  present _ := by simp [toJson]

/-! ### Tagged values -/

theorem tagged?_tag {tagName : String} (place : Place) (names : List String) (name : String)
    {members : List (String × Json)} (apart : tagName ∉ members.map Prod.fst) :
    tagged? place tagName names (tag tagName name members) = some (name, .obj members) := by
  have different : ∀ member ∈ members, member.1 ≠ tagName :=
    fun member inside same => apart (same ▸ List.mem_map_of_mem inside)
  have others : members.filter (·.1 == tagName) = [] := by simpa using different
  have kept : members.filter (·.1 != tagName) = members := by simpa using different
  simp [tagged?, untag?, tag, others, kept, variantName?]

theorem fits_singleton {depth : Nat} {name : String} {value : Json} (fits : Fits depth value) :
    Fits (depth + 1) (.obj [(name, value)]) :=
  .obj (by simpa using fits)

/-- What is written for a tagged type has the tag in front, and behind it the members of a record
that has none of the tag's name. -/
theorem carried_tagged {depth : Nat} {tagName : String} {toJson : α → Json}
    {ofJson? : Json → Option α} (shallow : depth < Json.maxDepth)
    (written : ∀ value, ∃ name members, toJson value = tag tagName name members ∧
      Fits (depth + 1) (.obj members) ∧ tagName ∉ members.map Prod.fst)
    (means : ∀ value, ofJson? (toJson value) = some value) :
    Carried (depth + 1) (.tagged tagName) toJson ofJson? where
  takes value := by
    obtain ⟨name, members, text, body, apart⟩ := written value
    exact text ▸ Shape.takes_tagged name shallow body apart
  means := means
  present value := by
    obtain ⟨name, members, text, _⟩ := written value
    simp [text, tag]

theorem Notification.carried (place : Place) :
    Carried 2 (.tagged "kind") toJson (ofJson? place) := by
  refine carried_tagged (by decide) ?written ?means
  case written =>
    intro event
    cases event with
    | schedule record =>
      exact ⟨_, _, rfl, ((Schedule.carried place).takes record).fits, by simp [Schedule.members]⟩
    | newContext record =>
      exact ⟨_, _, rfl, (NewContext.carried.takes record).fits, by simp [NewContext.members]⟩
    | park record =>
      exact ⟨_, _, rfl, (Park.carried.takes record).fits, by simp [Park.members]⟩
    | unknown => exact ⟨_, _, rfl, .obj (by simp), by simp⟩
  case means =>
    intro event
    cases event with
    | schedule record =>
      rw [ofJson?, toJson, tagged?_tag _ _ _ (by simp [Schedule.members])]
      simp [show Schedule.ofJson? .nested (.obj record.members) = some record from
        (@Schedule.carried 0 .nested).means record]
    | newContext record =>
      rw [ofJson?, toJson, tagged?_tag _ _ _ (by simp [NewContext.members])]
      simp [show NewContext.ofJson? (.obj record.members) = some record from
        (@NewContext.carried 0).means record]
    | park record =>
      rw [ofJson?, toJson, tagged?_tag _ _ _ (by simp [Park.members])]
      simp [show Park.ofJson? (.obj record.members) = some record from
        (@Park.carried 0).means record]
    | unknown =>
      rw [ofJson?, toJson, tagged?_tag _ _ _ (by simp)]
      simp [unknownName, unknown?]

theorem StructureState.carried (place : Place) :
    Carried 5 (.tagged "kind") toJson (ofJson? place) := by
  refine carried_tagged (by decide) ?written ?means
  case written =>
    intro event
    cases event with
    | execute record =>
      exact ⟨_, _, rfl, (Execute.carried.takes record).fits, by simp [Execute.members]⟩
    | queueStatus record =>
      exact ⟨_, _, rfl, (QueueStatus.carried.takes record).fits, by simp [QueueStatus.members]⟩
    | ready record =>
      exact ⟨_, _, rfl, (Ready.carried.takes record).fits, by simp [Ready.members]⟩
    | unknown => exact ⟨_, _, rfl, .obj (by simp), by simp⟩
  case means =>
    intro event
    cases event with
    | execute record =>
      rw [ofJson?, toJson, tagged?_tag _ _ _ (by simp [Execute.members])]
      simp [show Execute.ofJson? (.obj record.members) = some record from
        (@Execute.carried 0).means record]
    | queueStatus record =>
      rw [ofJson?, toJson, tagged?_tag _ _ _ (by simp [QueueStatus.members])]
      simp [show QueueStatus.ofJson? (.obj record.members) = some record from
        (@QueueStatus.carried 0).means record]
    | ready record =>
      rw [ofJson?, toJson, tagged?_tag _ _ _ (by simp [Ready.members])]
      simp [show Ready.ofJson? (.obj record.members) = some record from
        (@Ready.carried 0).means record]
    | unknown =>
      rw [ofJson?, toJson, tagged?_tag _ _ _ (by simp)]
      simp [unknownName, unknown?]

theorem Probe.carried (place : Place) :
    Carried 6 (.tagged "category") toJson (ofJson? place) := by
  refine carried_tagged (by decide) ?written ?means
  case written =>
    intro probe
    cases probe with
    | notification event =>
      have fits := ((Notification.carried place).takes event).fits.mono (show 2 ≤ 5 by decide)
      exact ⟨_, _, rfl, fits_singleton fits, by simp⟩
    | structureState event =>
      have fits := ((StructureState.carried place).takes event).fits
      exact ⟨_, _, rfl, fits_singleton fits, by simp⟩
    | progress record =>
      exact ⟨_, _, rfl, (Progress.carried.takes record).fits, by simp [Progress.members]⟩
    | unknown => exact ⟨_, _, rfl, .obj (by simp), by simp⟩
  case means =>
    intro probe
    cases probe with
    | notification event =>
      rw [ofJson?, toJson, tagged?_tag _ _ _ (by simp)]
      simp [fields?_obj, List.lookup_cons, (Notification.carried .nested).means event]
    | structureState event =>
      rw [ofJson?, toJson, tagged?_tag _ _ _ (by simp)]
      simp [fields?_obj, List.lookup_cons, (StructureState.carried .nested).means event]
    | progress record =>
      rw [ofJson?, toJson, tagged?_tag _ _ _ (by simp [Progress.members])]
      simp [show Progress.ofJson? (.obj record.members) = some record from
        (@Progress.carried 0).means record]
    | unknown =>
      rw [ofJson?, toJson, tagged?_tag _ _ _ (by simp)]
      simp [unknownName, unknown?]

theorem Message.carried : Carried 7 (.tagged "type") toJson ofJson? := by
  refine carried_tagged (by decide) ?written ?means
  case written =>
    intro message
    cases message with
    | compilationError text =>
      exact ⟨_, _, rfl, fits_singleton (takes_ofText text).fits, by simp⟩
    | runtimeResult text =>
      exact ⟨_, _, rfl, fits_singleton (takes_ofText text).fits, by simp⟩
    | runtimeOutput chunk => exact ⟨_, _, rfl, fits_singleton .str, by simp⟩
    | concurrencyWidth count =>
      exact ⟨_, _, rfl, fits_singleton (takes_id count).fits, by simp⟩
    | runEvent probe =>
      exact ⟨_, _, rfl, fits_singleton ((Probe.carried .nested).takes probe).fits, by simp⟩
    | unknown => exact ⟨_, _, rfl, .obj (by simp), by simp⟩
  case means =>
    intro message
    cases message with
    | compilationError text | runtimeResult text | runtimeOutput chunk | concurrencyWidth count =>
      rw [ofJson?, toJson, tagged?_tag _ _ _ (by simp)]
      simp [fields?_obj, List.lookup_cons]
    | runEvent probe =>
      rw [ofJson?, toJson, tagged?_tag _ _ _ (by simp)]
      simp [fields?_obj, List.lookup_cons, (Probe.carried .nested).means probe]
    | unknown =>
      rw [ofJson?, toJson, tagged?_tag _ _ _ (by simp)]
      simp [unknownName, unknown?]

/-- What is written for a value of the wire is decoded as that value. -/
theorem decoding_undoes_encoding :
    (∀ message : Message, Message.decode message.toJson.render = .ok message) ∧
    (∀ probe : Probe, Probe.decode probe.toJson.render = .ok probe) ∧
    (∀ event : Notification, Notification.decode event.toJson.render = .ok event) ∧
    (∀ event : StructureState, StructureState.decode event.toJson.render = .ok event) ∧
    (∀ record : Schedule, Schedule.decode record.toJson.render = .ok record) ∧
    (∀ reason : Reason, Reason.decode reason.toJson.render = .ok reason) ∧
    (∀ record : NewContext, NewContext.decode record.toJson.render = .ok record) ∧
    (∀ record : Park, Park.decode record.toJson.render = .ok record) ∧
    (∀ record : Execute, Execute.decode record.toJson.render = .ok record) ∧
    (∀ record : QueueStatus, QueueStatus.decode record.toJson.render = .ok record) ∧
    (∀ record : Ready, Ready.decode record.toJson.render = .ok record) ∧
    (∀ record : Progress, Progress.decode record.toJson.render = .ok record) ∧
    (∀ location : Location, Location.decode location.toJson.render = .ok location) ∧
    (∀ record : UnitInfo, UnitInfo.decode record.toJson.render = .ok record) ∧
    (∀ request : Request, Request.decode request.toJson.render = .ok request) :=
  ⟨Message.carried.decode_render, (Probe.carried .outermost).decode_render,
    (Notification.carried .outermost).decode_render,
    (StructureState.carried .outermost).decode_render,
    (@Schedule.carried 0 .outermost).decode_render, (@Reason.carried 0 .outermost).decode_render,
    (@NewContext.carried 0).decode_render, (@Park.carried 0).decode_render,
    (@Execute.carried 0).decode_render, (@QueueStatus.carried 0).decode_render,
    (@Ready.carried 0).decode_render, (@Progress.carried 0).decode_render,
    (@Location.carried 0).decode_render, (@UnitInfo.carried 0).decode_render,
    (@Request.carried 0).decode_render⟩

example : (Message.runtimeOutput "1\n\"2\"").toJson.render =
    "\x7b\"type\":\"runtime_output\",\"chunk\":\"1\\n\\\"2\\\"\"\x7d" := by decide +kernel

end SchedReplay.Wire
