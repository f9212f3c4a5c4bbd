import SchedReplay.Proofs.Revision
import SchedReplay.Wire.Decoding

/-! Tags that are not known. An object under such a tag is the unknown variant of its type, whatever
else it holds, and the values around it keep their meaning. -/
namespace SchedReplay.Wire

/-- An object whose tag, given once, is a text that names no variant. Its other members are free. -/
inductive Unheard (tagName : String) (names : List String) : Json → Prop where
  | intro {before after : List (String × Json)} {name : String}
      (once : tagName ∉ (before ++ after).map Prod.fst) (unheard : name ∉ names) :
      Unheard tagName names (.obj (before ++ (tagName, .str name) :: after))

/-- An object gets a tag that is not known, in the place of its own or with any other members. -/
inductive Retags (tagName : String) (names : List String) : Json → Json → Prop where
  | tag {before after : List (String × Json)} {tag : Json} {name : String}
      (unheard : name ∉ names) : Retags tagName names (.obj (before ++ (tagName, tag) :: after))
        (.obj (before ++ (tagName, .str name) :: after))
  | whole {old new : Json} (unheard : Unheard tagName names new) : Retags tagName names old new

/-- A member of an object, or the value behind the tag of an array, gives way to another. -/
inductive Exchange (name : String) (old new : Json) : Json → Json → Prop where
  | member {before after : List (String × Json)} : Exchange name old new
      (.obj (before ++ (name, old) :: after)) (.obj (before ++ (name, new) :: after))
  | element {tag : Json} : Exchange name old new (.arr [tag, old]) (.arr [tag, new])

section Unheard

variable {tagName : String} {names : List String} {before after : List (String × Json)}

theorem filter_of_once (once : tagName ∉ (before ++ after).map Prod.fst) (tag : Json) :
    (before ++ (tagName, tag) :: after).filter (·.1 == tagName) = [(tagName, tag)] := by
  have others : (before ++ after).filter (·.1 == tagName) = [] := by
    rw [List.filter_eq_nil_iff]
    intro member inside named
    exact once (beq_iff_eq.mp named ▸ List.mem_map_of_mem inside)
  rw [List.filter_append, List.append_eq_nil_iff] at others
  simp [List.filter_append, others.1, others.2]

theorem Retags.unheard {place : Place} {known : List String} {old new : Json}
    {variant : String × Json} (retags : Retags tagName names old new)
    (tagged : tagged? place tagName known old = some variant) : Unheard tagName names new := by
  cases retags with
  | whole unheard => exact unheard
  | @tag before after tag name unheard =>
    refine .intro ?_ unheard
    obtain ⟨_, untagged, _⟩ := Option.bind_eq_some_iff.mp tagged
    rw [untag?_obj] at untagged
    split at untagged
    · cases untagged
    · next single =>
      have none : (before ++ after).countP (·.1 == tagName) = 0 := by
        simp only [repeated, List.countP_append, List.countP_cons, beq_self_eq_true, ↓reduceIte,
          decide_eq_true_eq] at single
        rw [List.countP_append]
        omega
      intro inside
      obtain ⟨member, inside, is⟩ := List.mem_map.mp inside
      exact List.countP_eq_zero.mp none member inside (beq_iff_eq.mpr is)

theorem Unheard.tagged? {value : Json} (unheard : Unheard tagName names value) (place : Place)
    (known : List String) : ∃ name members, name ∉ names ∧
      Wire.tagged? place tagName known value = some (name, .obj members) := by
  obtain ⟨once, unheard⟩ := unheard
  exact ⟨_, _, unheard, by simp only [Wire.tagged?, untag?, filter_of_once once]; rfl⟩

/-- A reader with one meaning for the objects of all tags that it does not know. -/
theorem Retags.means {place : Place} {known : List String} {old new : Json}
    {read : String × Json → Option α} {before unknown : α} (retags : Retags tagName names old new)
    (others : ∀ name ∉ names, ∀ members, read (name, .obj members) = some unknown)
    (meant : (Wire.tagged? place tagName known old).bind read = some before) :
    (Wire.tagged? place tagName known new).bind read = some unknown := by
  obtain ⟨_, tagged, _⟩ := Option.bind_eq_some_iff.mp meant
  obtain ⟨name, members, other, tagged⟩ := (retags.unheard tagged).tagged? place known
  rw [tagged]
  exact others name other members

end Unheard

section Exchange

variable {name : String} {old new whole next : Json}

/-- Objects with the same tag are of the same variant. -/
theorem tagged?_obj_of_same {tagName variant : String} {place : Place} {names : List String}
    {body : Json} {members others : List (String × Json)}
    (repeats : repeated members tagName = repeated others tagName)
    (same : members.lookup tagName = others.lookup tagName)
    (tagged : tagged? place tagName names (.obj members) = some (variant, body)) :
    body = .obj (members.filter (·.1 != tagName)) ∧
      tagged? place tagName names (.obj others) =
        some (variant, .obj (others.filter (·.1 != tagName))) := by
  obtain ⟨⟨tag, rest⟩, untagged, tagged⟩ := Option.bind_eq_some_iff.mp tagged
  obtain ⟨known, named, variants⟩ := Option.bind_eq_some_iff.mp tagged
  cases variants
  rw [untag?_obj] at untagged
  split at untagged
  · cases untagged
  · next single =>
    obtain ⟨found, given, parts⟩ := Option.map_eq_some_iff.mp untagged
    cases parts
    rw [repeats] at single
    rw [same] at given
    exact ⟨rfl, by simp [tagged?, untag?_obj, single, given, named]⟩

/-- The only field of an object, its tag taken out. -/
theorem fields?_filter_ne {tagName : String} (apart : name ≠ tagName)
    (members : List (String × Json)) :
    fields? [name] (.obj (members.filter (·.1 != tagName))) =
      if repeated members name then none
      else some ((members.filter (·.1 != tagName)).lookup ·) := by
  simp [fields?, repeated_filter_ne apart]

/-- An exchanged field of a variant, seen by a reader of the variant. -/
theorem Exchange.fields? {tagName variant : String} {place : Place} {names : List String}
    {body : Json} {field : Fields} (exchange : Exchange name old new whole next)
    (apart : name ≠ tagName) (tagged : tagged? place tagName names whole = some (variant, body))
    (read : fields? [name] body = some field) :
    field name = some old ∧ ∃ left other, tagged? place tagName names next = some (variant, left) ∧
      Wire.fields? [name] left = some other ∧ other name = some new := by
  cases exchange with
  | @member before after =>
    have counts (key : String) : repeated (before ++ (name, old) :: after) key =
        repeated (before ++ (name, new) :: after) key := by
      simp only [repeated, List.countP_append, List.countP_cons]
    have tags : (before ++ (name, old) :: after).lookup tagName =
        (before ++ (name, new) :: after).lookup tagName := by
      rw [List.lookup_append, List.lookup_append, lookup_cons_of_ne apart.symm,
        lookup_cons_of_ne apart.symm]
    obtain ⟨rfl, other⟩ := tagged?_obj_of_same (counts tagName) tags tagged
    have single : repeated (before ++ (name, old) :: after) name = false := by
      rw [fields?_filter_ne apart] at read
      split at read
      · cases read
      · next single => simpa using single
    have still := (counts name).symm.trans single
    rw [fields?_filter_ne apart, single] at read
    cases read
    refine ⟨?_, _, _, other, by rw [fields?_filter_ne apart, still]; rfl, ?_⟩
    · exact (lookup_filter_ne apart _).trans
        (lookup_eq_of_mem (List.mem_append_right before List.mem_cons_self) single)
    · exact (lookup_filter_ne apart _).trans
        (lookup_eq_of_mem (List.mem_append_right before List.mem_cons_self) still)
  | @element tag =>
    obtain ⟨known, named, same⟩ := Option.bind_eq_some_iff.mp tagged
    cases same
    cases read
    refine ⟨by simp, .arr [new], _, ?_, rfl, by simp⟩
    simp [tagged?, untag?, named]

/-- A variant whose only field must be there, and what is read in it. -/
def Holds (place : Place) (tagName : String) (names : List String) (variant name : String)
    (decode : Json → Option α) (value : Json) (part : α) : Prop :=
  ∃ body field, tagged? place tagName names value = some (variant, body) ∧
    fields? [name] body = some field ∧ required decode (field name) = some part

/-- A reader that builds a result of one kind out of one variant only, by its only field. -/
theorem bind_tagged?_eq_some_iff {tagName variant : String} {place : Place} {names : List String}
    {decode : Json → Option α} {read : String × Json → Option β} {build : α → β} {value : Json}
    {part : α} (injective : ∀ {part other}, build part = build other → part = other)
    (own : ∀ body, read (variant, body) = (fields? [name] body).bind fun field =>
      (required decode (field name)).bind fun part => some (build part))
    (others : ∀ other body part, other ≠ variant → read (other, body) ≠ some (build part)) :
    (tagged? place tagName names value).bind read = some (build part) ↔
      Holds place tagName names variant name decode value part := by
  constructor
  · intro means
    obtain ⟨⟨other, body⟩, tagged, means⟩ := Option.bind_eq_some_iff.mp means
    obtain rfl : other = variant := by
      by_contra apart
      exact others other body part apart means
    rw [own] at means
    obtain ⟨field, found, means⟩ := Option.bind_eq_some_iff.mp means
    obtain ⟨content, meant, same⟩ := Option.bind_eq_some_iff.mp means
    obtain rfl := injective (Option.some.inj same)
    exact ⟨body, field, tagged, found, meant⟩
  · rintro ⟨body, field, tagged, found, meant⟩
    simp [tagged, own, found, meant]

theorem Holds.exchange {tagName variant : String} {place : Place} {names : List String}
    {decode : Json → Option α} {before after : α}
    (holds : Holds place tagName names variant name decode whole before)
    (exchange : Exchange name old new whole next) (apart : name ≠ tagName) :
    decode old = some before ∧ (decode new = some after →
      Holds place tagName names variant name decode next after) := by
  obtain ⟨body, field, tagged, read, means⟩ := holds
  obtain ⟨was, left, other, named, found, is⟩ := exchange.fields? apart tagged read
  rw [was] at means
  refine ⟨means, fun meant => ⟨left, other, named, found, ?_⟩⟩
  rw [is]
  exact meant

end Exchange

def Notification.names : List String := ["schedule", "new_context", "park"]

def StructureState.names : List String := ["execute", "runq_status", "ready"]

def Probe.names : List String := ["notification", "structure_state", "progress"]

def Message.names : List String :=
  ["compilation_error", "runtime_result", "runtime_output", "concurrency_width", "run_event"]

theorem Notification.retagged {place : Place} {old new : Json} {before : Notification}
    (retags : Retags "kind" names old new) (meant : ofJson? place old = some before) :
    ofJson? place new = some .unknown := by
  refine retags.means (fun name other members => ?_) meant
  simp only [names, List.mem_cons, List.not_mem_nil, not_or] at other
  simp [other, unknown?]

theorem StructureState.retagged {place : Place} {old new : Json} {before : StructureState}
    (retags : Retags "kind" names old new) (meant : ofJson? place old = some before) :
    ofJson? place new = some .unknown := by
  refine retags.means (fun name other members => ?_) meant
  simp only [names, List.mem_cons, List.not_mem_nil, not_or] at other
  simp [other, unknown?]

theorem Probe.retagged {place : Place} {old new : Json} {before : Probe}
    (retags : Retags "category" names old new) (meant : ofJson? place old = some before) :
    ofJson? place new = some .unknown := by
  refine retags.means (fun name other members => ?_) meant
  simp only [names, List.mem_cons, List.not_mem_nil, not_or] at other
  simp [other, unknown?]

theorem Message.retagged {old new : Json} {before : Message} (retags : Retags "type" names old new)
    (meant : ofJson? old = some before) : ofJson? new = some .unknown := by
  refine retags.means (fun name other members => ?_) meant
  simp only [names, List.mem_cons, List.not_mem_nil, not_or] at other
  simp [other, unknown?]

theorem eq_of_unknown? {variant other : α} {body : Json}
    (means : unknown? variant body = some other) : variant = other := by
  unfold unknown? at means
  split at means
  · cases means
  · exact Option.some.inj means

theorem Message.ofJson?_eq_runEvent_iff {value : Json} {probe : Probe} :
    ofJson? value = some (.runEvent probe) ↔
      Holds .outermost "type" [] "run_event" "event" (Probe.ofJson? .nested) value probe := by
  refine bind_tagged?_eq_some_iff Message.runEvent.inj (fun _ => rfl) ?_
  intro name body part apart means
  simp only at means
  split at means
  case h_5 => exact apart rfl
  case h_6 => cases eq_of_unknown? means
  all_goals simp [Option.bind_eq_some_iff] at means

theorem Probe.ofJson?_eq_notification_iff {place : Place} {value : Json} {event : Notification} :
    ofJson? place value = some (.notification event) ↔
      Holds place "category" names "notification" "event" (Notification.ofJson? .nested) value
        event := by
  refine bind_tagged?_eq_some_iff Probe.notification.inj (fun _ => rfl) ?_
  intro name body part apart means
  simp only at means
  split at means
  case h_1 => exact apart rfl
  case h_4 => cases eq_of_unknown? means
  all_goals simp [Option.bind_eq_some_iff] at means

theorem Probe.ofJson?_eq_structureState_iff {place : Place} {value : Json}
    {event : StructureState} : ofJson? place value = some (.structureState event) ↔
      Holds place "category" names "structure_state" "event" (StructureState.ofJson? .nested) value
        event := by
  refine bind_tagged?_eq_some_iff Probe.structureState.inj (fun _ => rfl) ?_
  intro name body part apart means
  simp only at means
  split at means
  case h_2 => exact apart rfl
  case h_4 => cases eq_of_unknown? means
  all_goals simp [Option.bind_eq_some_iff] at means

/-- A probe in which one tagged object gets a tag that is not known: what it was before and what
it is then. -/
inductive Probe.Retagged : Json → Json → Probe → Probe → Prop where
  | probe {old new : Json} {before : Probe} (retags : Retags "category" names old new) :
      Retagged old new before .unknown
  | notification {old new whole next : Json} {before : Notification}
      (retags : Retags "kind" Notification.names old new)
      (exchange : Exchange "event" old new whole next) :
      Retagged whole next (.notification before) (.notification .unknown)
  | structureState {old new whole next : Json} {before : StructureState}
      (retags : Retags "kind" StructureState.names old new)
      (exchange : Exchange "event" old new whole next) :
      Retagged whole next (.structureState before) (.structureState .unknown)

inductive Message.Retagged : Json → Json → Message → Message → Prop where
  | message {old new : Json} {before : Message} (retags : Retags "type" names old new) :
      Retagged old new before .unknown
  | runEvent {old new whole next : Json} {before after : Probe}
      (retagged : Probe.Retagged old new before after)
      (exchange : Exchange "event" old new whole next) :
      Retagged whole next (.runEvent before) (.runEvent after)

theorem Probe.Retagged.means {place : Place} {old new : Json} {before after : Probe}
    (retagged : Retagged old new before after) (meant : ofJson? place old = some before) :
    ofJson? place new = some after := by
  cases retagged with
  | probe retags => exact Probe.retagged retags meant
  | notification retags exchange =>
    obtain ⟨was, exchanged⟩ :=
      (ofJson?_eq_notification_iff.mp meant).exchange exchange (by decide)
    exact ofJson?_eq_notification_iff.mpr (exchanged (Notification.retagged retags was))
  | structureState retags exchange =>
    obtain ⟨was, exchanged⟩ :=
      (ofJson?_eq_structureState_iff.mp meant).exchange exchange (by decide)
    exact ofJson?_eq_structureState_iff.mpr (exchanged (StructureState.retagged retags was))

theorem Message.Retagged.means {old new : Json} {before after : Message}
    (retagged : Retagged old new before after) (meant : ofJson? old = some before) :
    ofJson? new = some after := by
  cases retagged with
  | message retags => exact Message.retagged retags meant
  | runEvent retagged exchange =>
    obtain ⟨was, exchanged⟩ := (ofJson?_eq_runEvent_iff.mp meant).exchange exchange (by decide)
    exact ofJson?_eq_runEvent_iff.mpr (exchanged (retagged.means was))

end SchedReplay.Wire
