import SchedReplay.Proofs.Buffering
import SchedReplay.Proofs.Retagging

/-! The wire format is forward compatible. Every reader goes by the fields of its schema, from the
innermost records out to whole messages, and the texts of a value are read as the value is. -/
namespace SchedReplay.Wire

def Location.fields : List (Field Schema) :=
  [.optional "file" .leaf, .optional "line" .leaf, .optional "function" .leaf]

def UnitInfo.fields : List (Field Schema) :=
  [.optional "id" .leaf, .optional "entry_function_name" .leaf]

def Schedule.fields : List (Field Schema) :=
  [.optional "machine_id" .leaf, .optional "context_id" .leaf, .optional "reason" .leaf]

def NewContext.fields : List (Field Schema) :=
  [.optional "machine_id" .leaf, .optional "creator_unit_id" .leaf,
    .optional "start_location" (.record Location.fields)]

def Park.fields : List (Field Schema) :=
  [.optional "machine_id" .leaf, .optional "parked_unit" (.record UnitInfo.fields),
    .optional "wait_reason" .leaf]

def QueueStatus.fields : List (Field Schema) :=
  [.optional "context_id" .leaf, .optional "machine_id" .leaf,
    .optional "run_next" (.record UnitInfo.fields),
    .plain "run_queue_entries" (.list (.record UnitInfo.fields))]

def Execute.fields : List (Field Schema) :=
  [.optional "machine_id" .leaf, .optional "context_id" .leaf,
    .optional "found_unit" (.record UnitInfo.fields),
    .plain "context_snapshots" (.list (.record QueueStatus.fields))]

def Ready.fields : List (Field Schema) :=
  [.optional "unit_id" .leaf, .optional "context_update" (.record QueueStatus.fields)]

def Progress.fields : List (Field Schema) :=
  [.optional "machine_id" .leaf, .optional "unit_id" .leaf,
    .optional "source_location" (.record Location.fields)]

def Notification.schema (place : Place) : Schema :=
  .tagged place "kind" [("schedule", Schedule.fields), ("new_context", NewContext.fields),
    ("park", Park.fields)]

def StructureState.schema (place : Place) : Schema :=
  .tagged place "kind" [("execute", Execute.fields), ("runq_status", QueueStatus.fields),
    ("ready", Ready.fields)]

def Probe.schema (place : Place) : Schema :=
  .tagged place "category" [("notification", [.plain "event" (Notification.schema .nested)]),
    ("structure_state", [.plain "event" (StructureState.schema .nested)]),
    ("progress", Progress.fields)]

def Message.schema : Schema :=
  .tagged .outermost "type" [("compilation_error", [.optional "message" .leaf]),
    ("runtime_result", [.optional "error_message" .leaf]),
    ("runtime_output", [.plain "chunk" .leaf]), ("concurrency_width", [.optional "count" .leaf]),
    ("run_event", [.plain "event" (Probe.schema .nested)])]

theorem Location.follows : FollowsFields fields ofJson? := by
  refine followsFields_bind fun before after agrees => ?_
  rw [agrees.optional "file" (by simp [fields]) (follows_leaf _),
    agrees.optional "line" (by simp [fields]) (follows_leaf _),
    agrees.optional "function" (by simp [fields]) (follows_leaf _)]

theorem UnitInfo.follows : FollowsFields fields ofJson? := by
  refine followsFields_bind fun before after agrees => ?_
  rw [agrees.optional "id" (by simp [fields]) (follows_leaf _),
    agrees.optional "entry_function_name" (by simp [fields]) (follows_leaf _)]

theorem Schedule.follows (place : Place) : FollowsFields fields (ofJson? place) := by
  refine followsFields_bind fun before after agrees => ?_
  rw [agrees.optional "machine_id" (by simp [fields]) (follows_leaf _),
    agrees.optional "context_id" (by simp [fields]) (follows_leaf _),
    agrees.optional "reason" (by simp [fields]) (follows_leaf _)]

theorem NewContext.follows : FollowsFields fields ofJson? := by
  have location := Location.follows.record (by decide)
  refine followsFields_bind fun before after agrees => ?_
  rw [agrees.optional "machine_id" (by simp [fields]) (follows_leaf _),
    agrees.optional "creator_unit_id" (by simp [fields]) (follows_leaf _),
    agrees.optional "start_location" (by simp [fields]) location]

theorem Park.follows : FollowsFields fields ofJson? := by
  have unit := UnitInfo.follows.record (by decide)
  refine followsFields_bind fun before after agrees => ?_
  rw [agrees.optional "machine_id" (by simp [fields]) (follows_leaf _),
    agrees.optional "parked_unit" (by simp [fields]) unit,
    agrees.optional "wait_reason" (by simp [fields]) (follows_leaf _)]

theorem QueueStatus.follows : FollowsFields fields ofJson? := by
  have unit := UnitInfo.follows.record (by decide)
  refine followsFields_bind fun before after agrees => ?_
  rw [agrees.optional "context_id" (by simp [fields]) (follows_leaf _),
    agrees.optional "machine_id" (by simp [fields]) (follows_leaf _),
    agrees.optional "run_next" (by simp [fields]) unit,
    agrees.defaulted "run_queue_entries" [] (by simp [fields]) (follows_list unit)]

theorem Execute.follows : FollowsFields fields ofJson? := by
  have unit := UnitInfo.follows.record (by decide)
  have queue := QueueStatus.follows.record (by decide)
  refine followsFields_bind fun before after agrees => ?_
  rw [agrees.optional "machine_id" (by simp [fields]) (follows_leaf _),
    agrees.optional "context_id" (by simp [fields]) (follows_leaf _),
    agrees.optional "found_unit" (by simp [fields]) unit,
    agrees.defaulted "context_snapshots" [] (by simp [fields]) (follows_list queue)]

theorem Ready.follows : FollowsFields fields ofJson? := by
  have queue := QueueStatus.follows.record (by decide)
  refine followsFields_bind fun before after agrees => ?_
  rw [agrees.optional "unit_id" (by simp [fields]) (follows_leaf _),
    agrees.optional "context_update" (by simp [fields]) queue]

theorem Progress.follows : FollowsFields fields ofJson? := by
  have location := Location.follows.record (by decide)
  refine followsFields_bind fun before after agrees => ?_
  rw [agrees.optional "machine_id" (by simp [fields]) (follows_leaf _),
    agrees.optional "unit_id" (by simp [fields]) (follows_leaf _),
    agrees.optional "source_location" (by simp [fields]) location]

theorem Notification.follows (place : Place) : Follows (schema place) (ofJson? place) := by
  refine follows_tagged (by unfold Distinct; decide) fun name old new same unknown => ?_
  by_cases schedule : name = "schedule"
  · subst schedule
    simp [(Schedule.follows .nested) old new same]
  by_cases newContext : name = "new_context"
  · subst newContext
    simp [NewContext.follows old new same]
  by_cases park : name = "park"
  · subst park
    simp [Park.follows old new same]
  simp [unknown]

theorem StructureState.follows (place : Place) : Follows (schema place) (ofJson? place) := by
  refine follows_tagged (by unfold Distinct; decide) fun name old new same unknown => ?_
  by_cases execute : name = "execute"
  · subst execute
    simp [Execute.follows old new same]
  by_cases queueStatus : name = "runq_status"
  · subst queueStatus
    simp [QueueStatus.follows old new same]
  by_cases ready : name = "ready"
  · subst ready
    simp [Ready.follows old new same]
  simp [unknown]

/-- A variant with a single field that must be there. -/
theorem follows_required {schema : Schema} {decode : Json → Option α}
    (follows : Follows schema decode) (name : String) (build : α → β) :
    FollowsFields [.plain name schema] fun value =>
      (fields? [name] value).bind fun field =>
        (required decode (field name)).bind fun part => some (build part) := by
  refine followsFields_bind fun before after agrees => ?_
  rw [agrees.required name (by simp) follows]

theorem follows_optional (decode : Json → Option α) (name : String) (build : Option α → β) :
    FollowsFields [.optional name .leaf] fun value =>
      (fields? [name] value).bind fun field =>
        (optional decode (field name)).bind fun part => some (build part) := by
  refine followsFields_bind fun before after agrees => ?_
  rw [agrees.optional name (by simp) (follows_leaf _)]

theorem Probe.follows (place : Place) : Follows (schema place) (ofJson? place) := by
  refine follows_tagged (by unfold Distinct; decide) fun name old new same unknown => ?_
  by_cases notification : name = "notification"
  · subst notification
    exact follows_required (Notification.follows .nested) "event" Probe.notification old new same
  by_cases structureState : name = "structure_state"
  · subst structureState
    exact follows_required (StructureState.follows .nested) "event" Probe.structureState old new
      same
  by_cases progress : name = "progress"
  · subst progress
    simp [Progress.follows old new same]
  simp [unknown]

theorem follows_defaulted (default : α) (decode : Json → Option α) (name : String) (build : α → β) :
    FollowsFields [.plain name .leaf] fun value =>
      (fields? [name] value).bind fun field =>
        (defaulted default decode (field name)).bind fun part => some (build part) := by
  refine followsFields_bind fun before after agrees => ?_
  rw [agrees.defaulted name default (by simp) (follows_leaf _)]

theorem Message.follows : Follows schema ofJson? := by
  refine follows_tagged (by unfold Distinct; decide) fun name old new same unknown => ?_
  by_cases compilationError : name = "compilation_error"
  · subst compilationError
    exact follows_optional string? "message" Message.compilationError old new same
  by_cases runtimeResult : name = "runtime_result"
  · subst runtimeResult
    exact follows_optional string? "error_message" Message.runtimeResult old new same
  by_cases runtimeOutput : name = "runtime_output"
  · subst runtimeOutput
    exact follows_defaulted "" string? "chunk" Message.runtimeOutput old new same
  by_cases concurrencyWidth : name = "concurrency_width"
  · subst concurrencyWidth
    exact follows_optional uint64? "count" Message.concurrencyWidth old new same
  by_cases runEvent : name = "run_event"
  · subst runEvent
    exact follows_required (Probe.follows .nested) "event" Message.runEvent old new same
  simp [unknown]

theorem Message.decode_eq_ok_iff {text : String} {value : Json}
    (parses : Json.parse text = .ok value) (message : Message) :
    decode text = .ok message ↔ ofJson? value = some message :=
  Wire.decode_eq_ok_iff parses (fun untagged => by simp [ofJson?, untagged]) message

theorem Probe.decode_eq_ok_iff {text : String} {value : Json}
    (parses : Json.parse text = .ok value) (probe : Probe) :
    decode text = .ok probe ↔ ofJson? .outermost value = some probe :=
  Wire.decode_eq_ok_iff parses (fun untagged => by simp [ofJson?, untagged]) probe

/-- A reader of messages or probes does not notice revisions. A tag that is not known turns its own
object into the unknown variant and nothing else. The texts of a value are read as it is. -/
theorem wire_format_is_forward_compatible (old new : Json) :
    (Relation.EqvGen (Revises Message.schema) old new →
        Message.ofJson? old = Message.ofJson? new) ∧
      (∀ place, Relation.EqvGen (Revises (Probe.schema place)) old new →
        Probe.ofJson? place old = Probe.ofJson? place new) ∧
      (∀ before after, Message.Retagged old new before after →
        Message.ofJson? old = some before → Message.ofJson? new = some after) ∧
      (∀ place before after, Probe.Retagged old new before after →
        Probe.ofJson? place old = some before → Probe.ofJson? place new = some after) ∧
      ∀ text, Json.parse text = .ok new →
        (∀ message, Message.decode text = .ok message ↔ Message.ofJson? new = some message) ∧
          ∀ probe, Probe.decode text = .ok probe ↔ Probe.ofJson? .outermost new = some probe := by
  refine ⟨Message.follows.eqvGen, fun place => (Probe.follows place).eqvGen,
    fun _ _ retagged => retagged.means, fun _ _ _ retagged => retagged.means, fun text parses => ?_⟩
  exact ⟨Message.decode_eq_ok_iff parses, Probe.decode_eq_ok_iff parses⟩

theorem wire_format_is_forward_compatible_on_newer_progress :
    Message.decode (Json.render (.obj [("version", .bool true),
        ("event", .obj [("unit_id", .null), ("category", .str "progress")]),
        ("type", .str "run_event")])) = .ok (.runEvent (.progress ⟨none, none, none⟩)) ∧
      Message.decode (Json.render (.obj [("type", .str "run_event"),
        ("event", .obj [("category", .str "metrics")])])) = .ok (.runEvent .unknown) := by
  have meant : Message.ofJson? (.obj [("type", .str "run_event"),
      ("event", .obj [("category", .str "progress")])]) =
        some (.runEvent (.progress ⟨none, none, none⟩)) := rfl
  constructor
  · have filled : Revises Message.schema
        (.obj [("type", .str "run_event"), ("event", .obj [("category", .str "progress")])])
        (.obj [("type", .str "run_event"),
          ("event", .obj [("unit_id", .null), ("category", .str "progress")])]) := by
      refine .tagged List.mem_cons_self rfl (@Revises.member _ [_] []
        (.plain "event" (Probe.schema .nested)) _ _ (.tail _ (.head _)) ?_)
      exact .tagged List.mem_cons_self rfl (@Revises.null _ _ (.optional "unit_id" .leaf)
        (.tail _ (.tail _ (.head _))) rfl (by decide))
    have extended : Revises Message.schema
        (.obj [("type", .str "run_event"),
          ("event", .obj [("unit_id", .null), ("category", .str "progress")])])
        (.obj [("version", .bool true), ("type", .str "run_event"),
          ("event", .obj [("unit_id", .null), ("category", .str "progress")])]) :=
      .tagged List.mem_cons_self rfl (@Revises.insert _ [] _ _ _ (by decide))
    obtain ⟨revised, -, -, -, read⟩ := wire_format_is_forward_compatible
      (.obj [("type", .str "run_event"), ("event", .obj [("category", .str "progress")])])
      (.obj [("version", .bool true),
        ("event", .obj [("unit_id", .null), ("category", .str "progress")]),
        ("type", .str "run_event")])
    refine ((read _ (Json.parse_render ?fits)).1 _).mpr (Eq.trans (revised ?revisions).symm meant)
    case fits =>
      have event : Json.Fits 126 (.obj [("unit_id", .null), ("category", .str "progress")]) :=
        .obj (by simp [Json.Fits.null, Json.Fits.str])
      exact .obj (by simp [event, Json.Fits.bool, Json.Fits.str])
    case revisions =>
      refine .trans _ _ _ (.rel _ _ filled) (.trans _ _ _ (.rel _ _ extended) (.rel _ _ ?_))
      exact .tagged (.tail _ (.head _)) rfl (.reorder (.cons _ (.swap _ _ _)))
  · obtain ⟨-, -, retagged, -, read⟩ := wire_format_is_forward_compatible
      (.obj [("type", .str "run_event"), ("event", .obj [("category", .str "progress")])])
      (.obj [("type", .str "run_event"), ("event", .obj [("category", .str "metrics")])])
    refine ((read _ (Json.parse_render ?fits)).1 _).mpr (retagged _ _ ?retagged meant)
    case fits =>
      have event : Json.Fits 126 (.obj [("category", .str "metrics")]) :=
        .obj (by simp [Json.Fits.str])
      exact .obj (by simp [event, Json.Fits.str])
    case retagged =>
      exact .runEvent (.probe (@Retags.tag _ _ [] _ _ _ (by decide)))
        (@Exchange.member "event" _ _ [_] [])

end SchedReplay.Wire
