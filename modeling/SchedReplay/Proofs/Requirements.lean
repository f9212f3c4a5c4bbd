import Mathlib.Data.List.Forall2
import SchedReplay.Event.Validation

/-! What a probe has to say to mean an event, as a list of requirements in the order in which they
are looked at, and what the event then says. The first requirement that is not met is reported. -/
namespace SchedReplay

/-- Something that a probe has to say, and what it says. -/
inductive Requirement where
  | field (subject : Subject) (path : String) (present : Bool)
  | context (subject : Subject) (path : String) (value : Option UInt64)
  deriving DecidableEq

namespace Requirement

def IsMet : Requirement → Prop
  | field _ _ present => present = true
  | context _ _ value => ∃ raw, value = some raw ∧ raw.toNat < UInt32.size

/-- What is wrong where a requirement is not met. -/
def fault? : Requirement → Option FieldError
  | field subject path present => if present then none else some (.missing subject path)
  | context subject path none => some (.missing subject path)
  | context subject path (some raw) =>
    if raw.toNat < UInt32.size then none else some (.contextTooLarge subject path raw)

theorem fault?_eq_none_iff {requirement : Requirement} :
    requirement.fault? = none ↔ requirement.IsMet := by
  cases requirement with
  | field subject path present => simp [fault?, IsMet]
  | context subject path value => cases value <;> simp [fault?, IsMet]

end Requirement

namespace Wire

/-- A queued unit needs its number only. -/
def UnitInfo.requirement (subject : Subject) (path : String) (record : UnitInfo) : Requirement :=
  .field subject (path ++ "id") record.id.isSome

def QueueStatus.requirements (subject : Subject) (path : String) (record : QueueStatus) :
    List Requirement :=
  .context subject (path ++ "context_id") record.contextId ::
    (record.runNext.toList.map (UnitInfo.requirement subject (path ++ "run_next.")) ++
      record.runQueueEntries.zipIdx.map fun entry =>
        entry.1.requirement subject (path ++ s!"run_queue_entries[{entry.2}]."))

def Schedule.requirements (record : Schedule) : List Requirement :=
  [.field .schedule "machine_id" record.machineId.isSome,
    .context .schedule "context_id" record.contextId]

def Park.requirements (record : Park) : List Requirement :=
  [.field .park "machine_id" record.machineId.isSome,
    .field .park "parked_unit" record.parkedUnit.isSome,
    .field .park "parked_unit.id" (record.parkedUnit.bind (·.id)).isSome,
    .field .park "wait_reason" record.waitReason.isSome]

def Execute.requirements (record : Execute) : List Requirement :=
  [.field .execute "machine_id" record.machineId.isSome,
    .field .execute "found_unit" record.foundUnit.isSome,
    .field .execute "found_unit.id" (record.foundUnit.bind (·.id)).isSome,
    .field .execute "found_unit.entry_function_name"
      (record.foundUnit.bind (·.entryFunctionName)).isSome,
    .context .execute "context_id" record.contextId] ++
  record.contextSnapshots.zipIdx.flatMap fun entry =>
    entry.1.requirements .execute s!"context_snapshots[{entry.2}]."

/-- The machine of the update is looked at before the update itself. -/
def Ready.requirements (record : Ready) : List Requirement :=
  [.field .ready "unit_id" record.unitId.isSome,
    .field .ready "context_update" record.contextUpdate.isSome,
    .field .ready "context_update.machine_id" (record.contextUpdate.bind (·.machineId)).isSome] ++
  record.contextUpdate.toList.flatMap (QueueStatus.requirements .ready "context_update.")

def Progress.requirements (record : Progress) : List Requirement :=
  [.field .progress "machine_id" record.machineId.isSome,
    .field .progress "unit_id" record.unitId.isSome,
    .field .progress "source_location" record.sourceLocation.isSome,
    .field .progress "source_location.line" (record.sourceLocation.bind (·.line)).isSome]

def Probe.requirements : Probe → List Requirement
  | notification (.schedule record) => record.requirements
  | notification (.park record) => record.requirements
  | structureState (.execute record) => record.requirements
  | structureState (.queueStatus record) => record.requirements .queueStatus ""
  | structureState (.ready record) => record.requirements
  | progress record => record.requirements
  | notification (.newContext _) | notification .unknown | structureState .unknown | unknown => []

/-- The part of the wire format in which a kind of probe is newer than what is known here. -/
def Probe.newerIn? : Probe → Option Family
  | notification .unknown => some .notification
  | structureState .unknown => some .structureState
  | unknown => some .probe
  | _ => none

structure UnitInfo.Gives (record : UnitInfo) (unit : WorkUnit) : Prop where
  id : record.id = some unit.id.val
  name : unit.entryFunctionName = record.entryFunctionName.getD ""

structure QueueStatus.Gives (record : QueueStatus) (seen : Observation) : Prop where
  context : record.contextId.map UInt64.toNat = some seen.context.id.val.toNat
  machine : seen.machine = record.machineId.map .mk
  next : Option.Rel UnitInfo.Gives record.runNext seen.context.runNext
  queue : List.Forall₂ UnitInfo.Gives record.runQueueEntries seen.context.runQueue

structure Schedule.Gives (record : Schedule) (event : Event.Schedule) : Prop where
  machine : record.machineId = some event.machine.val
  context : record.contextId.map UInt64.toNat = some event.context.val.toNat
  reason : event.reason = record.reason.getD .other

structure NewContext.Gives (record : NewContext) (event : Event.NewContext) : Prop where
  machine : event.machine = record.machineId.map .mk
  creator : event.creator = record.creatorUnitId.map .mk
  function : event.startFunction = record.startLocation.bind (·.function)

structure Park.Gives (record : Park) (event : Event.Park) : Prop where
  machine : record.machineId = some event.machine.val
  unit : ∃ parked, record.parkedUnit = some parked ∧ parked.Gives event.unit
  reason : record.waitReason = some event.waitReason

structure Execute.Gives (record : Execute) (event : Event.Execute) : Prop where
  machine : record.machineId = some event.machine.val
  found : record.foundUnit = some ⟨some event.found.id.val, some event.found.entryFunctionName⟩
  context : record.contextId.map UInt64.toNat = some event.context.val.toNat
  snapshots : List.Forall₂ QueueStatus.Gives record.contextSnapshots event.snapshots

structure Ready.Gives (record : Ready) (event : Event.Ready) : Prop where
  unit : record.unitId = some event.unit.val
  update : ∃ update, record.contextUpdate = some update ∧ update.Gives event.update
  machine : event.update.machine.isSome = true

structure Progress.Gives (record : Progress) (event : Event.Progress) : Prop where
  machine : record.machineId = some event.machine.val
  unit : record.unitId = some event.unit.val
  location : record.sourceLocation = some ⟨event.file, some event.line, event.function⟩

/-- What the event of a probe says: all that the probe says, in the same order. -/
inductive Probe.Gives : Probe → Event → Prop where
  | schedule {record event} (gives : Schedule.Gives record event) :
      Gives (.notification (.schedule record)) (.schedule event)
  | newContext {record event} (gives : NewContext.Gives record event) :
      Gives (.notification (.newContext record)) (.newContext event)
  | park {record event} (gives : Park.Gives record event) :
      Gives (.notification (.park record)) (.park event)
  | execute {record event} (gives : Execute.Gives record event) :
      Gives (.structureState (.execute record)) (.execute event)
  | queueStatus {record seen} (gives : QueueStatus.Gives record seen) :
      Gives (.structureState (.queueStatus record)) (.queueStatus seen)
  | ready {record event} (gives : Ready.Gives record event) :
      Gives (.structureState (.ready record)) (.ready event)
  | progress {record event} (gives : Progress.Gives record event) :
      Gives (.progress record) (.progress event)

end Wire

/-- An attempt that asks for what is required in turn and gives what it should. -/
structure Asks (requirements : List Requirement) (gives : α → Prop)
    (tried : Except FieldError α) : Prop where
  ok_iff : ∀ value, tried = .ok value ↔ gives value
  error_iff : ∀ error, tried = .error error ↔
    requirements.findSome? Requirement.fault? = some error

namespace Asks

variable {requirements more : List Requirement} {gives : α → Prop} {tried : Except FieldError α}

theorem pure (value : α) : Asks [] (value = ·) (.ok value : Except FieldError α) where
  ok_iff := by simp
  error_iff := by simp

theorem bind {follow : α → Except FieldError β} {leads : α → β → Prop}
    (first : Asks requirements gives tried)
    (later : ∀ value, gives value → Asks more (leads value) (follow value)) :
    Asks (requirements ++ more) (fun result => ∃ value, gives value ∧ leads value result)
      (tried >>= follow) where
  ok_iff result := by
    cases tried with
    | error error =>
      simp [Bind.bind, Except.bind, ← first.ok_iff]
    | ok value =>
      have given := (first.ok_iff value).mp rfl
      simp [Bind.bind, Except.bind, ← first.ok_iff, (later value given).ok_iff]
  error_iff error := by
    rw [List.findSome?_append]
    cases tried with
    | error fault =>
      have found := (first.error_iff fault).mp rfl
      simp [Bind.bind, Except.bind, found]
    | ok value =>
      have given := (first.ok_iff value).mp rfl
      -- What comes later is only asked for once all that comes before is met.
      have clear : requirements.findSome? Requirement.fault? = none := by
        cases found : requirements.findSome? Requirement.fault? with
        | none => rfl
        | some fault => cases (first.error_iff fault).mpr found
      simp [Bind.bind, Except.bind, clear, (later value given).error_iff]

/-- The last thing that is asked for decides what is returned. -/
theorem map (asks : Asks requirements gives tried) (result : α → β) :
    Asks requirements (fun value => ∃ first, gives first ∧ result first = value)
      (tried >>= fun value => .ok (result value)) where
  ok_iff value := by
    cases tried with
    | error error => simp [Bind.bind, Except.bind, ← asks.ok_iff]
    | ok first => simp [Bind.bind, Except.bind, ← asks.ok_iff]
  error_iff error := by
    rw [← asks.error_iff]
    cases tried <;> simp [Bind.bind, Except.bind]

theorem congr {other : α → Prop} (asks : Asks requirements gives tried)
    (same : ∀ value, gives value ↔ other value) : Asks requirements other tried where
  ok_iff value := (asks.ok_iff value).trans (same value)
  error_iff := asks.error_iff

theorem exists_ok_iff (asks : Asks requirements gives tried) :
    (∃ value, tried = .ok value) ↔ ∀ requirement ∈ requirements, requirement.IsMet := by
  simp only [← Requirement.fault?_eq_none_iff, ← List.findSome?_eq_none_iff]
  cases tried with
  | ok value =>
    cases found : requirements.findSome? Requirement.fault? with
    | none => simp
    | some fault => cases (asks.error_iff fault).mpr found
  | error fault => simp [(asks.error_iff fault).mp rfl]

end Asks

section Fields

theorem asks_require (subject : Subject) (path : String) (value : Option α) :
    Asks [.field subject path value.isSome] (value = some ·) (Event.require subject path value) where
  ok_iff := by cases value <;> simp [Event.require]
  error_iff := by cases value <;> simp [Event.require, Requirement.fault?]

/-- A field of a record that was asked for before. -/
theorem asks_require_of {outer : Option β} {record : β} (found : outer = some record)
    (subject : Subject) (path : String) (field : β → Option α) :
    Asks [.field subject path (outer.bind field).isSome] (field record = some ·)
      (Event.require subject path (field record)) := by
  rw [found]
  exact asks_require subject path (field record)

theorem requireContext_some (subject : Subject) (path : String) (raw : UInt64) :
    Event.requireContext subject path (some raw) =
      if raw.toNat < UInt32.size then .ok ⟨raw.toUInt32⟩
      else .error (.contextTooLarge subject path raw) := by
  by_cases small : raw.toNat < UInt32.size
  · have fits : ContextId.ofUInt64? raw = some ⟨raw.toUInt32⟩ := if_pos small
    simp only [Event.requireContext, Event.require, bind, Except.bind, fits]
    exact (if_pos small).symm
  · have large : ContextId.ofUInt64? raw = none := if_neg small
    simp only [Event.requireContext, Event.require, bind, Except.bind, large]
    exact (if_neg small).symm

theorem asks_requireContext (subject : Subject) (path : String) (value : Option UInt64) :
    Asks [.context subject path value]
      (fun id => value.map UInt64.toNat = some id.val.toNat)
      (Event.requireContext subject path value) where
  ok_iff id := by
    cases value with
    | none => simp [Event.requireContext, Event.require, bind, Except.bind]
    | some raw =>
      have fits := @ContextId.ofUInt64?_eq_some_iff raw id
      simp only [Event.requireContext, Event.require, bind, Except.bind, Option.map_some,
        Option.some.injEq, ← fits]
      split <;> simp [*]
  error_iff error := by
    cases value with
    | none => simp [Event.requireContext, Event.require, bind, Except.bind, Requirement.fault?]
    | some raw =>
      rw [requireContext_some, List.findSome?_singleton, Requirement.fault?]
      split <;> simp

theorem asks_workUnit (subject : Subject) (path : String) (record : Wire.UnitInfo) :
    Asks [record.requirement subject path] record.Gives (Event.workUnit subject path record) := by
  refine ((asks_require subject (path ++ "id") record.id).map
    fun id => (⟨⟨id⟩, record.entryFunctionName.getD ""⟩ : WorkUnit)).congr ?_
  rintro ⟨⟨id⟩, name⟩
  constructor
  · rintro ⟨_, found, same⟩
    cases same
    exact ⟨found, rfl⟩
  · rintro ⟨found, rfl⟩
    exact ⟨id, found, rfl⟩

theorem asks_runNext (subject : Subject) (path : String) (record : Option Wire.UnitInfo) :
    Asks (record.toList.map (Wire.UnitInfo.requirement subject (path ++ "run_next.")))
      (Option.Rel Wire.UnitInfo.Gives record) (Event.runNext subject path record) := by
  cases record with
  | none =>
    refine (Asks.pure none).congr ?_
    intro next
    cases next <;> simp
  | some record =>
    have returns : Event.runNext subject path (some record) =
        Event.workUnit subject (path ++ "run_next.") record >>= fun unit => .ok (some unit) := by
      rw [Event.runNext]
      cases Event.workUnit subject (path ++ "run_next.") record <;> rfl
    rw [returns]
    refine ((asks_workUnit subject (path ++ "run_next.") record).map some).congr ?_
    intro next
    cases next <;> simp

theorem asks_runQueue (subject : Subject) (path : String) (index : Nat)
    (records : List Wire.UnitInfo) :
    Asks ((records.zipIdx index).map fun entry =>
        entry.1.requirement subject (path ++ s!"run_queue_entries[{entry.2}]."))
      (List.Forall₂ Wire.UnitInfo.Gives records) (Event.runQueue subject path index records) := by
  induction records generalizing index with
  | nil =>
    refine (Asks.pure []).congr ?_
    simp [eq_comm]
  | cons record rest ih =>
    refine Asks.congr ((asks_workUnit subject _ record).bind fun unit _ =>
      (ih (index + 1)).map (unit :: ·)) ?_
    intro units
    rw [List.forall₂_cons_left_iff]
    simp [eq_comm]

theorem asks_observation (subject : Subject) (path : String) (record : Wire.QueueStatus) :
    Asks (record.requirements subject path) record.Gives
      (Event.observation subject path record) := by
  refine Asks.congr ((asks_requireContext subject (path ++ "context_id") record.contextId).bind
    fun id _ => (asks_runNext subject path record.runNext).bind
      fun next _ => (asks_runQueue subject path 0 record.runQueueEntries).map
        fun queue => (⟨record.machineId.map .mk, ⟨id, next, queue⟩⟩ : Observation)) ?_
  rintro ⟨machine, id, next, queue⟩
  constructor
  · rintro ⟨_, context, _, waits, _, queued, same⟩
    cases same
    exact ⟨context, rfl, waits, queued⟩
  · rintro ⟨context, rfl, waits, queued⟩
    exact ⟨_, context, _, waits, _, queued, rfl⟩

theorem asks_snapshots (index : Nat) (records : List Wire.QueueStatus) :
    Asks ((records.zipIdx index).flatMap fun entry =>
        entry.1.requirements .execute s!"context_snapshots[{entry.2}].")
      (List.Forall₂ Wire.QueueStatus.Gives records) (Event.snapshots index records) := by
  induction records generalizing index with
  | nil =>
    refine (Asks.pure []).congr ?_
    simp [eq_comm]
  | cons record rest ih =>
    refine Asks.congr ((asks_observation .execute _ record).bind fun first _ =>
      (ih (index + 1)).map (first :: ·)) ?_
    intro snapshots
    rw [List.forall₂_cons_left_iff]
    simp [eq_comm]

end Fields

section Records

theorem asks_ofSchedule (record : Wire.Schedule) :
    Asks record.requirements record.Gives (Event.ofSchedule record) := by
  refine Asks.congr ((asks_require .schedule "machine_id" record.machineId).bind fun machine _ =>
    (asks_requireContext .schedule "context_id" record.contextId).map fun context =>
      (⟨⟨machine⟩, context, record.reason.getD .other⟩ : Event.Schedule)) ?_
  rintro ⟨⟨machine⟩, context, reason⟩
  constructor
  · rintro ⟨_, machine, _, context, same⟩
    cases same
    exact ⟨machine, context, rfl⟩
  · rintro ⟨machine, context, rfl⟩
    exact ⟨_, machine, _, context, rfl⟩

theorem asks_ofNewContext (record : Wire.NewContext) :
    Asks [] record.Gives (.ok (Event.ofNewContext record) : Except FieldError Event.NewContext) := by
  refine (Asks.pure (Event.ofNewContext record)).congr ?_
  rintro ⟨machine, creator, function⟩
  constructor
  · rintro ⟨⟩
    exact ⟨rfl, rfl, rfl⟩
  · rintro ⟨rfl, rfl, rfl⟩
    rfl

theorem asks_ofPark (record : Wire.Park) :
    Asks record.requirements record.Gives (Event.ofPark record) := by
  refine Asks.congr ((asks_require .park "machine_id" record.machineId).bind fun machine _ =>
    (asks_require .park "parked_unit" record.parkedUnit).bind fun parked found =>
      (show Asks [.field .park "parked_unit.id" (record.parkedUnit.bind (·.id)).isSome] parked.Gives
        (Event.workUnit .park "parked_unit." parked) from ?_).bind fun unit _ =>
        (asks_require .park "wait_reason" record.waitReason).map fun reason =>
          (⟨⟨machine⟩, unit, reason⟩ : Event.Park)) ?_
  · rw [found]
    exact asks_workUnit .park "parked_unit." parked
  · rintro ⟨⟨machine⟩, unit, reason⟩
    constructor
    · rintro ⟨_, machine, parked, found, _, gives, _, reason, same⟩
      cases same
      exact ⟨machine, ⟨parked, found, gives⟩, reason⟩
    · rintro ⟨machine, ⟨parked, found, gives⟩, reason⟩
      exact ⟨_, machine, parked, found, _, gives, _, reason, rfl⟩

theorem asks_ofExecute (record : Wire.Execute) :
    Asks record.requirements record.Gives (Event.ofExecute record) := by
  refine Asks.congr ((asks_require .execute "machine_id" record.machineId).bind fun machine _ =>
    (asks_require .execute "found_unit" record.foundUnit).bind fun _ found =>
    (asks_require_of found .execute "found_unit.id" (·.id)).bind fun id _ =>
    (asks_require_of found .execute "found_unit.entry_function_name" (·.entryFunctionName)).bind
      fun name _ =>
    (asks_requireContext .execute "context_id" record.contextId).bind fun context _ =>
    (asks_snapshots 0 record.contextSnapshots).map fun observed =>
      (⟨⟨machine⟩, context, ⟨⟨id⟩, name⟩, observed⟩ : Event.Execute)) ?_
  rintro ⟨⟨machine⟩, context, ⟨⟨id⟩, name⟩, observed⟩
  constructor
  · rintro ⟨_, machine, ⟨_, _⟩, found, _, rfl, _, rfl, _, context, _, snapshots, same⟩
    cases same
    exact ⟨machine, found, context, snapshots⟩
  · rintro ⟨machine, found, context, snapshots⟩
    exact ⟨_, machine, _, found, _, rfl, _, rfl, _, context, _, snapshots, rfl⟩

theorem asks_ofReady (record : Wire.Ready) :
    Asks record.requirements record.Gives (Event.ofReady record) := by
  refine Asks.congr ((asks_require .ready "unit_id" record.unitId).bind fun unit _ =>
    (asks_require .ready "context_update" record.contextUpdate).bind fun update found =>
      (asks_require_of found .ready "context_update.machine_id" (·.machineId)).bind fun _ _ =>
      (show Asks (record.contextUpdate.toList.flatMap
          (Wire.QueueStatus.requirements .ready "context_update.")) update.Gives
        (Event.observation .ready "context_update." update) from ?_).map fun seen =>
        (⟨⟨unit⟩, seen⟩ : Event.Ready)) ?_
  · rw [found, Option.toList_some, List.flatMap_singleton]
    exact asks_observation .ready "context_update." update
  · rintro ⟨⟨unit⟩, seen⟩
    constructor
    · rintro ⟨_, unit, update, found, _, named, _, gives, same⟩
      cases same
      exact ⟨unit, ⟨update, found, gives⟩, by rw [gives.machine, named]; rfl⟩
    · rintro ⟨unit, ⟨update, found, gives⟩, machine⟩
      rw [gives.machine, Option.isSome_map] at machine
      obtain ⟨named, is⟩ := Option.isSome_iff_exists.mp machine
      exact ⟨_, unit, update, found, named, is, _, gives, rfl⟩

theorem asks_ofProgress (record : Wire.Progress) :
    Asks record.requirements record.Gives (Event.ofProgress record) := by
  refine Asks.congr ((asks_require .progress "machine_id" record.machineId).bind fun machine _ =>
    (asks_require .progress "unit_id" record.unitId).bind fun unit _ =>
    (asks_require .progress "source_location" record.sourceLocation).bind fun location found =>
      (asks_require_of found .progress "source_location.line" (·.line)).map fun line =>
        (⟨⟨machine⟩, ⟨unit⟩, line, location.file, location.function⟩ : Event.Progress)) ?_
  rintro ⟨⟨machine⟩, ⟨unit⟩, line, file, function⟩
  constructor
  · rintro ⟨_, machine, _, unit, ⟨_, _, _⟩, found, _, rfl, same⟩
    cases same
    exact ⟨machine, unit, found⟩
  · rintro ⟨machine, unit, found⟩
    exact ⟨_, machine, _, unit, _, found, _, rfl, rfl⟩

end Records

section Probes

variable {requirements : List Requirement} {gives : α → Prop} {tried : Except FieldError α}

/-- A record that is asked for what its probe has to say gives the event that the probe says. -/
theorem Asks.event {probe : Wire.Probe} {make : α → Event} (asks : Asks requirements gives tried)
    (made : ∀ value, gives value → probe.Gives (make value))
    (only : ∀ event, probe.Gives event → ∃ value, gives value ∧ make value = event) :
    Asks requirements (fun meaning => ∃ event, probe.Gives event ∧ Meaning.event event = meaning)
      (tried >>= fun value => .ok (.event (make value))) := by
  refine (asks.map fun value => Meaning.event (make value)).congr ?_
  intro meaning
  constructor
  · rintro ⟨value, given, same⟩
    exact ⟨make value, made value given, same⟩
  · rintro ⟨event, given, same⟩
    obtain ⟨value, is, rfl⟩ := only event given
    exact ⟨value, is, same⟩

theorem asks_ofProbe {probe : Wire.Probe} (known : probe.newerIn? = none) :
    Asks probe.requirements (fun meaning => ∃ event, probe.Gives event ∧ .event event = meaning)
      (Meaning.ofProbe probe) := by
  cases probe with
  | notification notification =>
    cases notification with
    | schedule record =>
      exact (asks_ofSchedule record).event (fun _ => .schedule) fun
        | _, .schedule given => ⟨_, given, rfl⟩
    | newContext record =>
      exact (asks_ofNewContext record).event (fun _ => .newContext) fun
        | _, .newContext given => ⟨_, given, rfl⟩
    | park record =>
      exact (asks_ofPark record).event (fun _ => .park) fun
        | _, .park given => ⟨_, given, rfl⟩
    | unknown => cases known
  | structureState state =>
    cases state with
    | execute record =>
      exact (asks_ofExecute record).event (fun _ => .execute) fun
        | _, .execute given => ⟨_, given, rfl⟩
    | queueStatus record =>
      exact (asks_observation .queueStatus "" record).event (fun _ => .queueStatus) fun
        | _, .queueStatus given => ⟨_, given, rfl⟩
    | ready record =>
      exact (asks_ofReady record).event (fun _ => .ready) fun
        | _, .ready given => ⟨_, given, rfl⟩
    | unknown => cases known
  | progress record =>
    exact (asks_ofProgress record).event (fun _ => .progress) fun
      | _, .progress given => ⟨_, given, rfl⟩
  | unknown => cases known

theorem ofProbe_of_newer {probe : Wire.Probe} {family : Family}
    (newer : probe.newerIn? = some family) : Meaning.ofProbe probe = .ok (.unrecognized family) := by
  cases probe with
  | notification notification => cases notification <;> cases newer; rfl
  | structureState state => cases state <;> cases newer; rfl
  | progress record => cases newer
  | unknown => cases newer; rfl

theorem requirements_of_newer {probe : Wire.Probe} {family : Family}
    (newer : probe.newerIn? = some family) : probe.requirements = [] := by
  cases probe with
  | notification notification => cases notification <;> cases newer; rfl
  | structureState state => cases state <;> cases newer; rfl
  | progress record => cases newer
  | unknown => rfl

theorem not_gives_of_newer {probe : Wire.Probe} {family : Family}
    (newer : probe.newerIn? = some family) (event : Event) : ¬ probe.Gives event := by
  rintro (_ | _) <;> cases newer

/-- A probe means an event exactly if it is of a known kind and says all that its kind requires;
the event then says the same in the same order. Otherwise the error is the first requirement that
is not met, and a kind that is newer than what is known here needs nothing. -/
theorem probes_mean_what_they_completely_say (probe : Wire.Probe) :
    (∀ event, Meaning.ofProbe probe = .ok (.event event) ↔ probe.Gives event) ∧
    ((∃ event, Meaning.ofProbe probe = .ok (.event event)) ↔
      probe.newerIn? = none ∧ ∀ requirement ∈ probe.requirements, requirement.IsMet) ∧
    (∀ error, Meaning.ofProbe probe = .error error ↔
      ∃ before requirement after, probe.requirements = before ++ requirement :: after ∧
        requirement.fault? = some error ∧ ∀ earlier ∈ before, earlier.IsMet) ∧
    ∀ family, Meaning.ofProbe probe = .ok (.unrecognized family) ↔
      probe.newerIn? = some family := by
  cases newer : probe.newerIn? with
  | some family =>
    have returned := ofProbe_of_newer newer
    have asksNothing := requirements_of_newer newer
    have givesNothing := not_gives_of_newer newer
    simp [returned, asksNothing, givesNothing]
  | none =>
    have asks := asks_ofProbe newer
    have means (event : Event) :
        Meaning.ofProbe probe = .ok (.event event) ↔ probe.Gives event := by
      rw [asks.ok_iff]
      simp
    refine ⟨means, ?_, ?_, ?_⟩
    · rw [← asks.exists_ok_iff]
      simp only [asks.ok_iff]
      simp
    · intro error
      rw [asks.error_iff, List.findSome?_eq_some_iff]
      simp only [Requirement.fault?_eq_none_iff]
    · intro family
      rw [asks.ok_iff]
      simp

example : Meaning.ofProbe (.structureState (.execute ⟨some 1, some 0, some ⟨some 7, some "main"⟩,
      [⟨some 0, none, none, []⟩, ⟨some 1, none, none, [⟨some 8, none⟩, ⟨none, none⟩]⟩]⟩)) =
    .error (.missing .execute "context_snapshots[1].run_queue_entries[1].id") := by rfl

end Probes

end SchedReplay
