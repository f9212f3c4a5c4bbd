import SchedReplay.Proofs.Movement

/-! The parked units are the outstanding parks of the run. A unit that gets ready leaves by its
first entry, which is its only one because the model was consistent before. -/
namespace SchedReplay

namespace Event

def parks? : Event → Option ParkedUnit
  | park event => some ⟨event.unit, event.waitReason⟩
  | schedule _ | execute _ | queueStatus _ | ready _ | newContext _ | progress _ => none

def readies (unit : UnitId) : Event → Bool
  | ready event => event.unit = unit
  | schedule _ | execute _ | queueStatus _ | park _ | newContext _ | progress _ => false

end Event

/-- The parked units that no event gets ready. -/
def stillParked (parked : List ParkedUnit) (events : List Event) : List ParkedUnit :=
  parked.filter fun entry => !events.any (·.readies entry.unit.id)

/-- The units that a history parks and does not get ready later, in the order of their parks. -/
def outstanding : List Event → List ParkedUnit
  | [] => []
  | event :: later => stillParked event.parks?.toList later ++ outstanding later

section Outstanding

variable (parked : List ParkedUnit) (events earlier later : List Event)

@[simp] theorem stillParked_nil : stillParked parked [] = parked := by simp [stillParked]

theorem stillParked_append :
    stillParked parked (earlier ++ later) = stillParked (stillParked parked earlier) later := by
  simp [stillParked, List.filter_filter, Bool.and_comm]

theorem outstanding_append :
    outstanding (earlier ++ later) = stillParked (outstanding earlier) later ++ outstanding later := by
  induction earlier with
  | nil => rfl
  | cons event rest ih =>
    rw [List.cons_append, outstanding, outstanding, ih, stillParked_append, ← List.append_assoc]
    congr 1
    exact (List.filter_append _ _).symm

theorem outstanding_concat (event : Event) : outstanding (events ++ [event]) =
    stillParked (outstanding events) [event] ++ event.parks?.toList := by
  simp [outstanding_append, outstanding]

theorem stillParked_ready (event : Event.Ready) :
    stillParked parked [.ready event] = parked.filter (·.unit.id ≠ event.unit) := by
  simp [stillParked, Event.readies, eq_comm]

/-- A park and the same unit getting ready cancel out. -/
theorem outstanding_park_ready {park : Event.Park} {ready : Event.Ready}
    (same : ready.unit = park.unit.id)
    (others : ∀ entry ∈ outstanding earlier, entry.unit.id ≠ park.unit.id) :
    outstanding (earlier ++ .park park :: events ++ [.ready ready]) =
      stillParked (outstanding earlier) events ++
        (outstanding events).filter (·.unit.id ≠ park.unit.id) := by
  have apart : stillParked (outstanding earlier) (.park park :: events) =
      stillParked (outstanding earlier) events := rfl
  have kept : (stillParked (outstanding earlier) events).filter (·.unit.id ≠ park.unit.id) =
      stillParked (outstanding earlier) events := by
    rw [List.filter_eq_self]
    intro entry member
    simpa using others entry (List.mem_filter.mp member).1
  have gone : (stillParked (Event.park park).parks?.toList events).filter
      (·.unit.id ≠ park.unit.id) = [] := by
    rw [List.filter_eq_nil_iff]
    intro entry member
    obtain rfl := List.mem_singleton.mp (List.mem_filter.mp member).1
    simp
  rw [outstanding_concat, stillParked_ready, same, outstanding_append, apart, outstanding,
    List.filter_append, List.filter_append, kept, gone]
  simp [Event.parks?]

end Outstanding

theorem eraseP_eq_filter_of_nodup [DecidableEq κ] {key : α → κ} {entries : List α}
    (once : (entries.map key).Nodup) (removed : κ) :
    entries.eraseP (key · = removed) = entries.filter (key · ≠ removed) := by
  induction entries with
  | nil => rfl
  | cons first rest ih =>
    rw [List.map_cons, List.nodup_cons] at once
    by_cases is : key first = removed
    · have others : ∀ entry ∈ rest, key entry ≠ removed := by
        intro entry member same
        exact once.1 (List.mem_map.mpr ⟨entry, member, same.trans is.symm⟩)
      have kept : rest.filter (key · ≠ removed) = rest := by simpa using others
      rw [List.eraseP_cons_of_pos (by simpa using is), List.filter_cons_of_neg (by simpa using is),
        kept]
    · rw [List.eraseP_cons_of_neg (by simpa using is), List.filter_cons_of_pos (by simpa using is),
        ih once.2]

namespace Model

variable {model next : Model} {event : Event} {changes : Changes}

theorem parkedAfter_eq (consistent : model.Consistent) :
    event.parkedAfter model = stillParked model.parked [event] ++ event.parks?.toList := by
  cases event with
  | park event => simp [Event.parkedAfter, stillParked, Event.readies, Event.parks?]
  | ready event =>
    have erased := eraseP_eq_filter_of_nodup consistent.nodup_parked event.unit
    rw [Event.parkedAfter, erased]
    simp [stillParked, Event.readies, Event.parks?, eq_comm]
  | _ => simp [Event.parkedAfter, stillParked, Event.readies, Event.parks?]

end Model

namespace Engine

theorem parked_performAll (calls : List Call) :
    (new.performAll calls).model.parked = outstanding (committedEvents (new.transcript calls)) := by
  refine commit_induction (fun events model => model.parked = outstanding events) ?_ ?_ ?_ calls
  · rfl
  · intro width _ _
    rfl
  · intro events model event decision next changes consistent parked decides fits
    have staged := (Model.commit_eq_ok_iff.mp fits).1
    rw [Model.stageAll_parkedUnits decides staged, Model.parkedAfter_eq consistent, parked,
      outstanding_concat]

theorem committedEvents_of_answer {start : Engine} {call : Call} {event : Event}
    {snapshot : Snapshot} (applies : call.event? = some event) (structural : event.isStructural)
    (answers : (start.perform call).1 = .snapshot (.ok snapshot)) :
    committedEvents (start.transcript [call]) = [event] := by
  have keeps : call ≠ .reset := by
    rintro rfl
    cases applies
  have commits : committedEvent? (call, .snapshot (.ok snapshot)) = some event := by
    rw [committedEvent?, applies, Option.filter_some_pos structural]
    rfl
  simp [committedEvents, transcript, currentRun, keeps, answers, commits]

/-- A unit that parks was not parked. -/
theorem not_parked_of_park {start : Engine} {call : Call} {event : Event.Park}
    {snapshot : Snapshot} (applies : call.event? = some (.park event))
    (answers : (start.perform call).1 = .snapshot (.ok snapshot)) :
    ∀ entry ∈ start.model.parked, entry.unit.id ≠ event.unit.id := by
  have decides : (Event.park event).decision? = some event.decision := rfl
  obtain ⟨changes, fits⟩ := commit_of_answer applies decides answers
  obtain ⟨staged, after, _⟩ := Model.commit_eq_ok_iff.mp fits
  have once := after.nodup_parked
  rw [Model.stageAll_parkedUnits decides staged, Event.parkedAfter, List.map_append,
    List.nodup_append'] at once
  intro entry member same
  exact once.2.2 (List.mem_map.mpr ⟨entry, member, same⟩) (by simp)

theorem parked_of_answer {start : Engine} (consistent : start.model.Consistent) {call : Call}
    {event : Event} {decision : Decision} {snapshot : Snapshot}
    (applies : call.event? = some event) (decides : event.decision? = some decision)
    (answers : (start.perform call).1 = .snapshot (.ok snapshot)) :
    snapshot.model.parked = stillParked start.model.parked [event] ++ event.parks?.toList := by
  obtain ⟨changes, fits⟩ := commit_of_answer applies decides answers
  have staged := (Model.commit_eq_ok_iff.mp fits).1
  rw [Model.stageAll_parkedUnits decides staged, Model.parkedAfter_eq consistent]

/-- The parked units are the outstanding parks of the run. Whatever a run commits between a park
and the same unit getting ready, the other parked units are those that it would leave without. -/
theorem parked_are_outstanding (calls : List Call) :
    let start := new.performAll calls
    start.model.parked = outstanding (committedEvents (new.transcript calls)) ∧
    ∀ parking between readying park ready first last,
      let waiting := (start.perform parking).2
      let events := committedEvents (waiting.transcript between)
      Call.event? parking = some (.park park) → (start.perform parking).1 = .snapshot (.ok first) →
      Call.reset ∉ between → Call.event? readying = some (.ready ready) →
      ready.unit = park.unit.id →
      ((waiting.performAll between).perform readying).1 = .snapshot (.ok last) →
        last.model.parked = stillParked start.model.parked events ++
          (outstanding events).filter (·.unit.id ≠ park.unit.id) := by
  intro start
  refine ⟨parked_performAll calls, ?_⟩
  intro parking between readying park ready first last waiting events parks parked stays readies
    same readied
  have reached : waiting.performAll between = new.performAll (calls ++ parking :: between) := by
    rw [performAll_append]
    rfl
  have keeps : Call.reset ∉ parking :: between := by
    rintro (_ | _)
    · cases parks
    · contradiction
  have history : committedEvents (new.transcript (calls ++ parking :: between)) =
      committedEvents (new.transcript calls) ++ .park park :: events := by
    rw [committedEvents_append keeps]
    have split : committedEvents (start.transcript ([parking] ++ between)) =
        .park park :: events := by
      rw [committedEvents_append stays, committedEvents_of_answer parks rfl parked]
      rfl
    exact congrArg _ split
  have consistent : (waiting.performAll between).model.Consistent :=
    reached ▸ consistent_performAll _
  have others := not_parked_of_park parks parked
  rw [parked_performAll] at others
  rw [parked_of_answer consistent readies rfl readied, reached, parked_performAll, history,
    ← outstanding_concat, outstanding_park_ready events _ same others, ← parked_performAll]

/-- While unit 5 is parked, unit 7 parks and unit 9, parked before, gets ready. -/
theorem parked_are_outstanding_among_others :
    let unit (number : UInt64) : WorkUnit := ⟨⟨number⟩, "worker"⟩
    let park (number : UInt64) : Event.Park := ⟨⟨0⟩, unit number, "select"⟩
    let ready (number : UInt64) (queue : List UInt64) : Event.Ready :=
      ⟨⟨number⟩, ⟨some ⟨0⟩, ⟨⟨0⟩, none, queue.map unit⟩⟩⟩
    let calls := [.seed (some 1), .applyEvent (.park (park 8)), .applyEvent (.park (park 9))]
    let between := [.applyEvent (.park (park 7)), .applyEvent (.ready (ready 9 [9]))]
    let start := new.performAll calls
    let waiting := (start.perform (.applyEvent (.park (park 5)))).2
    let middle := waiting.performAll between
    let reached := (middle.perform (.applyEvent (.ready (ready 5 [9, 5])))).2
    (start.perform (.applyEvent (.park (park 5)))).1 = .snapshot (.ok waiting.snapshot) ∧
      (middle.perform (.applyEvent (.ready (ready 5 [9, 5])))).1 =
        .snapshot (.ok reached.snapshot) ∧
      reached.snapshot.model.parked = [⟨unit 8, "select"⟩, ⟨unit 7, "select"⟩] := by
  intro unit park ready calls between start waiting middle reached
  -- The answers are compared as data, for which they are taken out of their replies.
  have answers (engine : Engine) (event : Event) :
      (engine.perform (.applyEvent event)).1 = .snapshot (engine.applyEvent event).1 := rfl
  have parked := (answers start (.park (park 5))).trans
    (congrArg Reply.snapshot (show _ = Except.ok waiting.snapshot by decide +kernel))
  have readied := (answers middle (.ready (ready 5 [9, 5]))).trans
    (congrArg Reply.snapshot (show _ = Except.ok reached.snapshot by decide +kernel))
  have rest := (parked_are_outstanding calls).2 _ between _ (park 5) (ready 5 [9, 5]) _ _ rfl
    parked (by simp [between]) rfl rfl readied
  exact ⟨parked, readied, rest.trans (by decide +kernel)⟩

end Engine

end SchedReplay
