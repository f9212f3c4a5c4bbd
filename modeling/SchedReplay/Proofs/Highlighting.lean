import SchedReplay.Proofs.Accounting
import SchedReplay.Proofs.Footprint
import SchedReplay.Proofs.Status

/-! Which line each machine is shown on. The last accepted event that tells it stands: progress
shows a line, and a machine that enters the scheduler is shown no more. Grouped by line, every
shown machine counts once. -/
namespace SchedReplay

theorem lookup_cons_eq_ite [DecidableEq α] (key other : α) (value : β) (rest : List (α × β)) :
    ((key, value) :: rest).lookup other = if other = key then some value else rest.lookup other := by
  rw [List.lookup_cons]
  by_cases same : other = key
  · simp [same]
  · simp [beq_false_of_ne same, same]

/-- What an event says of the highlight of a machine, if it says anything. -/
def Event.highlight? (machine : MachineId) : Event → Option (Option Highlight)
  | schedule event => if event.machine = machine then some none else none
  | progress event =>
    if event.machine = machine then some (some ⟨event.unit, event.line, event.file⟩) else none
  | newContext _ | execute _ | queueStatus _ | park _ | ready _ => none

namespace Event

theorem highlight?_eq_some_iff {event : Event} {machine : MachineId} {highlight : Highlight} :
    event.highlight? machine = some (some highlight) ↔ ∃ progress, event = .progress progress ∧
      progress.machine = machine ∧
        highlight = ⟨progress.unit, progress.line, progress.file⟩ := by
  cases event <;> simp [highlight?, eq_comm]

theorem highlight?_eq_none_iff {event : Event} {machine : MachineId} :
    event.highlight? machine = none ↔
      (∀ progress, event = .progress progress → progress.machine ≠ machine) ∧
        ∀ schedule, event = .schedule schedule → schedule.machine ≠ machine := by
  cases event <;> simp [highlight?]

theorem forall_highlight?_eq_none_iff {events : List Event} {machine : MachineId} :
    (∀ event ∈ events, event.highlight? machine = none) ↔
      (∀ next, .progress next ∈ events → next.machine ≠ machine) ∧
        ∀ next, .schedule next ∈ events → next.machine ≠ machine := by
  simp only [highlight?_eq_none_iff]
  constructor
  · intro silent
    exact ⟨fun next member => (silent _ member).1 next rfl,
      fun next member => (silent _ member).2 next rfl⟩
  · rintro ⟨unprogressed, unscheduled⟩ event member
    constructor
    · rintro next rfl
      exact unprogressed next member
    · rintro next rfl
      exact unscheduled next member

end Event

namespace Highlights

/-- Machines ascend, so that each has at most one entry. -/
def Ascending (highlights : Highlights) : Prop :=
  (highlights.map Prod.fst).Pairwise (·.val < ·.val)

variable {highlights : Highlights}

theorem map_fst_insert (machine : MachineId) (highlight : Highlight) :
    (highlights.insert machine highlight).map Prod.fst =
      insertMachine machine (highlights.map Prod.fst) := by
  induction highlights with
  | nil => rfl
  | cons entry rest ih =>
    simp only [insert, insertMachine, List.map_cons]
    split
    · rfl
    · split
      · next same => rw [List.map_cons, same]
      · rw [List.map_cons, ih]

theorem Ascending.insert (ascending : highlights.Ascending) (machine : MachineId)
    (highlight : Highlight) : (highlights.insert machine highlight).Ascending := by
  unfold Ascending
  rw [map_fst_insert]
  exact ascending_insertMachine ascending

theorem Ascending.erase (ascending : highlights.Ascending) (machine : MachineId) :
    (highlights.erase machine).Ascending :=
  ascending.sublist (List.filter_sublist.map _)

theorem get?_insert (machine : MachineId) (highlight : Highlight) (other : MachineId) :
    (highlights.insert machine highlight).get? other =
      if other = machine then some highlight else highlights.get? other := by
  unfold get?
  induction highlights with
  | nil => exact lookup_cons_eq_ite machine other highlight []
  | cons entry rest ih =>
    obtain ⟨first, old⟩ := entry
    simp only [insert]
    split
    · exact lookup_cons_eq_ite machine other highlight _
    · split
      · next same =>
        rw [lookup_cons_eq_ite, lookup_cons_eq_ite, same]
        split <;> rfl
      · next ne =>
        rw [lookup_cons_eq_ite, lookup_cons_eq_ite, ih]
        by_cases named : other = machine
        · simp [named, ne]
        · simp [named]

theorem get?_erase (machine other : MachineId) :
    (highlights.erase machine).get? other =
      if other = machine then none else highlights.get? other := by
  unfold get? erase
  induction highlights with
  | nil => simp
  | cons entry rest ih =>
    obtain ⟨first, old⟩ := entry
    rw [List.filter_cons, lookup_cons_eq_ite]
    by_cases gone : first = machine
    · rw [if_neg (by simp [gone]), ih]
      by_cases named : other = machine <;> simp [named, gone]
    · rw [if_pos (by simp [gone]), lookup_cons_eq_ite, ih]
      by_cases named : other = first
      · simp [named, gone]
      · simp [named]

theorem Ascending.get?_eq_some_iff (ascending : highlights.Ascending) {machine : MachineId}
    {highlight : Highlight} :
    highlights.get? machine = some highlight ↔ (machine, highlight) ∈ highlights := by
  unfold get?
  rw [List.lookup_eq_some_iff]
  constructor
  · rintro ⟨before, after, rfl, _⟩
    simp
  · intro member
    obtain ⟨before, after, rfl⟩ := List.append_of_mem member
    refine ⟨before, after, rfl, ?_⟩
    intro entry earlier
    unfold Ascending at ascending
    rw [List.map_append, List.pairwise_append] at ascending
    have below : entry.1.val < machine.val :=
      ascending.2.2 _ (List.mem_map_of_mem earlier) _ (by simp)
    rw [bne_iff_ne]
    rintro rfl
    exact UInt64.lt_irrefl _ below

/-! ### What events show -/

theorem Ascending.highlightsAfter (ascending : highlights.Ascending) (event : Event) :
    (Session.highlightsAfter highlights event).Ascending := by
  cases event with
  | schedule event => exact ascending.erase event.machine
  | progress event => exact ascending.insert event.machine _
  | newContext | execute | queueStatus | park | ready => exact ascending

theorem get?_highlightsAfter (event : Event) (machine : MachineId) :
    (Session.highlightsAfter highlights event).get? machine =
      (event.highlight? machine).getD (highlights.get? machine) := by
  cases event with
  | schedule event =>
    simp only [Session.highlightsAfter, Event.highlight?, get?_erase, eq_comm (a := machine)]
    split <;> rfl
  | progress event =>
    simp only [Session.highlightsAfter, Event.highlight?, note, get?_insert, eq_comm (a := machine)]
    split <;> rfl
  | newContext | execute | queueStatus | park | ready => rfl

def after (events : List Event) : Highlights := events.foldl Session.highlightsAfter []

theorem after_concat (events : List Event) (event : Event) :
    after (events ++ [event]) = Session.highlightsAfter (after events) event :=
  List.foldl_concat ..

theorem ascending_after (events : List Event) : (after events).Ascending := by
  induction events using List.reverseRecOn with
  | nil => exact .nil
  | append_singleton events event ih =>
    rw [after_concat]
    exact ih.highlightsAfter event

theorem get?_after (events : List Event) (machine : MachineId) :
    (after events).get? machine = (latest? (·.highlight? machine) events).getD none := by
  induction events using List.reverseRecOn with
  | nil => rfl
  | append_singleton events event ih =>
    rw [after_concat, get?_highlightsAfter, ih, latest?_append, latest?_singleton, Option.getD_or]

theorem get?_after_eq_some_iff {events : List Event} {machine : MachineId}
    {highlight : Highlight} : (after events).get? machine = some highlight ↔
      ∃ earlier progress later, events = earlier ++ .progress progress :: later ∧
        progress.machine = machine ∧
        highlight = ⟨progress.unit, progress.line, progress.file⟩ ∧
        (∀ next, .progress next ∈ later → next.machine ≠ machine) ∧
        ∀ next, .schedule next ∈ later → next.machine ≠ machine := by
  have told : (after events).get? machine = some highlight ↔
      latest? (·.highlight? machine) events = some (some highlight) := by
    rw [get?_after]
    cases latest? (·.highlight? machine) events <;> simp
  rw [told, latest?_eq_some_iff]
  constructor
  · rintro ⟨earlier, event, later, split, shows, silent⟩
    obtain ⟨progress, rfl, named, is⟩ := Event.highlight?_eq_some_iff.mp shows
    exact ⟨earlier, progress, later, split, named, is,
      Event.forall_highlight?_eq_none_iff.mp silent⟩
  · rintro ⟨earlier, progress, later, split, named, is, silent⟩
    exact ⟨earlier, .progress progress, later, split,
      Event.highlight?_eq_some_iff.mpr ⟨progress, rfl, named, is⟩,
      Event.forall_highlight?_eq_none_iff.mpr silent⟩

/-! ### Groups by line -/

/-- Groups of units by line hold what is shown of each machine: a line has the units of the machines
that are shown on it, in the order of the machines. -/
structure Grouped (shown : MachineId → Option Highlight) (groups : List (UInt32 × List UnitId)) :
    Prop where
  lines : (groups.map Prod.fst).Pairwise (· < ·)
  inhabited : ∀ group ∈ groups, group.2 ≠ []
  units : ∀ line, ∃ machines : List MachineId, machines.Pairwise (·.val < ·.val) ∧
    (∀ machine, machine ∈ machines ↔
      ∃ highlight, shown machine = some highlight ∧ highlight.line = line) ∧
    (groups.lookup line).getD [] = machines.filterMap fun machine => (shown machine).map (·.unit)

section Groups

variable {line : UInt32} {groups : List (UInt32 × List UnitId)}

theorem mem_lines_addToLine (unit : UnitId) {other : UInt32} :
    other ∈ (addToLine line unit groups).map Prod.fst ↔
      other = line ∨ other ∈ groups.map Prod.fst := by
  induction groups with
  | nil => simp [addToLine]
  | cons group rest ih =>
    obtain ⟨first, units⟩ := group
    rw [addToLine]
    split
    · simp
    · split
      · next same => simp [same]
      · rw [List.map_cons, List.mem_cons, ih, List.map_cons, List.mem_cons, or_left_comm]

theorem lines_addToLine (unit : UnitId) (ascending : (groups.map Prod.fst).Pairwise (· < ·)) :
    ((addToLine line unit groups).map Prod.fst).Pairwise (· < ·) := by
  induction groups with
  | nil => simp [addToLine]
  | cons group rest ih =>
    obtain ⟨first, units⟩ := group
    obtain ⟨least, later⟩ := List.pairwise_cons.mp ascending
    rw [addToLine]
    split
    · next below =>
      apply List.pairwise_cons.mpr
      refine ⟨?_, ascending⟩
      intro other member
      rcases List.mem_cons.mp member with rfl | inside
      · exact below
      · exact UInt32.lt_trans below (least other inside)
    · next notBelow =>
      split
      · exact ascending
      · next ne =>
        apply List.pairwise_cons.mpr
        refine ⟨?_, ih later⟩
        intro other member
        rcases (mem_lines_addToLine unit).mp member with rfl | inside
        · exact UInt32.lt_of_le_of_ne (UInt32.not_lt.mp notBelow) (Ne.symm ne)
        · exact least other inside

theorem inhabited_addToLine (unit : UnitId) (inhabited : ∀ group ∈ groups, group.2 ≠ []) :
    ∀ group ∈ addToLine line unit groups, group.2 ≠ [] := by
  induction groups with
  | nil => simp [addToLine]
  | cons group rest ih =>
    obtain ⟨first, units⟩ := group
    obtain ⟨here, later⟩ := List.forall_mem_cons.mp inhabited
    rw [addToLine]
    split
    · exact List.forall_mem_cons.mpr ⟨by simp, inhabited⟩
    · split
      · exact List.forall_mem_cons.mpr ⟨by simp, later⟩
      · exact List.forall_mem_cons.mpr ⟨here, ih later⟩

theorem lookup_eq_none_of_lt (least : ∀ other ∈ groups.map Prod.fst, line < other) :
    groups.lookup line = none := by
  rw [List.lookup_eq_none_iff]
  intro group member
  rw [bne_iff_ne]
  rintro rfl
  exact UInt32.lt_irrefl _ (least _ (List.mem_map_of_mem member))

theorem lookup_addToLine (unit : UnitId) (ascending : (groups.map Prod.fst).Pairwise (· < ·))
    (other : UInt32) : (addToLine line unit groups).lookup other =
      if other = line then some ((groups.lookup line).getD [] ++ [unit])
      else groups.lookup other := by
  induction groups with
  | nil => exact lookup_cons_eq_ite line other [unit] []
  | cons group rest ih =>
    obtain ⟨first, units⟩ := group
    obtain ⟨least, later⟩ := List.pairwise_cons.mp ascending
    rw [addToLine]
    split
    · next below =>
      have missing : ((first, units) :: rest).lookup line = none := by
        apply lookup_eq_none_of_lt
        intro other member
        rcases List.mem_cons.mp member with rfl | inside
        · exact below
        · exact UInt32.lt_trans below (least other inside)
      rw [missing]
      exact lookup_cons_eq_ite line other [unit] _
    · split
      · next same =>
        subst same
        simp only [lookup_cons_eq_ite, if_true]
        split <;> rfl
      · next ne =>
        simp only [lookup_cons_eq_ite, ih later, if_neg ne]
        by_cases named : other = line
        · simp [named, ne]
        · simp [named]

theorem byLine_concat (highlights : Highlights) (entry : MachineId × Highlight) :
    byLine (highlights ++ [entry]) =
      addToLine entry.2.line entry.2.unit (byLine highlights) := by
  unfold byLine
  rw [List.foldl_concat]

theorem lines_byLine (highlights : Highlights) :
    (highlights.byLine.map Prod.fst).Pairwise (· < ·) := by
  induction highlights using List.reverseRecOn with
  | nil => exact .nil
  | append_singleton highlights entry ih =>
    rw [byLine_concat]
    exact lines_addToLine _ ih

theorem inhabited_byLine (highlights : Highlights) : ∀ group ∈ highlights.byLine, group.2 ≠ [] := by
  induction highlights using List.reverseRecOn with
  | nil => simp [byLine]
  | append_singleton highlights entry ih =>
    rw [byLine_concat]
    exact inhabited_addToLine _ ih

theorem lookup_byLine (highlights : Highlights) (line : UInt32) :
    (highlights.byLine.lookup line).getD [] =
      (highlights.filter (·.2.line = line)).map (·.2.unit) := by
  induction highlights using List.reverseRecOn with
  | nil => rfl
  | append_singleton highlights entry ih =>
    rw [byLine_concat, lookup_addToLine _ (lines_byLine highlights), List.filter_append,
      List.map_append, ← ih]
    by_cases here : entry.2.line = line
    · simp [here]
    · simp [here, Ne.symm here]

end Groups

theorem Ascending.grouped_byLine (ascending : highlights.Ascending) :
    Grouped highlights.get? highlights.byLine where
  lines := lines_byLine highlights
  inhabited := inhabited_byLine highlights
  units line := by
    refine ⟨(highlights.filter (·.2.line = line)).map Prod.fst, ?_, ?_, ?_⟩
    · exact ascending.sublist (List.filter_sublist.map _)
    · intro machine
      simp [ascending.get?_eq_some_iff]
    · have shown : ∀ entry ∈ highlights.filter (·.2.line = line),
          (highlights.get? entry.1).map (·.unit) = some entry.2.unit := by
        intro entry member
        rw [ascending.get?_eq_some_iff.mpr (List.mem_filter.mp member).1]
        rfl
      rw [lookup_byLine, List.filterMap_map, ← List.filterMap_eq_map]
      exact List.filterMap_congr fun entry member => (shown entry member).symm

end Highlights

namespace Session

open Wire (Message)

variable {session next : Session} {message : Message} {answer : Except SessionError Flow}

theorem Transition.highlights_eq (ends : session.Transition message answer next) :
    next.highlights =
      (acceptedEvent? (message, answer)).elim session.highlights (highlightsAfter session.highlights) := by
  cases ends with
  | accepted calls _ _ accepts =>
    rw [(acceptedEvent?_of_accepts calls accepts).1]
    rfl
  | unknown | exited | printed => rfl
  | uncompiled | misplaced => rfl
  | rejected | refused | belated =>
    rw [acceptedEvent?_of_not_isAcceptedEvent (isAcceptedEvent_error _ _)]
    rfl
  | corrupted =>
    rw [acceptedEvent?_of_not_isAcceptedEvent (isAcceptedEvent_error _ _), fail_eq]
    rfl

theorem highlights_processAll (messages : List Message) :
    (new.processAll messages).highlights =
      .after ((new.transcript messages).filterMap acceptedEvent?) := by
  induction messages using List.reverseRecOn with
  | nil => rfl
  | append_singleton messages message ih =>
    rw [processAll_concat, transcript_concat, List.filterMap_append,
      (process_transition _ message).highlights_eq, ih]
    cases brings : acceptedEvent? (message, ((new.processAll messages).process message).1) with
    | none => simp [brings]
    | some event => simp [brings, Highlights.after_concat]

/-- The highlight of a machine is the one of the last accepted progress of the machine, unless the
machine was accepted into the scheduler after it. No other message touches it. The groups by line
hold every highlighted machine once, in the order of the machines. -/
theorem highlights_reflect_accepted_events (messages : List Message) :
    let session := new.processAll messages
    let events := (new.transcript messages).filterMap acceptedEvent?
    (∀ machine highlight, session.highlights.get? machine = some highlight ↔
      ∃ earlier progress later, events = earlier ++ .progress progress :: later ∧
        progress.machine = machine ∧
        highlight = ⟨progress.unit, progress.line, progress.file⟩ ∧
        (∀ next, .progress next ∈ later → next.machine ≠ machine) ∧
        ∀ next, .schedule next ∈ later → next.machine ≠ machine) ∧
    (∀ message machine, let event := acceptedEvent? (message, (session.process message).1)
      (∀ next, event = some (.progress next) → next.machine ≠ machine) →
      (∀ next, event = some (.schedule next) → next.machine ≠ machine) →
      (session.process message).2.highlights.get? machine = session.highlights.get? machine) ∧
    Highlights.Grouped session.highlights.get? session.highlights.byLine := by
  intro session events
  have reads : session.highlights = .after events := highlights_processAll messages
  have ascending : session.highlights.Ascending := reads ▸ Highlights.ascending_after events
  refine ⟨?reading, ?frame, ascending.grouped_byLine⟩
  case reading =>
    intro machine highlight
    rw [reads]
    exact Highlights.get?_after_eq_some_iff
  case frame =>
    intro message machine event unprogressed unscheduled
    rw [(session.process_transition message).highlights_eq]
    cases brings : event with
    | none => rw [show acceptedEvent? _ = none from brings, Option.elim_none]
    | some event =>
      rw [show acceptedEvent? _ = some event from brings]
      have silent : event.highlight? machine = none := by
        apply Event.highlight?_eq_none_iff.mpr
        constructor
        · rintro next rfl
          exact unprogressed next brings
        · rintro next rfl
          exact unscheduled next brings
      rw [Option.elim_some, Highlights.get?_highlightsAfter, silent, Option.getD_none]

/-- Two machines share a line when a third one enters the scheduler; the event that fails after that
leaves both where they are. -/
theorem highlights_reflect_accepted_events_on_shared_line :
    let progress (machine unit : UInt64) (line : UInt32) : Message :=
      .runEvent (.progress ⟨some machine, some unit, some ⟨none, some line, none⟩⟩)
    let schedule (machine context : UInt64) : Message :=
      .runEvent (.notification (.schedule ⟨some machine, some context, none⟩))
    let messages := [.concurrencyWidth (some 2), progress 1 8 14, progress 0 9 12, progress 2 7 14,
      progress 0 9 14, schedule 2 1]
    (new.processAll messages).highlights.get? ⟨0⟩ = some ⟨⟨9⟩, 14, none⟩ ∧
      (new.processAll messages).highlights.byLine = [(14, [⟨9⟩, ⟨8⟩])] ∧
      ((new.processAll messages).process (schedule 0 5)).1 =
        .error (.reconstruction (.invariant (.unknownContext ⟨5⟩))) ∧
      ((new.processAll messages).process (schedule 0 5)).2.highlights.get? ⟨0⟩ =
        (new.processAll messages).highlights.get? ⟨0⟩ := by
  intro progress schedule messages
  obtain ⟨reading, frame, _⟩ := highlights_reflect_accepted_events messages
  let earlier : List Event := [.progress ⟨⟨1⟩, ⟨8⟩, 14, none, none⟩,
    .progress ⟨⟨0⟩, ⟨9⟩, 12, none, none⟩, .progress ⟨⟨2⟩, ⟨7⟩, 14, none, none⟩]
  have events : (new.transcript messages).filterMap acceptedEvent? =
      earlier ++ [.progress ⟨⟨0⟩, ⟨9⟩, 14, none, none⟩, .schedule ⟨⟨2⟩, ⟨1⟩, .other⟩] := by
    decide +kernel
  have lines : (new.processAll messages).highlights.byLine = [(14, [⟨9⟩, ⟨8⟩])] := by
    decide +kernel
  have fails : ((new.processAll messages).process (schedule 0 5)).1 =
      .error (.reconstruction (.invariant (.unknownContext ⟨5⟩))) := by decide +kernel
  rw [events] at reading
  have shown := (reading ⟨0⟩ ⟨⟨9⟩, 14, none⟩).mpr
    ⟨earlier, ⟨⟨0⟩, ⟨9⟩, 14, none, none⟩, _, rfl, rfl, rfl, by simp, by simp⟩
  have frame := frame (schedule 0 5) ⟨0⟩
  rw [fails] at frame
  exact ⟨shown, lines, fails, frame nofun nofun⟩

end Session

end SchedReplay
