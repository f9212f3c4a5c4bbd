import SchedReplay.Display.Text
import SchedReplay.Proofs.Delimiting
import SchedReplay.Proofs.Idleness

/-! The line of a thread determines what it shows: the machine, the context with the numbers of the
units that wait there, and what the thread does. It does so whatever the units are called, for a
name stands at the end of the line, where it is taken for nothing else. -/
namespace SchedReplay

open Text

/-! ### Identifiers and units -/

theorem MachineId.toList_text (id : MachineId) :
    id.text.toList = 'M' :: Nat.toDigits 10 id.val.toNat := by
  simp [text]

theorem ContextId.toList_text (id : ContextId) :
    id.text.toList = 'P' :: Nat.toDigits 10 id.val.toNat := by
  simp [text]

theorem UnitId.toList_text (id : UnitId) :
    id.text.toList = 'G' :: Nat.toDigits 10 id.val.toNat := by
  simp [text]

theorem MachineId.delimited : Delimited EndsNumeral fun id : MachineId => id.text.toList := by
  simp only [toList_text]
  exact delimited_numbered (fun ⟨_⟩ ⟨_⟩ same => congrArg mk (UInt64.toNat_inj.mp same)) 'M'

theorem ContextId.delimited : Delimited EndsNumeral fun id : ContextId => id.text.toList := by
  simp only [toList_text]
  exact delimited_numbered (fun ⟨_⟩ ⟨_⟩ same => congrArg mk (UInt32.toNat_inj.mp same)) 'P'

theorem UnitId.delimited : Delimited EndsNumeral fun id : UnitId => id.text.toList := by
  simp only [toList_text]
  exact delimited_numbered (fun ⟨_⟩ ⟨_⟩ same => congrArg mk (UInt64.toNat_inj.mp same)) 'G'

namespace WorkUnit

/-- A name as it stands behind the number of its unit. -/
def nameChars (name : String) : List Char := if name.isEmpty then [] else ' ' :: name.toList

theorem toList_render (unit : WorkUnit) :
    unit.render.toList = unit.id.text.toList ++ nameChars unit.entryFunctionName := by
  unfold render nameChars
  split <;> simp

theorem endsNumeral_nameChars (name : String) : EndsNumeral (nameChars name) := by
  unfold nameChars
  split <;> simp [EndsNumeral]

theorem nameChars_injective : Function.Injective nameChars := by
  intro name other same
  unfold nameChars at same
  split at same
  · next empty =>
    split at same
    · next emptyOther => rw [String.isEmpty_iff.mp empty, String.isEmpty_iff.mp emptyOther]
    · contradiction
  · split at same
    · contradiction
    · exact String.toList_injective (List.cons.inj same).2

theorem render_injective : Function.Injective render := by
  intro unit other same
  have texts : unit.render.toList = other.render.toList := congrArg String.toList same
  rw [toList_render, toList_render] at texts
  obtain ⟨ids, names⟩ :=
    UnitId.delimited (endsNumeral_nameChars _) (endsNumeral_nameChars _) texts
  cases unit
  cases other
  rw [mk.injEq]
  exact ⟨ids, nameChars_injective names⟩

end WorkUnit

/-! ### Contexts -/

namespace Context

/-- What a line shows of a context: its number and the numbers of the units that wait there. -/
structure Outline where
  id : ContextId
  next : Option UnitId
  queue : List UnitId
  deriving DecidableEq

def outline (context : Context) : Outline :=
  ⟨context.id, context.runNext.map (·.id), context.runQueue.map (·.id)⟩

namespace Outline

def nextChars : Option UnitId → List Char :=
  Text.optional [] fun id => " next=".toList ++ id.text.toList

def queueChars : List UnitId → List Char :=
  listed [','] (fun id => id.text.toList) " runq=".toList

def chars (outline : Outline) : List Char :=
  outline.id.text.toList ++ (nextChars outline.next ++ queueChars outline.queue)

/-- What may stand behind a context: the end of the brackets around it. -/
def Closed (rest : List Char) : Prop := rest.head? = some ']'

theorem Closed.cons (tail : List Char) : Closed (']' :: tail) := rfl

section Closed

variable {rest : List Char} (closed : Closed rest)

include closed

theorem Closed.exists_eq_cons : ∃ tail, rest = ']' :: tail := by
  cases rest with
  | nil => contradiction
  | cons c tail => exact ⟨tail, congrArg (· :: tail) (Option.some.inj closed)⟩

/-- The queue, if any is written, cannot be taken for the unit that comes next. -/
theorem behind_next (queue : List UnitId) :
    EndsNumeral (queueChars queue ++ rest) ∧ ¬ " next=".toList <+: queueChars queue ++ rest := by
  obtain ⟨tail, rfl⟩ := closed.exists_eq_cons
  cases queue <;> simp [queueChars, listed, List.cons_prefix_cons]

theorem behind_id (next : Option UnitId) (queue : List UnitId) :
    EndsNumeral (nextChars next ++ (queueChars queue ++ rest)) := by
  cases next with
  | none => exact (behind_next closed queue).1
  | some id => simp [nextChars, Text.optional]

end Closed

theorem delimited_next :
    Delimited (fun rest => EndsNumeral rest ∧ ¬ " next=".toList <+: rest) nextChars := by
  apply Delimited.optional
  · exact (UnitId.delimited.labelled _).mono fun _ behind => behind.1
  · intro id rest left behind same
    exact behind.2 ⟨_, by simpa using same⟩

theorem delimited_queue : Delimited Closed queueChars := by
  apply UnitId.delimited.listed
  · intro rest
    simp
  · intro rest closed
    obtain ⟨tail, rfl⟩ := closed.exists_eq_cons
    simp [List.cons_prefix_cons]
  · intro rest closed
    obtain ⟨tail, rfl⟩ := closed.exists_eq_cons
    simp [List.cons_prefix_cons]

theorem delimited : Delimited Closed chars := by
  intro outline other rest left closed closedOther same
  simp only [chars, List.append_assoc] at same
  obtain ⟨ids, same⟩ := ContextId.delimited
    (behind_id closed outline.next outline.queue)
    (behind_id closedOther other.next other.queue) same
  obtain ⟨nexts, same⟩ := delimited_next
    (behind_next closed outline.queue) (behind_next closedOther other.queue) same
  obtain ⟨queues, tails⟩ := delimited_queue closed closedOther same
  cases outline
  cases other
  rw [mk.injEq]
  exact ⟨⟨ids, nexts, queues⟩, tails⟩

end Outline

theorem toList_queue (queue : List WorkUnit) :
    (if queue.isEmpty then "" else " runq=" ++ ",".intercalate (queue.map (·.id.text))).toList =
      Outline.queueChars (queue.map (·.id)) := by
  unfold Outline.queueChars
  cases queue with
  | nil => rfl
  | cons first more =>
    rw [listed_eq_intercalate _ _ _ (by simp)]
    simp [Function.comp_def]

theorem toList_render (context : Context) : context.render.toList = context.outline.chars := by
  rw [render, String.toList_append, String.toList_append, toList_queue, List.append_assoc]
  unfold outline Outline.chars Outline.nextChars
  cases context.runNext <;> simp [Text.optional]

end Context

/-! ### Threads -/

theorem Status.Exclusive.isScheduling_eq_false {status : Status} (exclusive : status.Exclusive)
    {unit : WorkUnit} (runs : status.executing = some unit) : status.isScheduling = false := by
  cases schedules : status.isScheduling with
  | false => rfl
  | true =>
    have stopped := exclusive schedules
    rw [runs] at stopped
    contradiction

namespace Thread

variable {first second : Thread}

theorem renderStatus_eq_iff :
    first.renderStatus = second.renderStatus ↔
      first.executing = second.executing ∧
        (first.executing = none → first.isScheduling = second.isScheduling) := by
  have apart (schedules : Bool) (unit : WorkUnit) :
      (if schedules then " scheduling" else "") ≠ " exec=" ++ unit.render := by
    intro same
    cases schedules <;> simpa using congrArg String.toList same
  obtain ⟨_, schedules, _, executing⟩ := first
  obtain ⟨_, schedulesOther, _, executingOther⟩ := second
  cases executing with
  | none =>
    cases executingOther with
    | none => cases schedules <;> cases schedulesOther <;> simp [renderStatus]
    | some other => simp [renderStatus, apart]
  | some unit =>
    cases executingOther with
    | none => simp [renderStatus, (apart _ _).symm]
    | some other => simp [renderStatus, String.append_right_inj, WorkUnit.render_injective.eq_iff]

/-- The parts of a line; of the context it has the outline. -/
theorem toList_render (thread : Thread) :
    thread.render.toList =
      Text.optional placeholder.toList (fun id => id.text.toList) thread.machine ++
        (" [".toList ++
          (Text.optional placeholder.toList Context.Outline.chars
              (thread.context.map Context.outline) ++
            ']' :: thread.renderStatus.toList)) := by
  obtain ⟨machine, _, context, _⟩ := thread
  cases machine <;> cases context <;>
    simp [render, Text.optional, Context.toList_render]

theorem delimited_machine :
    Delimited EndsNumeral
      (Text.optional placeholder.toList fun id : MachineId => id.text.toList) := by
  apply MachineId.delimited.optional
  intro id rest left _
  simp [placeholder, MachineId.toList_text]

theorem delimited_context :
    Delimited Context.Outline.Closed (Text.optional placeholder.toList Context.Outline.chars) := by
  apply Context.Outline.delimited.optional
  intro outline rest left _
  simp [placeholder, Context.Outline.chars, ContextId.toList_text]

theorem render_eq_iff :
    first.render = second.render ↔
      first.machine = second.machine ∧
        first.context.map Context.outline = second.context.map Context.outline ∧
        first.renderStatus = second.renderStatus := by
  rw [← String.toList_inj, toList_render, toList_render]
  constructor
  · intro same
    obtain ⟨machines, same⟩ := delimited_machine (by simp) (by simp) same
    have inside := List.append_cancel_left same
    obtain ⟨contexts, same⟩ := delimited_context (.cons _) (.cons _) inside
    exact ⟨machines, contexts, String.toList_injective (List.cons.inj same).2⟩
  · rintro ⟨machines, contexts, statuses⟩
    rw [machines, contexts, statuses]

/-- While a unit runs, the line leaves the flag out. -/
example (unit : WorkUnit) :
    (Thread.mk none true none (some unit)).render =
      (Thread.mk none false none (some unit)).render := rfl

theorem renderStatus_eq_iff_of_exclusive (exclusive : first.status.Exclusive)
    (exclusiveOther : second.status.Exclusive) :
    first.renderStatus = second.renderStatus ↔
      first.executing = second.executing ∧ first.isScheduling = second.isScheduling := by
  rw [renderStatus_eq_iff]
  apply and_congr_right
  intro same
  cases runs : first.executing with
  | none => simp
  | some unit =>
    have stopped : first.isScheduling = false := exclusive.isScheduling_eq_false runs
    have stoppedOther : second.isScheduling = false :=
      exclusiveOther.isScheduling_eq_false (same.symm.trans runs)
    simp [stopped, stoppedOther]

/-- Two entries, neither of which both schedules and runs a unit, have the same line just when they
have the same machine, the same context with the same units next and queued, by number and in
order, the same unit that runs, by number and name, and both schedule or neither does. In every
state that calls lead to, no entry both schedules and runs a unit. -/
theorem lines_identify_what_they_show :
    (∀ first second : Thread, first.status.Exclusive → second.status.Exclusive →
      (first.render = second.render ↔
        first.machine = second.machine ∧
          first.context.map Context.outline = second.context.map Context.outline ∧
          first.executing = second.executing ∧ first.isScheduling = second.isScheduling)) ∧
    ∀ calls, ∀ thread ∈ (Engine.new.performAll calls).model.threads, thread.status.Exclusive := by
  refine ⟨?lines, ?reachable⟩
  case lines =>
    intro first second exclusive exclusiveOther
    rw [render_eq_iff, renderStatus_eq_iff_of_exclusive exclusive exclusiveOther]
  case reachable =>
    intro calls thread member
    exact Engine.exclusive_of_mem calls member

/-- The two entries differ in the names of waiting units, which are not shown. The unit that runs
has a name that reads like a context and another unit. -/
theorem lines_identify_what_they_show_behind_lookalike_name :
    let entry (waiting : String) : Thread := ⟨some ⟨2⟩, false,
      some ⟨⟨1⟩, some ⟨⟨5⟩, waiting⟩, [⟨⟨8⟩, waiting⟩, ⟨⟨9⟩, waiting⟩]⟩,
      some ⟨⟨1⟩, "[P0 runq=G8] exec=G7"⟩⟩
    (entry "a").render = "M2 [P1 next=G5 runq=G8,G9] exec=G1 [P0 runq=G8] exec=G7" ∧
      (entry "a").status.Exclusive ∧ (entry "b").status.Exclusive ∧ entry "a" ≠ entry "b" ∧
      (entry "a").render = (entry "b").render ∧
      (entry "a").context.map Context.outline = (entry "b").context.map Context.outline ∧
      ∃ thread ∈ (Engine.new.performAll [.seed (some 1)]).model.threads,
        thread.executing = some Model.bootstrap ∧ thread.status.Exclusive := by
  intro entry
  obtain ⟨lines, reachable⟩ := lines_identify_what_they_show
  have exclusive (waiting : String) : (entry waiting).status.Exclusive := nofun
  have same : (entry "a").render = (entry "b").render := by decide +kernel
  have shown := (lines _ _ (exclusive "a") (exclusive "b")).mp same
  have member : Model.seedThread 0 ∈ (Engine.new.performAll [.seed (some 1)]).model.threads := by
    decide +kernel
  exact ⟨by decide +kernel, exclusive "a", exclusive "b", by decide, same, shown.2.1,
    Model.seedThread 0, member, rfl, reachable _ _ member⟩

end Thread

end SchedReplay
