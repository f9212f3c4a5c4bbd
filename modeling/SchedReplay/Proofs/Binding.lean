import Mathlib.Data.List.Perm.Basic
import Mathlib.Data.List.Nodup
import SchedReplay.Model.Handoff

/-! The machines and the contexts that a thread list names. Handing a context over permutes the
contexts and appends at most one machine, so lists without repetitions and without dead entries
stay that way. -/
namespace SchedReplay

def machineIds (threads : List Thread) : List MachineId := threads.filterMap (·.machine)

def contextIds (threads : List Thread) : List ContextId := threads.filterMap (·.contextId)

/-- A thread list in which every machine and every context has one entry at most and every entry
stands for one of them. -/
structure WellBound (threads : List Thread) : Prop where
  machines : (machineIds threads).Nodup
  contexts : (contextIds threads).Nodup
  alive : ∀ thread ∈ threads, thread.isDead = false

namespace Thread

@[simp] theorem isMachine_iff {machine : MachineId} {thread : Thread} :
    thread.isMachine machine = true ↔ thread.machine = some machine := by
  simp [isMachine]

@[simp] theorem holds_iff {context : ContextId} {thread : Thread} :
    thread.holds context = true ↔ thread.contextId = some context := by
  simp [holds]

@[simp] theorem isDead_iff {thread : Thread} :
    thread.isDead = true ↔ thread.machine = none ∧ thread.context = none := by
  simp [isDead]

@[simp] theorem machine_vacate (thread : Thread) : thread.vacate.machine = thread.machine := rfl

@[simp] theorem context_vacate (thread : Thread) : thread.vacate.context = none := rfl

@[simp] theorem machine_hold (context : Context) (thread : Thread) :
    (thread.hold context).machine = thread.machine := rfl

@[simp] theorem context_hold (context : Context) (thread : Thread) :
    (thread.hold context).context = some context := rfl

@[simp] theorem contextId_vacate (thread : Thread) : thread.vacate.contextId = none := rfl

@[simp] theorem contextId_hold (context : Context) (thread : Thread) :
    (thread.hold context).contextId = some context.id := rfl

@[simp] theorem machine_unclaimed (context : Context) :
    (unclaimed context).machine = none := rfl

@[simp] theorem context_unclaimed (context : Context) :
    (unclaimed context).context = some context := rfl

@[simp] theorem contextId_unclaimed (context : Context) :
    (unclaimed context).contextId = some context.id := rfl

@[simp] theorem machine_ofMachine (machine : MachineId) :
    (ofMachine machine).machine = some machine := rfl

@[simp] theorem contextId_ofMachine (machine : MachineId) :
    (ofMachine machine).contextId = none := rfl

end Thread

section Ids

theorem mem_updateFirst {p : α → Bool} {f : α → α} {entries : List α} {a : α}
    (member : a ∈ updateFirst p f entries) : ∃ b ∈ entries, a = b ∨ (p b ∧ a = f b) := by
  induction entries with
  | nil => cases member
  | cons first rest ih =>
    rw [updateFirst] at member
    split at member
    · next satisfied =>
      rcases List.mem_cons.mp member with rfl | later
      · exact ⟨first, .head _, .inr ⟨satisfied, rfl⟩⟩
      · exact ⟨a, .tail _ later, .inl rfl⟩
    · rcases List.mem_cons.mp member with rfl | later
      · exact ⟨a, .head _, .inl rfl⟩
      · obtain ⟨b, inside, same⟩ := ih later
        exact ⟨b, .tail _ inside, same⟩

@[simp] theorem machineIds_nil : machineIds [] = [] := rfl

@[simp] theorem contextIds_nil : contextIds [] = [] := rfl

@[simp] theorem machineIds_cons (thread : Thread) (rest : List Thread) :
    machineIds (thread :: rest) = thread.machine.toList ++ machineIds rest := by
  unfold machineIds
  cases machine : thread.machine <;> simp [machine]

@[simp] theorem contextIds_cons (thread : Thread) (rest : List Thread) :
    contextIds (thread :: rest) = thread.contextId.toList ++ contextIds rest := by
  unfold contextIds
  cases context : thread.contextId <;> simp [context]

@[simp] theorem machineIds_append (left right : List Thread) :
    machineIds (left ++ right) = machineIds left ++ machineIds right :=
  List.filterMap_append

@[simp] theorem contextIds_append (left right : List Thread) :
    contextIds (left ++ right) = contextIds left ++ contextIds right :=
  List.filterMap_append

theorem mem_machineIds {machine : MachineId} {threads : List Thread} :
    machine ∈ machineIds threads ↔ ∃ thread ∈ threads, thread.machine = some machine :=
  List.mem_filterMap

theorem mem_contextIds {context : ContextId} {threads : List Thread} :
    context ∈ contextIds threads ↔ ∃ thread ∈ threads, thread.contextId = some context :=
  List.mem_filterMap

@[simp] theorem machineIds_dropDead (threads : List Thread) :
    machineIds (dropDead threads) = machineIds threads := by
  unfold machineIds dropDead
  rw [List.filterMap_filter]
  apply List.filterMap_congr
  intro thread _
  cases machine : thread.machine <;> simp [Thread.isDead, machine]

@[simp] theorem contextIds_dropDead (threads : List Thread) :
    contextIds (dropDead threads) = contextIds threads := by
  unfold contextIds dropDead
  rw [List.filterMap_filter]
  apply List.filterMap_congr
  intro thread _
  cases context : thread.context <;> simp [Thread.isDead, Thread.contextId, context]

theorem alive_dropDead {threads : List Thread} :
    ∀ thread ∈ dropDead threads, thread.isDead = false := by
  intro thread member
  simpa using (List.mem_filter.mp member).2

theorem machineIds_updateFirst {change : Thread → Thread}
    (keeps : ∀ thread, (change thread).machine = thread.machine) (p : Thread → Bool)
    (threads : List Thread) : machineIds (updateFirst p change threads) = machineIds threads := by
  induction threads with
  | nil => rfl
  | cons thread rest ih =>
    rw [updateFirst]
    split <;> simp [keeps, ih]

theorem contextIds_updateFirst {p : Thread → Bool} {change : Thread → Thread}
    (keeps : ∀ thread, p thread → (change thread).contextId = thread.contextId)
    (threads : List Thread) : contextIds (updateFirst p change threads) = contextIds threads := by
  induction threads with
  | nil => rfl
  | cons thread rest ih =>
    rw [updateFirst]
    split
    · next first => simp [keeps thread first]
    · simp [ih]

/-- Taking a context away removes its first mention. -/
theorem contextIds_vacate (context : ContextId) (threads : List Thread) :
    contextIds (updateFirst (·.holds context) .vacate threads) =
      (contextIds threads).erase context := by
  induction threads with
  | nil => rfl
  | cons thread rest ih =>
    rw [updateFirst]
    split
    · next holds => simp [Thread.holds_iff.mp holds]
    · next other =>
      rw [Thread.holds_iff] at other
      cases held : thread.contextId with
      | none => simp [held, ih]
      | some id =>
        have ne : id ≠ context := fun same => other (same ▸ held)
        simp [held, ih, List.erase_cons_tail, ne]

/-- Giving a context to a machine mentions it, and what the machine gives up is all that is lost. -/
theorem contextIds_take {machine : MachineId} (state : Context) {threads : List Thread}
    (known : machine ∈ machineIds threads) :
    (contextIds (updateFirst (·.isMachine machine) (.hold state) threads) ++
        ((threads.find? (·.isMachine machine)).bind (·.contextId)).toList).Perm
      (state.id :: contextIds threads) := by
  induction threads with
  | nil => simp at known
  | cons thread rest ih =>
    rw [updateFirst]
    split
    · next this =>
      rw [List.find?_cons_of_pos this]
      cases held : thread.contextId with
      | none => simp [held]
      | some id => simp [held]
    · next other =>
      have later : machine ∈ machineIds rest := by
        rw [Thread.isMachine_iff] at other
        simpa [other] using known
      rw [List.find?_cons_of_neg other]
      cases held : thread.contextId with
      | none => simpa [held] using ih later
      | some id => simpa [held] using ((ih later).cons id).trans (.swap _ _ _)

end Ids

section WithMachine

variable (machine : MachineId) (threads : List Thread)

theorem any_isMachine_iff :
    threads.any (·.isMachine machine) = true ↔ machine ∈ machineIds threads := by
  simp [mem_machineIds]

theorem machineIds_withMachine : machineIds (withMachine machine threads) =
    if machine ∈ machineIds threads then machineIds threads
    else machineIds threads ++ [machine] := by
  by_cases known : machine ∈ machineIds threads
  · rw [withMachine, if_pos ((any_isMachine_iff _ _).mpr known), if_pos known]
  · rw [withMachine, if_neg (mt (any_isMachine_iff _ _).mp known), if_neg known, machineIds_append]
    rfl

theorem mem_machineIds_withMachine : machine ∈ machineIds (withMachine machine threads) := by
  rw [machineIds_withMachine]
  split <;> simp [*]

@[simp] theorem contextIds_withMachine :
    contextIds (withMachine machine threads) = contextIds threads := by
  unfold withMachine
  split
  · rfl
  · simp [contextIds]

theorem nodup_machineIds_withMachine (nodup : (machineIds threads).Nodup) :
    (machineIds (withMachine machine threads)).Nodup := by
  rw [machineIds_withMachine]
  split
  · exact nodup
  · next fresh => exact nodup.append (List.nodup_singleton _) (by simpa using fresh)

end WithMachine

end SchedReplay
