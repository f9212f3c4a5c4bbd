import Mathlib.Data.List.Nodup
import SchedReplay.Proofs.Consistency

/-! The single places of a model that can hold a unit, in the order in which they are scanned. The
placements of a model are what these places hold, in that order. -/
namespace SchedReplay

/-- A place for one unit; entries, queues and the parked units are counted from zero. -/
inductive Position where
  | executing (thread : Nat)
  | runNext (thread : Nat)
  | runQueue (thread index : Nat)
  | parked (index : Nat)
  deriving DecidableEq

namespace Position

/-- Threads come first, each with the running unit, the next one and the queue. -/
def rank : Position → List Nat
  | executing thread => [0, thread, 0]
  | runNext thread => [0, thread, 1]
  | runQueue thread index => [0, thread, 2, index]
  | parked index => [1, index]

/-- The order of the scan, which is the lexicographic one of the ranks. -/
def Before (one other : Position) : Prop := one.rank < other.rank

instance (one other : Position) : Decidable (one.Before other) :=
  inferInstanceAs (Decidable (one.rank < other.rank))

theorem not_before_self (position : Position) : ¬ position.Before position :=
  List.lt_irrefl position.rank

theorem Before.trans {one other third : Position} (before : one.Before other)
    (later : other.Before third) : one.Before third :=
  List.lt_trans before later

theorem rank_injective : Function.Injective rank := by
  intro one other same
  cases one <;> cases other <;> simp_all [rank]

theorem before_trichotomy (one other : Position) :
    one.Before other ∨ one = other ∨ other.Before one := by
  by_cases before : one.rank < other.rank
  · exact .inl before
  · by_cases after : other.rank < one.rank
    · exact .inr (.inr after)
    · have same := List.le_antisymm (List.not_lt.mp after) (List.not_lt.mp before)
      exact .inr (.inl (rank_injective same))

end Position

/-- The positions of the units that a context holds at the entry with a given index. -/
def Context.occupied (thread : Nat) (context : Context) : List Position :=
  context.runNext.toList.map (fun _ => .runNext thread) ++
    (List.range context.runQueue.length).map (.runQueue thread)

def Thread.occupied (index : Nat) (thread : Thread) : List Position :=
  thread.executing.toList.map (fun _ => .executing index) ++
    thread.context.toList.flatMap (Context.occupied index)

namespace Model

def contextAt? (model : Model) (thread : Nat) : Option Context :=
  model.threads[thread]?.bind (·.context)

/-- The unit at a position, and where it is said to be. -/
def placementAt? (model : Model) : Position → Option Placement
  | .executing thread =>
    (model.threads[thread]?.bind (·.executing)).map fun unit => (unit.id, .executing thread)
  | .runNext thread =>
    (model.contextAt? thread).bind fun context =>
      context.runNext.map fun unit => (unit.id, .runNext context.id)
  | .runQueue thread index =>
    (model.contextAt? thread).bind fun context =>
      context.runQueue[index]?.map fun unit => (unit.id, .runQueue context.id)
  | .parked index => model.parked[index]?.map ParkedUnit.placement

def unitAt? (model : Model) (position : Position) : Option UnitId :=
  (model.placementAt? position).map Prod.fst

/-- The positions that hold a unit. -/
def occupied (model : Model) : List Position :=
  model.threads.zipIdx.flatMap (fun entry => entry.1.occupied entry.2) ++
    (List.range model.parked.length).map .parked

end Model

section Occupied

theorem pairwise_toList {relation : α → α → Prop} (found : Option α) :
    found.toList.Pairwise relation := by
  cases found <;> simp

theorem map_getElem?_range (f : α → β) (entries : List α) :
    (List.range entries.length).map (fun index => entries[index]?.map f) =
      (entries.map f).map some := by
  apply List.ext_getElem
  · simp
  · intro index inside _
    have bound : index < entries.length := by simpa using inside
    simp [List.getElem?_eq_getElem bound]

theorem Context.pairwise_occupied (thread : Nat) (context : Context) :
    (context.occupied thread).Pairwise Position.Before := by
  refine List.pairwise_append.mpr ⟨?_, ?_, ?_⟩
  · exact List.pairwise_map.mpr (pairwise_toList _)
  · refine List.pairwise_map.mpr (List.pairwise_lt_range.imp ?_)
    intro one other lt
    simpa [Position.Before, Position.rank, List.cons_lt_cons_iff] using lt
  · simp [Position.Before, Position.rank, List.cons_lt_cons_iff]

theorem Thread.pairwise_occupied (index : Nat) (thread : Thread) :
    (thread.occupied index).Pairwise Position.Before := by
  refine List.pairwise_append.mpr ⟨?_, ?_, ?_⟩
  · exact List.pairwise_map.mpr (pairwise_toList _)
  · rw [List.pairwise_flatMap]
    exact ⟨fun context _ => context.pairwise_occupied index, pairwise_toList _⟩
  · intro one running other waiting
    obtain ⟨_, _, rfl⟩ := List.mem_map.mp running
    obtain ⟨context, _, here⟩ := List.mem_flatMap.mp waiting
    rcases List.mem_append.mp here with next | queued
    · obtain ⟨_, _, rfl⟩ := List.mem_map.mp next
      simp [Position.Before, Position.rank, List.cons_lt_cons_iff]
    · obtain ⟨_, _, rfl⟩ := List.mem_map.mp queued
      simp [Position.Before, Position.rank, List.cons_lt_cons_iff]

theorem Thread.rank_of_mem_occupied {thread : Thread} {index : Nat} {position : Position}
    (inside : position ∈ thread.occupied index) : ∃ rest, position.rank = 0 :: index :: rest := by
  simp only [occupied, Context.occupied, List.mem_append, List.mem_map, List.mem_flatMap] at inside
  rcases inside with ⟨_, _, rfl⟩ | ⟨_, _, ⟨_, _, rfl⟩ | ⟨_, _, rfl⟩⟩ <;> exact ⟨_, rfl⟩

end Occupied

namespace Model

variable {model : Model}

theorem map_placementAt?_entry {thread : Thread} {index : Nat}
    (found : model.threads[index]? = some thread) :
    (thread.occupied index).map model.placementAt? = (thread.placements index).map some := by
  have held : model.contextAt? index = thread.context := by simp [contextAt?, found]
  have running : (thread.executing.toList.map fun _ => Position.executing index).map
      model.placementAt? =
        (thread.executing.toList.map fun unit => (unit.id, .executing index)).map some := by
    cases runs : thread.executing <;> simp [placementAt?, found, runs]
  have waiting {context : Context} (here : thread.context = some context) :
      (context.occupied index).map model.placementAt? = context.placements.map some := by
    have queue := map_getElem?_range (fun unit => (unit.id, Location.runQueue context.id))
      context.runQueue
    have next : (context.runNext.toList.map fun _ => Position.runNext index).map
        model.placementAt? =
          (context.runNext.toList.map fun unit => (unit.id, .runNext context.id)).map some := by
      cases waits : context.runNext <;> simp [placementAt?, held, here, waits]
    rw [Context.occupied, Context.placements, List.map_append, List.map_append, next, ← queue,
      List.map_map (g := model.placementAt?) (f := Position.runQueue index)]
    congr 1
    apply List.map_congr_left
    intro place _
    simp [placementAt?, held, here]
  rw [Thread.occupied, Thread.placements, List.map_append, List.map_append, running]
  cases here : thread.context with
  | none => rfl
  | some context => simpa using waiting here

theorem threadPlacements_eq_flatMap (index : Nat) (threads : List Thread) :
    threadPlacements index threads =
      (threads.zipIdx index).flatMap fun entry => entry.1.placements entry.2 := by
  induction threads generalizing index with
  | nil => rfl
  | cons thread rest ih => rw [threadPlacements, List.zipIdx_cons, List.flatMap_cons, ih]

/-- Scanning the positions that hold a unit gives the placements. -/
theorem map_placementAt?_occupied (model : Model) :
    model.occupied.map model.placementAt? = model.placements.map some := by
  rw [occupied, placements, threadPlacements_eq_flatMap, List.map_append, List.map_append,
    List.map_flatMap, List.map_flatMap]
  congr 1
  · apply List.flatMap_congr
    rintro ⟨thread, index⟩ inside
    exact map_placementAt?_entry (List.mk_mem_zipIdx_iff_getElem?.mp inside)
  · rw [← map_getElem?_range, List.map_map]
    rfl

theorem pairwise_occupied (model : Model) : model.occupied.Pairwise Position.Before := by
  refine List.pairwise_append.mpr ⟨?_, ?_, ?_⟩
  · rw [List.pairwise_flatMap]
    refine ⟨fun entry _ => entry.1.pairwise_occupied entry.2, ?_⟩
    have ascending : (model.threads.zipIdx.map Prod.snd).Pairwise (· < ·) := by
      rw [List.zipIdx_map_snd]
      exact List.pairwise_lt_range'
    refine (List.pairwise_map.mp ascending).imp ?_
    intro earlier later lt one inEarlier other inLater
    obtain ⟨_, rank⟩ := Thread.rank_of_mem_occupied inEarlier
    obtain ⟨_, rank'⟩ := Thread.rank_of_mem_occupied inLater
    simp [Position.Before, rank, rank', List.cons_lt_cons_iff, lt]
  · refine List.pairwise_map.mpr (List.pairwise_lt_range.imp ?_)
    intro one other lt
    simpa [Position.Before, Position.rank, List.cons_lt_cons_iff] using lt
  · intro one inThreads other inParked
    obtain ⟨entry, _, here⟩ := List.mem_flatMap.mp inThreads
    obtain ⟨_, rank⟩ := Thread.rank_of_mem_occupied here
    obtain ⟨index, _, rfl⟩ := List.mem_map.mp inParked
    rw [Position.Before, rank]
    simp [Position.rank, List.cons_lt_cons_iff]

theorem mem_occupied_of_entry {thread : Thread} {index : Nat}
    (found : model.threads[index]? = some thread) {position : Position}
    (inside : position ∈ thread.occupied index) : position ∈ model.occupied :=
  List.mem_append_left _ (List.mem_flatMap.mpr
    ⟨(thread, index), List.mk_mem_zipIdx_iff_getElem?.mpr found, inside⟩)

theorem contextAt?_eq_some_iff {index : Nat} {context : Context} :
    model.contextAt? index = some context ↔
      ∃ thread, model.threads[index]? = some thread ∧ thread.context = some context :=
  Option.bind_eq_some_iff

theorem mem_occupied_of_placementAt? {position : Position} {placement : Placement}
    (holds : model.placementAt? position = some placement) : position ∈ model.occupied := by
  cases position with
  | executing index =>
    obtain ⟨unit, runs, _⟩ := Option.map_eq_some_iff.mp holds
    obtain ⟨thread, found, runs⟩ := Option.bind_eq_some_iff.mp runs
    exact mem_occupied_of_entry found (by simp [Thread.occupied, runs])
  | runNext index =>
    obtain ⟨context, held, waits⟩ := Option.bind_eq_some_iff.mp holds
    obtain ⟨thread, found, here⟩ := contextAt?_eq_some_iff.mp held
    obtain ⟨unit, waits, _⟩ := Option.map_eq_some_iff.mp waits
    exact mem_occupied_of_entry found (by simp [Thread.occupied, Context.occupied, here, waits])
  | runQueue index place =>
    obtain ⟨context, held, waits⟩ := Option.bind_eq_some_iff.mp holds
    obtain ⟨thread, found, here⟩ := contextAt?_eq_some_iff.mp held
    obtain ⟨unit, waits, _⟩ := Option.map_eq_some_iff.mp waits
    obtain ⟨bound, _⟩ := List.getElem?_eq_some_iff.mp waits
    exact mem_occupied_of_entry found (by simp [Thread.occupied, Context.occupied, here, bound])
  | parked place =>
    obtain ⟨unit, found, _⟩ := Option.map_eq_some_iff.mp holds
    obtain ⟨bound, _⟩ := List.getElem?_eq_some_iff.mp found
    exact List.mem_append_right _ (by simpa using bound)

theorem nodup_occupied (model : Model) : model.occupied.Nodup := by
  refine model.pairwise_occupied.imp ?_
  rintro one _ before rfl
  exact one.not_before_self before

theorem map_unitAt?_occupied (model : Model) :
    model.occupied.map model.unitAt? = (model.units.map (·.id)).map some := by
  have units : model.unitAt? = Option.map Prod.fst ∘ model.placementAt? := rfl
  rw [units, ← List.map_map, map_placementAt?_occupied, ← map_fst_placements, List.map_map,
    List.map_map]
  rfl

theorem mem_occupied_of_unitAt? {position : Position} {unit : UnitId}
    (holds : model.unitAt? position = some unit) : position ∈ model.occupied := by
  obtain ⟨placement, holds, _⟩ := Option.map_eq_some_iff.mp holds
  exact mem_occupied_of_placementAt? holds

/-- No unit is in two places just when no two positions hold the same one. -/
theorem nodup_units_iff : (model.units.map (·.id)).Nodup ↔ ∀ one other unit,
    model.unitAt? one = some unit → model.unitAt? other = some unit → one = other := by
  rw [← List.nodup_map_iff (fun _ _ => Option.some.inj), ← map_unitAt?_occupied,
    List.nodup_map_iff_inj_on model.nodup_occupied]
  constructor
  · intro once one other unit here there
    exact once one (mem_occupied_of_unitAt? here) other (mem_occupied_of_unitAt? there)
      (here.trans there.symm)
  · intro once one inside other _ same
    have mapped := List.mem_map_of_mem (f := model.unitAt?) inside
    rw [map_unitAt?_occupied] at mapped
    obtain ⟨unit, _, holds⟩ := List.mem_map.mp mapped
    exact once one other unit holds.symm (same ▸ holds.symm)

end Model

end SchedReplay
