import SchedReplay.Proofs.Inventory

/-! Where a unit is. A consistent model holds a unit in one place at most, and the place tells
whether it runs, waits on a context or is parked. -/
namespace SchedReplay

namespace Model

def places (model : Model) (unit : UnitId) : List Location :=
  (model.placements.filter (·.1 = unit)).map Prod.snd

variable {model : Model} {unit : UnitId} {location : Location}

theorem mem_places_iff : location ∈ model.places unit ↔ (unit, location) ∈ model.placements := by
  simp [places]

theorem places_ne_nil_iff : model.places unit ≠ [] ↔ unit ∈ model.units.map (·.id) := by
  rw [← map_fst_placements, places]
  simp [List.filter_eq_nil_iff]

/-- No unit of a consistent model is in a second place. -/
theorem Consistent.places_eq (consistent : model.Consistent)
    (inside : location ∈ model.places unit) : model.places unit = [location] := by
  have once : ((model.placements.filter (·.1 = unit)).map Prod.fst).Nodup := by
    apply List.Nodup.sublist (List.filter_sublist.map _)
    rw [map_fst_placements]
    exact consistent.units
  have same : ∀ placement ∈ model.placements.filter (·.1 = unit), placement.1 = unit := by
    intro placement member
    simpa using (List.mem_filter.mp member).2
  unfold places at inside ⊢
  generalize model.placements.filter (·.1 = unit) = found at *
  match found with
  | [] => simp at inside
  | [placement] => rw [List.map_singleton] at inside ⊢; rw [List.mem_singleton.mp inside]
  | first :: second :: rest => simp [same first, same second] at once

end Model

section Placements

variable {threads : List Thread} {placement : Placement}

theorem mem_threadPlacements_iff {index : Nat} :
    placement ∈ threadPlacements index threads ↔ ∃ offset thread,
      threads[offset]? = some thread ∧ placement ∈ Thread.placements (index + offset) thread := by
  induction threads generalizing index with
  | nil => simp [threadPlacements]
  | cons first rest ih =>
    rw [threadPlacements, List.mem_append, ih]
    constructor
    · rintro (here | ⟨offset, thread, found, later⟩)
      · exact ⟨0, first, rfl, here⟩
      · refine ⟨offset + 1, thread, found, ?_⟩
        rwa [Nat.add_comm offset, ← Nat.add_assoc]
    · rintro ⟨offset, thread, found, inside⟩
      cases offset with
      | zero =>
        obtain rfl : first = thread := by simpa using found
        exact .inl inside
      | succ offset =>
        refine .inr ⟨offset, thread, found, ?_⟩
        rwa [Nat.add_assoc, Nat.add_comm 1]

theorem mem_boundContexts_iff {context : Context} : context ∈ boundContexts threads ↔
    ∃ (offset : Nat) (thread : Thread),
      threads[offset]? = some thread ∧ thread.context = some context := by
  rw [boundContexts, List.mem_filterMap]
  constructor
  · rintro ⟨thread, inside, held⟩
    obtain ⟨offset, found⟩ := List.mem_iff_getElem?.mp inside
    exact ⟨offset, thread, found, held⟩
  · rintro ⟨offset, thread, found, held⟩
    exact ⟨thread, List.mem_of_getElem? found, held⟩

end Placements

namespace Model

variable {model : Model} {unit : UnitId}

theorem executing_mem_places_iff {index : Nat} : .executing index ∈ model.places unit ↔
    ∃ thread, model.threads[index]? = some thread ∧ thread.executing.map (·.id) = some unit := by
  simp [mem_places_iff, placements, mem_threadPlacements_iff, Thread.placements,
    Context.placements, ParkedUnit.placement]

theorem runNext_mem_places_iff {id : ContextId} : .runNext id ∈ model.places unit ↔
    ∃ context ∈ boundContexts model.threads, context.id = id ∧
      context.runNext.map (·.id) = some unit := by
  simp only [mem_places_iff, placements, List.mem_append, mem_threadPlacements_iff,
    Thread.placements, Nat.zero_add, List.mem_map, Option.mem_toList, Prod.mk.injEq, reduceCtorEq,
    and_false, exists_false, List.mem_flatMap, Context.placements, Location.runNext.injEq,
    or_false, false_or, ParkedUnit.placement, mem_boundContexts_iff, Option.map_eq_some_iff]
  grind

theorem runQueue_mem_places_iff {id : ContextId} : .runQueue id ∈ model.places unit ↔
    ∃ context ∈ boundContexts model.threads, context.id = id ∧
      unit ∈ context.runQueue.map (·.id) := by
  simp only [mem_places_iff, placements, List.mem_append, mem_threadPlacements_iff,
    Thread.placements, Nat.zero_add, List.mem_map, Option.mem_toList, Prod.mk.injEq, reduceCtorEq,
    and_false, exists_false, List.mem_flatMap, Context.placements, Location.runQueue.injEq,
    or_false, false_or, ParkedUnit.placement, mem_boundContexts_iff]
  grind

theorem parked_mem_places_iff : .parked ∈ model.places unit ↔
    unit ∈ model.parked.map (·.unit.id) := by
  simp [mem_places_iff, placements, mem_threadPlacements_iff, Thread.placements,
    Context.placements, ParkedUnit.placement]

end Model

end SchedReplay
