import Mathlib.Data.List.Nodup
import Mathlib.Data.List.Perm.Basic
import SchedReplay.Proofs.Consistency

/-! The population of a run: the contexts below its width, each with one entry. -/
namespace SchedReplay

def contextsBelow (width : Nat) : List ContextId :=
  (List.range width).map fun index => ⟨.ofNat index⟩

section ContextsBelow

variable {width : Nat} (small : width ≤ UInt32.size)

include small

theorem mem_contextsBelow {context : ContextId} :
    context ∈ contextsBelow width ↔ context.val.toNat < width := by
  unfold contextsBelow
  rw [List.mem_map]
  constructor
  · rintro ⟨index, member, rfl⟩
    have below := List.mem_range.mp member
    rwa [UInt32.toNat_ofNat_of_lt' (Nat.lt_of_lt_of_le below small)]
  · intro below
    refine ⟨context.val.toNat, List.mem_range.mpr below, ?_⟩
    rw [UInt32.ofNat_toNat]

theorem nodup_contextsBelow : (contextsBelow width).Nodup := by
  refine List.Nodup.map_on ?_ List.nodup_range
  intro left leftBelow right rightBelow same
  have word : UInt32.ofNat left = UInt32.ofNat right := congrArg ContextId.val same
  have leftSmall := Nat.lt_of_lt_of_le (List.mem_range.mp leftBelow) small
  have rightSmall := Nat.lt_of_lt_of_le (List.mem_range.mp rightBelow) small
  rw [← UInt32.toNat_ofNat_of_lt' leftSmall, word, UInt32.toNat_ofNat_of_lt' rightSmall]

end ContextsBelow

namespace Model

/-- The contexts below the width are bound, each in one entry, and no others are. -/
def Populated (model : Model) (width : Nat) : Prop :=
  ∀ context : ContextId,
    model.threads.countP (·.holds context) = if context.val.toNat < width then 1 else 0

theorem populated_of_perm {model : Model} {width : Nat} (small : width ≤ UInt32.size)
    (bound : (contextIds model.threads).Perm (contextsBelow width)) : model.Populated width := by
  intro context
  have entries : model.threads.countP (·.holds context) =
      (contextIds model.threads).count context := by
    rw [contextIds, List.count_filterMap]
    apply List.countP_congr
    simp
  rw [entries, bound.count_eq, (nodup_contextsBelow small).count]
  simp only [mem_contextsBelow small]

theorem contextIds_seeded (width : Nat) :
    contextIds (seeded width).threads = contextsBelow width := by
  unfold contextIds seeded contextsBelow
  rw [List.filterMap_map, ← List.filterMap_eq_map]
  apply List.filterMap_congr
  intro index _
  cases index <;> rfl

theorem threads_seeded_succ (width : Nat) : (seeded (width + 1)).threads =
    seedThread 0 :: (List.range width).map fun index => seedThread (index + 1) := by
  simp [seeded, List.range_succ_eq_map, Function.comp_def]

/-- Seeding needs no check: the model of any number of contexts is consistent. -/
theorem consistent_seeded {width : Nat} (small : width ≤ UInt32.size) :
    (seeded width).Consistent := by
  have contexts : (contextIds (seeded width).threads).Nodup := by
    rw [contextIds_seeded]
    exact nodup_contextsBelow small
  cases width with
  | zero => exact ⟨⟨List.nodup_nil, contexts, by simp [seeded]⟩, List.nodup_nil⟩
  | succ width =>
    have machines : machineIds (seeded (width + 1)).threads = [⟨0⟩] := by
      rw [threads_seeded_succ, machineIds_cons]
      simp [machineIds, seedThread]
    have units : (seeded (width + 1)).units = [bootstrap] := by
      rw [Model.units, threads_seeded_succ]
      simp [seeded, seedThread, Thread.units, Thread.unclaimed, Context.idle, Context.waiting]
    refine ⟨⟨?_, contexts, ?_⟩, ?_⟩
    · rw [machines]
      exact List.nodup_singleton _
    · intro thread member
      obtain ⟨index, _, rfl⟩ := List.mem_map.mp member
      cases index <;> rfl
    · rw [units]
      exact List.nodup_singleton _

theorem consistent_empty : empty.Consistent :=
  @consistent_seeded 0 (Nat.zero_le _)

end Model

end SchedReplay
