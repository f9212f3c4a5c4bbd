/-! Identifiers of the three kinds of thing a scheduler juggles: machine threads, the contexts
they own, and the units of work that run on them. -/
namespace SchedReplay

/-- A machine thread; its number uses all 64 bits. -/
structure MachineId where
  val : UInt64
  deriving DecidableEq

/-- A scheduling context. Contexts are numbered from zero up to the width, so 32 bits suffice. -/
structure ContextId where
  val : UInt32
  deriving DecidableEq

/-- A unit of work; its number uses all 64 bits. -/
structure UnitId where
  val : UInt64
  deriving DecidableEq

def MachineId.text (id : MachineId) : String := "M" ++ Nat.repr id.val.toNat

def ContextId.text (id : ContextId) : String := "P" ++ Nat.repr id.val.toNat

def UnitId.text (id : UnitId) : String := "G" ++ Nat.repr id.val.toNat

/-- The context with a given number, if it fits 32 bits. -/
def ContextId.ofUInt64? (raw : UInt64) : Option ContextId :=
  if raw.toNat < UInt32.size then some ⟨raw.toUInt32⟩ else none

theorem ContextId.ofUInt64?_eq_some_iff {raw : UInt64} {id : ContextId} :
    ofUInt64? raw = some id ↔ raw.toNat = id.val.toNat := by
  have narrow (small : raw.toNat < UInt32.size) : raw.toUInt32.toNat = raw.toNat := by
    rw [UInt64.toNat_toUInt32, Nat.mod_eq_of_lt small]
  constructor
  · intro h
    unfold ofUInt64? at h
    split at h
    · next small => cases h; exact (narrow small).symm
    · cases h
  · intro h
    have small : raw.toNat < UInt32.size := h ▸ id.val.toNat_lt
    obtain ⟨val⟩ := id
    rw [ofUInt64?, if_pos small, UInt32.toNat_inj.mp ((narrow small).trans h)]

end SchedReplay
