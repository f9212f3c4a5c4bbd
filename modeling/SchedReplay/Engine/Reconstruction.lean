import SchedReplay.Engine.Update
import SchedReplay.Event.Validation

/-! Reconstructing the model of one run, event by event. A call that fails changes nothing but a
mark, and while the mark is set every call is refused. Who listens plays no part here: each call
says which update it publishes. -/
namespace SchedReplay

inductive EngineError where
  | validation (error : FieldError)
  | invariant (violation : Violation)
  | corrupted
  deriving DecidableEq

def EngineError.message : EngineError → String
  | validation error => error.message
  | invariant violation => violation.message
  | corrupted => "engine state is corrupted by an earlier failure; reset before applying events"

structure Counts where
  committed : Nat
  newContexts : Nat
  progress : Nat
  unrecognized : Nat
  deriving DecidableEq

def Counts.zero : Counts := ⟨0, 0, 0, 0⟩

def Counts.note (counts : Counts) : Event → Counts
  | .newContext _ => { counts with newContexts := counts.newContexts + 1 }
  | .progress _ => { counts with progress := counts.progress + 1 }
  | _ => counts

/-- The update that passes an event on as it is. -/
def Event.notice? : Event → Option Update
  | progress event => some (.progress event)
  | _ => none

structure Reconstruction where
  snapshot : Snapshot
  corrupted : Bool
  counts : Counts
  deriving DecidableEq

namespace Reconstruction

/-- The outcome of a call: its answer, the state after it, and the update it publishes. -/
structure Step (α : Type) where
  answer : Except EngineError α
  state : Reconstruction
  update : Option Update

def start (model : Model) : Reconstruction := ⟨.start model, false, .zero⟩

def fresh : Reconstruction := start .empty

/-- Makes an attempt unless an earlier one failed. A failure leaves its mark and nothing else. -/
def attempt (state : Reconstruction)
    (tried : Except EngineError (α × Reconstruction × Option Update)) : Step α :=
  if state.corrupted then ⟨.error .corrupted, state, none⟩
  else
    match tried with
    | .error error => ⟨.error error, { state with corrupted := true }, none⟩
    | .ok (answer, next, update) => ⟨.ok answer, next, update⟩

/-- The state after a commit, whose snapshot takes the next number. -/
def committing (state : Reconstruction) (model : Model) (changes : Changes) : Reconstruction :=
  { state with
    snapshot := ⟨state.snapshot.sequence + 1, model, changes⟩
    counts := { state.counts with committed := state.counts.committed + 1 } }

/-- A commit as a successful attempt; it publishes the snapshot it answers with. -/
def committed (state : Reconstruction) (model : Model) (changes : Changes) :
    Snapshot × Reconstruction × Option Update :=
  let next := state.committing model changes
  (next.snapshot, next, some (.committed next.snapshot))

/-- The number of contexts that a width message stands for. -/
def usableWidth (width : Option UInt64) : Except FieldError Nat := do
  let raw ← Event.require .concurrencyWidth "count" width
  if 0 < raw.toNat ∧ raw.toNat < UInt32.size then .ok raw.toNat
  else .error (.unusableWidth raw)

/-- The changes of seeding; no machine is named. -/
def seedChanges : Changes := ⟨true, false, []⟩

def seed (state : Reconstruction) (width : Option UInt64) : Step Snapshot :=
  state.attempt <|
    match usableWidth width with
    | .error error => .error (.validation error)
    | .ok width =>
      if state.snapshot.model.isEmpty then
        .ok (state.committed (.seeded width) seedChanges)
      else .error (.invariant .alreadySeeded)

/-- The event that a probe stands for; kinds that are not known are counted. -/
def decode (state : Reconstruction) (probe : Wire.Probe) : Step (Option Event) :=
  state.attempt <|
    match Meaning.ofProbe probe with
    | .error error => .error (.validation error)
    | .ok (.event event) => .ok (some event, state, none)
    | .ok (.unrecognized _) =>
      let counts := { state.counts with unrecognized := state.counts.unrecognized + 1 }
      .ok (none, { state with counts }, none)

def commitDecision (state : Reconstruction) (decision : Decision) :
    Except EngineError (Snapshot × Reconstruction × Option Update) :=
  match state.snapshot.model.commit decision with
  | .error violation => .error (.invariant violation)
  | .ok (model, changes) => .ok (state.committed model changes)

/-- Applies an event. One that leaves the model alone is counted, and progress is passed on. -/
def applyEvent (state : Reconstruction) (event : Event) : Step Snapshot :=
  state.attempt <|
    match event.decision? with
    | some decision => state.commitDecision decision
    | none =>
      .ok (state.snapshot, { state with counts := state.counts.note event }, event.notice?)

def apply (state : Reconstruction) (probe : Wire.Probe) : Step Snapshot :=
  let decoded := state.decode probe
  match decoded.answer with
  | .error error => ⟨.error error, decoded.state, none⟩
  | .ok none => ⟨.ok decoded.state.snapshot, decoded.state, none⟩
  | .ok (some event) => decoded.state.applyEvent event

end Reconstruction

end SchedReplay
