import SchedReplay.Engine.Call
import SchedReplay.Proofs.Staging

/-! All that one call can do to a run. Laws about whole histories go through the cases below, one
for each outcome of a call, so that none of them opens the engine again. -/
namespace SchedReplay

theorem Model.isEmpty_iff {model : Model} : model.isEmpty = true ↔ model = .empty := by
  obtain ⟨threads, parked⟩ := model
  simp [isEmpty, empty]

namespace Engine

/-- The calls that may fail and that a failed run refuses. -/
def Call.isAttempt : Call → Bool
  | .seed _ | .apply _ | .decode _ | .applyEvent _ => true
  | .reset | .subscribe _ | .receive _ | .drain _ | .drop _ => false

def Call.event? : Call → Option Event
  | .applyEvent event => some event
  | .apply probe =>
    match Meaning.ofProbe probe with
    | .ok (.event event) => some event
    | _ => none
  | _ => none

def Reply.error? : Reply → Option EngineError
  | .snapshot (.error error) => some error
  | .decoded (.error error) => some error
  | _ => none

def update? (engine : Engine) : Call → Option Update
  | .seed width => (engine.run.seed width).update
  | .apply probe => (engine.run.apply probe).update
  | .decode probe => (engine.run.decode probe).update
  | .applyEvent event => (engine.run.applyEvent event).update
  | .reset => some .reset
  | .subscribe _ | .receive _ | .drain _ | .drop _ => none

end Engine

namespace Reconstruction

open Engine (Call Reply)

def skipping (state : Reconstruction) : Reconstruction :=
  { state with counts := { state.counts with unrecognized := state.counts.unrecognized + 1 } }

/-- What a call to a run leads to: the reply, the state after it and the update it publishes. -/
inductive Transition (state : Reconstruction) :
    Call → Reply → Reconstruction → Option Update → Prop where
  | refused {call : Call} {reply : Reply} (attempt : call.isAttempt = true)
      (corrupted : state.corrupted = true) (reports : reply.error? = some .corrupted) :
      Transition state call reply state none
  | failed {call : Call} {reply : Reply} {error : EngineError} (attempt : call.isAttempt = true)
      (live : state.corrupted = false) (reports : reply.error? = some error)
      (cause : error ≠ .corrupted) :
      Transition state call reply { state with corrupted := true } none
  | seeded {raw : UInt64} (live : state.corrupted = false) (positive : 0 < raw.toNat)
      (small : raw.toNat < UInt32.size) (unpopulated : state.snapshot.model = .empty) :
      Transition state (.seed (some raw))
        (.snapshot (.ok (state.committing (.seeded raw.toNat) seedChanges).snapshot))
        (state.committing (.seeded raw.toNat) seedChanges)
        (some (.committed (state.committing (.seeded raw.toNat) seedChanges).snapshot))
  | committed {call : Call} {event : Event} {decision : Decision} {model : Model}
      {changes : Changes} (live : state.corrupted = false) (applies : call.event? = some event)
      (decides : event.decision? = some decision)
      (fits : state.snapshot.model.commit decision = .ok (model, changes)) :
      Transition state call (.snapshot (.ok (state.committing model changes).snapshot))
        (state.committing model changes)
        (some (.committed (state.committing model changes).snapshot))
  | noted {call : Call} {event : Event} (live : state.corrupted = false)
      (applies : call.event? = some event) (decides : event.decision? = none) :
      Transition state call (.snapshot (.ok state.snapshot))
        { state with counts := state.counts.note event } event.notice?
  | skipped {probe : Wire.Probe} {family : Family} (live : state.corrupted = false)
      (means : Meaning.ofProbe probe = .ok (.unrecognized family)) :
      Transition state (.apply probe) (.snapshot (.ok state.snapshot)) state.skipping none
  | unknown {probe : Wire.Probe} {family : Family} (live : state.corrupted = false)
      (means : Meaning.ofProbe probe = .ok (.unrecognized family)) :
      Transition state (.decode probe) (.decoded (.ok none)) state.skipping none
  | decoded {probe : Wire.Probe} {event : Event} (live : state.corrupted = false)
      (means : Meaning.ofProbe probe = .ok (.event event)) :
      Transition state (.decode probe) (.decoded (.ok (some event))) state none
  | restarted : Transition state .reset .reset .fresh (some .reset)
  | listened {call : Call} {reply : Reply} (listens : call.isAttempt = false)
      (keeps : call ≠ .reset) (silent : reply.error? = none) :
      Transition state call reply state none

variable {state : Reconstruction}

theorem attempt_of_corrupted (corrupted : state.corrupted = true)
    (tried : Except EngineError (α × Reconstruction × Option Update)) :
    state.attempt tried = ⟨.error .corrupted, state, none⟩ := by
  simp [attempt, corrupted]

theorem attempt_error (live : state.corrupted = false) (error : EngineError) :
    (state.attempt (.error error) : Step α) =
      ⟨.error error, { state with corrupted := true }, none⟩ := by
  simp [attempt, live]

theorem attempt_ok (live : state.corrupted = false) (answer : α) (next : Reconstruction)
    (update : Option Update) :
    state.attempt (.ok (answer, next, update)) = ⟨.ok answer, next, update⟩ := by
  simp [attempt, live]

theorem usableWidth_eq_ok_iff {width : Option UInt64} {count : Nat} :
    usableWidth width = .ok count ↔
      ∃ raw, width = some raw ∧ 0 < raw.toNat ∧ raw.toNat < UInt32.size ∧ raw.toNat = count := by
  cases width with
  | none => simp [usableWidth, Event.require, bind, Except.bind]
  | some raw =>
    by_cases fits : 0 < raw.toNat ∧ raw.toNat < UInt32.size
    · simp [usableWidth, Event.require, bind, Except.bind, fits]
    · simp only [usableWidth, Event.require, bind, Except.bind, fits, ↓reduceIte, reduceCtorEq,
        Option.some.injEq, exists_eq_left', false_iff]
      tauto

theorem apply_of_corrupted (corrupted : state.corrupted = true) (probe : Wire.Probe) :
    state.apply probe = ⟨.error .corrupted, state, none⟩ := by
  simp [apply, decode, attempt_of_corrupted corrupted]

/-- While no call has failed, a probe does what its meaning does. -/
theorem apply_eq (live : state.corrupted = false) (probe : Wire.Probe) :
    state.apply probe =
      match Meaning.ofProbe probe with
      | .error error => ⟨.error (.validation error), { state with corrupted := true }, none⟩
      | .ok (.event event) => state.applyEvent event
      | .ok (.unrecognized _) => ⟨.ok state.snapshot, state.skipping, none⟩ := by
  unfold apply decode
  cases Meaning.ofProbe probe with
  | error error => simp [attempt_error live]
  | ok meaning => cases meaning <;> simp [attempt_ok live, skipping]

end Reconstruction

namespace Engine

open Reconstruction (Transition)

variable (engine : Engine)

theorem seed_transition (width : Option UInt64) :
    engine.run.Transition (.seed width) (engine.perform (.seed width)).1
      (engine.perform (.seed width)).2.run (engine.update? (.seed width)) := by
  simp only [perform, seed, publishing, update?, Prod.map, id, Reconstruction.seed]
  rcases engine.run.corrupted.eq_false_or_eq_true with corrupted | live
  · simp only [Reconstruction.attempt_of_corrupted corrupted]
    exact .refused rfl corrupted rfl
  · cases usable : Reconstruction.usableWidth width with
    | error error =>
      simp only [Reconstruction.attempt_error live]
      exact .failed rfl live rfl (by simp)
    | ok count =>
      obtain ⟨raw, rfl, positive, small, rfl⟩ := Reconstruction.usableWidth_eq_ok_iff.mp usable
      cases populated : engine.run.snapshot.model.isEmpty with
      | false =>
        simp only [Bool.false_eq_true, ↓reduceIte, Reconstruction.attempt_error live]
        exact .failed rfl live rfl (by simp)
      | true =>
        simp only [↓reduceIte, Reconstruction.committed, Reconstruction.attempt_ok live]
        exact .seeded live positive small (Model.isEmpty_iff.mp populated)

/-- An event does the same whichever call brings it. -/
theorem applyEvent_transition {call : Call} {event : Event} (applies : call.event? = some event)
    (attempt : call.isAttempt = true) :
    engine.run.Transition call (.snapshot (engine.run.applyEvent event).answer)
      (engine.run.applyEvent event).state (engine.run.applyEvent event).update := by
  unfold Reconstruction.applyEvent
  rcases engine.run.corrupted.eq_false_or_eq_true with corrupted | live
  · simp only [Reconstruction.attempt_of_corrupted corrupted]
    exact .refused attempt corrupted rfl
  · cases decides : event.decision? with
    | none =>
      simp only [Reconstruction.attempt_ok live]
      exact .noted live applies decides
    | some decision =>
      simp only [Reconstruction.commitDecision]
      cases fits : engine.run.snapshot.model.commit decision with
      | error violation =>
        simp only [Reconstruction.attempt_error live]
        exact .failed attempt live rfl (by simp)
      | ok committed =>
        simp only [Reconstruction.committed, Reconstruction.attempt_ok live]
        exact .committed live applies decides fits

theorem apply_transition (probe : Wire.Probe) :
    engine.run.Transition (.apply probe) (engine.perform (.apply probe)).1
      (engine.perform (.apply probe)).2.run (engine.update? (.apply probe)) := by
  simp only [perform, apply, publishing, update?, Prod.map, id]
  rcases engine.run.corrupted.eq_false_or_eq_true with corrupted | live
  · rw [Reconstruction.apply_of_corrupted corrupted]
    exact .refused rfl corrupted rfl
  · rw [Reconstruction.apply_eq live]
    cases means : Meaning.ofProbe probe with
    | error error => exact .failed rfl live rfl (by simp)
    | ok meaning =>
      cases meaning with
      | event event => exact applyEvent_transition engine (by simp [Call.event?, means]) rfl
      | unrecognized family => exact .skipped live means

theorem decode_transition (probe : Wire.Probe) :
    engine.run.Transition (.decode probe) (engine.perform (.decode probe)).1
      (engine.perform (.decode probe)).2.run (engine.update? (.decode probe)) := by
  simp only [perform, decode, publishing, update?, Prod.map, id, Reconstruction.decode]
  rcases engine.run.corrupted.eq_false_or_eq_true with corrupted | live
  · simp only [Reconstruction.attempt_of_corrupted corrupted]
    exact .refused rfl corrupted rfl
  · cases means : Meaning.ofProbe probe with
    | error error =>
      simp only [Reconstruction.attempt_error live]
      exact .failed rfl live rfl (by simp)
    | ok meaning =>
      cases meaning with
      | event event =>
        simp only [Reconstruction.attempt_ok live]
        exact .decoded live means
      | unrecognized family =>
        simp only [Reconstruction.attempt_ok live]
        exact .unknown live means

/-- Every call ends in one of the ways listed. -/
theorem perform_transition (call : Call) :
    engine.run.Transition call (engine.perform call).1 (engine.perform call).2.run
      (engine.update? call) := by
  cases call with
  | seed width => exact seed_transition engine width
  | apply probe => exact apply_transition engine probe
  | decode probe => exact decode_transition engine probe
  | applyEvent event => exact applyEvent_transition engine rfl rfl
  | reset => exact .restarted
  | subscribe capacity => exact .listened rfl (by simp) rfl
  | receive subscriber => exact .listened rfl (by simp) rfl
  | drain subscriber => exact .listened rfl (by simp) rfl
  | drop subscriber => exact .listened rfl (by simp) rfl

/-- What an attempt publishes is all that subscribers hear of it. -/
theorem hub_of_isAttempt {call : Call} (attempt : call.isAttempt = true) :
    (engine.perform call).2.hub = engine.hub.publish? (engine.update? call) := by
  cases call <;> first | rfl | simp [Call.isAttempt] at attempt

end Engine

end SchedReplay
