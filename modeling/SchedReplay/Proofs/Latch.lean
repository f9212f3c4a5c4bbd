import SchedReplay.Proofs.Guarding
import SchedReplay.Proofs.History

/-! A failure leaves a mark and nothing else, and the mark stays until the next run starts. -/
namespace SchedReplay

namespace Reconstruction.Transition

open Engine (Call Reply)

variable {state next : Reconstruction} {call : Call} {reply : Reply} {update : Option Update}

theorem update_of_error {error : EngineError} (ends : state.Transition call reply next update)
    (reports : reply.error? = some error) : update = none := by
  cases ends with
  | refused | failed => rfl
  | listened _ _ silent => simp [silent] at reports
  | _ => simp [Reply.error?] at reports

theorem of_corrupted (ends : state.Transition call reply next update)
    (corrupted : state.corrupted = true) (attempt : call.isAttempt = true) :
    reply.error? = some .corrupted ∧ next = state ∧ update = none := by
  cases ends with
  | refused _ _ reports => exact ⟨reports, rfl, rfl⟩
  | restarted => simp [Call.isAttempt] at attempt
  | listened listens => simp [listens] at attempt
  | _ => simp_all

theorem of_refused (ends : state.Transition call reply next update)
    (reports : reply.error? = some .corrupted) : state.corrupted = true := by
  cases ends with
  | refused _ corrupted => exact corrupted
  | failed _ _ other cause =>
    rw [other] at reports
    exact absurd (Option.some.inj reports) cause
  | listened _ _ silent => simp [silent] at reports
  | _ => simp [Reply.error?] at reports

/-- Within a run the mark is there after a call just when it was there before or the call reports
an error. -/
theorem corrupted_iff (ends : state.Transition call reply next update) (stays : call ≠ .reset) :
    next.corrupted = true ↔ state.corrupted = true ∨ reply.error?.isSome = true := by
  cases ends with
  | refused _ corrupted reports => simp [corrupted]
  | failed _ _ reports => simp [reports]
  | restarted => exact absurd rfl stays
  | listened _ _ silent => simp [silent]
  | _ => simp [Reply.error?, committing, skipping]

end Reconstruction.Transition

namespace Engine

namespace Reply

variable {error : EngineError}

theorem eq_error_of_snapshot {answer : Except EngineError Snapshot}
    (reports : (Reply.snapshot answer).error? = some error) : answer = .error error := by
  cases answer with
  | error failure => rw [Option.some.inj reports]
  | ok => cases reports

theorem eq_error_of_decoded {answer : Except EngineError (Option Event)}
    (reports : (Reply.decoded answer).error? = some error) : answer = .error error := by
  cases answer with
  | error failure => rw [Option.some.inj reports]
  | ok => cases reports

end Reply

/-- A call that reports an error has failed before it did anything, and sets the mark. -/
theorem perform_of_error {engine : Engine} {call : Call} {error : EngineError}
    (reports : (engine.perform call).1.error? = some error) :
    (engine.perform call).2 = engine.marked ∧ engine.update? call = none := by
  refine ⟨?_, (engine.perform_transition call).update_of_error reports⟩
  cases call with
  | seed width =>
    exact (Work.leavesMark_seed width).of_eq (Work.seed_eq engine width)
      (Reply.eq_error_of_snapshot reports)
  | apply probe =>
    exact (Work.leavesMark_apply probe).of_eq (Work.apply_eq engine probe)
      (Reply.eq_error_of_snapshot reports)
  | decode probe =>
    exact (Work.leavesMark_decode probe).of_eq (Work.decode_eq engine probe)
      (Reply.eq_error_of_decoded reports)
  | applyEvent event =>
    exact (Work.leavesMark_applyEvent event).of_eq (Work.applyEvent_eq engine event)
      (Reply.eq_error_of_snapshot reports)
  | reset | subscribe | receive | drain | drop => cases reports

theorem perform_of_corrupted {engine : Engine} {call : Call} (corrupted : engine.isCorrupted = true)
    (attempt : call.isAttempt = true) :
    (engine.perform call).1.error? = some .corrupted ∧ (engine.perform call).2 = engine := by
  obtain ⟨reports, run, silent⟩ := (engine.perform_transition call).of_corrupted corrupted attempt
  have hub := engine.hub_of_isAttempt attempt
  rw [silent] at hub
  refine ⟨reports, ?_⟩
  calc (engine.perform call).2 = ⟨(engine.perform call).2.run, (engine.perform call).2.hub⟩ := rfl
    _ = ⟨engine.run, engine.hub⟩ := by rw [run, hub]; rfl

/-- Nothing but a reset takes the mark away. -/
theorem isCorrupted_performAll {engine : Engine} {calls : List Call}
    (corrupted : engine.isCorrupted = true) (stays : Call.reset ∉ calls) :
    (engine.performAll calls).isCorrupted = true := by
  refine performAll_induction calls (·.isCorrupted = true) engine corrupted ?_
  intro before call member still
  have keeps : call ≠ .reset := fun is => stays (is ▸ member)
  exact ((before.perform_transition call).corrupted_iff keeps).mpr (.inl still)

theorem not_isCorrupted_of_started {start : Engine} (started : Started start) :
    start.isCorrupted = false := by
  obtain ⟨model, _, rfl⟩ := started.exists_eq
  rfl

theorem isCorrupted_iff {start : Engine} (started : Started start) (calls : List Call) :
    (start.performAll calls).isCorrupted = true ↔
      ∃ record ∈ currentRun (start.transcript calls), record.2.error?.isSome = true := by
  refine history_induction (fun records engine =>
    engine.isCorrupted = true ↔ ∃ record ∈ records, record.2.error?.isSome = true) ?_ ?_ ?_ calls
  · simp [not_isCorrupted_of_started started]
  · intro engine records _
    simpa using show engine.reset.isCorrupted = false from rfl
  · intro engine records call keeps marked
    have after := (engine.perform_transition call).corrupted_iff keeps
    have before : engine.run.corrupted = true ↔
        ∃ record ∈ records, record.2.error?.isSome = true := marked
    rw [isCorrupted, after, before]
    simp [or_and_right, exists_or]

/-- A call that reports an error changes nothing but the mark. A marked engine, and no other,
refuses attempts, and stays as it is until a reset takes the mark away. The mark tells whether the
current run has reported an error. -/
theorem failures_are_atomic_and_latch :
    (∀ engine call error, (Engine.perform engine call).1.error? = some error →
      let after := (engine.perform call).2
      after.snapshot = engine.snapshot ∧ after.stats = engine.stats ∧ after.hub = engine.hub ∧
        engine.update? call = none ∧ after.isCorrupted = true) ∧
    (∀ engine call, Engine.isCorrupted engine = true → call.isAttempt = true →
      (engine.perform call).1.error? = some .corrupted ∧ (engine.perform call).2 = engine) ∧
    (∀ engine call, (Engine.perform engine call).1.error? = some .corrupted →
      engine.isCorrupted = true) ∧
    (∀ engine, (Engine.reset engine).isCorrupted = false) ∧
    (∀ engine failing error calls, (Engine.perform engine failing).1.error? = some error →
      Call.reset ∉ calls → ∀ call, call.isAttempt = true →
        (((engine.perform failing).2.performAll calls).perform call).1.error? = some .corrupted) ∧
    ∀ start, Started start → ∀ calls,
      ((start.performAll calls).isCorrupted = true ↔
        ∃ record ∈ currentRun (start.transcript calls), record.2.error?.isSome = true) := by
  refine ⟨?atomic, ?refusing, ?refused, ?reset, ?latching, ?telling⟩
  case atomic =>
    intro engine call error reports
    obtain ⟨after, silent⟩ := perform_of_error reports
    rw [after]
    exact ⟨rfl, rfl, rfl, silent, rfl⟩
  case refusing =>
    intro engine call corrupted attempt
    exact perform_of_corrupted corrupted attempt
  case refused =>
    intro engine call reports
    exact (engine.perform_transition call).of_refused reports
  case reset =>
    intro engine
    rfl
  case latching =>
    intro engine failing error calls reports stays call attempt
    have marked : (engine.perform failing).2.isCorrupted = true := by
      rw [(perform_of_error reports).1]
      rfl
    exact (perform_of_corrupted (isCorrupted_performAll marked stays) attempt).1
  case telling =>
    intro start started calls
    exact isCorrupted_iff started calls

theorem failures_are_atomic_and_latch_at_second_seed :
    let engine := Engine.new.performAll [.subscribe 4, .seed (some 2)]
    let failed := (engine.perform (.seed (some 2))).2
    (engine.perform (.seed (some 2))).1.error? = some (.invariant .alreadySeeded) ∧
      failed.snapshot = engine.snapshot ∧ failed.hub = engine.hub ∧
      ((failed.performAll [.drain 0]).perform (.seed (some 2))).1.error? = some .corrupted ∧
      failed.isCorrupted = true := by
  intro engine failed
  have fails : (engine.perform (.seed (some 2))).1.error? =
      some (.invariant .alreadySeeded) := rfl
  obtain ⟨atomic, _, _, _, latching, _⟩ := failures_are_atomic_and_latch
  obtain ⟨snapshot, _, hub, _, marked⟩ := atomic _ _ _ fails
  exact ⟨fails, snapshot, hub, latching _ _ _ [.drain 0] fails (by decide) _ rfl, marked⟩

end Engine

end SchedReplay
