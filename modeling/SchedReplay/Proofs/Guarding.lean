import SchedReplay.Proofs.Transition

/-! Calls made in place. What a step has done to the engine by the time it fails stays done, so that
a failure leaves nothing but its mark only because every step fails before it does anything. -/
namespace SchedReplay.Engine

def marked (engine : Engine) : Engine :=
  { engine with run := { engine.run with corrupted := true } }

@[simp] theorem run_marked (engine : Engine) :
    engine.marked.run = { engine.run with corrupted := true } := rfl

theorem marked_of_isCorrupted {engine : Engine} (corrupted : engine.isCorrupted = true) :
    engine.marked = engine := by
  rw [marked, ← corrupted]
  rfl

/-- Work on an engine. It may fail, and then the engine is as the work has left it. -/
abbrev Work (α : Type) := ExceptT EngineError (StateM Engine) α

namespace Work

/-- What work on an engine answers, and the engine after it. -/
def on (work : Work α) (engine : Engine) : Except EngineError α × Engine :=
  (work.run.run engine).run

def mark : Work Unit := modify marked

/-- Refuses an engine that has failed before, and marks one on which the step fails. -/
def guarded (step : Work α) : Work α := do
  let engine ← get
  if engine.isCorrupted then throw .corrupted
  else
    -- Nothing is put back: the mark goes to the engine as the failed step has left it.
    tryCatch step fun error => do
      mark
      throw error

def require (cause : ε → EngineError) : Except ε α → Work α
  | .error error => throw (cause error)
  | .ok value => pure value

def count (note : Counts → Counts) : Work Unit :=
  modify fun engine => { engine with run := { engine.run with counts := note engine.run.counts } }

def publish (update : Update) : Work Unit :=
  modify fun engine => { engine with hub := engine.hub.publish update }

def publishCommit (model : Model) (changes : Changes) : Work Snapshot := do
  modify fun engine =>
    let snapshot := ⟨engine.snapshot.sequence + 1, model, changes⟩
    { engine with run := { engine.run with snapshot } }
  count fun counts => { counts with committed := counts.committed + 1 }
  let engine ← get
  publish (.committed engine.snapshot)
  return engine.snapshot

def seedStep (width : Option UInt64) : Work Snapshot := do
  let width ← require .validation (Reconstruction.usableWidth width)
  let engine ← get
  if engine.model.isEmpty then publishCommit (.seeded width) Reconstruction.seedChanges
  else throw (.invariant .alreadySeeded)

def seed (width : Option UInt64) : Work Snapshot := guarded (seedStep width)

/-- Probes are decoded without the guard, under a check and a mark of their own. -/
def decode (probe : Wire.Probe) : Work (Option Event) := do
  let engine ← get
  if engine.isCorrupted then throw .corrupted
  else
    match Meaning.ofProbe probe with
    | .ok (.event event) => return some event
    | .ok (.unrecognized _) =>
      count fun counts => { counts with unrecognized := counts.unrecognized + 1 }
      return none
    | .error error =>
      mark
      throw (.validation error)

/-- Counts an event that leaves the model alone, and passes it on if it is progress. -/
def noteStep (event : Event) : Work Snapshot := do
  count (·.note event)
  event.notice?.forM publish
  let engine ← get
  return engine.snapshot

def decisionStep (decision : Decision) : Work Snapshot := do
  let engine ← get
  let (model, changes) ← require .invariant (engine.model.commit decision)
  publishCommit model changes

def applyEvent (event : Event) : Work Snapshot :=
  guarded <|
    match event.decision? with
    | some decision => decisionStep decision
    | none => noteStep event

def apply (probe : Wire.Probe) : Work Snapshot := do
  match ← decode probe with
  | some event => applyEvent event
  | none =>
    let engine ← get
    return engine.snapshot

section Running

variable {work step : Work α} {engine : Engine}

theorem on_bind (next : α → Work β) : (work >>= next).on engine =
    match work.on engine with
    | (.ok answer, after) => (next answer).on after
    | (.error error, after) => (.error error, after) := by
  unfold on
  simp only [ExceptT.run_bind, StateT.run_bind]
  rcases work.run.run engine with ⟨error | answer, after⟩ <;> rfl

theorem on_tryCatch (handle : EngineError → Work α) : (tryCatch step handle).on engine =
    match step.on engine with
    | (.ok answer, after) => (.ok answer, after)
    | (.error error, after) => (handle error).on after := by
  simp only [on, tryCatch, tryCatchThe, MonadExceptOf.tryCatch, ExceptT.tryCatch, ExceptT.run,
    ExceptT.mk, StateT.run_bind]
  rcases StateT.run step engine with ⟨error | answer, after⟩ <;> rfl

theorem on_guarded : (guarded step).on engine =
    if engine.isCorrupted then (.error .corrupted, engine)
    else
      match step.on engine with
      | (.ok answer, after) => (.ok answer, after)
      | (.error error, after) => (.error error, after.marked) := by
  change (if engine.isCorrupted then _ else _ : Work α).on engine = _
  split
  · rfl
  · rw [on_tryCatch]
    rcases step.on engine with ⟨error | answer, after⟩ <;> rfl

theorem on_noteStep (event : Event) : (noteStep event).on engine =
    (.ok engine.snapshot,
      ⟨{ engine.run with counts := engine.run.counts.note event },
        engine.hub.publish? event.notice?⟩) := by
  unfold noteStep
  cases event.notice? <;> rfl

theorem on_decode_of_corrupted (corrupted : engine.isCorrupted = true) (probe : Wire.Probe) :
    (decode probe).on engine = (.error .corrupted, engine) := by
  change (if engine.isCorrupted then _ else _ : Work (Option Event)).on engine = _
  rw [if_pos corrupted]
  rfl

theorem on_decode (live : ¬ engine.isCorrupted = true) (probe : Wire.Probe) :
    (decode probe).on engine =
      match Meaning.ofProbe probe with
      | .ok (.event event) => (.ok (some event), engine)
      | .ok (.unrecognized _) => (.ok none, { engine with run := engine.run.skipping })
      | .error error => (.error (.validation error), engine.marked) := by
  change (if engine.isCorrupted then _ else _ : Work (Option Event)).on engine = _
  rw [if_neg live]
  rcases Meaning.ofProbe probe with error | event | family <;> rfl

theorem on_apply_of_corrupted (corrupted : engine.isCorrupted = true) (probe : Wire.Probe) :
    (apply probe).on engine = (.error .corrupted, engine) := by
  rw [apply, on_bind, on_decode_of_corrupted corrupted]

/-- Decoding an event changes nothing, so that the event finds the engine as it was. -/
theorem on_apply (live : ¬ engine.isCorrupted = true) (probe : Wire.Probe) :
    (apply probe).on engine =
      match Meaning.ofProbe probe with
      | .ok (.event event) => (applyEvent event).on engine
      | .ok (.unrecognized _) => (.ok engine.snapshot, { engine with run := engine.run.skipping })
      | .error error => (.error (.validation error), engine.marked) := by
  rw [apply, on_bind, on_decode live]
  rcases Meaning.ofProbe probe with error | event | family <;> rfl

end Running

section Failures

variable {work step : Work α}

/-- Work that only looks at the engine. -/
def Reads (work : Work α) : Prop := ∀ engine, (work.on engine).2 = engine

/-- Work that fails, if at all, before it has done anything. -/
def FailsFirst (work : Work α) : Prop :=
  ∀ engine error, (work.on engine).1 = .error error → (work.on engine).2 = engine

/-- Work that does no more, when it fails, than to set the mark. -/
def LeavesMark (work : Work α) : Prop :=
  ∀ engine error, (work.on engine).1 = .error error → (work.on engine).2 = engine.marked

theorem Reads.bind {next : α → Work β} (reads : Reads work)
    (rest : ∀ answer, FailsFirst (next answer)) : FailsFirst (work >>= next) := by
  intro engine error fails
  have same := reads engine
  rw [on_bind] at fails ⊢
  rcases ran : work.on engine with ⟨failure | answer, after⟩
  · simpa [ran] using same
  · obtain rfl : after = engine := by simpa [ran] using same
    rw [ran] at fails
    exact rest answer _ error fails

theorem LeavesMark.of_eq (marks : LeavesMark work) {engine : Engine} {error : EngineError}
    {ran : Except EngineError α × Engine} (same : work.on engine = ran)
    (fails : ran.1 = .error error) : ran.2 = engine.marked := by
  subst same
  exact marks engine error fails

theorem reads_get : Reads (get : Work Engine) := fun _ => rfl

theorem reads_throw (error : EngineError) : Reads (throw error : Work α) := fun _ => rfl

theorem reads_require (cause : ε → EngineError) (found : Except ε α) :
    Reads (require cause found) := by
  intro engine
  cases found <;> rfl

theorem failsFirst_publishCommit (model : Model) (changes : Changes) :
    FailsFirst (publishCommit model changes) := by
  intro engine error fails
  cases fails

theorem failsFirst_seedStep (width : Option UInt64) : FailsFirst (seedStep width) := by
  refine (reads_require _ _).bind fun width => reads_get.bind fun engine => ?_
  split
  · exact failsFirst_publishCommit _ _
  · exact fun engine _ _ => reads_throw _ engine

theorem failsFirst_decisionStep (decision : Decision) : FailsFirst (decisionStep decision) :=
  reads_get.bind fun _ => (reads_require _ _).bind fun _ => failsFirst_publishCommit _ _

theorem failsFirst_noteStep (event : Event) : FailsFirst (noteStep event) := by
  intro engine error fails
  rw [on_noteStep] at fails
  cases fails

/-- The mark is all that a guarded step leaves that fails first. -/
theorem leavesMark_guarded (first : FailsFirst step) : LeavesMark (guarded step) := by
  intro engine error fails
  rw [on_guarded] at fails ⊢
  by_cases corrupted : engine.isCorrupted = true
  · rw [if_pos corrupted, marked_of_isCorrupted corrupted]
  · rw [if_neg corrupted] at fails ⊢
    rcases ran : step.on engine with ⟨failure | answer, after⟩
    · have same := first engine failure (by rw [ran])
      rw [ran] at same
      exact congrArg marked same
    · rw [ran] at fails
      cases fails

theorem leavesMark_seed (width : Option UInt64) : LeavesMark (seed width) :=
  leavesMark_guarded (failsFirst_seedStep width)

theorem leavesMark_applyEvent (event : Event) : LeavesMark (applyEvent event) := by
  refine leavesMark_guarded ?_
  split
  · exact failsFirst_decisionStep _
  · exact failsFirst_noteStep event

theorem leavesMark_decode (probe : Wire.Probe) : LeavesMark (decode probe) := by
  intro engine error fails
  by_cases corrupted : engine.isCorrupted = true
  · rw [on_decode_of_corrupted corrupted, marked_of_isCorrupted corrupted]
  · rw [on_decode corrupted] at fails ⊢
    cases means : Meaning.ofProbe probe with
    | error failure => rfl
    | ok meaning => cases meaning <;> simp [means] at fails

theorem leavesMark_apply (probe : Wire.Probe) : LeavesMark (apply probe) := by
  intro engine error fails
  by_cases corrupted : engine.isCorrupted = true
  · rw [on_apply_of_corrupted corrupted, marked_of_isCorrupted corrupted]
  · rw [on_apply corrupted] at fails ⊢
    cases means : Meaning.ofProbe probe with
    | error failure => rfl
    | ok meaning =>
      rw [means] at fails
      cases meaning with
      | event event => exact leavesMark_applyEvent event engine error fails
      | unrecognized family => cases fails

end Failures

section Equalities

/-- What an attempt makes of an engine as long as no mark is set. -/
def outcome (engine : Engine) :
    Except EngineError (α × Reconstruction × Option Update) → Except EngineError α × Engine
  | .error error => (.error error, engine)
  | .ok (answer, run, update) => (.ok answer, ⟨run, engine.hub.publish? update⟩)

variable {step : Work α} {engine : Engine}

/-- A guarded step is an attempt, for what fails in a step has done nothing by then. -/
theorem guarded_eq_attempt {tried : Except EngineError (α × Reconstruction × Option Update)}
    (does : step.on engine = outcome engine tried) :
    (guarded step).on engine = engine.publishing (engine.run.attempt tried) := by
  rw [on_guarded, isCorrupted, does]
  rcases engine.run.corrupted.eq_false_or_eq_true with corrupted | live
  · rw [Reconstruction.attempt_of_corrupted corrupted, if_pos corrupted]
    rfl
  · rw [if_neg (by simp [live])]
    rcases tried with error | ⟨answer, run, update⟩
    · rw [Reconstruction.attempt_error live]
      rfl
    · rw [Reconstruction.attempt_ok live]
      rfl

theorem seed_eq (engine : Engine) (width : Option UInt64) :
    (seed width).on engine = engine.seed width := by
  refine guarded_eq_attempt ?_
  unfold seedStep
  cases Reconstruction.usableWidth width with
  | error error => rfl
  | ok count =>
    change (if engine.model.isEmpty then _ else _ : Work Snapshot).on engine =
      outcome engine (if engine.model.isEmpty then _ else _)
    by_cases unpopulated : engine.model.isEmpty = true
    · rw [if_pos unpopulated, if_pos unpopulated]
      rfl
    · rw [if_neg unpopulated, if_neg unpopulated]
      rfl

theorem applyEvent_eq (engine : Engine) (event : Event) :
    (applyEvent event).on engine = engine.applyEvent event := by
  refine guarded_eq_attempt ?_
  cases event.decision? with
  | none => exact on_noteStep event
  | some decision =>
    unfold decisionStep
    simp only [Reconstruction.commitDecision]
    change (require _ (engine.model.commit decision) >>= _ : Work Snapshot).on engine = _
    simp only [model, snapshot]
    rcases engine.run.snapshot.model.commit decision with violation | ⟨model, changes⟩ <;> rfl

theorem decode_eq (engine : Engine) (probe : Wire.Probe) :
    (decode probe).on engine = engine.decode probe := by
  rw [Engine.decode, Reconstruction.decode]
  rcases engine.run.corrupted.eq_false_or_eq_true with corrupted | live
  · rw [Reconstruction.attempt_of_corrupted corrupted, on_decode_of_corrupted corrupted]
    rfl
  · rw [on_decode (by simp [isCorrupted, live])]
    rcases Meaning.ofProbe probe with error | event | family
    · rw [Reconstruction.attempt_error live]
      rfl
    · rw [Reconstruction.attempt_ok live]
      rfl
    · rw [Reconstruction.attempt_ok live]
      rfl

theorem apply_eq (engine : Engine) (probe : Wire.Probe) :
    (apply probe).on engine = engine.apply probe := by
  rw [Engine.apply]
  rcases engine.run.corrupted.eq_false_or_eq_true with corrupted | live
  · rw [Reconstruction.apply_of_corrupted corrupted, on_apply_of_corrupted corrupted]
    rfl
  · rw [Reconstruction.apply_eq live, on_apply (by simp [isCorrupted, live])]
    rcases Meaning.ofProbe probe with error | event | family
    · rfl
    · exact applyEvent_eq engine event
    · rfl

end Equalities

end Work

end SchedReplay.Engine
