import SchedReplay.Proofs.Conservation

/-! The events that a run has committed. A call leaves the model alone, seeds it, or commits one
event to it, so a law of the model in terms of these events is an induction on them. -/
namespace SchedReplay

namespace Engine

def committedEvent? (record : Record) : Option Event :=
  if record.2.error?.isNone then record.1.event?.filter (·.isStructural) else none

def committedEvents (records : List Record) : List Event :=
  (currentRun records).filterMap committedEvent?

theorem committedEvents_append {start : Engine} {calls more : List Call}
    (stays : Call.reset ∉ more) : committedEvents (start.transcript (calls ++ more)) =
      committedEvents (start.transcript calls) ++
        committedEvents ((start.performAll calls).transcript more) := by
  have within : Call.reset ∉ ((start.performAll calls).transcript more).map Prod.fst := by
    rwa [map_fst_transcript]
  have whole : currentRun ((start.performAll calls).transcript more) =
      (start.performAll calls).transcript more := by
    simpa using @currentRun_append [] _ within
  simp only [committedEvents, transcript_append, currentRun_append within, List.filterMap_append,
    whole]

theorem committedEvent?_of_error {call : Call} {reply : Reply} {error : EngineError}
    (reports : reply.error? = some error) : committedEvent? (call, reply) = none := by
  simp [committedEvent?, reports]

theorem committedEvent?_of_event?_eq_none {call : Call} {reply : Reply}
    (nothing : call.event? = none) : committedEvent? (call, reply) = none := by
  simp [committedEvent?, nothing]

theorem Call.event?_of_listening {call : Call} (listens : call.isAttempt = false) :
    call.event? = none := by
  cases call <;> first | rfl | simp [isAttempt] at listens

end Engine

theorem Event.isStructural_iff {event : Event} :
    event.isStructural = true ↔ event.decision? ≠ none := by
  cases event <;> simp [isStructural, decision?]

namespace Model

/-- All that a call within a run can do to the model, and the event that it commits thereby. -/
inductive Advance (model : Model) : Option Event → Model → Prop where
  | kept : Advance model none model
  | seeded {width : Nat} (positive : 0 < width) (small : width < UInt32.size)
      (unpopulated : model = .empty) : Advance model none (.seeded width)
  | committed {event : Event} {decision : Decision} {next : Model} {changes : Changes}
      (decides : event.decision? = some decision)
      (fits : model.commit decision = .ok (next, changes)) : Advance model (some event) next

/-- A model without contexts is the empty one, and nothing was committed to it. -/
def Grounded (events : List Event) (model : Model) : Prop :=
  (events = [] ∧ model = .empty) ∨ contextIds model.threads ≠ []

namespace Advance

variable {model next : Model} {committed : Option Event} {events : List Event}

theorem consistent (advance : model.Advance committed next) (before : model.Consistent) :
    next.Consistent := by
  cases advance with
  | kept => exact before
  | seeded _ small _ => exact consistent_seeded (Nat.le_of_lt small)
  | committed _ fits => exact (commit_eq_ok_iff.mp fits).2.1

theorem grounded (advance : model.Advance committed next) (before : Grounded events model) :
    Grounded (events ++ committed.toList) next := by
  cases advance with
  | kept => simpa using before
  | seeded positive _ _ =>
    right
    exact Engine.contextIds_ne_nil positive (.of_eq (contextIds_seeded _))
  | committed decides fits =>
    right
    rcases before with ⟨_, rfl⟩ | bound
    · exact absurd fits (commit_empty_ne_ok decides)
    · intro nothing
      have permuted := stageAll_contextIds_perm (commit_eq_ok_iff.mp fits).1
      rw [nothing] at permuted
      exact bound permuted.nil_eq.symm

/-- What holds of every seed and what each commit keeps, a call keeps. -/
theorem law {Inv : List Event → Model → Prop} (advance : model.Advance committed next)
    (seeded : ∀ width, 0 < width → width < UInt32.size → Inv [] (.seeded width))
    (commit : ∀ event decision changes, event.decision? = some decision →
      model.commit decision = .ok (next, changes) → Inv (events ++ [event]) next)
    (grounded : Grounded events model) (before : Inv events model) :
    Inv (events ++ committed.toList) next := by
  cases advance with
  | kept => simpa using before
  | seeded positive small unpopulated =>
    -- Nothing was committed to a model that is seeded, for it has no contexts.
    obtain rfl : events = [] := by
      rcases grounded with ⟨nothing, _⟩ | bound
      · exact nothing
      · exact absurd (by rw [unpopulated]; rfl) bound
    exact seeded _ positive small
  | committed decides fits => exact commit _ _ _ decides fits

end Advance

end Model

namespace Reconstruction.Transition

open Engine (Call Reply)

variable {state next : Reconstruction} {call : Call} {reply : Reply} {update : Option Update}

theorem advance (ends : state.Transition call reply next update) (stays : call ≠ .reset) :
    state.snapshot.model.Advance (Engine.committedEvent? (call, reply)) next.snapshot.model := by
  cases ends with
  | refused _ _ reports =>
    rw [Engine.committedEvent?_of_error reports]
    exact .kept
  | failed _ _ reports =>
    rw [Engine.committedEvent?_of_error reports]
    exact .kept
  | seeded _ positive small unpopulated => exact .seeded positive small unpopulated
  | @committed _ event _ _ _ live applies decides fits =>
    have structural : event.isStructural = true := by
      rw [Event.isStructural_iff, decides]
      simp
    rw [Engine.committedEvent?, applies, Option.filter_some_pos structural]
    exact .committed decides fits
  | @noted _ event live applies notes =>
    have idle : event.isStructural = false :=
      Bool.eq_false_iff.mpr fun structural => Event.isStructural_iff.mp structural notes
    rw [Engine.committedEvent?, applies, Option.filter_some_neg (by simp [idle])]
    exact .kept
  | skipped _ means =>
    rw [Engine.committedEvent?_of_event?_eq_none (by simp [Call.event?, means])]
    exact .kept
  | unknown => exact .kept
  | decoded => exact .kept
  | restarted => exact absurd rfl stays
  | listened listens =>
    rw [Engine.committedEvent?_of_event?_eq_none (Call.event?_of_listening listens)]
    exact .kept

end Reconstruction.Transition

namespace Engine

/-- A law of models in terms of the events committed to them: it holds of the empty model and of
every seed, and each commit to a consistent model keeps it. -/
theorem commit_induction (Inv : List Event → Model → Prop) (empty : Inv [] .empty)
    (seeded : ∀ width, 0 < width → width < UInt32.size → Inv [] (.seeded width))
    (commit : ∀ events model event decision next changes, Model.Consistent model →
      Inv events model → Event.decision? event = some decision →
      model.commit decision = .ok (next, changes) → Inv (events ++ [event]) next)
    (calls : List Call) :
    Inv (committedEvents (new.transcript calls)) (new.performAll calls).model := by
  suffices (new.performAll calls).model.Consistent ∧
      Model.Grounded (committedEvents (new.transcript calls)) (new.performAll calls).model ∧
        Inv (committedEvents (new.transcript calls)) (new.performAll calls).model from this.2.2
  refine history_induction (fun records engine => engine.model.Consistent ∧
    Model.Grounded (records.filterMap committedEvent?) engine.model ∧
      Inv (records.filterMap committedEvent?) engine.model) ?_ ?_ ?_ calls
  · exact ⟨Model.consistent_empty, .inl ⟨rfl, rfl⟩, empty⟩
  · intro engine records _
    exact ⟨Model.consistent_empty, .inl ⟨rfl, rfl⟩, empty⟩
  · rintro engine records call stays ⟨consistent, grounded, law⟩
    have advance := (engine.perform_transition call).advance stays
    have joined : (records ++ [(call, (engine.perform call).1)]).filterMap committedEvent? =
        records.filterMap committedEvent? ++
          (committedEvent? (call, (engine.perform call).1)).toList := by
      rw [List.filterMap_append]
      cases event : committedEvent? (call, (engine.perform call).1) <;> simp [event]
    rw [joined]
    refine ⟨advance.consistent consistent, advance.grounded grounded,
      advance.law seeded ?_ grounded law⟩
    intro event decision changes decides fits
    exact commit _ _ _ _ _ _ consistent law decides fits

theorem consistent_performAll (calls : List Call) : (new.performAll calls).model.Consistent := by
  apply commit_induction (fun _ model => model.Consistent) Model.consistent_empty
  · intro width _ small
    exact Model.consistent_seeded (Nat.le_of_lt small)
  · intro events model event decision next changes _ _ _ fits
    exact (Model.commit_eq_ok_iff.mp fits).2.1

end Engine

end SchedReplay
