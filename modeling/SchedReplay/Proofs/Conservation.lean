import SchedReplay.Proofs.Applicability
import SchedReplay.Proofs.History
import SchedReplay.Proofs.Population

/-! Contexts are conserved. A run begins without any, one seed brings them all, and from then on
events hand them around until the next run. -/
namespace SchedReplay

def Event.isStructural : Event → Bool
  | schedule _ | execute _ | queueStatus _ | park _ | ready _ => true
  | newContext _ | progress _ => false

theorem Event.decision?_eq_some_of_isStructural {event : Event}
    (structural : event.isStructural = true) : ∃ decision, event.decision? = some decision := by
  cases event <;> simp [decision?] <;> simp [isStructural] at structural

/-- Every decision begins with a change to the threads. -/
theorem Event.decision_eq_cons {event : Event} {decision : Decision}
    (decides : event.decision? = some decision) :
    ∃ delta rest, decision = delta :: rest ∧ delta.isParking = false := by
  cases event <;> cases decides <;> exact ⟨_, _, rfl, rfl⟩

namespace Model

variable {model next : Model}

/-- Without threads there is nothing that a change to the threads could change. -/
theorem not_staged_empty {delta : Delta} (threads : delta.isParking = false) :
    ¬ empty.Staged delta next := by
  intro staged
  cases staged with
  | scheduling _ _ known => cases known
  | executing _ _ known => cases known
  | bind _ _ _ found => cases found
  | taken _ _ known => cases known
  | left _ known => cases known
  | parkedAdded => cases threads
  | parkedRemoved => cases threads

/-- No event is committed to a run without population. -/
theorem commit_empty_ne_ok {event : Event} {decision : Decision} {changes : Changes}
    (decides : event.decision? = some decision) : empty.commit decision ≠ .ok (next, changes) := by
  intro committed
  obtain ⟨delta, rest, rfl, threads⟩ := event.decision_eq_cons decides
  obtain ⟨_, first, _⟩ := stageAll_cons_eq_ok_iff.mp (commit_eq_ok_iff.mp committed).1
  exact not_staged_empty threads first

end Model

namespace Engine

def Call.width? : Call → Option Nat
  | .seed (some raw) => some raw.toNat
  | _ => none

def seededWidth? (record : Record) : Option Nat :=
  if record.2.error?.isNone then record.1.width? else none

/-- The widths of all seeds that succeeded in the current run. -/
def seededWidths (records : List Record) : List Nat :=
  (currentRun records).filterMap seededWidth?

theorem Call.width?_of_event? {call : Call} {event : Event} (applies : call.event? = some event) :
    call.width? = none := by
  cases call <;> first | rfl | simp [event?] at applies

theorem Call.width?_of_listening {call : Call} (listens : call.isAttempt = false) :
    call.width? = none := by
  cases call <;> first | rfl | simp [isAttempt] at listens

/-- Without a seed there is no population, and with one seed there is its own. -/
def WidthsMatch (widths : List Nat) (model : Model) : Prop :=
  (widths = [] ∧ model = .empty) ∨
    ∃ width, widths = [width] ∧ 0 < width ∧ width < UInt32.size ∧
      (contextIds model.threads).Perm (contextsBelow width)

theorem contextIds_ne_nil {width : Nat} {model : Model} (positive : 0 < width)
    (bound : (contextIds model.threads).Perm (contextsBelow width)) :
    contextIds model.threads ≠ [] := by
  intro nothing
  have count := bound.length_eq
  simp [nothing, contextsBelow] at count
  omega

theorem WidthsMatch.empty_iff {widths : List Nat} {model : Model}
    (matched : WidthsMatch widths model) : model = .empty ↔ widths = [] := by
  rcases matched with ⟨unseeded, unpopulated⟩ | ⟨width, seeded, positive, _, bound⟩
  · simp [unseeded, unpopulated]
  · have populated := contextIds_ne_nil positive bound
    constructor
    · intro nothing
      exact absurd (by rw [nothing]; rfl) populated
    · intro unseeded
      simp [unseeded] at seeded

end Engine

namespace Reconstruction.Transition

open Engine (Call Reply WidthsMatch)

variable {state next : Reconstruction} {call : Call} {reply : Reply} {update : Option Update}

/-- A successful seed adds its width and finds no population; nothing else adds a width, and all
else permutes contexts. -/
theorem widthsMatch (ends : state.Transition call reply next update) (stays : call ≠ .reset)
    {widths : List Nat} (matched : WidthsMatch widths state.snapshot.model) :
    WidthsMatch (widths ++ (Engine.seededWidth? (call, reply)).toList) next.snapshot.model := by
  simp only [Engine.seededWidth?]
  cases ends with
  | refused _ _ reports => simpa [reports] using matched
  | failed _ _ reports => simpa [reports] using matched
  | seeded live positive small unpopulated =>
    rcases matched with ⟨rfl, _⟩ | ⟨width, _, before, _, bound⟩
    · exact .inr ⟨_, rfl, positive, small, by rw [committing, Model.contextIds_seeded]⟩
    · exact absurd (by rw [unpopulated]; rfl) (Engine.contextIds_ne_nil before bound)
  | committed live applies decides fits =>
    rw [Call.width?_of_event? applies]
    rcases matched with ⟨_, unpopulated⟩ | ⟨width, rfl, positive, small, bound⟩
    · rw [unpopulated] at fits
      exact absurd fits (Model.commit_empty_ne_ok decides)
    · have permuted := Model.stageAll_contextIds_perm (Model.commit_eq_ok_iff.mp fits).1
      exact .inr ⟨width, by simp, positive, small, permuted.trans bound⟩
  | noted _ applies => simpa [Call.width?_of_event? applies] using matched
  | skipped => simpa [Call.width?, skipping] using matched
  | unknown => simpa [Call.width?, skipping] using matched
  | decoded => simpa [Call.width?] using matched
  | restarted => exact absurd rfl stays
  | listened listens => simpa [Call.width?_of_listening listens] using matched

theorem contextIds_ne_nil (ends : state.Transition call reply next update) (stays : call ≠ .reset)
    (bound : contextIds state.snapshot.model.threads ≠ []) :
    contextIds next.snapshot.model.threads ≠ [] := by
  cases ends with
  | seeded _ _ _ unpopulated => simp [unpopulated, Model.empty] at bound
  | @committed _ _ _ model _ _ _ _ fits =>
    have permuted := Model.stageAll_contextIds_perm (Model.commit_eq_ok_iff.mp fits).1
    intro nothing
    have gone : contextIds model.threads = [] := nothing
    rw [gone] at permuted
    exact bound permuted.nil_eq.symm
  | restarted => exact absurd rfl stays
  | _ => exact bound

/-- A structural event finds no model to change before the seed. -/
theorem isSome_error_of_unpopulated (ends : state.Transition call reply next update)
    (unpopulated : state.snapshot.model = .empty) {event : Event}
    (applies : call.event? = some event) (structural : event.isStructural = true) : reply.error?.isSome = true := by
  obtain ⟨decision, decides⟩ := event.decision?_eq_some_of_isStructural structural
  cases ends with
  | refused _ _ reports => simp [reports]
  | failed _ _ reports => simp [reports]
  | committed _ same known fits =>
    rw [unpopulated] at fits
    exact absurd fits (Model.commit_empty_ne_ok known)
  | noted _ same notes =>
    cases applies.symm.trans same
    simp [decides] at notes
  | skipped _ means => simp [Call.event?, means] at applies
  | listened listens =>
    cases call <;> simp_all [Call.event?, Call.isAttempt]
  | _ => simp [Call.event?] at applies

end Reconstruction.Transition

namespace Engine

theorem widthsMatch_performAll (calls : List Call) :
    WidthsMatch (seededWidths (Engine.new.transcript calls))
      (Engine.new.performAll calls).model := by
  refine history_induction
    (fun records engine => WidthsMatch (records.filterMap seededWidth?) engine.model) ?_ ?_ ?_ calls
  · exact .inl ⟨rfl, rfl⟩
  · intro engine records _
    exact .inl ⟨rfl, rfl⟩
  · intro engine records call stays matched
    rw [List.filterMap_append]
    have after := (engine.perform_transition call).widthsMatch stays matched
    cases width : seededWidth? (call, (engine.perform call).1) <;>
      simpa [width, Engine.model, Engine.snapshot] using after

theorem contextIds_performAll_ne_nil {engine : Engine} {calls : List Call}
    (stays : Call.reset ∉ calls) (bound : contextIds engine.model.threads ≠ []) :
    contextIds (engine.performAll calls).model.threads ≠ [] := by
  refine performAll_induction calls (contextIds ·.model.threads ≠ []) engine bound ?_
  intro before call member still
  have keeps : call ≠ .reset := fun is => stays (is ▸ member)
  exact (before.perform_transition call).contextIds_ne_nil keeps still

/-- On a live engine a usable width fails just when it meets a population. -/
theorem error?_seed {engine : Engine} {raw : UInt64} (live : engine.isCorrupted = false)
    (positive : 0 < raw.toNat) (small : raw.toNat < UInt32.size) :
    (engine.perform (.seed (some raw))).1.error? =
      if engine.model = .empty then none else some (.invariant .alreadySeeded) := by
  have usable : Reconstruction.usableWidth (some raw) = .ok raw.toNat :=
    Reconstruction.usableWidth_eq_ok_iff.mpr ⟨raw, rfl, positive, small, rfl⟩
  have seeds : (engine.perform (.seed (some raw))).1 =
      .snapshot (engine.run.seed (some raw)).answer := rfl
  rw [seeds, Reconstruction.seed, usable]
  by_cases unpopulated : engine.model = .empty
  · have isEmpty : engine.run.snapshot.model.isEmpty = true := Model.isEmpty_iff.mpr unpopulated
    simp only [isEmpty, ↓reduceIte, Reconstruction.committed]
    rw [Reconstruction.attempt_ok live, if_pos unpopulated]
    rfl
  · have occupied : engine.run.snapshot.model.isEmpty = false :=
      Bool.eq_false_iff.mpr fun isEmpty => unpopulated (Model.isEmpty_iff.mp isEmpty)
    simp only [occupied, Bool.false_eq_true, ↓reduceIte]
    rw [Reconstruction.attempt_error live, if_neg unpopulated]
    rfl

/-- In every state that calls lead to, the contexts below the width of the run's only seed are
bound, each in one entry. Before that seed no event changes the model; after it only a reset
empties the model, and every other seed fails. -/
theorem contexts_are_conserved (calls : List Call) :
    let engine := Engine.new.performAll calls
    let widths := seededWidths (Engine.new.transcript calls)
    ((widths = [] ∧ engine.model = .empty) ∨
        ∃ width, widths = [width] ∧ 0 < width ∧ width < UInt32.size ∧
          engine.model.Populated width) ∧
      (widths = [] → ∀ call event, call.event? = some event → event.isStructural = true →
        (engine.perform call).1.error?.isSome = true) ∧
      (engine.model ≠ .empty → ∀ more, Call.reset ∉ more →
        (engine.performAll more).model ≠ .empty) ∧
      (engine.isCorrupted = false → ∀ raw : UInt64, 0 < raw.toNat → raw.toNat < UInt32.size →
        (engine.perform (.seed (some raw))).1.error? =
          if widths = [] then none else some (.invariant .alreadySeeded)) := by
  intro engine widths
  have matched : WidthsMatch widths engine.model := widthsMatch_performAll calls
  refine ⟨?populated, ?unseeded, ?lasting, ?again⟩
  case populated =>
    refine matched.imp_right ?_
    rintro ⟨width, only, positive, small, bound⟩
    exact ⟨width, only, positive, small, Model.populated_of_perm (Nat.le_of_lt small) bound⟩
  case unseeded =>
    intro unseeded call event applies structural
    exact (engine.perform_transition call).isSome_error_of_unpopulated
      (matched.empty_iff.mpr unseeded) applies structural
  case lasting =>
    intro populated more stays nothing
    obtain ⟨width, _, positive, _, bound⟩ := matched.resolve_left (populated ·.2)
    have still := contextIds_performAll_ne_nil stays (contextIds_ne_nil positive bound)
    exact still (by rw [nothing]; rfl)
  case again =>
    intro live raw positive small
    simpa only [matched.empty_iff] using error?_seed live positive small

theorem contexts_are_conserved_after_theft :
    let calls : List Call := [.seed (some 3), .applyEvent (.schedule ⟨⟨7⟩, ⟨0⟩, .mstart⟩)]
    let engine := Engine.new.performAll calls
    engine.isCorrupted = false ∧ engine.model ≠ Model.seeded 3 ∧ engine.model.Populated 3 ∧
      (engine.perform (.seed (some 5))).1.error? = some (.invariant .alreadySeeded) := by
  intro calls engine
  have seeded : seededWidths (Engine.new.transcript calls) = [3] := rfl
  obtain ⟨populated, _, _, again⟩ := contexts_are_conserved calls
  rw [seeded] at populated again
  obtain ⟨width, only, _, _, all⟩ := populated.resolve_left (by simp)
  cases only
  exact ⟨rfl, by decide, all, again rfl 5 (by decide) (by decide)⟩

end Engine

end SchedReplay
