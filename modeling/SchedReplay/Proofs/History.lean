import Mathlib.Data.List.Induction
import SchedReplay.Proofs.Transition

/-! Histories of calls. A transcript keeps every call with the reply it got; what it holds after
the last reset tells of the run that is still going on. -/
namespace SchedReplay

namespace Engine

/-- The engines that histories start from. -/
inductive Started : Engine → Prop where
  | new : Started .new
  | ofModel {model : Model} {engine : Engine} (accepted : Engine.ofModel model = .ok engine) :
      Started engine

/-- Histories start from a consistent model, and with nobody listening. -/
theorem Started.exists_eq {start : Engine} (started : Started start) :
    ∃ model : Model, model.verify = .ok () ∧ start = ⟨.start model, .new⟩ := by
  cases started with
  | new => exact ⟨.empty, rfl, rfl⟩
  | @ofModel model _ accepted =>
    unfold Engine.ofModel at accepted
    cases checked : model.verify with
    | error violation => simp [checked, bind, Except.bind] at accepted
    | ok =>
      rw [checked] at accepted
      cases accepted
      exact ⟨model, checked, rfl⟩

abbrev Record := Call × Reply

def transcript (engine : Engine) : List Call → List Record
  | [] => []
  | call :: calls =>
    (call, (engine.perform call).1) :: (engine.perform call).2.transcript calls

/-- The part of a transcript after its last reset. -/
def currentRun (records : List Record) : List Record :=
  records.foldl (fun run record => if record.1 = .reset then [] else run ++ [record]) []

variable (engine : Engine) (call : Call) (calls : List Call)

@[simp] theorem performAll_nil : engine.performAll [] = engine := rfl

@[simp] theorem performAll_cons :
    engine.performAll (call :: calls) = (engine.perform call).2.performAll calls := rfl

@[simp] theorem performAll_append (more : List Call) :
    engine.performAll (calls ++ more) = (engine.performAll calls).performAll more :=
  List.foldl_append

theorem transcript_append (more : List Call) : engine.transcript (calls ++ more) =
    engine.transcript calls ++ (engine.performAll calls).transcript more := by
  induction calls generalizing engine with
  | nil => rfl
  | cons first rest ih => simp [transcript, ih]

/-- The last call of a history is made to the engine that the calls before it have left. -/
theorem transcript_concat : engine.transcript (calls ++ [call]) =
    engine.transcript calls ++ [(call, ((engine.performAll calls).perform call).1)] :=
  engine.transcript_append calls [call]

theorem map_fst_transcript : (engine.transcript calls).map Prod.fst = calls := by
  induction calls generalizing engine with
  | nil => rfl
  | cons first rest ih => simp [transcript, ih]

@[simp] theorem currentRun_nil : currentRun [] = [] := rfl

theorem currentRun_concat (records : List Record) (record : Record) :
    currentRun (records ++ [record]) =
      if record.1 = .reset then [] else currentRun records ++ [record] := by
  simp [currentRun]

theorem currentRun_append {records more : List Record} (stays : .reset ∉ more.map Prod.fst) :
    currentRun (records ++ more) = currentRun records ++ more := by
  induction more using List.reverseRecOn with
  | nil => simp
  | append_singleton more record ih =>
    simp only [List.map_append, List.mem_append, not_or] at stays
    rw [← List.append_assoc, currentRun_concat, ih stays.1, List.append_assoc, if_neg]
    exact fun is => stays.2 (by simp [is])

/-- An invariant of histories: it holds at the start, and each call keeps it together with the
reply that joins the current run. -/
theorem history_induction (Inv : List Record → Engine → Prop) {start : Engine}
    (initial : Inv [] start)
    (reset : ∀ engine records, Inv records engine → Inv [] engine.reset)
    (step : ∀ engine records call, call ≠ .reset → Inv records engine →
      Inv (records ++ [(call, (engine.perform call).1)]) (engine.perform call).2) :
    ∀ calls, Inv (currentRun (start.transcript calls)) (start.performAll calls) := by
  intro calls
  induction calls using List.reverseRecOn with
  | nil => exact initial
  | append_singleton calls call ih =>
    rw [transcript_concat, currentRun_concat, performAll_append]
    by_cases is : call = .reset
    · rw [if_pos is, is]
      exact reset _ _ ih
    · rw [if_neg is]
      exact step _ _ call is ih

/-- An invariant of states: what every call keeps holds after any calls. -/
theorem performAll_induction (Inv : Engine → Prop) (start : Engine) (initial : Inv start)
    (step : ∀ engine call, call ∈ calls → Inv engine → Inv (engine.perform call).2) :
    Inv (start.performAll calls) := by
  induction calls generalizing start with
  | nil => exact initial
  | cons first rest ih =>
    refine ih _ (step start first (.head _) initial) ?_
    intro engine call member
    exact step engine call (.tail _ member)

end Engine

end SchedReplay
