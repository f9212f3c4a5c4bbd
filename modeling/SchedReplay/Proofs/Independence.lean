import SchedReplay.Proofs.History

/-! Who listens and what was run before make no difference to a run. What the driver of an engine
sees is told by the calls that drive it, from the state in which every run starts. -/
namespace SchedReplay

namespace Engine

/-- The calls that drive a run; all others are made by those who listen to it. -/
def Call.drives : Call → Bool
  | .seed _ | .apply _ | .decode _ | .applyEvent _ | .reset => true
  | .subscribe _ | .receive _ | .drain _ | .drop _ => false

/-- What an engine tells of its run; how many updates were dropped depends on who listens. -/
structure Reading where
  snapshot : Snapshot
  isCorrupted : Bool
  stats : Stats
  deriving DecidableEq

def reading (engine : Engine) : Reading :=
  ⟨engine.snapshot, engine.isCorrupted, { engine.stats with droppedUpdates := 0 }⟩

/-- The calls that drive a run, each with its reply and with what the engine tells after it. -/
def account (engine : Engine) : List Call → List (Call × Reply × Reading)
  | [] => []
  | call :: calls =>
    let next := (engine.perform call).2
    if call.drives then (call, (engine.perform call).1, next.reading) :: next.account calls
    else next.account calls

/-- The engines at the start of a run: new ones and those that were just reset, whatever happened
to them before. -/
inductive AtStart : Engine → Prop where
  | new : AtStart .new
  | reset {start : Engine} (started : Started start) (history : List Call) :
      AtStart (start.performAll history).reset

variable {left right : Engine} {call : Call}

theorem AtStart.run_eq {engine : Engine} (start : AtStart engine) : engine.run = .fresh := by
  cases start <;> rfl

theorem reading_of_run_eq (same : left.run = right.run) : left.reading = right.reading := by
  simp only [reading, snapshot, isCorrupted, stats, same]

theorem perform_of_run_eq (same : left.run = right.run) (drives : call.drives = true) :
    (left.perform call).1 = (right.perform call).1 ∧
      (left.perform call).2.run = (right.perform call).2.run := by
  cases call with
  | seed | apply | decode | applyEvent =>
    simp only [perform, seed, apply, decode, applyEvent, publishing, Prod.map, id, same, and_self]
  | reset => exact ⟨rfl, rfl⟩
  | subscribe | receive | drain | drop => cases drives

theorem run_perform_of_listening (engine : Engine) (listens : call.drives = false) :
    (engine.perform call).2.run = engine.run := by
  cases call with
  | seed | apply | decode | applyEvent | reset => cases listens
  | subscribe | receive | drain | drop => rfl

/-- The account of a history is the one of its driving calls alone, with anybody or nobody there. -/
theorem account_of_run_eq (same : left.run = right.run) (calls : List Call) :
    left.account calls = right.account (calls.filter Call.drives) ∧
      (left.performAll calls).run = (right.performAll (calls.filter Call.drives)).run := by
  induction calls generalizing left right with
  | nil => exact ⟨rfl, same⟩
  | cons call rest ih =>
    cases drives : call.drives with
    | true =>
      obtain ⟨reply, next⟩ := perform_of_run_eq same drives
      obtain ⟨later, last⟩ := ih next
      rw [List.filter_cons_of_pos drives, performAll_cons, performAll_cons]
      refine ⟨?_, last⟩
      simp only [account, drives, if_true, reply, later, reading_of_run_eq next]
    | false =>
      rw [List.filter_cons_of_neg (by simp [drives]), performAll_cons, account]
      simp only [drives, Bool.false_eq_true, if_false]
      exact ih ((left.run_perform_of_listening drives).trans same)

/-- Two engines at the start of a run that are driven by the same calls give the same replies and
tell the same after each of them, whoever listened, whoever listens and whatever happened in earlier
runs. -/
theorem listeners_and_past_runs_leave_no_trace (starts : AtStart left) (starts' : AtStart right)
    {calls others : List Call} (same : calls.filter Call.drives = others.filter Call.drives) :
    left.account calls = right.account others ∧
      (left.performAll calls).reading = (right.performAll others).reading := by
  have run : left.run = right.run := starts.run_eq.trans starts'.run_eq.symm
  obtain ⟨account, last⟩ := account_of_run_eq run calls
  obtain ⟨account', last'⟩ := account_of_run_eq (rfl : right.run = right.run) others
  rw [same] at account last
  exact ⟨account.trans account'.symm, reading_of_run_eq (last.trans last'.symm)⟩

/-- One engine is new and nobody listens; the other failed in its last run and has a subscriber that
never reads and one that comes and goes. Only the dropped updates tell them apart. -/
theorem listeners_and_past_runs_leave_no_trace_behind_failure :
    let failed := new.performAll [.subscribe 1, .seed (some 2), .seed (some 2)]
    let calls : List Call := [.seed (some 1), .applyEvent (.schedule ⟨⟨1⟩, ⟨0⟩, .mstart⟩)]
    let others : List Call := [.subscribe 3, .seed (some 1), .receive 1, .drop 1,
      .applyEvent (.schedule ⟨⟨1⟩, ⟨0⟩, .mstart⟩), .receive 1]
    failed.isCorrupted = true ∧ (failed.reset.performAll others).stats.droppedUpdates = 3 ∧
      (new.performAll calls).stats.droppedUpdates = 0 ∧
      new.account calls = failed.reset.account others ∧
      (new.performAll calls).reading = (failed.reset.performAll others).reading := by
  intro failed calls others
  have marked : failed.isCorrupted = true := by decide +kernel
  have dropped : (failed.reset.performAll others).stats.droppedUpdates = 3 := by decide +kernel
  have heard : (new.performAll calls).stats.droppedUpdates = 0 := by decide +kernel
  have same : calls.filter Call.drives = others.filter Call.drives := by decide +kernel
  exact ⟨marked, dropped, heard,
    listeners_and_past_runs_leave_no_trace .new (.reset .new _) same⟩

end Engine

end SchedReplay
