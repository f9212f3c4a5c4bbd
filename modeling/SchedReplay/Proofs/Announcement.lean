import SchedReplay.Proofs.Commitments
import SchedReplay.Proofs.Mailboxes

/-! What a call announces to the subscribers, and what it makes of the queue of one of them. -/
namespace SchedReplay

namespace Engine

/-- The update that a call stands for, as its reply tells: a commit announces the snapshot that it
answers with, progress is passed on, a new run is announced, and nothing else is heard of. -/
def notice? : Record → Option Update
  | (.reset, _) => some .reset
  | (.seed _, .snapshot (.ok snapshot)) => some (.committed snapshot)
  | (call, .snapshot (.ok snapshot)) =>
    match call.event? with
    | some (.progress event) => some (.progress event)
    | some (.newContext _) | none => none
    | some _ => some (.committed snapshot)
  | _ => none

/-- The updates that a history announces, in order. -/
def published (records : List Record) : List Update := records.filterMap notice?

theorem notice?_of_error {call : Call} {reply : Reply} {error : EngineError}
    (attempt : call.isAttempt = true) (reports : reply.error? = some error) :
    notice? (call, reply) = none := by
  cases reply with
  | snapshot answer =>
    cases answer with
    | error => cases call <;> first | rfl | simp [Call.isAttempt] at attempt
    | ok => simp [Reply.error?] at reports
  | _ => cases call <;> first | rfl | simp [Call.isAttempt] at attempt

theorem notice?_of_event? {call : Call} {event : Event} (applies : call.event? = some event)
    (snapshot : Snapshot) : notice? (call, .snapshot (.ok snapshot)) =
      if event.isStructural then some (.committed snapshot) else event.notice? := by
  cases call with
  | apply | applyEvent =>
    simp only [notice?, applies]
    cases event <;> rfl
  | _ => cases applies

/-- Nothing is heard of a call that brings no event, or one that is neither a decision nor passed
on, unless it is a seed or a reset. -/
theorem notice?_of_silent {call : Call} (silent : ∀ event, call.event? = some event →
      event.isStructural = false ∧ event.notice? = none)
    (unseeded : ∀ width, call ≠ .seed width) (stays : call ≠ .reset) (reply : Reply) :
    notice? (call, reply) = none := by
  cases reply with
  | snapshot answer =>
    cases answer with
    | error => cases call <;> first | rfl | exact absurd rfl stays
    | ok snapshot =>
      cases brings : call.event? with
      | some event =>
        obtain ⟨idle, kept⟩ := silent event brings
        rw [notice?_of_event? brings, if_neg (by simp [idle]), kept]
      | none =>
        cases call with
        | seed width => exact absurd rfl (unseeded width)
        | reset => exact absurd rfl stays
        | _ => simp [notice?, brings]
  | _ => cases call <;> first | rfl | exact absurd rfl stays

theorem notice?_of_listening {call : Call} (listens : call.isAttempt = false)
    (stays : call ≠ .reset) (reply : Reply) : notice? (call, reply) = none := by
  refine notice?_of_silent ?_ ?_ stays reply
  · simp [Call.event?_of_listening listens]
  · rintro width rfl
    cases listens

/-- What a call publishes can be told from its reply. -/
theorem update?_eq_notice? (engine : Engine) (call : Call) :
    engine.update? call = notice? (call, (engine.perform call).1) := by
  have ends := engine.perform_transition call
  generalize (engine.perform call).1 = reply at ends ⊢
  generalize (engine.perform call).2.run = next at ends
  generalize engine.update? call = update at ends ⊢
  cases ends with
  | refused attempt _ reports => exact (notice?_of_error attempt reports).symm
  | failed attempt _ reports => exact (notice?_of_error attempt reports).symm
  | committed _ applies decides =>
    have structural := Event.isStructural_iff.mpr (by rw [decides]; simp)
    rw [notice?_of_event? applies, if_pos structural]
  | noted _ applies notes =>
    have idle := mt Event.isStructural_iff.mp (not_not.mpr notes)
    rw [notice?_of_event? applies, if_neg idle]
  | skipped _ means => simp [notice?, Call.event?, means]
  | listened listens keeps _ => exact (notice?_of_listening listens keeps reply).symm
  | seeded | unknown | decoded | restarted => rfl

/-- The update that a call to an engine announces. -/
def announces (engine : Engine) (call : Call) : Option Update :=
  notice? (call, (engine.perform call).1)

/-- The subscriber whose own call it is. -/
def Call.reader? : Call → Option Nat
  | .receive reader | .drain reader | .drop reader => some reader
  | .seed _ | .apply _ | .decode _ | .applyEvent _ | .reset | .subscribe _ => none

/-- What a call that announces an update makes of the queue of one subscriber. The number `issued`
goes to the next one who subscribes. -/
def queueAfter (subscriber issued : Nat) (update : Option Update) :
    Call → Option Mailbox → Option Mailbox
  | .subscribe capacity, mailbox =>
    if subscriber = issued then some ⟨issued, max capacity 1, [], true⟩ else mailbox
  | .receive reader, mailbox =>
    if subscriber = reader then
      mailbox.map fun mailbox => { mailbox with waiting := mailbox.waiting.tail }
    else mailbox
  | .drain reader, mailbox =>
    if subscriber = reader then mailbox.map fun mailbox => { mailbox with waiting := [] }
    else mailbox
  | .drop reader, mailbox => if subscriber = reader then none else mailbox
  | .seed _, mailbox | .apply _, mailbox | .decode _, mailbox | .applyEvent _, mailbox
  | .reset, mailbox => update.elim mailbox fun update => mailbox.map (Mailbox.deliver update)

theorem mailbox?_publish? (hub : Hub) (update : Option Update) (subscriber : Nat) :
    (hub.publish? update).mailbox? subscriber = update.elim (hub.mailbox? subscriber)
      fun update => (hub.mailbox? subscriber).map (Mailbox.deliver update) := by
  cases update with
  | none => rfl
  | some update => exact hub.mailbox?_publish update subscriber

theorem numbered_perform {engine : Engine} (numbered : engine.hub.Numbered) (call : Call) :
    (engine.perform call).2.hub.Numbered := by
  cases call with
  | reset =>
    have restarted : engine.hub.restart.Numbered := ⟨numbered.once, numbered.issued⟩
    exact restarted.publish .reset
  | subscribe capacity => exact numbered.subscribe capacity
  | receive reader => exact numbered.receive reader
  | drain reader => exact numbered.drain reader
  | drop reader => exact numbered.drop reader
  | seed | apply | decode | applyEvent =>
    rw [hub_of_isAttempt engine rfl]
    cases engine.update? _ with
    | none => exact numbered
    | some update => exact numbered.publish update

/-- The queue of a subscriber depends on nothing but its own calls and what is announced. -/
theorem mailbox?_perform {engine : Engine} (numbered : engine.hub.Numbered) (call : Call)
    (subscriber : Nat) : (engine.perform call).2.hub.mailbox? subscriber =
      queueAfter subscriber engine.hub.issued (engine.announces call) call
        (engine.hub.mailbox? subscriber) := by
  cases call with
  | reset => exact engine.hub.restart.mailbox?_publish .reset subscriber
  | subscribe capacity => exact Hub.mailbox?_subscribe numbered capacity subscriber
  | receive reader =>
    refine (engine.hub.mailbox?_receive reader subscriber).trans ?_
    by_cases same : subscriber = reader <;> simp [queueAfter, same]
  | drain reader =>
    refine (engine.hub.mailbox?_drain reader subscriber).trans ?_
    by_cases same : subscriber = reader <;> simp [queueAfter, same]
  | drop reader => exact engine.hub.mailbox?_drop reader subscriber
  | seed | apply | decode | applyEvent =>
    rw [hub_of_isAttempt engine rfl, update?_eq_notice?, mailbox?_publish?]
    rfl

end Engine

end SchedReplay
