import Mathlib.Algebra.GroupWithZero.Nat
import SchedReplay.Proofs.Commitments
import SchedReplay.Proofs.Fronting

/-! The books of a session. Its own counters, those of its engine and the number of the current
snapshot all tell how many messages of which kind were accepted. -/
namespace SchedReplay

namespace Tally

/-- All events of the tally. -/
def total (tally : Tally) : Nat := (Event.Kind.all.map tally.count).sum

/-- The events of the kinds that decide something. -/
def decisions (tally : Tally) : Nat :=
  tally.schedule + tally.execute + tally.queueStatus + tally.park + tally.ready

theorem total_add (tally : Tally) (kind : Event.Kind) :
    (tally.add kind).total = tally.total + 1 := by
  cases kind <;> simp [total, Event.Kind.all, add, count] <;> omega

theorem decisions_add (tally : Tally) (event : Event) : (tally.add event.kind).decisions =
    tally.decisions + if event.isStructural then 1 else 0 := by
  cases event <;> simp [decisions, add, Event.kind, Event.isStructural] <;> omega

theorem count_add_of_isStructural (tally : Tally) {event : Event}
    (structural : event.isStructural = true) :
    (tally.add event.kind).count .newContext = tally.count .newContext ∧
      (tally.add event.kind).count .progress = tally.count .progress := by
  cases event <;> first | exact ⟨rfl, rfl⟩ | cases structural

end Tally

namespace Reconstruction

/-- The counters of a run agree with a tally of its events. Every model but the empty one has been
seeded, which takes one commit more than the events tell. -/
structure Balanced (tally : Tally) (state : Reconstruction) : Prop where
  newContexts : state.counts.newContexts = tally.count .newContext
  progress : state.counts.progress = tally.count .progress
  committed : state.counts.committed =
    tally.decisions + if state.snapshot.model.isEmpty then 0 else 1
  sequence : state.snapshot.sequence = state.counts.committed
  grounded : state.snapshot.model = .empty ∨ contextIds state.snapshot.model.threads ≠ []

theorem isEmpty_eq_false {model : Model} (bound : contextIds model.threads ≠ []) :
    model.isEmpty = false := by
  refine Bool.eq_false_iff.mpr fun unpopulated => ?_
  rw [Model.isEmpty_iff.mp unpopulated] at bound
  exact bound rfl

variable {tally : Tally} {state next : Reconstruction}

theorem Balanced.of_eq (balanced : state.Balanced tally) (counts : next.counts = state.counts)
    (snapshot : next.snapshot = state.snapshot) : next.Balanced tally := by
  obtain ⟨newContexts, progress, committed, sequence, grounded⟩ := balanced
  rw [← counts] at newContexts progress committed sequence
  rw [← snapshot] at committed sequence grounded
  exact ⟨newContexts, progress, committed, sequence, grounded⟩

namespace Transition

open Engine (Call Reply)

variable {call : Call} {reply : Reply} {update : Option Update}

/-- A call that is accepted goes into the books with the event that it applies. -/
theorem balanced (ends : state.Transition call reply next update) (stays : call ≠ .reset)
    (accepts : reply.error? = none) (balanced : state.Balanced tally) :
    next.Balanced (call.event?.elim tally (tally.add ·.kind)) := by
  have populated := ends.contextIds_ne_nil stays
  cases ends with
  | refused _ _ reports => simp [reports] at accepts
  | failed _ _ reports => simp [reports] at accepts
  | restarted => exact absurd rfl stays
  | seeded _ positive _ unpopulated =>
    have bound := Engine.contextIds_ne_nil positive (.of_eq (Model.contextIds_seeded _))
    refine ⟨balanced.newContexts, balanced.progress, ?_, ?_, .inr bound⟩
    · have before := balanced.committed
      rw [Model.isEmpty_iff.mpr unpopulated, if_pos rfl] at before
      simp [committing, isEmpty_eq_false bound, before, Call.event?]
    · simp [committing, balanced.sequence]
  | @committed _ event _ _ _ _ applies decides fits =>
    have structural := Event.isStructural_iff.mpr (by rw [decides]; simp)
    have bound : contextIds state.snapshot.model.threads ≠ [] := by
      refine balanced.grounded.resolve_left fun unpopulated => ?_
      rw [unpopulated] at fits
      exact Model.commit_empty_ne_ok decides fits
    have before := balanced.committed
    rw [isEmpty_eq_false bound] at before
    obtain ⟨newContexts, progress⟩ := tally.count_add_of_isStructural structural
    rw [applies]
    refine ⟨balanced.newContexts.trans newContexts.symm, balanced.progress.trans progress.symm,
      ?_, ?_, .inr (populated bound)⟩
    · have after := isEmpty_eq_false (populated bound)
      simp only [committing] at after ⊢
      simp [after, tally.decisions_add, structural, before]
    · simp [committing, balanced.sequence]
  | @noted _ event _ applies notes =>
    rw [applies]
    cases event with
    | newContext =>
      exact ⟨congrArg (· + 1) balanced.newContexts, balanced.progress, balanced.committed,
        balanced.sequence, balanced.grounded⟩
    | progress =>
      exact ⟨balanced.newContexts, congrArg (· + 1) balanced.progress, balanced.committed,
        balanced.sequence, balanced.grounded⟩
    | schedule | execute | queueStatus | park | ready => cases notes
  | skipped _ means =>
    simp only [Call.event?, means]
    exact ⟨balanced.newContexts, balanced.progress, balanced.committed, balanced.sequence,
      balanced.grounded⟩
  | unknown => exact ⟨balanced.newContexts, balanced.progress, balanced.committed,
      balanced.sequence, balanced.grounded⟩
  | decoded => exact balanced
  | listened listens =>
    rw [Call.event?_of_listening listens]
    exact balanced

/-- A probe that is accepted brings an event or something that is counted as unrecognized. -/
theorem unrecognized_of_apply {probe : Wire.Probe}
    (ends : state.Transition (.apply probe) reply next update) (accepts : reply.error? = none) :
    next.counts.unrecognized =
      state.counts.unrecognized + if (Call.apply probe).event?.isSome then 0 else 1 := by
  cases ends with
  | refused _ _ reports => simp [reports] at accepts
  | failed _ _ reports => simp [reports] at accepts
  | committed _ applies => simp [applies, committing]
  | @noted _ event _ applies =>
    rw [applies]
    cases event <;> rfl
  | skipped _ means => simp [Call.event?, means, skipping]
  | listened listens => cases listens

theorem unrecognized_of_seed {width : Option UInt64}
    (ends : state.Transition (.seed width) reply next update) :
    next.counts.unrecognized = state.counts.unrecognized := by
  cases ends with
  | committed _ applies => cases applies
  | noted _ applies => cases applies
  | _ => rfl

end Transition

end Reconstruction

namespace Session

open Wire (Message)

abbrev Record := Message × Except SessionError Flow

def transcript (session : Session) : List Message → List Record
  | [] => []
  | message :: messages =>
    (message, (session.process message).1) :: (session.process message).2.transcript messages

def isAcceptedEvent : Record → Bool
  | (.runEvent _, .ok _) => true
  | _ => false

/-- The event that an accepted message carried. -/
def acceptedEvent? : Record → Option Event
  | (.runEvent probe, .ok _) => (Engine.Call.apply probe).event?
  | _ => none

theorem processAll_append (session : Session) (messages more : List Message) :
    session.processAll (messages ++ more) = (session.processAll messages).processAll more :=
  List.foldl_append

theorem processAll_concat (session : Session) (messages : List Message) (message : Message) :
    session.processAll (messages ++ [message]) =
      ((session.processAll messages).process message).2 :=
  session.processAll_append messages [message]

theorem transcript_append (session : Session) (messages more : List Message) :
    session.transcript (messages ++ more) =
      session.transcript messages ++ (session.processAll messages).transcript more := by
  induction messages generalizing session with
  | nil => rfl
  | cons first rest ih =>
    rw [List.cons_append, transcript, ih]
    rfl

theorem transcript_concat (session : Session) (messages : List Message) (message : Message) :
    session.transcript (messages ++ [message]) = session.transcript messages ++
      [(message, ((session.processAll messages).process message).1)] :=
  session.transcript_append messages [message]

/-- The counters of a session agree with the messages that led to it and their answers. -/
structure Balanced (records : List Record) (session : Session) : Prop where
  messages : session.messages = records.length
  unknown : session.unrecognized = (records.map Prod.fst).count .unknown
  events : ∀ kind, session.events.count kind =
    (records.filterMap acceptedEvent?).countP (·.kind = kind)
  accepted : records.countP isAcceptedEvent =
    session.events.total + session.engine.stats.unrecognized
  engine : session.engine.run.Balanced session.events

theorem balanced_new : new.Balanced [] where
  messages := rfl
  unknown := rfl
  events kind := by cases kind <;> rfl
  accepted := rfl
  engine := ⟨rfl, rfl, rfl, rfl, .inl rfl⟩

variable {session next : Session} {message : Message} {answer : Except SessionError Flow}

theorem acceptedEvent?_of_not_isAcceptedEvent {record : Record}
    (idle : isAcceptedEvent record = false) : acceptedEvent? record = none := by
  obtain ⟨message, answer⟩ := record
  cases message with
  | runEvent =>
    cases answer with
    | error => rfl
    | ok => cases idle
  | _ => rfl

theorem count_unknown_concat (records : List Record) (message : Message)
    (answer : Except SessionError Flow) :
    ((records ++ [(message, answer)]).map Prod.fst).count .unknown =
      (records.map Prod.fst).count .unknown + if message = .unknown then 1 else 0 := by
  simp [List.count_singleton]

theorem isAcceptedEvent_error (message : Message) (error : SessionError) :
    isAcceptedEvent (message, .error error) = false := by
  cases message <;> rfl

theorem ne_unknown_of_call? {call : Engine.Call} (calls : message.call? = some call) :
    message ≠ .unknown := by
  rintro rfl
  cases calls

/-- A message that the engine does not hear of or does not accept. -/
theorem Balanced.idle {records : List Record} (balanced : session.Balanced records)
    (messages : next.messages = session.messages + 1)
    (unknown : next.unrecognized = session.unrecognized + if message = .unknown then 1 else 0)
    (events : next.events = session.events)
    (counts : next.engine.run.counts = session.engine.run.counts)
    (snapshot : next.engine.run.snapshot = session.engine.run.snapshot)
    (idle : isAcceptedEvent (message, answer) = false) :
    next.Balanced (records ++ [(message, answer)]) where
  messages := by simp [messages, balanced.messages]
  unknown := by rw [unknown, balanced.unknown, count_unknown_concat]
  events kind := by
    simp [events, balanced.events, acceptedEvent?_of_not_isAcceptedEvent idle]
  accepted := by simp [balanced.accepted, idle, events, Engine.stats, counts]
  engine := by
    rw [events]
    exact balanced.engine.of_eq counts snapshot

/-- An event that the engine accepted, or an unrecognized one, comes with every probe. -/
theorem acceptedEvent?_of_accepts {call : Engine.Call} (calls : message.call? = some call)
    (accepts : (session.engine.perform call).1.error? = none) :
    acceptedEvent? (message, .ok .proceed) = call.event? ∧
      (session.engine.perform call).2.stats.unrecognized + (if call.event?.isSome then 1 else 0) =
        session.engine.stats.unrecognized +
          if isAcceptedEvent (message, .ok .proceed) then 1 else 0 := by
  have ends := session.engine.perform_transition call
  cases message with
  | concurrencyWidth width =>
    obtain rfl := Option.some.inj calls
    exact ⟨rfl, ends.unrecognized_of_seed⟩
  | runEvent probe =>
    obtain rfl := Option.some.inj calls
    have counted := ends.unrecognized_of_apply accepts
    refine ⟨rfl, ?_⟩
    simp only [Engine.stats, isAcceptedEvent, counted]
    cases (Engine.Call.apply probe).event? <;> rfl
  | compilationError | runtimeResult | runtimeOutput | unknown => cases calls

theorem Balanced.accept {records : List Record} (balanced : session.Balanced records)
    {call : Engine.Call} (calls : message.call? = some call)
    (accepts : (session.engine.perform call).1.error? = none) :
    (session.counted.entered.accepting (session.engine.perform call).2 call.event?).Balanced
      (records ++ [(message, .ok .proceed)]) := by
  obtain ⟨event, unrecognized⟩ := acceptedEvent?_of_accepts calls accepts
  refine ⟨?_, ?_, ?_, ?_, ?_⟩
  · simp [accepting, entered, counted, balanced.messages]
  · rw [count_unknown_concat, if_neg (ne_unknown_of_call? calls)]
    exact balanced.unknown
  · intro kind
    simp only [accepting, entered, counted, List.filterMap_append, List.countP_append,
      ← balanced.events]
    cases applies : call.event? with
    | none => simp [event, applies]
    | some event' => simp [event, applies, Tally.count_add, eq_comm]
  · have total : (call.event?.elim session.events (session.events.add ·.kind)).total =
        session.events.total + if call.event?.isSome then 1 else 0 := by
      cases call.event? <;> simp [Tally.total_add]
    simp only [accepting, entered, counted, List.countP_append, balanced.accepted, total,
      List.countP_singleton]
    omega
  · have ends := session.engine.perform_transition call
    exact ends.balanced (Message.call?_ne_reset calls) accepts balanced.engine

theorem Transition.balanced {records : List Record} (ends : session.Transition message answer next)
    (balanced : session.Balanced records) : next.Balanced (records ++ [(message, answer)]) := by
  cases ends with
  | unknown | uncompiled | exited | printed | misplaced =>
    exact balanced.idle rfl rfl rfl rfl rfl rfl
  | accepted calls _ _ accepts => exact balanced.accept calls accepts
  | rejected calls _ _ reports =>
    have kept := (Engine.perform_of_error reports).1
    refine balanced.idle rfl ?_ rfl ?_ ?_ (isAcceptedEvent_error message _)
    · rw [if_neg (ne_unknown_of_call? calls)]
      rfl
    · simp [aborting, kept]
    · simp [aborting, kept]
  | corrupted calls =>
    rw [fail_eq]
    refine balanced.idle rfl ?_ rfl rfl rfl (isAcceptedEvent_error message _)
    rw [if_neg (ne_unknown_of_call? calls)]
    rfl
  | refused calls =>
    refine balanced.idle rfl ?_ rfl rfl rfl (isAcceptedEvent_error message _)
    rw [if_neg (ne_unknown_of_call? calls)]
    rfl
  | belated _ known =>
    refine balanced.idle rfl ?_ rfl rfl rfl (isAcceptedEvent_error message _)
    rw [if_neg known]
    rfl

theorem balanced_processAll (messages : List Message) :
    (new.processAll messages).Balanced (new.transcript messages) := by
  induction messages using List.reverseRecOn with
  | nil => exact balanced_new
  | append_singleton messages message ih =>
    rw [processAll_concat, transcript_concat]
    exact (process_transition _ message).balanced ih

theorem map_fst_transcript (session : Session) (messages : List Message) :
    (session.transcript messages).map Prod.fst = messages := by
  induction messages generalizing session with
  | nil => rfl
  | cons first rest ih => simp [transcript, ih]

/-- In every state that messages lead a session to, its counters and those of its engine tell how
many messages were accepted and of which kind, and the summary reports the same totals. -/
theorem sessions_keep_their_books (messages : List Message) :
    let session := new.processAll messages
    let records := new.transcript messages
    let stats := session.engine.stats
    let decisions := session.events.count .schedule + session.events.count .execute +
      session.events.count .queueStatus + session.events.count .park + session.events.count .ready
    session.messages = messages.length ∧
      (∀ kind, session.events.count kind =
        (records.filterMap acceptedEvent?).countP (·.kind = kind)) ∧
      stats.newContexts = session.events.count .newContext ∧
      stats.progress = session.events.count .progress ∧
      stats.committed = decisions + (if session.engine.model.isEmpty then 0 else 1) ∧
      session.engine.snapshot.sequence = stats.committed ∧
      records.countP isAcceptedEvent =
        (Event.Kind.all.map session.events.count).sum + stats.unrecognized ∧
      session.unrecognized = messages.count .unknown ∧
      session.finish.1 =
        { messages := messages.length
          events := session.events
          unrecognized := messages.count .unknown + stats.unrecognized
          commits := stats.committed
          newContexts := stats.newContexts
          droppedUpdates := stats.droppedUpdates
          output := session.output
          lastSnapshot := session.engine.snapshot } := by
  intro session records stats decisions
  have balanced : session.Balanced records := balanced_processAll messages
  have length : session.messages = messages.length := by
    rw [balanced.messages, ← List.length_map Prod.fst, map_fst_transcript]
  have unknown : session.unrecognized = messages.count .unknown := by
    rw [balanced.unknown, map_fst_transcript]
  refine ⟨length, balanced.events, balanced.engine.newContexts, balanced.engine.progress,
    balanced.engine.committed, balanced.engine.sequence, balanced.accepted, unknown, ?_⟩
  rw [← length, ← unknown]
  rfl

end Session

end SchedReplay
