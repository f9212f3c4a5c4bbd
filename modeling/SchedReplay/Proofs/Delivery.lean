import SchedReplay.Proofs.Numbering

/-! What a subscriber gets to see. Everything published comes to its queue in order; what finds the
queue full passes by and is counted, and the rest is received or still waits. -/
namespace SchedReplay

namespace Engine

def Reply.updates : Reply → List Update
  | .received (some (.update update)) => [update]
  | .drained (some updates) => updates
  | _ => []

/-- The updates that a subscriber takes out of its queue with a call. -/
def handed (subscriber : Nat) (record : Record) : List Update :=
  if record.1.reader? = some subscriber then record.2.updates else []

/-- The updates that a subscriber has received in a history, in order. -/
def received (subscriber : Nat) (records : List Record) : List Update :=
  records.flatMap (handed subscriber)

/-- An update that comes to the queue of a subscriber. -/
structure Offer where
  update : Update
  wasFull : Bool

/-- The update that a call publishes, and whether it finds the queue of the subscriber full. -/
def offer? (subscriber : Nat) (engine : Engine) (call : Call) : Option Offer :=
  (engine.announces call).map (⟨·, (engine.hub.mailbox? subscriber).any (·.isFull)⟩)

def offers (subscriber : Nat) (engine : Engine) : List Call → List Offer
  | [] => []
  | call :: calls =>
    (offer? subscriber engine call).toList ++ offers subscriber (engine.perform call).2 calls

/-- The updates that a queue has had room for. -/
def taken (offers : List Offer) : List Update :=
  (offers.filter fun offer => !offer.wasFull).map (·.update)

/-- The number of updates that have passed a queue by. -/
def skipped (offers : List Offer) : Nat := offers.countP (·.wasFull)

theorem taken_append (offers more : List Offer) : taken (offers ++ more) =
    taken offers ++ taken more := by
  simp [taken]

theorem taken_sublist (offers : List Offer) : (taken offers).Sublist (offers.map (·.update)) :=
  List.filter_sublist.map _

theorem taken_of_room {offers : List Offer} (room : ∀ offer ∈ offers, offer.wasFull = false) :
    taken offers = offers.map (·.update) := by
  rw [taken, List.filter_eq_self.mpr]
  intro offer inside
  simp [room offer inside]

/-- An update passes by when the queue has come to its bound. -/
theorem wasFull_offer?_iff {engine : Engine} {subscriber : Nat} {mailbox : Mailbox}
    (known : engine.hub.mailbox? subscriber = some mailbox)
    (bounded : mailbox.waiting.length ≤ mailbox.capacity) {call : Call} {offer : Offer}
    (comes : offer ∈ offer? subscriber engine call) :
    offer.wasFull = true ↔ mailbox.waiting.length = mailbox.capacity := by
  obtain ⟨update, -, rfl⟩ := Option.map_eq_some_iff.mp (Option.mem_def.mp comes)
  rw [known]
  exact Mailbox.isFull_iff_of_bounded bounded

/-- The queue is offered all that is published, and in that order. -/
theorem map_update_offers (subscriber : Nat) (engine : Engine) (calls : List Call) :
    (offers subscriber engine calls).map (·.update) = published (engine.transcript calls) := by
  induction calls generalizing engine with
  | nil => rfl
  | cons call calls ih =>
    rw [offers, List.map_append, ih, offer?]
    simp only [published, transcript, List.filterMap_cons, announces]
    cases notice? (call, (engine.perform call).1) <;> rfl

/-- What a reader finds in its queue with a call. -/
def Call.takes : Call → Option Mailbox → List Update
  | .receive _, some mailbox => mailbox.waiting.take 1
  | .drain _, some mailbox => mailbox.waiting
  | _, _ => []

theorem updates_perform (engine : Engine) {call : Call} {subscriber : Nat}
    (reads : call.reader? = some subscriber) :
    (engine.perform call).1.updates = call.takes (engine.hub.mailbox? subscriber) := by
  cases call with
  | receive reader =>
    obtain rfl := Option.some.inj reads
    simp only [perform, receive, Hub.receive, Prod.map]
    cases engine.hub.mailbox? reader with
    | none => rfl
    | some mailbox =>
      cases queue : mailbox.waiting with
      | nil => cases engine.hub.isLive <;> simp [Reply.updates, Call.takes, queue]
      | cons => simp [Reply.updates, Call.takes, queue]
  | drain reader =>
    obtain rfl := Option.some.inj reads
    simp only [perform, drain, Hub.drain, Prod.map]
    cases engine.hub.mailbox? reader <;> rfl
  | drop reader => rfl
  | _ => cases reads

theorem handed_perform (engine : Engine) (call : Call) (subscriber : Nat) :
    handed subscriber (call, (engine.perform call).1) =
      if call.reader? = some subscriber then call.takes (engine.hub.mailbox? subscriber) else [] :=
  ite_congr rfl engine.updates_perform fun _ => rfl

/-- A call moves updates from the front of a queue to its reader, and puts what it publishes at the
end of a queue that has room. -/
theorem handed_append_waiting {engine : Engine} (numbered : engine.hub.Numbered) {subscriber : Nat}
    {mailbox : Mailbox} (known : engine.hub.mailbox? subscriber = some mailbox) {call : Call}
    (stays : call ≠ .drop subscriber) :
    ∃ waiting, (engine.perform call).2.hub.mailbox? subscriber = some { mailbox with waiting } ∧
      handed subscriber (call, (engine.perform call).1) ++ waiting =
        mailbox.waiting ++ if mailbox.isFull then [] else (engine.announces call).toList := by
  by_cases reads : call.reader? = some subscriber
  · rw [handed_perform, if_pos reads, mailbox?_perform numbered, known]
    cases call with
    | receive reader =>
      obtain rfl := Option.some.inj reads
      have silent : engine.announces (.receive reader) = none :=
        announces_of_listening engine rfl (by simp)
      refine ⟨mailbox.waiting.tail, by simp [queueAfter], ?_⟩
      cases queue : mailbox.waiting <;> simp [Call.takes, queue, silent]
    | drain reader =>
      obtain rfl := Option.some.inj reads
      have silent : engine.announces (.drain reader) = none :=
        announces_of_listening engine rfl (by simp)
      refine ⟨[], by simp [queueAfter], ?_⟩
      simp [Call.takes, silent]
    | drop reader => exact absurd (congrArg Call.drop (Option.some.inj reads)) stays
    | _ => cases reads
  · rw [handed_perform, if_neg reads]
    exact ⟨_, (publishes_announces numbered call).2 subscriber mailbox known reads, rfl⟩

/-- A queue is as long as its capacity at most, for a full one gets nothing. -/
theorem length_append_le_capacity {mailbox : Mailbox}
    (fits : mailbox.waiting.length ≤ mailbox.capacity) (update : Option Update) :
    (mailbox.waiting ++ if mailbox.isFull then [] else update.toList).length ≤
      mailbox.capacity := by
  have single : update.toList.length ≤ 1 := by cases update <;> simp
  split
  case isTrue full => simpa using fits
  case isFalse room =>
    have short := mt Mailbox.isFull_iff.mpr room
    rw [List.length_append]
    omega

/-- While a subscriber keeps its receiver, what it receives and what is left in its queue are what
was there before and all that was published while the queue had room. -/
theorem received_append_waiting {engine : Engine} (numbered : engine.hub.Numbered)
    {subscriber : Nat} {mailbox : Mailbox} (known : engine.hub.mailbox? subscriber = some mailbox)
    (fits : mailbox.waiting.length ≤ mailbox.capacity) {calls : List Call}
    (stays : .drop subscriber ∉ calls) :
    ∃ waiting, (engine.performAll calls).hub.mailbox? subscriber = some { mailbox with waiting } ∧
      waiting.length ≤ mailbox.capacity ∧
      received subscriber (engine.transcript calls) ++ waiting =
        mailbox.waiting ++ taken (offers subscriber engine calls) := by
  induction calls generalizing engine mailbox with
  | nil => exact ⟨mailbox.waiting, known, fits, by simp [received, transcript, offers, taken]⟩
  | cons call calls ih =>
    obtain ⟨first, rest⟩ := not_or.mp (List.mem_cons.not.mp stays)
    obtain ⟨middle, next, moved⟩ := handed_append_waiting numbered known (Ne.symm first)
    have short : middle.length ≤ mailbox.capacity := by
      have within := length_append_le_capacity fits (engine.announces call)
      rw [← moved, List.length_append] at within
      omega
    obtain ⟨waiting, last, bounded, later⟩ := ih (numbered_perform numbered call) next short rest
    refine ⟨waiting, last, bounded, ?_⟩
    calc received subscriber (engine.transcript (call :: calls)) ++ waiting
      _ = handed subscriber (call, (engine.perform call).1) ++
          (received subscriber ((engine.perform call).2.transcript calls) ++ waiting) := by
        simp [received, transcript]
      _ = (handed subscriber (call, (engine.perform call).1) ++ middle) ++
          taken (offers subscriber (engine.perform call).2 calls) := by
        rw [later, List.append_assoc]
      _ = mailbox.waiting ++ taken (offers subscriber engine (call :: calls)) := by
        rw [moved, offers, taken_append, List.append_assoc, offer?, known]
        cases engine.announces call <;> cases full : mailbox.isFull <;> simp [taken, full]

section Counting

variable {engine : Engine}

/-- Readers leave the counters of the hub and the list of subscribers alone. -/
theorem frame_of_reader? (engine : Engine) {call : Call} {reader : Nat}
    (reads : call.reader? = some reader) :
    let hub := (engine.perform call).2.hub
    hub.issued = engine.hub.issued ∧ hub.dropped = engine.hub.dropped ∧
      hub.mailboxes.map (·.subscriber) = engine.hub.mailboxes.map (·.subscriber) := by
  have changed {change : Mailbox → Mailbox}
      (named : ∀ mailbox, (change mailbox).subscriber = mailbox.subscriber) :=
    engine.hub.subscribers_updateMailbox reader named
  cases call with
  | receive =>
    obtain rfl := Option.some.inj reads
    simp only [perform, receive, Hub.receive, Prod.map]
    split
    · exact ⟨rfl, rfl, rfl⟩
    · split
      · exact ⟨rfl, rfl, rfl⟩
      · exact ⟨rfl, rfl, changed fun _ => rfl⟩
  | drain =>
    obtain rfl := Option.some.inj reads
    simp only [perform, drain, Hub.drain, Prod.map]
    split
    · exact ⟨rfl, rfl, rfl⟩
    · exact ⟨rfl, rfl, changed fun _ => rfl⟩
  | drop =>
    obtain rfl := Option.some.inj reads
    simp only [perform, drop, Hub.drop, Prod.map]
    split
    · exact ⟨rfl, rfl, rfl⟩
    · exact ⟨rfl, rfl, changed fun _ => rfl⟩
  | _ => cases reads

/-- How many numbers a call issues to subscribers. -/
def Call.issues : Call → Nat
  | .subscribe _ => 1
  | _ => 0

theorem issued_perform (engine : Engine) (call : Call) :
    (engine.perform call).2.hub.issued = engine.hub.issued + call.issues := by
  cases call with
  | receive reader | drain reader | drop reader => exact (frame_of_reader? engine rfl).1
  | subscribe | reset => rfl
  | seed | apply | decode | applyEvent =>
    rw [hub_of_isAttempt engine rfl]
    cases engine.update? _ <;> rfl

theorem issued_le_performAll (engine : Engine) (calls : List Call) :
    engine.hub.issued ≤ (engine.performAll calls).hub.issued := by
  induction calls generalizing engine with
  | nil => exact Nat.le_refl _
  | cons call calls ih =>
    have first := engine.issued_perform call
    have rest := ih (engine.perform call).2
    rw [performAll_cons]
    omega

/-- An update is counted once for each subscriber whose queue it finds full. -/
theorem dropped_publish? {hub : Hub} (numbered : hub.Numbered) (update : Option Update) :
    (hub.publish? update).dropped = hub.dropped + ∑ subscriber ∈ Finset.range hub.issued,
      skipped (update.map (⟨·, (hub.mailbox? subscriber).any (·.isFull)⟩)).toList := by
  cases update with
  | none => simp [Hub.publish?, skipped]
  | some update =>
    simp only [Hub.publish?, Hub.publish, numbered.countP_isFull]
    congr 1
    refine Finset.sum_congr rfl ?_
    intro subscriber _
    cases full : (hub.mailbox? subscriber).any (·.isFull) <;> simp [skipped]

theorem dropped_perform (numbered : engine.hub.Numbered) {call : Call} (stays : call ≠ .reset) :
    (engine.perform call).2.hub.dropped = engine.hub.dropped +
      ∑ subscriber ∈ Finset.range engine.hub.issued,
        skipped (offer? subscriber engine call).toList := by
  by_cases attempt : call.isAttempt = true
  · rw [hub_of_isAttempt engine attempt, dropped_publish? numbered, update?_eq_notice?]
    rfl
  · have listens : call.isAttempt = false := by simpa using attempt
    have silent (subscriber : Nat) : offer? subscriber engine call = none := by
      simp [offer?, announces_of_listening engine listens stays]
    have kept : (engine.perform call).2.hub.dropped = engine.hub.dropped := by
      cases call with
      | receive | drain | drop => exact (frame_of_reader? engine rfl).2.1
      | subscribe => rfl
      | reset => exact absurd rfl stays
      | seed | apply | decode | applyEvent => cases listens
    simp [kept, silent, skipped]

/-- A reset starts the count anew before it tells the subscribers. -/
theorem dropped_reset (numbered : engine.hub.Numbered) : engine.reset.hub.dropped =
    ∑ subscriber ∈ Finset.range engine.hub.issued,
      skipped (offer? subscriber engine .reset).toList := by
  have restarted : engine.hub.restart.Numbered := ⟨numbered.once, numbered.issued⟩
  exact (dropped_publish? restarted (some .reset)).trans (Nat.zero_add _)

theorem skipped_offer?_of_issued_le (numbered : engine.hub.Numbered) (call : Call)
    {subscriber : Nat} (later : engine.hub.issued ≤ subscriber) :
    skipped (offer? subscriber engine call).toList = 0 := by
  rw [offer?, numbered.mailbox?_eq_none later]
  cases engine.announces call <;> simp [skipped]

theorem sum_skipped_offer? (numbered : engine.hub.Numbered) (call : Call) {bound : Nat}
    (issued : engine.hub.issued ≤ bound) :
    ∑ subscriber ∈ Finset.range bound, skipped (offer? subscriber engine call).toList =
      ∑ subscriber ∈ Finset.range engine.hub.issued,
        skipped (offer? subscriber engine call).toList := by
  refine (Finset.sum_subset (Finset.range_subset_range.mpr issued) ?_).symm
  intro subscriber _ later
  exact skipped_offer?_of_issued_le numbered call (by simpa using later)

theorem dropped_performAll (numbered : engine.hub.Numbered) {calls : List Call}
    (stays : .reset ∉ calls) : (engine.performAll calls).hub.dropped = engine.hub.dropped +
      ∑ subscriber ∈ Finset.range (engine.performAll calls).hub.issued,
        skipped (offers subscriber engine calls) := by
  induction calls generalizing engine with
  | nil => simp [offers, skipped]
  | cons call calls ih =>
    obtain ⟨first, rest⟩ := not_or.mp (List.mem_cons.not.mp stays)
    have issued := engine.issued_le_performAll (call :: calls)
    have split (subscriber : Nat) : skipped (offers subscriber engine (call :: calls)) =
        skipped (offer? subscriber engine call).toList +
          skipped (offers subscriber (engine.perform call).2 calls) := by
      simp [offers, skipped]
    simp only [split, Finset.sum_add_distrib, sum_skipped_offer? numbered call issued]
    rw [performAll_cons, ih (numbered_perform numbered call) rest,
      dropped_perform numbered (Ne.symm first), Nat.add_assoc]

theorem dropped_since_reset (numbered : engine.hub.Numbered) {calls : List Call}
    (stays : .reset ∉ calls) : (engine.performAll (.reset :: calls)).hub.dropped =
      ∑ subscriber ∈ Finset.range (engine.performAll (.reset :: calls)).hub.issued,
        skipped (offers subscriber engine (.reset :: calls)) := by
  have issued := engine.issued_le_performAll (.reset :: calls)
  have split (subscriber : Nat) : skipped (offers subscriber engine (.reset :: calls)) =
      skipped (offer? subscriber engine .reset).toList +
        skipped (offers subscriber engine.reset calls) := by
    simp [offers, skipped, perform]
  simp only [split, Finset.sum_add_distrib, sum_skipped_offer? numbered .reset issued]
  rw [← dropped_reset numbered]
  exact dropped_performAll (numbered_perform numbered .reset) stays

end Counting

section Dropping

variable {engine : Engine} {subscriber : Nat}

/-- Two engines that differ in what one subscriber has at most. -/
structure AlikeBut (subscriber : Nat) (left right : Engine) : Prop where
  run : left.run = right.run
  issued : left.hub.issued = right.hub.issued
  mailbox? : ∀ other ≠ subscriber, left.hub.mailbox? other = right.hub.mailbox? other

namespace AlikeBut

variable {left right : Engine}

theorem announces (alike : AlikeBut subscriber left right) (call : Call) :
    left.announces call = right.announces call := by
  simp only [Engine.announces, ← update?_eq_notice?]
  cases call <;> simp only [update?, alike.run]

theorem perform (alike : AlikeBut subscriber left right) (lefts : left.hub.Numbered)
    (rights : right.hub.Numbered) (call : Call) :
    AlikeBut subscriber (left.perform call).2 (right.perform call).2 where
  run := by
    cases call with
    | seed | apply | decode | applyEvent =>
      simp only [Engine.perform, seed, apply, decode, applyEvent, publishing, Prod.map, id,
        alike.run]
    | reset => rfl
    | subscribe | receive | drain | drop => exact alike.run
  issued := by rw [issued_perform, issued_perform, alike.issued]
  mailbox? other apart := by
    rw [mailbox?_perform lefts, mailbox?_perform rights, alike.announces, alike.issued,
      alike.mailbox? other apart]

theorem performAll (alike : AlikeBut subscriber left right) (lefts : left.hub.Numbered)
    (rights : right.hub.Numbered) (calls : List Call) {other : Nat} (apart : other ≠ subscriber) :
    (left.performAll calls).hub.mailbox? other = (right.performAll calls).hub.mailbox? other ∧
      received other (left.transcript calls) = received other (right.transcript calls) ∧
      offers other left calls = offers other right calls := by
  induction calls generalizing left right with
  | nil => exact ⟨alike.mailbox? other apart, rfl, rfl⟩
  | cons call calls ih =>
    have next := alike.perform lefts rights call
    obtain ⟨queue, got, came⟩ :=
      ih next (numbered_perform lefts call) (numbered_perform rights call)
    have same := alike.mailbox? other apart
    refine ⟨queue, ?_, ?_⟩
    · have hands : handed other (call, (left.perform call).1) =
          handed other (call, (right.perform call).1) := by
        rw [handed_perform, handed_perform, same]
      simp only [received, transcript, List.flatMap_cons] at got ⊢
      rw [hands, got]
    · rw [offers, offers, offer?, offer?, alike.announces, same, came]

end AlikeBut

theorem alikeBut_drop (engine : Engine) (subscriber : Nat) :
    AlikeBut subscriber (engine.perform (.drop subscriber)).2 engine where
  run := rfl
  issued := (frame_of_reader? engine rfl).1
  mailbox? other apart := (engine.hub.mailbox?_drop subscriber other).trans (if_neg apart)

/-- A number that is not among the subscribers does not come back. -/
theorem not_mem_subscribers_perform {call : Call} (issued : subscriber < engine.hub.issued)
    (gone : engine.hub.mailbox? subscriber = none)
    (silent : engine.announces call = none → subscriber ∉ engine.hub.mailboxes.map (·.subscriber)) :
    subscriber ∉ (engine.perform call).2.hub.mailboxes.map (·.subscriber) := by
  cases call with
  | receive | drain | drop =>
    rw [(frame_of_reader? engine rfl).2.2]
    exact silent (announces_of_listening engine rfl (by simp))
  | subscribe capacity =>
    have old := silent (announces_of_listening engine rfl (by simp))
    simp only [perform, subscribe, Hub.subscribe, Prod.map, id, List.map_append, List.mem_append,
      not_or]
    exact ⟨old, by simp; omega⟩
  | reset => exact Hub.not_mem_subscribers_publish gone .reset
  | seed | apply | decode | applyEvent =>
    rw [hub_of_isAttempt engine rfl, update?_eq_notice?]
    cases heard : engine.announces _ with
    | none =>
      simp only [announces] at heard
      rw [heard]
      exact silent heard
    | some update =>
      simp only [announces] at heard
      rw [heard]
      exact Hub.not_mem_subscribers_publish gone update

theorem mailbox?_perform_of_eq_none (numbered : engine.hub.Numbered)
    (issued : subscriber < engine.hub.issued) (gone : engine.hub.mailbox? subscriber = none)
    (call : Call) : (engine.perform call).2.hub.mailbox? subscriber = none := by
  rw [mailbox?_perform numbered, gone]
  cases call with
  | subscribe capacity => simp [queueAfter, issued.ne]
  | receive | drain | drop => simp [queueAfter]
  | seed | apply | decode | applyEvent | reset =>
    cases engine.announces _ <;> rfl

/-- Nobody is behind a number that was issued once and has no receiver. -/
theorem performAll_of_mailbox?_eq_none (numbered : engine.hub.Numbered)
    (issued : subscriber < engine.hub.issued) (gone : engine.hub.mailbox? subscriber = none)
    (calls : List Call) : (engine.performAll calls).hub.mailbox? subscriber = none ∧
      received subscriber (engine.transcript calls) = [] ∧
      skipped (offers subscriber engine calls) = 0 ∧
      (published (engine.transcript calls) ≠ [] ∨
          subscriber ∉ engine.hub.mailboxes.map (·.subscriber) →
        subscriber ∉ (engine.performAll calls).hub.mailboxes.map (·.subscriber)) := by
  induction calls generalizing engine with
  | nil => exact ⟨gone, rfl, rfl, by simp [published, transcript]⟩
  | cons call calls ih =>
    have next := mailbox?_perform_of_eq_none numbered issued gone call
    have below : subscriber < (engine.perform call).2.hub.issued := by
      rw [issued_perform]
      omega
    obtain ⟨last, got, counted, forgotten⟩ := ih (numbered_perform numbered call) below next
    refine ⟨last, ?_, ?_, ?_⟩
    · have empty : handed subscriber (call, (engine.perform call).1) = [] := by
        rw [handed_perform, gone]
        cases call <;> simp [Call.takes]
      simp only [received, transcript, List.flatMap_cons] at got ⊢
      rw [empty, got, List.nil_append]
    · rw [offers, offer?, gone]
      cases engine.announces call <;> simpa [skipped] using counted
    · intro why
      refine forgotten ?_
      by_cases heard : engine.announces call = none
      · refine why.imp ?_ fun absent => not_mem_subscribers_perform issued gone fun _ => absent
        have same : published (engine.transcript (call :: calls)) =
            published ((engine.perform call).2.transcript calls) := List.filterMap_cons_none heard
        rw [same]
        exact id
      · exact .inr (not_mem_subscribers_perform issued gone fun silent => absurd silent heard)

end Dropping

/-- What a subscriber that keeps its receiver sees of the updates that calls publish. -/
structure Sees (subscriber capacity : Nat) (engine : Engine) (calls : List Call)
    (waiting : List Update) : Prop where
  queue : (engine.performAll calls).hub.mailbox? subscriber =
    some ⟨subscriber, capacity, waiting, true⟩
  bounded : waiting.length ≤ capacity
  selection : received subscriber (engine.transcript calls) ++ waiting =
    taken (offers subscriber engine calls)
  once : (received subscriber (engine.transcript calls) ++ waiting).Sublist
    (published (engine.transcript calls))
  complete : (∀ offer ∈ offers subscriber engine calls, offer.wasFull = false) →
    received subscriber (engine.transcript calls) ++ waiting =
      published (engine.transcript calls)
  fullness : ∀ call, ∀ offer ∈ offer? subscriber (engine.performAll calls) call,
    offer.wasFull = true ↔ waiting.length = capacity

/-- What is left, after more calls, of a subscriber that drops its receiver. -/
structure Forgets (subscriber : Nat) (engine : Engine) (calls : List Call) : Prop where
  known : (engine.perform (.drop subscriber)).1 = .dropped true
  gone : ((engine.perform (.drop subscriber)).2.performAll calls).hub.mailbox? subscriber = none
  nothing : received subscriber ((engine.perform (.drop subscriber)).2.transcript calls) = []
  uncounted : skipped (offers subscriber (engine.perform (.drop subscriber)).2 calls) = 0
  forgotten : published ((engine.perform (.drop subscriber)).2.transcript calls) ≠ [] →
    subscriber ∉ ((engine.perform (.drop subscriber)).2.performAll calls).hub.mailboxes.map
      (·.subscriber)
  others : ∀ other ≠ subscriber,
    ((engine.perform (.drop subscriber)).2.performAll calls).hub.mailbox? other =
        (engine.performAll calls).hub.mailbox? other ∧
      received other ((engine.perform (.drop subscriber)).2.transcript calls) =
        received other (engine.transcript calls) ∧
      offers other (engine.perform (.drop subscriber)).2 calls = offers other engine calls

theorem sees_subscribe {engine : Engine} (numbered : engine.hub.Numbered) (capacity : Nat)
    {calls : List Call} (stays : .drop engine.hub.issued ∉ calls) :
    ∃ waiting, Sees engine.hub.issued (max capacity 1) (engine.perform (.subscribe capacity)).2
      calls waiting := by
  have opened : (engine.perform (.subscribe capacity)).2.hub.mailbox? engine.hub.issued =
      some ⟨engine.hub.issued, max capacity 1, [], true⟩ :=
    (Hub.mailbox?_subscribe numbered capacity _).trans (if_pos rfl)
  obtain ⟨waiting, queue, bounded, selection⟩ :=
    received_append_waiting (numbered_perform numbered _) opened (Nat.zero_le _) stays
  have come := map_update_offers engine.hub.issued (engine.perform (.subscribe capacity)).2 calls
  refine ⟨waiting, queue, bounded, selection, ?_, ?_,
    fun _ _ comes => wasFull_offer?_iff queue bounded comes⟩
  · rw [selection, ← come]
    exact taken_sublist _
  · intro room
    rw [selection, ← come]
    exact taken_of_room room

theorem forgets_drop {engine : Engine} (numbered : engine.hub.Numbered) {subscriber : Nat}
    (listens : (engine.hub.mailbox? subscriber).isSome) (calls : List Call) :
    Forgets subscriber engine calls := by
  obtain ⟨mailbox, found⟩ := Option.isSome_iff_exists.mp listens
  have issued : subscriber < engine.hub.issued := by
    by_contra later
    rw [numbered.mailbox?_eq_none (not_lt.mp later)] at found
    cases found
  have closed : (engine.perform (.drop subscriber)).2.hub.mailbox? subscriber = none :=
    (engine.hub.mailbox?_drop subscriber subscriber).trans (if_pos rfl)
  have after := numbered_perform numbered (.drop subscriber)
  obtain ⟨gone, nothing, uncounted, forgotten⟩ := performAll_of_mailbox?_eq_none after
    (issued.trans_eq (issued_perform engine (.drop subscriber)).symm) closed calls
  refine ⟨?_, gone, nothing, uncounted, fun heard => forgotten (.inl heard), ?_⟩
  · simp [perform, drop, Hub.drop, found]
  · intro other apart
    exact (alikeBut_drop engine subscriber).performAll after numbered calls apart

/-- Whatever calls come in whatever order, every subscriber sees in order what it has room for, who
drops its receiver is out of it, and what is passed by is counted, anew from each reset. -/
theorem updates_are_delivered_and_accounted {start : Engine} (started : Started start)
    (before : List Call) :
    let engine := start.performAll before
    (∀ capacity,
      (engine.perform (.subscribe capacity)).1 = .subscribed engine.hub.issued ∧
        ∀ calls, .drop engine.hub.issued ∉ calls →
          ∃ waiting, Sees engine.hub.issued (max capacity 1)
            (engine.perform (.subscribe capacity)).2 calls waiting) ∧
      (∀ subscriber calls, (engine.hub.mailbox? subscriber).isSome →
        Forgets subscriber engine calls) ∧
      (.reset ∉ before → engine.stats.droppedUpdates =
        ∑ subscriber ∈ Finset.range engine.hub.issued, skipped (offers subscriber start before)) ∧
      ∀ calls, .reset ∉ calls →
        (engine.performAll (.reset :: calls)).stats.droppedUpdates =
          ∑ subscriber ∈ Finset.range (engine.performAll (.reset :: calls)).hub.issued,
            skipped (offers subscriber engine (.reset :: calls)) := by
  have numbered := numbered_performAll started before
  refine ⟨fun capacity => ⟨rfl, fun calls => sees_subscribe numbered capacity⟩,
    fun subscriber calls listens => forgets_drop numbered listens calls, ?_,
    fun calls => dropped_since_reset numbered⟩
  intro stays
  have first : start.hub.dropped = 0 := by
    obtain ⟨model, _, rfl⟩ := started.exists_eq
    rfl
  have counted := dropped_performAll (numbered_performAll started []) stays
  exact counted.trans (by rw [performAll_nil, first, Nat.zero_add])

theorem updates_are_delivered_and_accounted_at_full_queue :
    let opened := (new.perform (.subscribe 0)).2
    let calls : List Call := [.seed (some 2), .reset, .receive 0]
    received 0 (opened.transcript calls) =
        [.committed ⟨1, .seeded 2, Reconstruction.seedChanges⟩] ∧
      (opened.performAll calls).stats.droppedUpdates = 1 ∧
      ∃ waiting, Sees 0 1 opened calls waiting :=
  ⟨rfl, rfl, ((updates_are_delivered_and_accounted .new []).1 0).2 _ (by decide)⟩

end Engine

end SchedReplay
