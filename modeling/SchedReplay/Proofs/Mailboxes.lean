import Mathlib.Algebra.BigOperators.Group.Finset.Piecewise
import Mathlib.Data.List.Nodup
import SchedReplay.Engine.Hub

/-! The queue of one subscriber: what each operation of the hub makes of it. The subscribers keep
their own numbers, so that a number never stands for two of them. -/
namespace SchedReplay

namespace Mailbox

variable (update : Update) (mailbox : Mailbox)

@[simp] theorem subscriber_deliver : (mailbox.deliver update).subscriber = mailbox.subscriber := by
  unfold deliver
  split <;> rfl

@[simp] theorem isOpen_deliver : (mailbox.deliver update).isOpen = mailbox.isOpen := by
  unfold deliver
  split <;> rfl

end Mailbox

namespace Hub

theorem mailbox?_publish (hub : Hub) (update : Update) (subscriber : Nat) :
    (hub.publish update).mailbox? subscriber =
      (hub.mailbox? subscriber).map (Mailbox.deliver update) := by
  simp only [mailbox?, publish, List.find?_map, List.find?_filter, Function.comp_def]
  simp [Bool.and_comm]

section UpdateMailbox

variable (hub : Hub) {subscriber : Nat} {change : Mailbox → Mailbox}

theorem mailbox?_updateMailbox_of_ne {other : Nat} (apart : other ≠ subscriber)
    (named : ∀ mailbox, (change mailbox).subscriber = mailbox.subscriber) :
    (hub.updateMailbox subscriber change).mailbox? other = hub.mailbox? other := by
  simp only [mailbox?, updateMailbox]
  induction hub.mailboxes with
  | nil => rfl
  | cons mailbox rest ih =>
    by_cases same : mailbox.subscriber = subscriber
    · have unnamed : mailbox.subscriber ≠ other := fun is => apart (is.symm.trans same)
      simp [same, named, apart.symm, ih]
    · simp [List.find?_cons, same, ih]

theorem mailbox?_updateMailbox_self
    (kept : ∀ mailbox, (change mailbox).subscriber = mailbox.subscriber ∧
      (change mailbox).isOpen = mailbox.isOpen) :
    (hub.updateMailbox subscriber change).mailbox? subscriber =
      (hub.mailbox? subscriber).map change := by
  simp only [mailbox?, updateMailbox]
  induction hub.mailboxes with
  | nil => rfl
  | cons mailbox rest ih =>
    by_cases same : mailbox.subscriber = subscriber
    · cases listens : mailbox.isOpen <;> simp [same, kept, listens, ih]
    · simp [same, ih]

theorem mailbox?_updateMailbox_closed (closes : ∀ mailbox, (change mailbox).isOpen = false) :
    (hub.updateMailbox subscriber change).mailbox? subscriber = none := by
  simp only [mailbox?, updateMailbox, List.find?_map, Option.map_eq_none_iff, List.find?_eq_none]
  intro mailbox inside
  by_cases same : mailbox.subscriber = subscriber <;> simp [same, closes]

end UpdateMailbox

/-- The subscribers have their own numbers, all of them issued before. -/
structure Numbered (hub : Hub) : Prop where
  once : (hub.mailboxes.map (·.subscriber)).Nodup
  issued : ∀ subscriber ∈ hub.mailboxes.map (·.subscriber), subscriber < hub.issued

theorem Numbered.of_sublist {hub next : Hub} (numbered : hub.Numbered)
    (fewer : (next.mailboxes.map (·.subscriber)).Sublist (hub.mailboxes.map (·.subscriber)))
    (issued : next.issued = hub.issued) : next.Numbered where
  once := numbered.once.sublist fewer
  issued subscriber inside := issued ▸ numbered.issued subscriber (fewer.subset inside)

theorem numbered_new : new.Numbered := ⟨List.nodup_nil, by simp [new]⟩

theorem mailbox?_eq_none_iff {hub : Hub} {subscriber : Nat} :
    hub.mailbox? subscriber = none ↔
      ∀ mailbox ∈ hub.mailboxes, mailbox.subscriber = subscriber → mailbox.isOpen = false := by
  simp [mailbox?]

theorem Numbered.mailbox?_eq_none {hub : Hub} (numbered : hub.Numbered) {subscriber : Nat}
    (later : hub.issued ≤ subscriber) : hub.mailbox? subscriber = none := by
  rw [mailbox?_eq_none_iff]
  rintro mailbox inside rfl
  have := numbered.issued _ (List.mem_map_of_mem inside)
  omega

theorem mailbox?_subscribe {hub : Hub} (numbered : hub.Numbered) (capacity subscriber : Nat) :
    (hub.subscribe capacity).2.mailbox? subscriber =
      if subscriber = hub.issued then some ⟨hub.issued, max capacity 1, [], true⟩
      else hub.mailbox? subscriber := by
  have known : (hub.subscribe capacity).2.mailbox? subscriber = (hub.mailbox? subscriber).or
      ([(⟨hub.issued, max capacity 1, [], true⟩ : Mailbox)].find? fun mailbox =>
        mailbox.subscriber = subscriber && mailbox.isOpen) := List.find?_append
  rw [known]
  by_cases new : subscriber = hub.issued
  · simp [new, numbered.mailbox?_eq_none (Nat.le_refl hub.issued)]
  · simp [new, Ne.symm new]

theorem mailbox?_receive (hub : Hub) (reader subscriber : Nat) :
    (hub.receive reader).2.mailbox? subscriber =
      if subscriber = reader then
        (hub.mailbox? reader).map fun mailbox => { mailbox with waiting := mailbox.waiting.tail }
      else hub.mailbox? subscriber := by
  by_cases same : subscriber = reader
  · subst same
    cases known : hub.mailbox? subscriber with
    | none => simp [receive, known]
    | some mailbox =>
      cases queue : mailbox.waiting with
      | nil =>
        have idle : { mailbox with waiting := [] } = mailbox := by rw [← queue]
        simp [receive, known, queue, idle]
      | cons first rest =>
        simp [receive, known, queue, mailbox?_updateMailbox_self]
  · unfold receive
    split
    · simp [same]
    · split
      · simp [same]
      · rw [if_neg same]
        exact mailbox?_updateMailbox_of_ne hub same fun _ => rfl

theorem mailbox?_drain (hub : Hub) (reader subscriber : Nat) :
    (hub.drain reader).2.mailbox? subscriber =
      if subscriber = reader then
        (hub.mailbox? reader).map fun mailbox => { mailbox with waiting := [] }
      else hub.mailbox? subscriber := by
  by_cases same : subscriber = reader
  · subst same
    cases known : hub.mailbox? subscriber <;> simp [drain, known, mailbox?_updateMailbox_self]
  · unfold drain
    split
    · simp [same]
    · rw [if_neg same]
      exact mailbox?_updateMailbox_of_ne hub same fun _ => rfl

theorem mailbox?_drop (hub : Hub) (reader subscriber : Nat) :
    (hub.drop reader).2.mailbox? subscriber =
      if subscriber = reader then none else hub.mailbox? subscriber := by
  by_cases same : subscriber = reader
  · subst same
    cases known : hub.mailbox? subscriber <;>
      simp [drop, known, mailbox?_updateMailbox_closed]
  · unfold drop
    split
    · simp [same]
    · rw [if_neg same]
      exact mailbox?_updateMailbox_of_ne hub same fun _ => rfl

theorem subscribers_publish_sublist (hub : Hub) (update : Update) :
    ((hub.publish update).mailboxes.map (·.subscriber)).Sublist
      (hub.mailboxes.map (·.subscriber)) := by
  simp only [publish, List.map_map, Function.comp_def, Mailbox.subscriber_deliver]
  exact List.filter_sublist.map _

theorem subscribers_updateMailbox (hub : Hub) (subscriber : Nat) {change : Mailbox → Mailbox}
    (named : ∀ mailbox, (change mailbox).subscriber = mailbox.subscriber) :
    (hub.updateMailbox subscriber change).mailboxes.map (·.subscriber) =
      hub.mailboxes.map (·.subscriber) := by
  have same : ∀ mailbox ∈ hub.mailboxes,
      (if mailbox.subscriber = subscriber then change mailbox else mailbox).subscriber =
        mailbox.subscriber := by
    intro mailbox _
    split
    · exact named mailbox
    · rfl
  simpa [updateMailbox] using same

/-- A receiver that was dropped is forgotten with the next update. -/
theorem not_mem_subscribers_publish {hub : Hub} {subscriber : Nat}
    (gone : hub.mailbox? subscriber = none) (update : Update) :
    subscriber ∉ (hub.publish update).mailboxes.map (·.subscriber) := by
  simp only [publish, List.map_map, Function.comp_def, Mailbox.subscriber_deliver, List.mem_map,
    List.mem_filter, not_exists, not_and, and_imp]
  intro mailbox inside listens is
  simp [mailbox?_eq_none_iff.mp gone mailbox inside is] at listens

theorem Numbered.publish {hub : Hub} (numbered : hub.Numbered) (update : Update) :
    (hub.publish update).Numbered :=
  numbered.of_sublist (hub.subscribers_publish_sublist update) rfl

theorem Numbered.updateMailbox {hub : Hub} (numbered : hub.Numbered) (subscriber : Nat)
    {change : Mailbox → Mailbox}
    (named : ∀ mailbox, (change mailbox).subscriber = mailbox.subscriber) :
    (hub.updateMailbox subscriber change).Numbered :=
  numbered.of_sublist (hub.subscribers_updateMailbox subscriber named ▸ List.Sublist.refl _) rfl

theorem Numbered.subscribe {hub : Hub} (numbered : hub.Numbered) (capacity : Nat) :
    (hub.subscribe capacity).2.Numbered where
  once := by
    have fresh : hub.issued ∉ hub.mailboxes.map (·.subscriber) :=
      fun known => (numbered.issued _ known).false
    simpa [Hub.subscribe, List.nodup_append'] using ⟨numbered.once, by simpa using fresh⟩
  issued subscriber inside := by
    simp only [Hub.subscribe, List.map_append, List.mem_append] at inside ⊢
    rcases inside with known | new
    · exact (numbered.issued _ known).trans (Nat.lt_succ_self _)
    · simp at new
      omega

theorem Numbered.mailbox?_of_mem {hub : Hub} (numbered : hub.Numbered) {mailbox : Mailbox}
    (inside : mailbox ∈ hub.mailboxes) (listens : mailbox.isOpen = true) :
    hub.mailbox? mailbox.subscriber = some mailbox := by
  cases found : hub.mailbox? mailbox.subscriber with
  | none => simp [mailbox?_eq_none_iff.mp found mailbox inside rfl] at listens
  | some other =>
    have same : other.subscriber = mailbox.subscriber := by
      have is := List.find?_some found
      simp at is
      exact is.1
    rw [List.inj_on_of_nodup_map numbered.once (List.mem_of_find?_eq_some found) inside same]

/-- The queues that an update finds full are those of that many subscribers. -/
theorem Numbered.countP_isFull {hub : Hub} (numbered : hub.Numbered) :
    (hub.mailboxes.filter (·.isOpen)).countP (·.isFull) =
      ∑ subscriber ∈ Finset.range hub.issued,
        if (hub.mailbox? subscriber).any (·.isFull) then 1 else 0 := by
  let full := (hub.mailboxes.filter (·.isOpen)).filter (·.isFull)
  have once : (full.map (·.subscriber)).Nodup :=
    numbered.once.sublist ((List.filter_sublist.trans List.filter_sublist).map _)
  have same : (full.map (·.subscriber)).toFinset = (Finset.range hub.issued).filter
      fun subscriber => (hub.mailbox? subscriber).any (·.isFull) := by
    ext subscriber
    simp only [List.mem_toFinset, List.mem_map, List.mem_filter, Finset.mem_filter,
      Finset.mem_range, full]
    constructor
    · rintro ⟨mailbox, ⟨⟨inside, listens⟩, isFull⟩, rfl⟩
      have known := numbered.mailbox?_of_mem inside listens
      exact ⟨numbered.issued _ (List.mem_map_of_mem inside), by simp [known, isFull]⟩
    · rintro ⟨_, isFull⟩
      obtain ⟨mailbox, found, isFull⟩ := (Option.any_eq_true _ _).mp isFull
      have is := List.find?_some found
      simp only [Bool.and_eq_true, decide_eq_true_eq] at is
      exact ⟨mailbox, ⟨⟨List.mem_of_find?_eq_some found, is.2⟩, isFull⟩, is.1⟩
  rw [← Finset.card_filter, ← same, List.toFinset_card_of_nodup once, List.length_map,
    List.countP_eq_length_filter]

theorem Numbered.receive {hub : Hub} (numbered : hub.Numbered) (reader : Nat) :
    (hub.receive reader).2.Numbered := by
  unfold Hub.receive
  split
  · exact numbered
  · split
    · exact numbered
    · exact numbered.updateMailbox reader fun _ => rfl

theorem Numbered.drain {hub : Hub} (numbered : hub.Numbered) (reader : Nat) :
    (hub.drain reader).2.Numbered := by
  unfold Hub.drain
  split
  · exact numbered
  · exact numbered.updateMailbox reader fun _ => rfl

theorem Numbered.drop {hub : Hub} (numbered : hub.Numbered) (reader : Nat) :
    (hub.drop reader).2.Numbered := by
  unfold Hub.drop
  split
  · exact numbered
  · exact numbered.updateMailbox reader fun _ => rfl

end Hub

end SchedReplay
