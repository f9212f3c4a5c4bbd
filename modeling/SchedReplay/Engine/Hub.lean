import SchedReplay.Engine.Update

/-! Delivering updates. Every subscriber has a queue of bounded length; an update that finds the
queue full passes the subscriber by and is counted. Receivers that were dropped are forgotten at
the next update. -/
namespace SchedReplay

/-- The queue of one subscriber, oldest update first. -/
structure Mailbox where
  subscriber : Nat
  capacity : Nat
  waiting : List Update
  isOpen : Bool
  deriving DecidableEq

namespace Mailbox

def isFull (mailbox : Mailbox) : Bool := mailbox.capacity ≤ mailbox.waiting.length

theorem isFull_iff {mailbox : Mailbox} :
    mailbox.isFull = true ↔ mailbox.capacity ≤ mailbox.waiting.length := decide_eq_true_iff

/-- A queue that keeps to its bound is full when exactly that many updates wait. -/
theorem isFull_iff_of_bounded {mailbox : Mailbox}
    (bounded : mailbox.waiting.length ≤ mailbox.capacity) :
    mailbox.isFull = true ↔ mailbox.waiting.length = mailbox.capacity := by
  rw [isFull_iff]
  omega

def deliver (update : Update) (mailbox : Mailbox) : Mailbox :=
  if mailbox.isFull then mailbox else { mailbox with waiting := mailbox.waiting ++ [update] }

end Mailbox

/-- All queues; `issued` counts the subscribers so far and `isLive` ends with the publisher. -/
structure Hub where
  mailboxes : List Mailbox
  issued : Nat
  dropped : Nat
  isLive : Bool
  deriving DecidableEq

/-- What a subscriber gets when it asks for one update. -/
inductive Receipt where
  | update (update : Update)
  | empty
  | disconnected
  deriving DecidableEq

namespace Hub

def new : Hub := ⟨[], 0, 0, true⟩

/-- Adds a queue for at least one update and says whose it is. -/
def subscribe (hub : Hub) (capacity : Nat) : Nat × Hub :=
  (hub.issued,
    { hub with
      mailboxes := hub.mailboxes ++ [⟨hub.issued, max capacity 1, [], true⟩]
      issued := hub.issued + 1 })

def mailbox? (hub : Hub) (subscriber : Nat) : Option Mailbox :=
  hub.mailboxes.find? fun mailbox => mailbox.subscriber = subscriber && mailbox.isOpen

def updateMailbox (hub : Hub) (subscriber : Nat) (change : Mailbox → Mailbox) : Hub :=
  { hub with
    mailboxes := hub.mailboxes.map fun mailbox =>
      if mailbox.subscriber = subscriber then change mailbox else mailbox }

def publish (hub : Hub) (update : Update) : Hub :=
  let reachable := hub.mailboxes.filter (·.isOpen)
  { hub with
    mailboxes := reachable.map (Mailbox.deliver update)
    dropped := hub.dropped + reachable.countP (·.isFull) }

def publish? (hub : Hub) : Option Update → Hub
  | none => hub
  | some update => hub.publish update

def receive (hub : Hub) (subscriber : Nat) : Option Receipt × Hub :=
  match hub.mailbox? subscriber with
  | none => (none, hub)
  | some mailbox =>
    match mailbox.waiting with
    | [] => (some (if hub.isLive then .empty else .disconnected), hub)
    | update :: rest =>
      (some (.update update), hub.updateMailbox subscriber ({ · with waiting := rest }))

def drain (hub : Hub) (subscriber : Nat) : Option (List Update) × Hub :=
  match hub.mailbox? subscriber with
  | none => (none, hub)
  | some mailbox =>
    (some mailbox.waiting, hub.updateMailbox subscriber ({ · with waiting := [] }))

/-- Drops the receiver; false when there is none. -/
def drop (hub : Hub) (subscriber : Nat) : Bool × Hub :=
  match hub.mailbox? subscriber with
  | none => (false, hub)
  | some _ => (true, hub.updateMailbox subscriber ({ · with isOpen := false }))

def restart (hub : Hub) : Hub := { hub with dropped := 0 }

/-- The publisher is gone; what waits can still be received. -/
def close (hub : Hub) : Hub := { hub with isLive := false }

end Hub

end SchedReplay
