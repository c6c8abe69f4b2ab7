import LintPool.Dashboard.Progress

/-!
# Subscribers

Every subscriber of the dashboard has a mailbox. The hub knows which of them are registered: events
are sent to these, and a mailbox is closed when its subscriber leaves. Closing a closed mailbox and
sending to one are faults, which the hub is there to rule out.

## Main definitions

* `LintPool.Mailbox` : the messages that wait for a subscriber.
* `LintPool.Hub` : the mailboxes of all subscribers.
* `LintPool.Hub.register`, `LintPool.Hub.unregister`, `LintPool.Hub.broadcast`,
  `LintPool.Hub.closeAll` : what the hub does.
-/

namespace LintPool

/-- What is told to a subscriber. -/
inductive Notice where
  /-- The counters at the time of subscribing. -/
  | snapshot (p : Progress)
  | event (e : Event)
  deriving DecidableEq

/-- The JSON form of a notice. -/
def Notice.toJson : Notice → Json
  | .snapshot p =>
    .object [Json.member "type" (.text (utf8 "snapshot")), Json.member "progress" p.toJson]
  | .event e => e.toJson

/-- The messages that wait for a subscriber, the oldest first. -/
structure Mailbox where
  waiting : List Notice := []
  closed : Bool := false
  deriving DecidableEq

namespace Mailbox

/-- The number of messages that can wait. -/
def capacity : Nat := 256

/-- A misuse of a mailbox. -/
inductive Fault where
  | sentAfterClosing
  | closedTwice
  deriving DecidableEq

/-- Sends a message. One that finds the mailbox full is dropped. -/
def send (m : Mailbox) (n : Notice) : Except Fault Mailbox :=
  if m.closed then .error .sentAfterClosing
  else .ok (if m.waiting.length < capacity then { m with waiting := m.waiting ++ [n] } else m)

/-- Closes a mailbox. What waits in it can still be read. -/
def close (m : Mailbox) : Except Fault Mailbox :=
  if m.closed then .error .closedTwice else .ok { m with closed := true }

/-- The oldest message, if one waits, and the mailbox after it was read. -/
def receive (m : Mailbox) : Option Notice × Mailbox :=
  (m.waiting.head?, { m with waiting := m.waiting.tail })

/-- A mailbox after everything in it was read. -/
def drain (m : Mailbox) : Mailbox := { m with waiting := [] }

end Mailbox

/-- A subscriber is known by its name. -/
abbrev Subscriber := Bytes

/-- The mailboxes of all subscribers there have been, and who of them is registered. -/
structure Hub where
  mailboxes : List (Subscriber × Mailbox) := []
  registered : List Subscriber := []

namespace Hub

/-- The mailbox of a subscriber; a new one is empty. -/
def mailbox (h : Hub) (s : Subscriber) : Mailbox := (h.mailboxes.lookup s).getD {}

/-- The hub with another mailbox for a subscriber. -/
def setMailbox (h : Hub) (s : Subscriber) (m : Mailbox) : Hub :=
  { h with mailboxes := (s, m) :: h.mailboxes.filter (·.1 != s) }

/-- Sends a message to one subscriber. -/
def sendTo (n : Notice) (h : Hub) (s : Subscriber) : Except Mailbox.Fault Hub := do
  let m ← (h.mailbox s).send n
  return h.setMailbox s m

/-- Closes the mailbox of one subscriber. -/
def closeFor (h : Hub) (s : Subscriber) : Except Mailbox.Fault Hub := do
  let m ← (h.mailbox s).close
  return h.setMailbox s m

/-- Adds a subscriber. -/
def register (h : Hub) (s : Subscriber) : Hub :=
  if h.registered.contains s then h else { h with registered := h.registered ++ [s] }

/-- Removes a subscriber and closes its mailbox, if it is registered. -/
def unregister (h : Hub) (s : Subscriber) : Except Mailbox.Fault Hub :=
  if h.registered.contains s then
    closeFor { h with registered := h.registered.filter (· != s) } s
  else .ok h

/-- The number of registered subscribers. -/
def size (h : Hub) : Nat := h.registered.length

/-- Sends an event to every registered subscriber. -/
def broadcast (h : Hub) (e : Event) : Except Mailbox.Fault Hub :=
  h.registered.foldlM (sendTo (.event e)) h

/-- Removes every subscriber and closes their mailboxes. -/
def closeAll (h : Hub) : Except Mailbox.Fault Hub :=
  h.registered.foldlM closeFor { h with registered := [] }

/-- The oldest message that waits for a subscriber, and the hub after it was read. -/
def receive (h : Hub) (s : Subscriber) : Option Notice × Hub :=
  let (n, m) := (h.mailbox s).receive
  (n, h.setMailbox s m)

/-- Everything that waits for a subscriber, and the hub after it was read. -/
def drain (h : Hub) (s : Subscriber) : List Notice × Hub :=
  let m := h.mailbox s
  (m.waiting, h.setMailbox s m.drain)

end Hub

end LintPool
