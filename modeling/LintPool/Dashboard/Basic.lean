import LintPool.Dashboard.Hub

/-!
# The dashboard

The dashboard follows the events of a job and passes them on to its subscribers. Following an event
takes two steps, and so does a new subscription: between the two, other steps may come.

## Main definitions

* `LintPool.Dashboard` : counters and subscribers.
* `LintPool.Dashboard.update`, `LintPool.Dashboard.announce` : the two steps of following an event.
* `LintPool.Dashboard.greet`, `LintPool.Dashboard.enroll` : the two steps of a subscription.
-/

namespace LintPool

/-- The counters of the current job, and the subscribers. -/
structure Dashboard where
  progress : Progress := {}
  hub : Hub := {}

namespace Dashboard

/-- Brings the counters up to date with an event. -/
def update (d : Dashboard) (e : Event) : Dashboard := { d with progress := d.progress.after e }

/-- Passes an event on to the registered subscribers. -/
def announce (d : Dashboard) (e : Event) : Except Mailbox.Fault Dashboard := do
  let hub ← d.hub.broadcast e
  return { d with hub }

/-- Follows an event. -/
def observe (d : Dashboard) (e : Event) : Except Mailbox.Fault Dashboard := (d.update e).announce e

/-- Sends the counters to a subscriber as its first message. -/
def greet (d : Dashboard) (s : Subscriber) : Except Mailbox.Fault Dashboard := do
  let hub ← d.hub.sendTo (.snapshot d.progress) s
  return { d with hub }

/-- Registers a subscriber. -/
def enroll (d : Dashboard) (s : Subscriber) : Dashboard := { d with hub := d.hub.register s }

/-- A new subscription. -/
def subscribe (d : Dashboard) (s : Subscriber) : Except Mailbox.Fault Dashboard := do
  let d ← d.greet s
  return d.enroll s

/-- The end of a subscription. -/
def unsubscribe (d : Dashboard) (s : Subscriber) : Except Mailbox.Fault Dashboard := do
  let hub ← d.hub.unregister s
  return { d with hub }

/-- The end of all subscriptions. -/
def closeAll (d : Dashboard) : Except Mailbox.Fault Dashboard := do
  let hub ← d.hub.closeAll
  return { d with hub }

end Dashboard

end LintPool
