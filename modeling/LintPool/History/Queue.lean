import LintPool.History.Record

/-!
# The queue of writes

Changes of the history wait in a queue, so that the job does not wait for them. A change that finds
the queue full is dropped.

## Main definitions

* `LintPool.History.Queue` : waiting changes.
* `LintPool.History.Queue.add` : adding a change.
* `LintPool.History.Queue.observe` : what an event adds.
-/

namespace LintPool.History

/-- Changes that wait to be made, the oldest first. -/
structure Queue (α : Type) where
  capacity : Nat
  waiting : List α := []

namespace Queue

/-- The usual number of changes that can wait. -/
def defaultCapacity : Nat := 1024

/-- Whether a queue has room for one more change. -/
def hasRoom {α : Type} (q : Queue α) : Bool := q.waiting.length < q.capacity

/-- A queue after a change was offered to it. -/
def add {α : Type} (q : Queue α) (x : α) : Queue α :=
  if q.hasRoom then { q with waiting := q.waiting ++ [x] } else q

/-- The log line about a change that is dropped. -/
def dropLine (w : Write) : Bytes := utf8 "[store] write queue full, dropping " ++ w.name

/-- A queue after an event, and the lines that are logged. -/
def observe (q : Queue Write) (e : Event) : Queue Write × List Bytes :=
  match Write.ofEvent? e with
  | none => (q, [])
  | some w => (q.add w, if q.hasRoom then [] else [dropLine w])

end Queue

end LintPool.History
