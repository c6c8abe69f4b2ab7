import LintPool.Proofs.Dashboard.Hub
import Mathlib

/-!
# What the hub delivers

Subscribers come and go, some of them leave more than once or after the hub was closed, events are
broadcast and read in between. As long as nobody is registered twice, this is safe: no mailbox is
closed twice or sent to after it was closed. What a subscriber reads is the snapshot that it was
sent before it was registered, and then the events that were broadcast while it was registered, in
this order. It misses an event only if its mailbox is full at that moment.

The proof looks at one subscriber at a time. A hub is a family of independent lines, one for each
subscriber, and every action acts on each of the lines by itself. On a single line, what was read
and what still waits always add up to what was due.

## Main definitions

* `LintPool.Hub.Action` : what can happen to a hub.
* `LintPool.Hub.Orderly` : every subscriber is registered at most once, and greeted before that.
* `LintPool.Hub.Log`, `LintPool.Hub.Session` : what is noted down while actions are performed.
* `LintPool.Hub.Line` : what a hub knows of one subscriber.

## Main results

* `LintPool.Hub.Action.perform_of_open` : an action does not fail, and acts on each line by itself.
* `LintPool.Hub.Line.Sound.after` : what was read and what waits are what was due.
* `LintPool.Hub.Session.delivery_of_orderly` : safety and delivery in order.
-/

namespace LintPool

/-- The event that a notice is about. -/
def Notice.event? : Notice → Option Event
  | .snapshot _ => none
  | .event e => some e

namespace Mailbox

variable {m : Mailbox}

/-- An open mailbox after a message was sent to it. -/
def push (m : Mailbox) (n : Notice) : Mailbox :=
  if m.waiting.length < capacity then { m with waiting := m.waiting ++ [n] } else m

/-- An open mailbox can be sent to. -/
lemma send_of_open (hopen : m.closed = false) (n : Notice) : m.send n = .ok (m.push n) := by
  rw [send, if_neg (by simp [hopen]), push]

/-- Sending closes nothing. -/
@[simp]
lemma closed_push (m : Mailbox) (n : Notice) : (m.push n).closed = m.closed := by
  rw [push]
  split <;> rfl

/-- A message that finds room waits behind the others. -/
lemma waiting_push_of_lt (hroom : m.waiting.length < capacity) (n : Notice) :
    (m.push n).waiting = m.waiting ++ [n] := by
  rw [push, if_pos hroom]

/-- A message that finds no room is dropped. -/
lemma push_of_le (hfull : capacity ≤ m.waiting.length) (n : Notice) : m.push n = m := by
  rw [push, if_neg (by omega)]

/-- No more messages wait than there is room for. -/
lemma length_waiting_push_le (hbound : m.waiting.length ≤ capacity) (n : Notice) :
    (m.push n).waiting.length ≤ capacity := by
  by_cases hroom : m.waiting.length < capacity
  · rw [waiting_push_of_lt hroom, List.length_append, List.length_singleton]
    exact hroom
  · rwa [push_of_le (by omega)]

/-- What is read and what is left are what was there. -/
lemma receive_append (m : Mailbox) : m.receive.1.toList ++ m.receive.2.waiting = m.waiting := by
  cases hm : m.waiting with
  | nil => simp [receive, hm]
  | cons n waiting => simp [receive, hm]

end Mailbox

namespace Hub

/-! ## Actions -/

/-- What can happen to a hub and its subscribers. -/
inductive Action where
  /-- A subscriber is sent a snapshot of the counters. -/
  | greet (s : Subscriber) (p : Progress)
  | register (s : Subscriber)
  | unregister (s : Subscriber)
  | broadcast (e : Event)
  | closeAll
  /-- A subscriber reads its oldest message, if there is one. -/
  | read (s : Subscriber)
  deriving DecidableEq

namespace Action

/-- The hub after an action. -/
def perform (h : Hub) : Action → Except Mailbox.Fault Hub
  | greet s p => h.sendTo (.snapshot p) s
  | register s => .ok (h.register s)
  | unregister s => h.unregister s
  | broadcast e => h.broadcast e
  | closeAll => h.closeAll
  | read s => .ok (h.receive s).2

/-- Whether an action may come before another one. Who is registered is not registered again, and
who is registered or greeted is not greeted again. -/
def mayPrecede : Action → Action → Bool
  | register s, register s' => s != s'
  | register s, greet s' _ => s != s'
  | greet s _, greet s' _ => s != s'
  | _, _ => true

end Action

/-- Every subscriber is registered at most once, and it is greeted at most once and before it is
registered. -/
def Orderly (actions : List Action) : Prop := actions.Pairwise fun a b => a.mayPrecede b = true

instance (actions : List Action) : Decidable (Orderly actions) :=
  inferInstanceAs (Decidable (List.Pairwise _ _))

/-- A subscriber is greeted or registered by some actions. -/
def Awaited (s : Subscriber) (actions : List Action) : Prop :=
  .register s ∈ actions ∨ ∃ p, .greet s p ∈ actions

section Order

variable {a : Action} {actions : List Action} {s : Subscriber} {p : Progress}

/-- Who is awaited later on is awaited. -/
lemma Awaited.cons (h : Awaited s actions) : Awaited s (a :: actions) := by
  rcases h with h | ⟨p, h⟩
  · exact .inl (List.mem_cons_of_mem _ h)
  · exact .inr ⟨p, List.mem_cons_of_mem _ h⟩

/-- The later actions are in order too. -/
lemma Orderly.tail (h : Orderly (a :: actions)) : Orderly actions := (List.pairwise_cons.mp h).2

/-- Who is registered is not awaited any more. -/
lemma Orderly.not_awaited (h : Orderly (.register s :: actions)) : ¬ Awaited s actions := by
  have hfirst := (List.pairwise_cons.mp h).1
  rintro (hagain | ⟨p, hagain⟩)
  · simpa [Action.mayPrecede] using hfirst _ hagain
  · simpa [Action.mayPrecede] using hfirst _ hagain

/-- Nobody is greeted twice. -/
lemma Orderly.greet_notMem (h : Orderly (.greet s p :: actions)) (q : Progress) :
    .greet s q ∉ actions := by
  intro hagain
  simpa [Action.mayPrecede] using (List.pairwise_cons.mp h).1 _ hagain

end Order

/-! ## What is noted down -/

/-- An event that is broadcast while a subscriber is registered. -/
structure Offer where
  event : Event
  /-- The number of messages that wait for the subscriber at that moment. -/
  waiting : Nat

/-- What is noted down about one subscriber. -/
structure Log where
  /-- It was registered, and it did not leave since. -/
  joined : Bool := false
  /-- The snapshots that it was sent. -/
  greetings : List Progress := []
  /-- The events that were broadcast while it was registered. -/
  offers : List Offer := []
  /-- What it has read. -/
  heard : List Notice := []

namespace Log

/-- Notes down an action, before which the subscriber has the mailbox `m`. -/
def note (s : Subscriber) (m : Mailbox) (log : Log) : Action → Log
  | .greet s' p => if s' = s then { log with greetings := log.greetings ++ [p] } else log
  | .register s' => if s' = s then { log with joined := true } else log
  | .unregister s' => if s' = s then { log with joined := false } else log
  | .broadcast e =>
    if log.joined then { log with offers := log.offers ++ [⟨e, m.waiting.length⟩] } else log
  | .closeAll => { log with joined := false }
  | .read s' => if s' = s then { log with heard := log.heard ++ m.receive.1.toList } else log

/-- The events that did not find the mailbox full. -/
def kept (log : Log) : List Event :=
  (log.offers.filter (·.waiting ≠ Mailbox.capacity)).map Offer.event

/-- What the subscriber should get: the snapshot, and then the events that did not find its mailbox
full. -/
def due (log : Log) : List Notice := log.greetings.map .snapshot ++ log.kept.map .event

/-- The events that are kept are among those that are offered, in the same order. -/
lemma kept_sublist (log : Log) : log.kept.Sublist (log.offers.map Offer.event) :=
  (List.filter_sublist).map _

/-- The events among what is due. -/
lemma filterMap_due (log : Log) : log.due.filterMap Notice.event? = log.kept := by
  have hsnapshots : (log.greetings.map Notice.snapshot).filterMap Notice.event? = [] := by
    rw [List.filterMap_map, List.filterMap_eq_nil_iff]
    exact fun _ _ => rfl
  have hevents : (log.kept.map Notice.event).filterMap Notice.event? = log.kept := by
    rw [List.filterMap_map]
    exact List.filterMap_some
  rw [due, List.filterMap_append, hsnapshots, hevents, List.nil_append]

end Log

/-- A hub, and what is noted down about its subscribers. -/
structure Session where
  hub : Hub := {}
  log : Subscriber → Log := fun _ => {}

namespace Session

/-- The session after an action. -/
def act (t : Session) (a : Action) : Except Mailbox.Fault Session :=
  (a.perform t.hub).map fun hub =>
    { hub, log := fun s => (t.log s).note s (t.hub.mailbox s) a }

/-- The session after some actions. -/
def run (t : Session) (actions : List Action) : Except Mailbox.Fault Session :=
  actions.foldlM act t

end Session

/-! ## A hub as a family of lines -/

/-- What a hub knows of one subscriber. -/
@[ext]
structure Line where
  registered : Bool
  mailbox : Mailbox

/-- The line of a subscriber. -/
def line (h : Hub) (s : Subscriber) : Line where
  registered := h.registered.contains s
  mailbox := h.mailbox s

namespace Line

/-- A line after its subscriber was removed, if it was registered. -/
def hangUp (l : Line) : Line :=
  if l.registered then { registered := false, mailbox := l.mailbox.shut } else l

/-- The line of the subscriber `s` after an action. -/
def after (s : Subscriber) (l : Line) : Action → Line
  | .greet s' p => if s' = s then { l with mailbox := l.mailbox.push (.snapshot p) } else l
  | .register s' => if s' = s then { l with registered := true } else l
  | .unregister s' => if s' = s then l.hangUp else l
  | .broadcast e => if l.registered then { l with mailbox := l.mailbox.push (.event e) } else l
  | .closeAll => l.hangUp
  | .read s' => if s' = s then { l with mailbox := l.mailbox.receive.2 } else l

end Line

variable {h : Hub} {s s' : Subscriber}

/-- Whether a line belongs to a registered subscriber. -/
lemma registered_line : (h.line s).registered = true ↔ s ∈ h.registered := List.contains_iff_mem

/-- A message can be sent to an open mailbox. -/
lemma sendTo_eq (n : Notice) (h : Hub) (s : Subscriber) (hopen : (h.mailbox s).closed = false) :
    sendTo n h s = .ok (h.setMailbox s ((h.mailbox s).push n)) := by
  rw [sendTo, Mailbox.send_of_open hopen]
  rfl

/-- The mailboxes of some subscribers can be closed, one after another, if all of them are open. -/
lemma foldlM_closeFor {subscribers : List Subscriber} (hnodup : subscribers.Nodup)
    (hopen : ∀ s ∈ subscribers, (h.mailbox s).closed = false) :
    ∃ h', subscribers.foldlM closeFor h = .ok h' ∧ h'.registered = h.registered ∧
      ∀ s, h'.mailbox s = if s ∈ subscribers then (h.mailbox s).shut else h.mailbox s := by
  induction subscribers generalizing h with
  | nil => exact ⟨h, rfl, rfl, fun s => (if_neg List.not_mem_nil).symm⟩
  | cons first others ih =>
    obtain ⟨hfirst, hnodup⟩ := List.nodup_cons.mp hnodup
    obtain ⟨hopen₁, hopen⟩ := List.forall_mem_cons.mp hopen
    -- nobody is closed twice: the others still find their mailboxes as they were
    have hrest : ∀ s ∈ others,
        (h.setMailbox first (h.mailbox first).shut).mailbox s = h.mailbox s := by
      intro s hs
      rw [mailbox_setMailbox, if_neg (ne_of_mem_of_not_mem hs hfirst)]
    obtain ⟨h', hfold, hregistered, hmailbox⟩ := ih hnodup fun s hs => by
      rw [hrest s hs]
      exact hopen s hs
    refine ⟨h', ?_, hregistered, fun s => ?_⟩
    · rw [List.foldlM_cons, closeFor_eq hopen₁]
      exact hfold
    · rw [hmailbox]
      by_cases hs : s ∈ others
      · rw [if_pos hs, if_pos (List.mem_cons_of_mem _ hs), hrest s hs]
      · rw [if_neg hs, mailbox_setMailbox]
        by_cases heq : s = first
        · rw [if_pos heq, if_pos (heq ▸ List.mem_cons_self), heq]
        · rw [if_neg heq, if_neg (by simp [heq, hs])]

/-- An event can be sent to all registered subscribers. -/
lemma broadcast_eq (hnodup : h.registered.Nodup) (hopen : h.Open) (e : Event) :
    ∃ h', h.broadcast e = .ok h' ∧ h'.registered = h.registered ∧
      ∀ s, h'.mailbox s = if s ∈ h.registered then (h.mailbox s).push (.event e)
        else h.mailbox s := by
  obtain ⟨h', hsend, hregistered, -⟩ := foldlM_sendTo (.event e) hopen
  refine ⟨h', hsend, hregistered, fun s => ?_⟩
  obtain ⟨-, hin, hout⟩ := mailbox_foldlM_sendTo hnodup hsend (s := s)
  split
  · rename_i hs
    exact (Except.ok.inj ((Mailbox.send_of_open (hopen s hs) _).symm.trans (hin hs))).symm
  · rename_i hs
    exact hout hs

/-- The lines of a hub in which one mailbox was changed. -/
lemma line_setMailbox (h : Hub) (f : Mailbox → Mailbox) (s s' : Subscriber) :
    (h.setMailbox s' (f (h.mailbox s'))).line s =
      if s' = s then { h.line s with mailbox := f (h.mailbox s) } else h.line s := by
  by_cases hs : s' = s
  · rw [if_pos hs, line, mailbox_setMailbox, if_pos hs.symm, hs]
    rfl
  · rw [if_neg hs, line, mailbox_setMailbox, if_neg (Ne.symm hs)]
    rfl

/-- The lines of a hub with one more subscriber. -/
lemma line_register (h : Hub) (s s' : Subscriber) :
    (h.register s').line s = (h.line s).after s (.register s') := by
  have hmem : (h.register s').registered.contains s = (h.registered.contains s || s' == s) := by
    rw [Bool.eq_iff_iff, List.contains_iff_mem, mem_register, Bool.or_eq_true,
      List.contains_iff_mem, beq_iff_eq, eq_comm]
  rw [line, mailbox_register, hmem]
  by_cases hs : s' = s
  · simp [Line.after, line, hs]
  · simp [Line.after, line, hs]

/-- The lines of a hub after a subscriber was removed: only its own one changes. -/
lemma line_of_unregister {h' : Hub} (hregistered : h'.registered = h.registered.filter (· != s'))
    (hmailbox : ∀ s, h'.mailbox s =
      if s = s' ∧ s' ∈ h.registered then (h.mailbox s).shut else h.mailbox s) (s : Subscriber) :
    h'.line s = (h.line s).after s (.unregister s') := by
  rw [line, hregistered, hmailbox, Line.after]
  by_cases hs : s' = s
  · subst hs
    rw [if_pos rfl]
    by_cases hmem : s' ∈ h.registered
    · simp [Line.hangUp, line, hmem]
    · simp [Line.hangUp, line, hmem]
  · rw [if_neg hs, if_neg fun h => hs h.1.symm]
    exact Line.ext (by simp [line, Ne.symm hs]) rfl

/-- **An action on an open hub does not fail**, and acts on the line of each subscriber by itself.
-/
theorem Action.perform_of_open (hnodup : h.registered.Nodup) (hopen : h.Open) (a : Action)
    (hgreet : ∀ s p, a = .greet s p → (h.mailbox s).closed = false) :
    ∃ h', a.perform h = .ok h' ∧ h'.registered.Nodup ∧
      ∀ s, h'.line s = (h.line s).after s a := by
  cases a with
  | greet s' p =>
    exact ⟨_, sendTo_eq _ h s' (hgreet s' p rfl), hnodup,
      fun s => line_setMailbox h (·.push (.snapshot p)) s s'⟩
  | register s' => exact ⟨_, rfl, nodup_register hnodup s', fun s => line_register h s s'⟩
  | unregister s' =>
    obtain ⟨h', hleave, hregistered, hmailbox⟩ := unregister_eq hopen s'
    exact ⟨h', hleave, hregistered ▸ hnodup.filter _, line_of_unregister hregistered hmailbox⟩
  | broadcast e =>
    obtain ⟨h', hsend, hregistered, hmailbox⟩ := broadcast_eq hnodup hopen e
    refine ⟨h', hsend, hregistered ▸ hnodup, fun s => ?_⟩
    rw [line, hregistered, hmailbox]
    by_cases hs : s ∈ h.registered
    · simp [Line.after, line, hs]
    · simp [Line.after, line, hs]
  | closeAll =>
    obtain ⟨h', hclose, hregistered, hmailbox⟩ :=
      foldlM_closeFor (h := { h with registered := [] }) hnodup hopen
    refine ⟨h', hclose, hregistered ▸ List.nodup_nil, fun s => ?_⟩
    rw [line, hregistered, hmailbox]
    by_cases hs : s ∈ h.registered
    · simp [Line.after, Line.hangUp, line, hs, mailbox]
    · simp [Line.after, Line.hangUp, line, hs, mailbox]
  | read s' =>
    exact ⟨_, rfl, hnodup, fun s => line_setMailbox h (·.receive.2) s s'⟩

/-! ## One line -/

/-- The line and the log of a subscriber fit together, and to the actions that are to come. -/
structure Line.Sound (s : Subscriber) (l : Line) (log : Log) (actions : List Action) : Prop where
  opened : l.registered = true → l.mailbox.closed = false
  joined : log.joined = l.registered
  bounded : l.mailbox.waiting.length ≤ Mailbox.capacity
  awaited : Awaited s actions → l.registered = false ∧ l.mailbox.closed = false
  ungreeted : ∀ p, .greet s p ∈ actions → log = {}
  received : log.heard ++ l.mailbox.waiting = log.due

namespace Line.Sound

variable {l : Line} {log : Log} {a : Action} {actions : List Action}

/-- The actions that are to come become fewer. -/
lemma tail (h : Sound s l log (a :: actions)) : Sound s l log actions where
  __ := h
  awaited hs := h.awaited hs.cons
  ungreeted p hp := h.ungreeted p (List.mem_cons_of_mem _ hp)

/-- Nobody who is registered is awaited. -/
lemma not_awaited (h : Sound s l log actions) (hl : l.registered = true) : ¬ Awaited s actions := by
  intro hs
  rw [(h.awaited hs).1] at hl
  cases hl

/-- Before a subscriber is greeted, nothing waits for it. -/
lemma waiting_eq_nil (h : Sound s l {} actions) : l.mailbox.waiting = [] :=
  (List.append_eq_nil_iff.mp h.received).2

/-- The snapshot is the first message. -/
lemma greet {p : Progress} (h : Sound s l log (.greet s p :: actions))
    (horderly : Orderly (.greet s p :: actions)) :
    Sound s { l with mailbox := l.mailbox.push (.snapshot p) }
      { log with greetings := log.greetings ++ [p] } actions := by
  obtain rfl := h.ungreeted p List.mem_cons_self
  have hempty := h.waiting_eq_nil
  have hroom : l.mailbox.waiting.length < Mailbox.capacity := by
    rw [hempty]
    decide
  refine ⟨?_, h.joined, Mailbox.length_waiting_push_le h.bounded _, ?_, ?_, ?_⟩
  · intro hl
    exact (Mailbox.closed_push ..).trans (h.opened hl)
  · intro hs
    rw [Mailbox.closed_push]
    exact h.awaited hs.cons
  · intro q hq
    exact absurd hq (horderly.greet_notMem q)
  · rw [Mailbox.waiting_push_of_lt hroom, hempty]
    rfl

/-- A subscriber is registered while its mailbox is open. -/
lemma register (h : Sound s l log (.register s :: actions))
    (horderly : Orderly (.register s :: actions)) :
    Sound s { l with registered := true } { log with joined := true } actions where
  opened _ := (h.awaited (.inl List.mem_cons_self)).2
  joined := rfl
  bounded := h.bounded
  awaited hs := absurd hs horderly.not_awaited
  ungreeted p hp := absurd (.inr ⟨p, hp⟩) horderly.not_awaited
  received := h.received

/-- What waits when a subscriber is removed still waits for it. -/
lemma hangUp (h : Sound s l log actions) :
    Sound s l.hangUp { log with joined := false } actions := by
  by_cases hl : l.registered = true
  · rw [Line.hangUp, if_pos hl]
    have hs := h.not_awaited hl
    exact ⟨fun h => absurd h Bool.false_ne_true, rfl, h.bounded, fun h => absurd h hs,
      fun p hp => absurd (.inr ⟨p, hp⟩) hs, h.received⟩
  · rw [Line.hangUp, if_neg hl]
    have hlog : { log with joined := false } = log := by
      rw [← Bool.eq_false_iff.mpr hl, ← h.joined]
    rwa [hlog]

/-- An event waits behind the other messages, or it finds the mailbox full. -/
lemma broadcast (h : Sound s l log actions) (hl : l.registered = true) (e : Event) :
    Sound s { l with mailbox := l.mailbox.push (.event e) }
      { log with offers := log.offers ++ [⟨e, l.mailbox.waiting.length⟩] } actions where
  opened _ := (Mailbox.closed_push ..).trans (h.opened hl)
  joined := h.joined
  bounded := Mailbox.length_waiting_push_le h.bounded _
  awaited hs := absurd hs (h.not_awaited hl)
  ungreeted p hp := absurd (.inr ⟨p, hp⟩) (h.not_awaited hl)
  received := by
    have hreceived := h.received
    rw [Log.due, Log.kept] at hreceived ⊢
    rw [List.filter_append, List.map_append, List.map_append, ← List.append_assoc, ← hreceived]
    by_cases hroom : l.mailbox.waiting.length < Mailbox.capacity
    · rw [Mailbox.waiting_push_of_lt hroom, List.filter_cons_of_pos (by simpa using hroom.ne),
        List.append_assoc]
      rfl
    · have hfull : l.mailbox.waiting.length = Mailbox.capacity := by
        have := h.bounded
        omega
      rw [Mailbox.push_of_le hfull.ge, List.filter_cons_of_neg (by simpa using hfull)]
      simp

/-- A message that is read was the oldest one. -/
lemma read (h : Sound s l log actions) :
    Sound s { l with mailbox := l.mailbox.receive.2 }
      { log with heard := log.heard ++ l.mailbox.receive.1.toList } actions where
  opened := h.opened
  joined := h.joined
  bounded := by
    have hbound := h.bounded
    rw [← l.mailbox.receive_append, List.length_append] at hbound
    exact le_trans (Nat.le_add_left _ _) hbound
  awaited := h.awaited
  ungreeted p hp := by
    obtain rfl := h.ungreeted p hp
    rw [Mailbox.receive, h.waiting_eq_nil]
    rfl
  received := by
    rw [List.append_assoc, Mailbox.receive_append]
    exact h.received

/-- **What was read and what waits are what was due**, also after one more action. -/
theorem after (h : Sound s l log (a :: actions)) (horderly : Orderly (a :: actions)) :
    Sound s (l.after s a) (log.note s l.mailbox a) actions := by
  cases a with
  | greet s' p =>
    rw [Line.after, Log.note]
    by_cases hs : s' = s
    · subst hs
      rw [if_pos rfl, if_pos rfl]
      exact h.greet horderly
    · rw [if_neg hs, if_neg hs]
      exact h.tail
  | register s' =>
    rw [Line.after, Log.note]
    by_cases hs : s' = s
    · subst hs
      rw [if_pos rfl, if_pos rfl]
      exact h.register horderly
    · rw [if_neg hs, if_neg hs]
      exact h.tail
  | unregister s' =>
    rw [Line.after, Log.note]
    by_cases hs : s' = s
    · rw [if_pos hs, if_pos hs]
      exact h.tail.hangUp
    · rw [if_neg hs, if_neg hs]
      exact h.tail
  | broadcast e =>
    rw [Line.after, Log.note]
    by_cases hl : l.registered = true
    · rw [if_pos hl, if_pos (h.joined.trans hl)]
      exact h.tail.broadcast hl e
    · rw [if_neg hl, if_neg (h.joined ▸ hl)]
      exact h.tail
  | closeAll => exact h.tail.hangUp
  | read s' =>
    rw [Line.after, Log.note]
    by_cases hs : s' = s
    · rw [if_pos hs, if_pos hs]
      exact h.tail.read
    · rw [if_neg hs, if_neg hs]
      exact h.tail

end Line.Sound

/-! ## All lines -/

namespace Session

variable {t : Session} {a : Action} {actions : List Action}

/-- Every line is sound. -/
structure Sound (t : Session) (actions : List Action) : Prop where
  nodup : t.hub.registered.Nodup
  line : ∀ s, (t.hub.line s).Sound s (t.log s) actions

namespace Sound

/-- The mailboxes of the registered subscribers are open. -/
lemma opened (h : t.Sound actions) : t.hub.Open :=
  fun s hs => (h.line s).opened (registered_line.mpr hs)

/-- A new hub is sound. -/
lemma init (actions : List Action) : Sound {} actions where
  nodup := List.nodup_nil
  line _ := ⟨fun h => absurd h Bool.false_ne_true, rfl, Nat.zero_le _, fun _ => ⟨rfl, rfl⟩,
    fun _ _ => rfl, rfl⟩

/-- An action does not fail, and keeps the lines sound. -/
theorem act (h : t.Sound (a :: actions)) (horderly : Orderly (a :: actions)) :
    ∃ t', t.act a = .ok t' ∧ t'.Sound actions := by
  have hgreet : ∀ s p, a = .greet s p → (t.hub.mailbox s).closed = false := by
    rintro s p rfl
    exact ((h.line s).awaited (.inr ⟨p, List.mem_cons_self⟩)).2
  obtain ⟨hub, hperform, hnodup, hline⟩ := a.perform_of_open h.nodup h.opened hgreet
  refine ⟨_, by rw [Session.act, hperform]; rfl, hnodup, fun s => ?_⟩
  rw [hline]
  exact (h.line s).after horderly

/-- No action fails, and the lines stay sound. -/
theorem run (h : t.Sound actions) (horderly : Orderly actions) :
    ∃ t', t.run actions = .ok t' ∧ t'.Sound [] := by
  induction actions generalizing t with
  | nil => exact ⟨t, rfl, h⟩
  | cons a actions ih =>
    obtain ⟨t₁, hact, h₁⟩ := h.act horderly
    obtain ⟨t₂, hrun, h₂⟩ := ih h₁ horderly.tail
    refine ⟨t₂, ?_, h₂⟩
    rw [Session.run, List.foldlM_cons, hact]
    exact hrun

end Sound

/-- A subscriber gets what it should. It is registered from its registration until it is removed.
What it has read and what waits for it are its snapshot, and then the events that were broadcast
meanwhile except for those that found its mailbox full. So the events that it has read are some of
those broadcast, in the same order and each of them once. -/
structure Served (t : Session) (s : Subscriber) : Prop where
  registered : s ∈ t.hub.registered ↔ (t.log s).joined = true
  received : (t.log s).heard ++ (t.hub.mailbox s).waiting = (t.log s).due
  inOrder : ((t.log s).heard.filterMap Notice.event?).Sublist ((t.log s).offers.map Offer.event)

/-- A subscriber with a sound line gets what it should. -/
lemma Sound.served (h : t.Sound actions) (s : Subscriber) : t.Served s where
  registered := by rw [(h.line s).joined, registered_line]
  received := (h.line s).received
  inOrder := by
    have hheard : (t.log s).heard.Sublist (t.log s).due := by
      rw [← (h.line s).received]
      exact List.sublist_append_left ..
    have hevents := hheard.filterMap Notice.event?
    rw [Log.filterMap_due] at hevents
    exact hevents.trans (t.log s).kept_sublist

/-- **The hub is safe and delivers in order.** For every orderly list of actions, no mailbox is
closed twice or sent to after it was closed, all registered subscribers have an open mailbox, and
every subscriber gets what it should. The beginnings of an orderly list are orderly, so this holds
at every moment. -/
theorem delivery_of_orderly (horderly : Orderly actions) :
    ∃ t, run {} actions = .ok t ∧ t.hub.Open ∧ ∀ s, t.Served s := by
  obtain ⟨t, hrun, h⟩ := (Sound.init actions).run horderly
  exact ⟨t, hrun, h.opened, h.served⟩

/-- Two subscribers: the first one leaves twice, with a message that it reads only afterwards, and
the second one leaves after the hub was closed. -/
def departures : List Action :=
  [.greet (utf8 "a") {}, .register (utf8 "a"), .broadcast { kind := .workerConnected },
    .register (utf8 "b"), .read (utf8 "a"), .broadcast { kind := .batchCompleted, files := 20 },
    .unregister (utf8 "a"), .unregister (utf8 "a"), .broadcast { kind := .workerLost }, .closeAll,
    .broadcast { kind := .jobFinished }, .unregister (utf8 "b"), .closeAll, .read (utf8 "a"),
    .read (utf8 "a"), .read (utf8 "b")]

/-- Both of them get what they should. -/
theorem delivery_of_departures : Orderly departures ∧
    ∃ t, run {} departures = .ok t ∧ t.hub.Open ∧ ∀ s, t.Served s :=
  ⟨by decide, delivery_of_orderly (by decide)⟩

end Session

end Hub

end LintPool
