import LintPool.Dashboard.Basic
import LintPool.Proofs.Dashboard.Progress

/-!
# Events on the dashboard

As long as no registered subscriber's mailbox is closed, an event can be passed on to all of them,
and it closes none. The counters then follow all events.

## Main definitions

* `LintPool.Hub.Open` : the mailboxes of the registered subscribers are open.
* `LintPool.Dashboard.observeAll` : the dashboard after some events.
* `LintPool.Dashboard.Steady` : the dashboard follows the events of a job, and its counters are
  steady.

## Main results

* `LintPool.Hub.Open.broadcast` : events reach an open hub and leave it open.
* `LintPool.Hub.mailbox_foldlM_sendTo` : a message reaches each subscriber once.
* `LintPool.Dashboard.observeAll_eq` : the counters follow all events.
* `LintPool.Dashboard.steady_of_trail` : what an open dashboard shows of a job.
-/

namespace LintPool

namespace Mailbox

/-- A mailbox after it was closed. -/
def shut (m : Mailbox) : Mailbox := { m with closed := true }

/-- An open mailbox can be closed. -/
lemma close_of_open {m : Mailbox} (hopen : m.closed = false) : m.close = .ok m.shut := by
  rw [close, if_neg (by simp [hopen]), shut]

/-- A message that finds room waits behind the others. -/
lemma waiting_send {box box' : Mailbox} {n : Notice} (hsend : box.send n = .ok box')
    (hroom : box.waiting.length < capacity) : box'.waiting = box.waiting ++ [n] := by
  rw [Mailbox.send, if_pos hroom] at hsend
  split at hsend
  · cases hsend
  · obtain rfl := Except.ok.inj hsend
    rfl

end Mailbox

namespace Hub

variable {h h' : Hub} {s s' : Subscriber}

/-- The mailboxes of the registered subscribers are open. -/
def Open (h : Hub) : Prop := ∀ s ∈ h.registered, (h.mailbox s).closed = false

/-- Looking up a mailbox of another subscriber than the one that is taken out. -/
lemma lookup_filter_ne (hne : s' ≠ s) (boxes : List (Subscriber × Mailbox)) :
    (boxes.filter (·.1 != s)).lookup s' = boxes.lookup s' := by
  induction boxes with
  | nil => rfl
  | cons box boxes ih =>
    obtain ⟨owner, m⟩ := box
    by_cases howner : owner = s
    · subst howner
      rw [List.filter_cons_of_neg (by simp), ih, List.lookup_cons,
        beq_false_of_ne hne]
    · rw [List.filter_cons_of_pos (by simpa using howner), List.lookup_cons, List.lookup_cons, ih]

/-- The mailboxes of a hub in which one was replaced. -/
lemma mailbox_setMailbox (h : Hub) (s s' : Subscriber) (m : Mailbox) :
    (h.setMailbox s m).mailbox s' = if s' = s then m else h.mailbox s' := by
  by_cases hs : s' = s
  · subst hs
    rw [if_pos rfl, mailbox, setMailbox, List.lookup_cons_self]
    rfl
  · rw [if_neg hs, mailbox, setMailbox, List.lookup_cons, beq_false_of_ne hs, lookup_filter_ne hs]
    rfl

/-- Sending to an open mailbox keeps all that are open so. -/
lemma sendTo_of_open (n : Notice) (hs : (h.mailbox s).closed = false) :
    ∃ h', sendTo n h s = .ok h' ∧ h'.registered = h.registered ∧
      ∀ s', (h'.mailbox s').closed = (h.mailbox s').closed := by
  have hsend : ∃ m, (h.mailbox s).send n = .ok m ∧ m.closed = false := by
    rw [Mailbox.send, if_neg (by simp [hs])]
    refine ⟨_, rfl, ?_⟩
    split
    · exact hs
    · exact hs
  obtain ⟨m, hsend, hm⟩ := hsend
  refine ⟨h.setMailbox s m, ?_, rfl, fun s' => ?_⟩
  · rw [sendTo, hsend]
    rfl
  · rw [mailbox_setMailbox]
    split
    · rename_i heq
      rw [hm, heq, hs]
    · rfl

/-- A message can be sent to subscribers, one after another, if all their mailboxes are open. -/
lemma foldlM_sendTo (n : Notice) {subscribers : List Subscriber}
    (hopen : ∀ s ∈ subscribers, (h.mailbox s).closed = false) :
    ∃ h', subscribers.foldlM (sendTo n) h = .ok h' ∧ h'.registered = h.registered ∧
      ∀ s', (h'.mailbox s').closed = (h.mailbox s').closed := by
  induction subscribers generalizing h with
  | nil => exact ⟨h, rfl, rfl, fun _ => rfl⟩
  | cons s subscribers ih =>
    obtain ⟨hs, hopen⟩ := List.forall_mem_cons.mp hopen
    obtain ⟨h₁, hsend, hregistered, hclosed⟩ := sendTo_of_open n hs
    obtain ⟨h₂, hrest, hregistered', hclosed'⟩ :=
      ih (h := h₁) fun s' hs' => (hclosed s').trans (hopen s' hs')
    refine ⟨h₂, ?_, hregistered'.trans hregistered, fun s' => (hclosed' s').trans (hclosed s')⟩
    rw [List.foldlM_cons, hsend]
    exact hrest

/-- **Events reach an open hub**, and leave it open. -/
theorem Open.broadcast (hopen : h.Open) (e : Event) : ∃ h', h.broadcast e = .ok h' ∧ h'.Open := by
  obtain ⟨h', hsend, hregistered, hclosed⟩ := foldlM_sendTo (.event e) hopen
  refine ⟨h', hsend, fun s hs => ?_⟩
  rw [hclosed]
  exact hopen s (hregistered ▸ hs)

/-- What sending to one subscriber does to the mailboxes. -/
lemma mailbox_sendTo {n : Notice} (hsend : sendTo n h s = .ok h') :
    h'.registered = h.registered ∧ (h.mailbox s).send n = .ok (h'.mailbox s) ∧
      ∀ s', s' ≠ s → h'.mailbox s' = h.mailbox s' := by
  cases hmail : (h.mailbox s).send n with
  | error fault =>
    rw [sendTo, hmail] at hsend
    cases hsend
  | ok m =>
    rw [sendTo, hmail] at hsend
    obtain rfl := Except.ok.inj hsend
    refine ⟨rfl, ?_, ?_⟩
    · rw [mailbox_setMailbox, if_pos rfl]
    · intro s' hne
      rw [mailbox_setMailbox, if_neg hne]

/-- A message that is sent to some subscribers, one after another, reaches each of them once. -/
lemma mailbox_foldlM_sendTo {n : Notice} {subscribers : List Subscriber}
    (hnodup : subscribers.Nodup) (hsend : subscribers.foldlM (sendTo n) h = .ok h') :
    h'.registered = h.registered ∧
      (s ∈ subscribers → (h.mailbox s).send n = .ok (h'.mailbox s)) ∧
      (s ∉ subscribers → h'.mailbox s = h.mailbox s) := by
  induction subscribers generalizing h with
  | nil =>
    obtain rfl := Except.ok.inj hsend
    exact ⟨rfl, fun hs => absurd hs List.not_mem_nil, fun _ => rfl⟩
  | cons first others ih =>
    obtain ⟨hfirst, hnodup⟩ := List.nodup_cons.mp hnodup
    rw [List.foldlM_cons] at hsend
    cases hsent : sendTo n h first with
    | error fault =>
      rw [hsent] at hsend
      cases hsend
    | ok h₁ =>
      rw [hsent] at hsend
      obtain ⟨hregistered, hmail, hrest⟩ := mailbox_sendTo hsent
      obtain ⟨hregistered', hin, hout⟩ := ih hnodup hsend
      refine ⟨hregistered'.trans hregistered, ?_⟩
      by_cases hs : s = first
      · subst hs
        refine ⟨fun _ => ?_, fun hs => absurd List.mem_cons_self hs⟩
        rw [hout hfirst]
        exact hmail
      · rw [List.mem_cons, ← hrest s hs]
        exact ⟨fun h => hin (h.resolve_left hs), fun h => hout fun hs' => h (.inr hs')⟩

/-- Registering leaves the mailboxes as they are. -/
lemma mailbox_register (h : Hub) (s s' : Subscriber) :
    (h.register s).mailbox s' = h.mailbox s' := by
  rw [register]
  split <;> rfl

/-- Who is registered after one more subscriber is. -/
lemma mem_register : s' ∈ (h.register s).registered ↔ s' ∈ h.registered ∨ s' = s := by
  rw [register]
  split
  · rename_i hmem
    refine ⟨.inl, ?_⟩
    rintro (hs | rfl)
    · exact hs
    · simpa using hmem
  · rw [List.mem_append, List.mem_singleton]

/-- Nobody is registered twice. -/
lemma nodup_register (hnodup : h.registered.Nodup) (s : Subscriber) :
    (h.register s).registered.Nodup := by
  rw [register]
  split
  · exact hnodup
  · rename_i hs
    exact hnodup.append (List.nodup_singleton s) (List.disjoint_singleton.mpr (by simpa using hs))

/-- An open mailbox can be closed. -/
lemma closeFor_eq (hopen : (h.mailbox s).closed = false) :
    closeFor h s = .ok (h.setMailbox s (h.mailbox s).shut) := by
  rw [closeFor, Mailbox.close_of_open hopen]
  rfl

/-- Removing a subscriber closes its mailbox if it was registered. -/
lemma unregister_eq (hopen : h.Open) (s : Subscriber) :
    ∃ h', h.unregister s = .ok h' ∧ h'.registered = h.registered.filter (· != s) ∧
      ∀ s', h'.mailbox s' =
        if s' = s ∧ s ∈ h.registered then (h.mailbox s').shut else h.mailbox s' := by
  by_cases hs : s ∈ h.registered
  · refine ⟨setMailbox { h with registered := h.registered.filter (· != s) } s
      (h.mailbox s).shut, ?_, rfl, ?_⟩
    · rw [unregister, if_pos (by simpa using hs)]
      exact closeFor_eq (hopen s hs)
    · intro s'
      rw [mailbox_setMailbox]
      by_cases heq : s' = s
      · rw [if_pos heq, if_pos ⟨heq, hs⟩, heq]
      · rw [if_neg heq, if_neg fun h => heq h.1]
        rfl
  · refine ⟨h, ?_, ?_, fun s' => (if_neg fun h => hs h.2).symm⟩
    · rw [unregister, if_neg (by simpa using hs)]
    · rw [List.filter_eq_self.mpr]
      intro s' hs'
      simpa using fun heq : s' = s => hs (heq ▸ hs')

/-- Removing a subscriber keeps all messages, and closes no other mailbox. -/
lemma unregister_of_open (hopen : h.Open) (s : Subscriber) :
    ∃ h', h.unregister s = .ok h' ∧ h'.registered = h.registered.filter (· != s) ∧
      (∀ s', (h'.mailbox s').waiting = (h.mailbox s').waiting) ∧
      ∀ s', s' ∈ h'.registered ∨ s' ∉ h.registered →
        (h'.mailbox s').closed = (h.mailbox s').closed := by
  obtain ⟨h', hleave, hregistered, hmailbox⟩ := unregister_eq hopen s
  refine ⟨h', hleave, hregistered, ?_, ?_⟩
  · intro s'
    rw [hmailbox]
    split <;> rfl
  · intro s' hs'
    rw [hmailbox, if_neg]
    rintro ⟨rfl, hmem⟩
    rcases hs' with hs' | hs'
    · simp [hregistered] at hs'
    · exact hs' hmem

/-- Reading takes the oldest message out of one mailbox. -/
lemma mailbox_receive (h : Hub) (s s' : Subscriber) :
    (h.receive s).2.mailbox s' =
      if s' = s then { h.mailbox s with waiting := (h.mailbox s).waiting.tail }
      else h.mailbox s' := mailbox_setMailbox ..

/-- Reading closes no mailbox. -/
lemma closed_receive (h : Hub) (s s' : Subscriber) :
    ((h.receive s).2.mailbox s').closed = (h.mailbox s').closed := by
  rw [mailbox_receive]
  split
  · rename_i heq
    rw [heq]
  · rfl

end Hub

namespace Dashboard

/-- The dashboard after some events. -/
def observeAll (d : Dashboard) (events : List Event) : Except Mailbox.Fault Dashboard :=
  events.foldlM observe d

/-- An event is followed, and passed on to an open hub. -/
lemma observe_eq {d : Dashboard} (hopen : d.hub.Open) (e : Event) :
    ∃ d', d.observe e = .ok d' ∧ d'.hub.Open ∧ d'.progress = d.progress.after e := by
  obtain ⟨hub, hbroadcast, hopen'⟩ := hopen.broadcast e
  refine ⟨{ progress := d.progress.after e, hub }, ?_, hopen', rfl⟩
  rw [observe, announce, update, hbroadcast]
  rfl

/-- **The counters follow all events** if the hub is open at first. -/
theorem observeAll_eq {d : Dashboard} (hopen : d.hub.Open) (events : List Event) :
    ∃ d', d.observeAll events = .ok d' ∧ d'.progress = d.progress.following events := by
  induction events generalizing d with
  | nil => exact ⟨d, rfl, rfl⟩
  | cons e events ih =>
    obtain ⟨d₁, hobserve, hopen₁, hprogress⟩ := observe_eq hopen e
    obtain ⟨d₂, hrest, hprogress'⟩ := ih hopen₁
    refine ⟨d₂, ?_, ?_⟩
    · rw [observeAll, List.foldlM_cons, hobserve]
      exact hrest
    · rw [hprogress', hprogress]
      rfl

/-- The dashboard follows the events of a job one after another, and its counters are steady. -/
structure Steady (d : Dashboard) (events : List Event) (failed : Prop) : Prop where
  observed : ∀ seen, seen <+: events →
    ∃ d', d.observeAll seen = .ok d' ∧ d'.progress = d.progress.following seen
  steady : d.progress.Steady events failed

/-- **An open dashboard is steady** for events with sums that are in bounds, whatever their stamps
are. -/
theorem steady_of_trail {d : Dashboard} (hopen : d.hub.Open) {started : Event}
    {along events : List Event} {finished : Option Event} {failed : Prop}
    (h : Event.Trail started along finished failed)
    (hevents : events.map Event.plain = started :: (along ++ finished.toList)) :
    d.Steady events failed where
  observed seen _ := observeAll_eq hopen seen
  steady := by
    refine .of_plain ?_
    rw [hevents]
    exact h.steady d.progress

/-- Without events there is nothing to show. -/
lemma steady_nil (d : Dashboard) (failed : Prop) : d.Steady [] failed where
  observed seen hseen := by
    rw [List.prefix_nil.mp hseen]
    exact ⟨d, rfl, rfl⟩
  steady :=
    { bounded := fun _ hne hseen => absurd (List.prefix_nil.mp hseen) hne
      grows := fun _ _ hne hseen hlater =>
        absurd (List.prefix_nil.mp (List.prefix_nil.mp hlater ▸ hseen)) hne
      ends := fun _ hseen hfinished => by
        obtain ⟨e, he, -⟩ := hfinished
        rw [List.prefix_nil.mp hseen] at he
        cases he }

end Dashboard

end LintPool
