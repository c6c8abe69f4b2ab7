import LintPool.Proofs.Dashboard.Hub
import Mathlib

/-!
# Subscribing while events come in

Following an event takes two steps, and so does subscribing. Steps of different calls interleave in
any order, subscribers read their messages in between, and some leave. A new subscriber is sent a
snapshot of the counters and, once it is registered, all events that are announced from then on. It
may bring the snapshot up to date with these events.

This does not always give the counters of the dashboard. An event that is announced before the
subscriber is registered, but was not in the snapshot, is lost; one that was in the snapshot, but is
announced only after the subscriber is registered, is counted twice. Apart from these the counters
are the same.

## Main definitions

* `LintPool.Dashboard.Call`, `LintPool.Dashboard.Move` : calls of two steps, and what happens.
* `LintPool.Dashboard.Session` : a dashboard and what its subscribers have read.
* `LintPool.Dashboard.underway` : the calls between their steps.
* `LintPool.Dashboard.Feed` : what one subscriber knows.
* `LintPool.Dashboard.lost`, `LintPool.Dashboard.doubled` : the events that are not counted once.

## Main results

* `LintPool.Dashboard.Session.Ready.move` : no move fails.
* `LintPool.Dashboard.Session.feed_move` : what a move does to one subscriber's feed.
* `LintPool.Dashboard.Session.account_of_interleaving` : what a subscriber receives, and by how much
  its counters differ.
-/

namespace LintPool

/-- The counters of someone who is told something: a snapshot replaces them, and an event is
followed. -/
def Progress.told (p : Progress) : Notice → Progress
  | .snapshot q => q
  | .event e => p.after e

/-- The counters of someone who is told of events. -/
lemma Progress.foldl_told_event (p : Progress) (events : List Event) :
    (events.map Notice.event).foldl told p = p.following events := by
  rw [List.foldl_map]
  rfl

namespace Dashboard

/-! ## Calls and moves -/

/-- A call that takes two steps. -/
inductive Call where
  | observe (e : Event)
  | subscribe (s : Subscriber)
  deriving DecidableEq

namespace Call

/-- The first step of a call. -/
def first : Call → Dashboard → Except Mailbox.Fault Dashboard
  | observe e, d => .ok (d.update e)
  | subscribe s, d => d.greet s

/-- The second step of a call. -/
def second : Call → Dashboard → Except Mailbox.Fault Dashboard
  | observe e, d => d.announce e
  | subscribe s, d => .ok (d.enroll s)

/-- A call whose steps are not interrupted. -/
lemma first_bind_second (c : Call) (d : Dashboard) :
    (c.first d >>= c.second) =
      match c with
      | observe e => d.observe e
      | subscribe s => d.subscribe s := by
  cases c <;> rfl

/-- The event that a call is about. -/
def event? : Call → Option Event
  | observe e => some e
  | subscribe _ => none

end Call

/-- What can happen to a dashboard. -/
inductive Move where
  | first (c : Call)
  | second (c : Call)
  | read (s : Subscriber)
  | leave (s : Subscriber)
  deriving DecidableEq

/-- A dashboard, and what its subscribers have read. -/
structure Session where
  dashboard : Dashboard
  heard : Subscriber → List Notice := fun _ => []

/-- A dashboard of which nobody has read anything. -/
def session (d : Dashboard) : Session where
  dashboard := d

namespace Session

/-- The session after a move. -/
def move (t : Session) : Move → Except Mailbox.Fault Session
  | .first c => (c.first t.dashboard).map fun d => { t with dashboard := d }
  | .second c => (c.second t.dashboard).map fun d => { t with dashboard := d }
  | .read s =>
    let (notice, hub) := t.dashboard.hub.receive s
    .ok { dashboard := { t.dashboard with hub }
          heard := Function.update t.heard s (t.heard s ++ notice.toList) }
  | .leave s => (t.dashboard.unsubscribe s).map fun d => { t with dashboard := d }

/-- The session after some moves. -/
def run (t : Session) (moves : List Move) : Except Mailbox.Fault Session := moves.foldlM move t

/-- What a subscriber has been sent: what it has read, and what waits for it. -/
def received (t : Session) (s : Subscriber) : List Notice :=
  t.heard s ++ (t.dashboard.hub.mailbox s).waiting

/-- The counters of a subscriber once it has read everything. -/
def view (t : Session) (s : Subscriber) : Progress := (t.received s).foldl Progress.told {}

/-- The mailbox of a subscriber is never full, neither now nor after any of some moves. -/
def Roomy (s : Subscriber) : Session → List Move → Prop
  | t, [] => (t.dashboard.hub.mailbox s).waiting.length < Mailbox.capacity
  | t, m :: moves => (t.dashboard.hub.mailbox s).waiting.length < Mailbox.capacity ∧
    ∀ t', t.move m = .ok t' → Roomy s t' moves

end Session

/-- The calls whose first step is among some moves, in this order. -/
def started : List Move → List Call :=
  List.filterMap fun
    | .first c => some c
    | _ => none

/-- The calls whose second step is among some moves, in this order. -/
def finished : List Move → List Call :=
  List.filterMap fun
    | .second c => some c
    | _ => none

/-- The calls between their two steps after a move. Only a call that is between its steps can
finish. -/
def pass (calls : List Call) : Move → Option (List Call)
  | .first c => some (c :: calls)
  | .second c => if c ∈ calls then some (calls.erase c) else none
  | .read _ => some calls
  | .leave _ => some calls

/-- The calls between their two steps after some moves. -/
def underway (calls : List Call) (moves : List Move) : Option (List Call) := moves.foldlM pass calls

/-- The events with which some moves bring the counters up to date. -/
def updated (moves : List Move) : List Event := (started moves).filterMap Call.event?

/-- The events that some moves pass on. -/
def announced (moves : List Move) : List Event := (finished moves).filterMap Call.event?

/-- The first steps among more moves. -/
lemma started_append (moves later : List Move) :
    started (moves ++ later) = started moves ++ started later := List.filterMap_append

/-- The second steps among more moves. -/
lemma finished_append (moves later : List Move) :
    finished (moves ++ later) = finished moves ++ finished later := List.filterMap_append

/-- The events of more moves. -/
lemma updated_append (moves later : List Move) :
    updated (moves ++ later) = updated moves ++ updated later := by
  rw [updated, started_append, List.filterMap_append, updated, updated]

/-- The announced events of more moves. -/
lemma announced_append (moves later : List Move) :
    announced (moves ++ later) = announced moves ++ announced later := by
  rw [announced, finished_append, List.filterMap_append, announced, announced]

/-- The calls whose first step is among some moves. -/
lemma mem_started {c : Call} {moves : List Move} : c ∈ started moves ↔ .first c ∈ moves := by
  rw [started, List.mem_filterMap]
  refine ⟨?_, fun h => ⟨_, h, rfl⟩⟩
  rintro ⟨m, hm, hc⟩
  cases m <;> simp_all

/-- The calls whose second step is among some moves. -/
lemma mem_finished {c : Call} {moves : List Move} : c ∈ finished moves ↔ .second c ∈ moves := by
  rw [finished, List.mem_filterMap]
  refine ⟨?_, fun h => ⟨_, h, rfl⟩⟩
  rintro ⟨m, hm, hc⟩
  cases m <;> simp_all

section Calls

variable {calls calls' : List Call} {moves : List Move}

/-- A call can finish if it is between its steps. -/
lemma pass_second {c : Call} :
    pass calls (.second c) = some calls' ↔ c ∈ calls ∧ calls' = calls.erase c := by
  by_cases hc : c ∈ calls
  · simp [pass, hc, eq_comm]
  · simp [pass, hc]

/-- The calls between their steps, move by move. -/
lemma underway_cons (calls : List Call) (m : Move) (moves : List Move) :
    underway calls (m :: moves) = (pass calls m).bind (underway · moves) := List.foldlM_cons

/-- The calls between their steps at some point of a run. -/
lemma exists_underway {later : List Move} (h : underway calls (moves ++ later) = some calls') :
    ∃ calls₁, underway calls moves = some calls₁ ∧ underway calls₁ later = some calls' := by
  rw [underway, List.foldlM_append] at h
  exact Option.bind_eq_some_iff.mp h

/-- Every call that has started is finished or underway. -/
lemma perm_of_underway (h : underway calls moves = some calls') :
    (calls ++ started moves).Perm (finished moves ++ calls') := by
  induction moves generalizing calls with
  | nil =>
    obtain rfl := Option.some.inj h
    simp [started, finished]
  | cons m moves ih =>
    rw [underway_cons] at h
    cases m with
    | first c =>
      have hrest : underway (c :: calls) moves = some calls' := h
      exact List.perm_middle.trans (ih hrest)
    | second c =>
      obtain ⟨calls₁, hpass, hrest⟩ := Option.bind_eq_some_iff.mp h
      obtain ⟨hc, rfl⟩ := pass_second.mp hpass
      have hcalls : calls.Perm (c :: calls.erase c) := List.perm_cons_erase hc
      exact (hcalls.append_right _).trans ((ih hrest).cons c)
    | read s => exact ih h
    | leave s => exact ih h

/-- Every event with which the counters were brought up to date is announced, or its call is
underway. -/
lemma perm_updated (h : underway calls moves = some calls') :
    (calls.filterMap Call.event? ++ updated moves).Perm
      (announced moves ++ calls'.filterMap Call.event?) := by
  have hperm := (perm_of_underway h).filterMap Call.event?
  rwa [List.filterMap_append, List.filterMap_append] at hperm

end Calls

/-! ## Moves do not fail -/

namespace Session

/-- Whoever is registered has an open mailbox, and whoever subscribes is new. -/
structure Ready (t : Session) (calls : List Call) (moves : List Move) : Prop where
  nodup : t.dashboard.hub.registered.Nodup
  opened : t.dashboard.hub.Open
  once : ∀ s, (calls ++ started moves).count (.subscribe s) ≤ 1
  new : ∀ s, .subscribe s ∈ calls ++ started moves →
    s ∉ t.dashboard.hub.registered ∧ (t.dashboard.hub.mailbox s).closed = false

variable {t t' : Session} {calls calls' : List Call} {moves : List Move} {m : Move}

/-- What matters to whether moves can fail is who is registered and which mailboxes are closed. -/
lemma Ready.mono {moves' : List Move} (h : t.Ready calls moves)
    (hcalls : (calls' ++ started moves').Subperm (calls ++ started moves))
    (hregistered : t'.dashboard.hub.registered = t.dashboard.hub.registered)
    (hclosed : ∀ s, (t'.dashboard.hub.mailbox s).closed = (t.dashboard.hub.mailbox s).closed) :
    t'.Ready calls' moves' where
  nodup := hregistered ▸ h.nodup
  opened s hs := by
    rw [hclosed]
    exact h.opened s (hregistered ▸ hs)
  once s := (hcalls.count_le _).trans (h.once s)
  new s hs := by
    rw [hregistered, hclosed]
    exact h.new s (hcalls.subset hs)

/-- No call is underway or to come that was not before. -/
lemma subperm_of_pass (hpass : pass calls m = some calls') (moves : List Move) :
    (calls' ++ started moves).Subperm (calls ++ started (m :: moves)) := by
  cases m with
  | first c =>
    obtain rfl := Option.some.inj hpass
    exact List.perm_middle.symm.subperm
  | second c =>
    obtain ⟨-, rfl⟩ := pass_second.mp hpass
    exact (List.erase_sublist.append_right _).subperm
  | read s | leave s =>
    obtain rfl := Option.some.inj hpass
    exact List.Subperm.refl _

/-- A subscriber that is new can be registered. -/
lemma Ready.enroll {s : Subscriber} (h : t.Ready calls (.second (.subscribe s) :: moves))
    (hs : .subscribe s ∈ calls) :
    Ready { t with dashboard := t.dashboard.enroll s } (calls.erase (.subscribe s)) moves := by
  have hcalls : (calls.erase (.subscribe s) ++ started moves).Subperm
      (calls ++ started (.second (.subscribe s) :: moves)) :=
    subperm_of_pass (pass_second.mpr ⟨hs, rfl⟩) moves
  refine ⟨Hub.nodup_register h.nodup s, ?_, fun s' => (hcalls.count_le _).trans (h.once s'), ?_⟩
  · intro s' hs'
    rw [Dashboard.enroll, Hub.mailbox_register]
    rcases Hub.mem_register.mp hs' with hs' | rfl
    · exact h.opened s' hs'
    · exact (h.new s' (List.mem_append_left _ hs)).2
  · intro s' hs'
    obtain ⟨hnew, hopen⟩ := h.new s' (hcalls.subset hs')
    rw [Dashboard.enroll, Hub.mailbox_register, Hub.mem_register, not_or]
    refine ⟨⟨hnew, ?_⟩, hopen⟩
    -- a second subscription of the same subscriber would have been there before
    rintro rfl
    have hcount : (calls ++ started moves).count (.subscribe s') ≤ 1 := h.once s'
    have hthere := List.count_pos_iff.mpr hs
    have hagain := List.count_pos_iff.mpr hs'
    rw [List.count_append, List.count_erase_self] at hagain
    rw [List.count_append] at hcount
    omega

/-- A subscriber can leave, and whoever is new stays so. -/
lemma Ready.leave {s : Subscriber} (h : t.Ready calls (.leave s :: moves)) :
    ∃ t', t.move (.leave s) = .ok t' ∧ t'.Ready calls moves := by
  obtain ⟨hub, hleave, hregistered, -, hclosed⟩ := Hub.unregister_of_open h.opened s
  refine ⟨{ t with dashboard := { t.dashboard with hub } }, ?_, ?_, ?_, h.once, ?_⟩
  · rw [move, unsubscribe, hleave]
    rfl
  · rw [hregistered]
    exact h.nodup.filter _
  · intro s' hs'
    rw [hclosed s' (.inl hs')]
    rw [hregistered] at hs'
    exact h.opened s' (List.mem_of_mem_filter hs')
  · intro s' hs'
    obtain ⟨hnew, hopen⟩ := h.new s' hs'
    rw [hclosed s' (.inr hnew), hregistered]
    exact ⟨fun hmem => hnew (List.mem_of_mem_filter hmem), hopen⟩

/-- **No move fails** as long as those who subscribe are new, and they stay so. -/
theorem Ready.move (h : t.Ready calls (m :: moves)) (hpass : pass calls m = some calls') :
    ∃ t', t.move m = .ok t' ∧ t'.Ready calls' moves := by
  have hcalls := subperm_of_pass hpass moves
  cases m with
  | first c =>
    cases c with
    | observe e => exact ⟨_, rfl, h.mono hcalls rfl fun _ => rfl⟩
    | subscribe s =>
      have hopen := (h.new s (List.mem_append_right _ List.mem_cons_self)).2
      obtain ⟨hub, hsend, hregistered, hclosed⟩ :=
        Hub.sendTo_of_open (.snapshot t.dashboard.progress) hopen
      refine ⟨{ t with dashboard := { t.dashboard with hub } }, ?_,
        h.mono hcalls hregistered hclosed⟩
      rw [Session.move, Call.first, greet, hsend]
      rfl
  | second c =>
    obtain ⟨hc, rfl⟩ := pass_second.mp hpass
    cases c with
    | observe e =>
      obtain ⟨hub, hsend, hregistered, hclosed⟩ := Hub.foldlM_sendTo (.event e) h.opened
      refine ⟨{ t with dashboard := { t.dashboard with hub } }, ?_,
        h.mono hcalls hregistered hclosed⟩
      rw [Session.move, Call.second, announce, Hub.broadcast, hsend]
      rfl
    | subscribe s => exact ⟨_, rfl, h.enroll hc⟩
  | read s => exact ⟨_, rfl, h.mono hcalls rfl (Hub.closed_receive t.dashboard.hub s)⟩
  | leave s =>
    obtain rfl := Option.some.inj hpass
    exact h.leave

end Session

/-! ## What one subscriber knows -/

/-- What matters to one subscriber: the counters of the dashboard, whether it is registered, and
what it was sent. -/
@[ext]
structure Feed where
  progress : Progress
  joined : Bool
  received : List Notice

namespace Feed

/-- What a move sends to a subscriber. -/
def sent (s : Subscriber) (f : Feed) : Move → Option Notice
  | .first (.subscribe s') => if s' = s then some (.snapshot f.progress) else none
  | .second (.observe e) => if f.joined then some (.event e) else none
  | _ => none

/-- Whether a subscriber is registered after a move. -/
def joinedAfter (s : Subscriber) (f : Feed) : Move → Bool
  | .second (.subscribe s') => if s' = s then true else f.joined
  | .leave s' => if s' = s then false else f.joined
  | _ => f.joined

/-- The feed of a subscriber after a move. -/
def after (s : Subscriber) (f : Feed) (m : Move) : Feed where
  progress := f.progress.following (updated [m])
  joined := f.joinedAfter s m
  received := f.received ++ (f.sent s m).toList

/-- The feed of a subscriber after some moves. -/
def follow (s : Subscriber) (f : Feed) (moves : List Move) : Feed := moves.foldl (after s) f

variable {s : Subscriber} {m : Move} {moves : List Move}

/-- The counters follow the events. -/
lemma progress_follow (s : Subscriber) (f : Feed) (moves : List Move) :
    (f.follow s moves).progress = f.progress.following (updated moves) := by
  induction moves generalizing f with
  | nil => rfl
  | cons m moves ih =>
    calc ((f.after s m).follow s moves).progress
        = (f.progress.following (updated [m])).following (updated moves) := by
          rw [ih]
          rfl
      _ = f.progress.following (updated ([m] ++ moves)) := by
          rw [updated_append, Progress.following_append]

/-- A subscriber neither comes nor leaves with any of some moves. -/
structure Settled (s : Subscriber) (moves : List Move) : Prop where
  first : .first (.subscribe s) ∉ moves
  second : .second (.subscribe s) ∉ moves
  leave : .leave s ∉ moves

/-- A subscriber that neither comes nor leaves with a move stays registered or not, and is sent what
the move announces if it is. -/
lemma after_of_settled (h : Settled s [m]) (f : Feed) :
    f.joinedAfter s m = f.joined ∧
      (f.sent s m).toList = if f.joined then (announced [m]).map .event else [] := by
  cases m with
  | first c =>
    cases c with
    | observe e => simp [joinedAfter, sent, announced, finished]
    | subscribe s' =>
      have hne : s' ≠ s := by
        rintro rfl
        exact h.first List.mem_cons_self
      simp [joinedAfter, sent, hne, announced, finished]
  | second c =>
    cases c with
    | observe e =>
      refine ⟨rfl, ?_⟩
      show (if f.joined then some (Notice.event e) else none).toList = _
      split <;> rfl
    | subscribe s' =>
      have hne : s' ≠ s := by
        rintro rfl
        exact h.second List.mem_cons_self
      simp [joinedAfter, sent, hne, announced, finished, Call.event?]
  | read s' => simp [joinedAfter, sent, announced, finished]
  | leave s' =>
    have hne : s' ≠ s := by
      rintro rfl
      exact h.leave List.mem_cons_self
    simp [joinedAfter, sent, hne, announced, finished]

/-- A subscriber that neither comes nor leaves receives what is announced, if it is registered. -/
lemma follow_of_settled (h : Settled s moves) (f : Feed) :
    (f.follow s moves).joined = f.joined ∧
      (f.follow s moves).received =
        f.received ++ if f.joined then (announced moves).map .event else [] := by
  induction moves generalizing f with
  | nil => simp [follow, announced, finished]
  | cons m moves ih =>
    have hm : Settled s [m] := by
      refine ⟨fun hmem => h.first ?_, fun hmem => h.second ?_, fun hmem => h.leave ?_⟩ <;>
        exact List.mem_singleton.mp hmem ▸ List.mem_cons_self
    have hmoves : Settled s moves :=
      ⟨fun hmem => h.first (List.mem_cons_of_mem m hmem),
        fun hmem => h.second (List.mem_cons_of_mem m hmem),
        fun hmem => h.leave (List.mem_cons_of_mem m hmem)⟩
    obtain ⟨hjoined, hsent⟩ := after_of_settled hm f
    obtain ⟨hjoined', hreceived⟩ := ih hmoves (f.after s m)
    refine ⟨hjoined'.trans hjoined, hreceived.trans ?_⟩
    have hcons : announced (m :: moves) = announced [m] ++ announced moves :=
      announced_append [m] moves
    simp only [after, hjoined, hsent, hcons]
    split <;> simp

/-- The feed of a subscriber after more moves. -/
lemma follow_append (s : Subscriber) (f : Feed) (moves later : List Move) :
    f.follow s (moves ++ later) = (f.follow s moves).follow s later := List.foldl_append ..

/-- The feed of a subscriber, move by move. -/
lemma follow_cons (s : Subscriber) (f : Feed) (m : Move) (moves : List Move) :
    f.follow s (m :: moves) = (f.after s m).follow s moves := rfl

/-- With its first step a subscriber is sent a snapshot. -/
lemma after_first (s : Subscriber) (f : Feed) :
    (f.after s (.first (.subscribe s))).joined = f.joined ∧
      (f.after s (.first (.subscribe s))).received = f.received ++ [.snapshot f.progress] := by
  simp [after, joinedAfter, sent]

/-- With its second step a subscriber is registered. -/
lemma after_second (s : Subscriber) (f : Feed) :
    (f.after s (.second (.subscribe s))).joined = true ∧
      (f.after s (.second (.subscribe s))).received = f.received := by
  simp [after, joinedAfter, sent]

/-- **What a new subscriber receives**: a snapshot of the counters at its first step, and the events
that are announced after its second one. -/
lemma received_follow {before between later : List Move} {f : Feed} (hjoined : f.joined = false)
    (hbefore : Settled s before) (hbetween : Settled s between) (hlater : Settled s later) :
    (f.follow s (before ++ .first (.subscribe s) ::
      (between ++ .second (.subscribe s) :: later))).received =
      f.received ++ .snapshot (f.progress.following (updated before)) ::
        (announced later).map .event := by
  obtain ⟨hjoined₁, hreceived₁⟩ := follow_of_settled hbefore f
  rw [hjoined, if_neg (by simp), List.append_nil] at hreceived₁
  rw [hjoined] at hjoined₁
  rw [follow_append]
  -- its first step
  obtain ⟨hjoined₂, hreceived₂⟩ := after_first s (f.follow s before)
  rw [hreceived₁, progress_follow] at hreceived₂
  have hreceived₃ :=
    (follow_of_settled hbetween ((f.follow s before).after s (.first (.subscribe s)))).2
  rw [hjoined₂, hjoined₁, if_neg (by simp), List.append_nil, hreceived₂] at hreceived₃
  -- its second step
  obtain ⟨hjoined₄, hreceived₄⟩ :=
    after_second s (((f.follow s before).after s (.first (.subscribe s))).follow s between)
  rw [follow_cons, follow_append, follow_cons, (follow_of_settled hlater _).2, hjoined₄, if_pos rfl,
    hreceived₄, hreceived₃, List.append_assoc, List.singleton_append]

end Feed

namespace Session

/-- What matters to one subscriber. -/
def feed (t : Session) (s : Subscriber) : Feed where
  progress := t.dashboard.progress
  joined := t.dashboard.hub.registered.contains s
  received := t.received s

section Feed

variable {t t' : Session} {s s' : Subscriber} {e : Event} {m : Move}

/-- A snapshot reaches the subscriber that it is for. -/
lemma feed_greet (hroom : (t.dashboard.hub.mailbox s).waiting.length < Mailbox.capacity)
    (hmove : t.move (.first (.subscribe s')) = .ok t') :
    t'.feed s = (t.feed s).after s (.first (.subscribe s')) := by
  cases hsend : Hub.sendTo (.snapshot t.dashboard.progress) t.dashboard.hub s' with
  | error fault =>
    rw [move, Call.first, greet, hsend] at hmove
    cases hmove
  | ok hub =>
    rw [move, Call.first, greet, hsend] at hmove
    obtain rfl := Except.ok.inj hmove
    obtain ⟨hregistered, hmail, hothers⟩ := Hub.mailbox_sendTo hsend
    refine Feed.ext rfl (congrArg (List.contains · s) hregistered) ?_
    show t.heard s ++ (hub.mailbox s).waiting = t.received s ++
      (if s' = s then some (Notice.snapshot t.dashboard.progress) else none).toList
    by_cases hs : s' = s
    · subst hs
      rw [if_pos rfl, Mailbox.waiting_send hmail hroom, ← List.append_assoc]
      rfl
    · rw [if_neg hs, hothers s (Ne.symm hs)]
      exact (List.append_nil _).symm

/-- An event reaches everyone who is registered. -/
lemma feed_announce (hnodup : t.dashboard.hub.registered.Nodup)
    (hroom : (t.dashboard.hub.mailbox s).waiting.length < Mailbox.capacity)
    (hmove : t.move (.second (.observe e)) = .ok t') :
    t'.feed s = (t.feed s).after s (.second (.observe e)) := by
  cases hsend : t.dashboard.hub.broadcast e with
  | error fault =>
    rw [move, Call.second, announce, hsend] at hmove
    cases hmove
  | ok hub =>
    rw [move, Call.second, announce, hsend] at hmove
    obtain rfl := Except.ok.inj hmove
    obtain ⟨hregistered, hin, hout⟩ := Hub.mailbox_foldlM_sendTo (s := s) hnodup hsend
    refine Feed.ext rfl (congrArg (List.contains · s) hregistered) ?_
    show t.heard s ++ (hub.mailbox s).waiting = t.received s ++
      (if t.dashboard.hub.registered.contains s then some (Notice.event e) else none).toList
    by_cases hs : s ∈ t.dashboard.hub.registered
    · rw [if_pos (List.contains_iff_mem.mpr hs), Mailbox.waiting_send (hin hs) hroom,
        ← List.append_assoc]
      rfl
    · rw [if_neg (List.contains_iff_mem.not.mpr hs), hout hs]
      exact (List.append_nil _).symm

/-- Reading is not receiving. -/
lemma received_read (t : Session) (s s' : Subscriber) :
    Function.update t.heard s' (t.heard s' ++ (t.dashboard.hub.receive s').1.toList) s ++
      ((t.dashboard.hub.receive s').2.mailbox s).waiting = t.received s := by
  rw [Hub.mailbox_receive]
  by_cases hs : s = s'
  · subst hs
    rw [Function.update_self, if_pos rfl, List.append_assoc, received]
    congr 1
    show (t.dashboard.hub.mailbox s).waiting.head?.toList ++
      (t.dashboard.hub.mailbox s).waiting.tail = (t.dashboard.hub.mailbox s).waiting
    cases (t.dashboard.hub.mailbox s).waiting <;> rfl
  · rw [Function.update_of_ne hs, if_neg hs, received]

/-- **What a move does to the feed of one subscriber**, if its mailbox is not full. -/
theorem feed_move (hnodup : t.dashboard.hub.registered.Nodup) (hopen : t.dashboard.hub.Open)
    (hroom : (t.dashboard.hub.mailbox s).waiting.length < Mailbox.capacity)
    (hmove : t.move m = .ok t') : t'.feed s = (t.feed s).after s m := by
  cases m with
  | first c =>
    cases c with
    | observe e =>
      obtain rfl := Except.ok.inj hmove
      exact Feed.ext rfl rfl (List.append_nil _).symm
    | subscribe s' => exact feed_greet hroom hmove
  | second c =>
    cases c with
    | observe e => exact feed_announce hnodup hroom hmove
    | subscribe s' =>
      obtain rfl := Except.ok.inj hmove
      refine Feed.ext rfl ?_ ?_
      · show (t.dashboard.hub.register s').registered.contains s =
          if s' = s then true else t.dashboard.hub.registered.contains s
        rw [Bool.eq_iff_iff, List.contains_iff_mem, Hub.mem_register]
        by_cases hs : s' = s
        · simp [hs]
        · simp [hs, Ne.symm hs]
      · show t.heard s ++ ((t.dashboard.hub.register s').mailbox s).waiting = t.received s ++ []
        rw [Hub.mailbox_register, List.append_nil, received]
  | read s' =>
    obtain rfl := Except.ok.inj hmove
    exact Feed.ext rfl rfl ((received_read t s s').trans (List.append_nil _).symm)
  | leave s' =>
    obtain ⟨hub, hleave, hregistered, hwaiting, -⟩ := Hub.unregister_of_open hopen s'
    rw [move, unsubscribe, hleave] at hmove
    obtain rfl := Except.ok.inj hmove
    refine Feed.ext rfl ?_ ?_
    · show hub.registered.contains s =
        if s' = s then false else t.dashboard.hub.registered.contains s
      rw [hregistered, Bool.eq_iff_iff, List.contains_iff_mem, List.mem_filter]
      by_cases hs : s' = s
      · simp [hs]
      · simp [hs, Ne.symm hs]
    · show t.heard s ++ (hub.mailbox s).waiting = t.received s ++ []
      rw [hwaiting, List.append_nil, received]

end Feed

/-- **No run fails**, and the feed of a subscriber follows it. -/
theorem Ready.run {t : Session} {calls calls' : List Call} {moves : List Move} {s : Subscriber}
    (h : t.Ready calls moves) (hcalls : underway calls moves = some calls')
    (hroom : t.Roomy s moves) :
    ∃ t', t.run moves = .ok t' ∧ t'.feed s = (t.feed s).follow s moves := by
  induction moves generalizing t calls with
  | nil => exact ⟨t, rfl, rfl⟩
  | cons m moves ih =>
    rw [underway_cons, Option.bind_eq_some_iff] at hcalls
    obtain ⟨calls₁, hpass, hcalls⟩ := hcalls
    obtain ⟨hroom₀, hroom⟩ := hroom
    obtain ⟨t₁, hmove, h₁⟩ := h.move hpass
    obtain ⟨t₂, hrun, hfeed⟩ := ih h₁ hcalls (hroom t₁ hmove)
    refine ⟨t₂, ?_, ?_⟩
    · rw [Session.run, List.foldlM_cons, hmove]
      exact hrun
    · rw [hfeed, feed_move h.nodup h.opened hroom₀ hmove]
      rfl

/-- With a move a subscriber is sent at most one message. -/
lemma length_received_after (s : Subscriber) (f : Feed) (m : Move) :
    (f.after s m).received.length ≤ f.received.length + 1 := by
  have hsent : (f.sent s m).toList.length ≤ 1 := Option.length_toList_le
  rw [Feed.after, List.length_append]
  omega

/-- **A mailbox is not full before its capacity is reached**: it takes as many moves. -/
theorem Ready.roomy {t : Session} {calls calls' : List Call} {moves : List Move} {s : Subscriber}
    (h : t.Ready calls moves) (hcalls : underway calls moves = some calls')
    (hlength : (t.received s).length + moves.length < Mailbox.capacity) : t.Roomy s moves := by
  have hroom : (t.dashboard.hub.mailbox s).waiting.length < Mailbox.capacity := by
    rw [received, List.length_append] at hlength
    omega
  induction moves generalizing t calls with
  | nil => exact hroom
  | cons m moves ih =>
    rw [underway_cons, Option.bind_eq_some_iff] at hcalls
    obtain ⟨calls₁, hpass, hcalls⟩ := hcalls
    refine ⟨hroom, fun t₁ hmove => ?_⟩
    obtain ⟨t₂, hmove₂, hready⟩ := h.move hpass
    obtain rfl := Except.ok.inj (hmove₂.symm.trans hmove)
    have hmessage := length_received_after s (t.feed s) m
    rw [← feed_move h.nodup h.opened hroom hmove] at hmessage
    have hlength₁ : (t₂.received s).length + moves.length < Mailbox.capacity := by
      have hmessage : (t₂.received s).length ≤ (t.received s).length + 1 := hmessage
      rw [List.length_cons] at hlength
      omega
    refine ih hready hcalls hlength₁ ?_
    rw [received, List.length_append] at hlength₁
    omega

/-- In a run that finishes all calls, the two steps of a subscription come one after the other, and
there are no others of this subscriber. -/
lemma exists_split {moves : List Move} {s : Subscriber}
    (hcalls : underway [] moves = some []) (honce : (started moves).count (.subscribe s) ≤ 1)
    (hs : .first (.subscribe s) ∈ moves) (hstays : .leave s ∉ moves) :
    ∃ before between later,
      moves = before ++ .first (.subscribe s) :: (between ++ .second (.subscribe s) :: later) ∧
        Feed.Settled s before ∧ Feed.Settled s between ∧ Feed.Settled s later := by
  obtain ⟨before, rest, rfl⟩ := List.append_of_mem hs
  have hperm := perm_of_underway hcalls
  have hstarted : started (before ++ .first (.subscribe s) :: rest) =
      started before ++ .subscribe s :: started rest := started_append ..
  have hfinished : finished (before ++ .first (.subscribe s) :: rest) =
      finished before ++ finished rest := finished_append ..
  have hcount := hperm.count_eq (.subscribe s)
  rw [List.nil_append, List.append_nil, hstarted, hfinished, List.count_append, List.count_append,
    List.count_cons_self] at hcount
  rw [hstarted, List.count_append, List.count_cons_self] at honce
  have hbefore : (started before).count (.subscribe s) = 0 := by omega
  -- what is finished before has started before
  have hbefore' : (finished before).count (.subscribe s) = 0 := by
    obtain ⟨calls, hcalls, -⟩ := exists_underway hcalls
    have hle := (perm_of_underway hcalls).count_eq (.subscribe s)
    rw [List.nil_append, List.count_append] at hle
    omega
  have hrest : .second (.subscribe s) ∈ rest := by
    apply mem_finished.mp
    apply List.count_pos_iff.mp
    omega
  obtain ⟨between, later, rfl⟩ := List.append_of_mem hrest
  have hstarted' : started (between ++ .second (.subscribe s) :: later) =
      started between ++ started later := started_append ..
  have hfinished' : finished (between ++ .second (.subscribe s) :: later) =
      finished between ++ .subscribe s :: finished later := finished_append ..
  rw [hstarted', List.count_append] at honce hcount
  rw [hfinished', List.count_append, List.count_cons_self] at hcount
  simp only [List.mem_append, List.mem_cons, reduceCtorEq, false_or, not_or] at hstays
  have hsettled {part : List Move} (hfirst : (started part).count (.subscribe s) = 0)
      (hsecond : (finished part).count (.subscribe s) = 0) (hleave : .leave s ∉ part) :
      Feed.Settled s part :=
    ⟨mem_started.not.mp (List.count_eq_zero.mp hfirst),
      mem_finished.not.mp (List.count_eq_zero.mp hsecond), hleave⟩
  exact ⟨before, between, later, rfl, hsettled hbefore hbefore' hstays.1,
    hsettled (by omega) (by omega) hstays.2.1, hsettled (by omega) (by omega) hstays.2.2⟩

end Session

/-! ## Lost and doubled events -/

/-- The events with which the counters were brought up to date, but which are not announced yet. -/
def halfway (moves : List Move) : List Event := (updated moves).diff (announced moves)

/-- These are the events of the calls underway. -/
lemma perm_halfway {moves : List Move} {calls : List Call} (h : underway [] moves = some calls) :
    (halfway moves).Perm (calls.filterMap Call.event?) := by
  have hperm := Multiset.coe_eq_coe.mpr (perm_updated h)
  rw [List.filterMap_nil, List.nil_append, ← Multiset.coe_add] at hperm
  rw [halfway, ← Multiset.coe_eq_coe, ← Multiset.coe_sub, hperm, add_tsub_cancel_left]

/-- The events that a subscriber never hears of: they are announced between its snapshot and its
registration, and were not in the snapshot. -/
def lost (before between : List Move) : List Event := (announced between).diff (halfway before)

/-- The events that a subscriber counts twice: they were in its snapshot, and are not announced
before its registration. -/
def doubled (before between : List Move) : List Event := (halfway before).diff (announced between)

namespace Session

/-- What becomes of a subscriber whose snapshot is taken after some moves, and which is registered
after some more: what it receives, and by how much its counters differ from those of the dashboard
in the end. -/
structure Account (t : Session) (d : Dashboard) (s : Subscriber)
    (before between later : List Move) : Prop where
  received : t.received s =
    .snapshot (d.progress.following (updated before)) :: (announced later).map .event
  progress : t.dashboard.progress =
    d.progress.following (updated before ++ (updated between ++ updated later))
  exact : announced later = updated between ++ updated later → t.view s = t.dashboard.progress
  balance : (∀ e ∈ updated before ++ (updated between ++ updated later), e.IsAlong) → ∀ c,
    (t.view s).count c + Int64.ofInt (Event.tally c (lost before between)) =
      t.dashboard.progress.count c + Int64.ofInt (Event.tally c (doubled before between))
  agrees : (∀ e ∈ updated before ++ (updated between ++ updated later), e.IsAlong) →
    (t.view s = t.dashboard.progress ↔ ∀ c,
      Int64.ofInt (Event.tally c (lost before between)) =
        Int64.ofInt (Event.tally c (doubled before between)))

/-- What is lost and what is doubled makes up for what is announced too late and too early. -/
lemma tally_lost {before between later : List Move} {calls : List Call}
    (hbefore : underway [] before = some calls)
    (hall : (updated before ++ (updated between ++ updated later)).Perm
      (announced before ++ (announced between ++ announced later))) (c : Progress.Counter) :
    Event.tally c (updated before) + Event.tally c (announced later) +
        Event.tally c (lost before between) =
      Event.tally c (updated before ++ (updated between ++ updated later)) +
        Event.tally c (doubled before between) := by
  have hupdated := Event.tally_perm (perm_updated hbefore) c
  have hhalfway := Event.tally_perm (perm_halfway hbefore) c
  have hlost := Event.tally_diff c (announced between) (halfway before)
  have hall := Event.tally_perm hall c
  rw [List.filterMap_nil, List.nil_append] at hupdated
  simp only [Event.tally_append] at hupdated hall ⊢
  rw [lost, doubled]
  omega

/-- The account of a subscriber whose feed is known. -/
lemma account_of_feed {t : Session} {d : Dashboard} {s : Subscriber}
    {before between later : List Move} {calls : List Call}
    (hreceived : t.received s =
      .snapshot (d.progress.following (updated before)) :: (announced later).map .event)
    (hprogress : t.dashboard.progress =
      d.progress.following (updated before ++ (updated between ++ updated later)))
    (hbefore : underway [] before = some calls)
    (hall : (updated before ++ (updated between ++ updated later)).Perm
      (announced before ++ (announced between ++ announced later))) :
    t.Account d s before between later := by
  have hview : t.view s = d.progress.following (updated before ++ announced later) := by
    rw [view, hreceived, List.foldl_cons, Progress.foldl_told_event, Progress.following_append]
    rfl
  have halong (h : ∀ e ∈ updated before ++ (updated between ++ updated later), e.IsAlong) :
      ∀ e ∈ updated before ++ announced later, e.IsAlong := by
    intro e he
    rcases List.mem_append.mp he with he | he
    · exact h e (List.mem_append_left _ he)
    · exact h e (hall.symm.subset (by simp [he]))
  have hbalance (h : ∀ e ∈ updated before ++ (updated between ++ updated later), e.IsAlong)
      (c : Progress.Counter) :
      (t.view s).count c + Int64.ofInt (Event.tally c (lost before between)) =
        t.dashboard.progress.count c + Int64.ofInt (Event.tally c (doubled before between)) := by
    rw [hview, hprogress, Event.count_following (halong h), Event.count_following h,
      Int64.add_assoc, Int64.add_assoc, ← Int64.ofInt_add, ← Int64.ofInt_add, Event.tally_append,
      tally_lost hbefore hall]
  refine ⟨hreceived, hprogress, ?_, hbalance, ?_⟩
  · intro h
    rw [hview, hprogress, h]
  · intro h
    rw [hview, hprogress, Event.following_eq_iff (halong h) h, ← hview, ← hprogress]
    refine forall_congr' fun c => ?_
    have hc := hbalance h c
    constructor
    · intro heq
      rw [heq] at hc
      exact (Int64.add_right_inj _).mp hc
    · intro heq
      rw [heq] at hc
      exact (Int64.add_left_inj _).mp hc

/-- **A subscriber's counters are those of the dashboard but for lost and doubled events.** Whatever
the order of the steps of all calls, a new subscriber whose mailbox is never full receives a
snapshot and then exactly the events that are announced once it is registered. -/
theorem account_of_interleaving {d : Dashboard} {moves : List Move} {s : Subscriber}
    (hready : d.session.Ready [] moves) (hcalls : underway [] moves = some [])
    (hs : .first (.subscribe s) ∈ moves) (hstays : .leave s ∉ moves)
    (hempty : (d.hub.mailbox s).waiting = []) (hroom : d.session.Roomy s moves) :
    ∃ t before between later, d.session.run moves = .ok t ∧
      moves = before ++ .first (.subscribe s) :: (between ++ .second (.subscribe s) :: later) ∧
      t.Account d s before between later := by
  obtain ⟨t, hrun, hfeed⟩ := hready.run hcalls hroom
  obtain ⟨before, between, later, rfl, hbefore, hbetween, hlater⟩ :=
    exists_split hcalls (hready.once s) hs hstays
  have hnew : (d.session.feed s).joined = false := by
    simpa [session, feed] using (hready.new s (mem_started.mpr hs)).1
  have hnothing : (d.session.feed s).received = [] := hempty
  have hreceived := Feed.received_follow hnew hbefore hbetween hlater
  have hprogress := Feed.progress_follow s (d.session.feed s)
    (before ++ .first (.subscribe s) :: (between ++ .second (.subscribe s) :: later))
  rw [← hfeed] at hreceived hprogress
  rw [hnothing, List.nil_append] at hreceived
  have hupdated : updated (before ++ .first (.subscribe s) ::
      (between ++ .second (.subscribe s) :: later)) =
        updated before ++ (updated between ++ updated later) := by
    rw [updated_append]
    exact congrArg (updated before ++ ·) (updated_append ..)
  have hannounced : announced (before ++ .first (.subscribe s) ::
      (between ++ .second (.subscribe s) :: later)) =
        announced before ++ (announced between ++ announced later) := by
    rw [announced_append]
    exact congrArg (announced before ++ ·) (announced_append ..)
  have hall := perm_updated hcalls
  rw [hupdated, hannounced] at hall
  rw [hupdated] at hprogress
  obtain ⟨calls, hcalls, -⟩ := exists_underway hcalls
  exact ⟨t, before, between, later, hrun, rfl,
    account_of_feed hreceived hprogress hcalls (by simpa using hall)⟩

end Session

/-! ## Examples -/

section Examples

/-- A batch that is done. -/
def sampleEvent : Event where
  kind := .batchCompleted
  files := 20

/-- Another one. -/
def nextEvent : Event where
  kind := .batchCompleted
  files := 5

/-- A subscriber. -/
def sampleSubscriber : Subscriber := utf8 "s"

/-- Nobody was there before, so whoever subscribes is new, and few moves fill no mailbox. -/
lemma ready_empty (moves : List Move) (s : Subscriber) (honce : (started moves).Nodup)
    (hcalls : underway [] moves = some []) (hlength : moves.length < Mailbox.capacity) :
    Session.Ready (session {}) [] moves ∧ underway [] moves = some [] ∧
      Session.Roomy s (session {}) moves := by
  have hready : Session.Ready (session {}) [] moves :=
    { nodup := List.nodup_nil
      opened := fun _ hs => absurd hs List.not_mem_nil
      once := fun s => List.nodup_iff_count_le_one.mp honce (.subscribe s)
      new := fun _ _ => ⟨List.not_mem_nil, rfl⟩ }
  have hroom : Session.Roomy s (session {}) moves := by
    apply hready.roomy hcalls
    show 0 + moves.length < Mailbox.capacity
    omega
  exact ⟨hready, hcalls, hroom⟩

/-- An event that is in the snapshot and announced before the subscriber is registered, and one that
comes later. -/
def harmless : List Move :=
  [.first (.observe sampleEvent), .first (.subscribe sampleSubscriber),
    .second (.observe sampleEvent), .second (.subscribe sampleSubscriber), .read sampleSubscriber,
    .first (.observe nextEvent), .second (.observe nextEvent)]

/-- An event that falls between the snapshot and the registration. -/
def losing : List Move :=
  [.first (.subscribe sampleSubscriber), .first (.observe sampleEvent),
    .second (.observe sampleEvent), .second (.subscribe sampleSubscriber)]

/-- A subscription that falls between the two steps of following an event. -/
def doubling : List Move :=
  [.first (.observe sampleEvent), .first (.subscribe sampleSubscriber),
    .second (.subscribe sampleSubscriber), .second (.observe sampleEvent)]

/-- The subscriber hears of both events and counts them once. -/
theorem account_of_harmless :
    Session.Ready (session {}) [] harmless ∧ underway [] harmless = some [] ∧
      Session.Roomy sampleSubscriber (session {}) harmless ∧
      ∃ t before between later, (session {}).run harmless = .ok t ∧
        harmless = before ++ .first (.subscribe sampleSubscriber) ::
          (between ++ .second (.subscribe sampleSubscriber) :: later) ∧
        t.Account {} sampleSubscriber before between later := by
  obtain ⟨hready, hcalls, hroom⟩ :=
    ready_empty harmless sampleSubscriber (by decide) (by decide) (by decide)
  exact ⟨hready, hcalls, hroom,
    Session.account_of_interleaving hready hcalls (by decide) (by decide) rfl hroom⟩

/-- **Counters differ after some interleavings** of one subscription and one event: the event is
lost in the first and counted twice in the second. -/
theorem counters_differ :
    (∀ moves ∈ [losing, doubling], Session.Ready (session {}) [] moves ∧
        underway [] moves = some [] ∧ Session.Roomy sampleSubscriber (session {}) moves) ∧
      (∃ t, (session {}).run losing = .ok t ∧ (t.view sampleSubscriber).filesDone = 0 ∧
        t.dashboard.progress.filesDone = 20) ∧
      ∃ t, (session {}).run doubling = .ok t ∧ (t.view sampleSubscriber).filesDone = 40 ∧
        t.dashboard.progress.filesDone = 20 := by
  refine ⟨?_, ⟨_, rfl, by decide, by decide⟩, ⟨_, rfl, by decide, by decide⟩⟩
  intro moves hmoves
  have hdecided : ∀ moves ∈ [losing, doubling], (started moves).Nodup ∧
      underway [] moves = some [] ∧ moves.length < Mailbox.capacity := by decide
  obtain ⟨honce, hcalls, hlength⟩ := hdecided moves hmoves
  exact ready_empty moves sampleSubscriber honce hcalls hlength

end Examples

end Dashboard

end LintPool
