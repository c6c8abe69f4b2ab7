import LintPool.Proofs.Json.Number
import LintPool.Proofs.Pool.Account
import LintPool.Proofs.Pool.Conservation

/-!
# What the events of a job tell

Observers of a job hear when a worker connects, when a batch is merged with its results and when it
is lost. For each worker these events come in this order: it connects once at most, then its batches
are done one after another, and when it is lost there is nothing more to tell of it.

The events also account for all that was handed out. Each time a batch is handed out, it is told
later that it is done or that it was lost with its worker, unless it is still in flight.

## Main definitions

* `LintPool.Pool.kindsOf` : the kinds of the events about one worker.
* `LintPool.Pool.InOrder` : events about a worker come in order.
* `LintPool.Pool.Told` : the events about a worker tell what became of it.
* `LintPool.Pool.Turn.Balanced` : the events account for what was handed out.

## Main results

* `LintPool.Pool.Step.told`, `LintPool.Pool.Step.balanced` : small steps keep both.
* `LintPool.Pool.coordinate_events_in_order` : what follows for a whole job.
-/

namespace LintPool.Pool

/-! ## The events of one worker -/

/-- Different workers have different names. -/
lemma WorkerId.name_inj {id id' : WorkerId} (h : WorkerId.name id = WorkerId.name id') :
    id = id' := by
  have hvalue := congrArg Bytes.digitsValue (List.cons.inj h).2
  rw [(Json.natural_spec _).2.2, (Json.natural_spec _).2.2] at hvalue
  exact Nat.succ.inj hvalue

/-- The kinds of the events about one worker, in order. -/
def kindsOf (id : WorkerId) (events : List Event) : List Event.Kind :=
  (events.filter (·.worker == WorkerId.name id)).map (·.kind)

/-- Whether the events about a worker come in order: it connects at most once, then some batches are
done, but none unless it has connected, and at last it may be lost. -/
def InOrder (kinds : List Event.Kind) : Prop :=
  ∃ (connected lost : Bool) (n : Nat), (0 < n → connected = true) ∧
    kinds = List.replicate connected.toNat .workerConnected ++
      List.replicate n .batchCompleted ++ List.replicate lost.toNat .workerLost

/-- The events about a worker tell what became of it: that it has connected, as many batches as were
merged with its results, and that it was lost, which is only told of one that is gone. -/
structure Told (es : List Effect) (id : WorkerId) (w : Worker) : Prop where
  kinds_eq : ∃ lost : Bool, (lost = true → w.gone = true) ∧
    kindsOf id (eventsOf es) =
      List.replicate w.connected.toNat .workerConnected ++
        List.replicate (entriesOf id (mergedIn es)).length .batchCompleted ++
        List.replicate lost.toNat .workerLost
  unconnected : w.connected = false → entriesOf id (mergedIn es) = []

section Kinds

variable {id id' : WorkerId} {es extra : List Effect} {events : List Event} {w w' : Worker}

/-- Events are told in the order of the effects. -/
@[simp] lemma eventsOf_append (es extra : List Effect) :
    eventsOf (es ++ extra) = eventsOf es ++ eventsOf extra := List.filterMap_append

/-- The kinds of a worker's events stand in the order of the events. -/
@[simp] lemma kindsOf_append (id : WorkerId) (events events' : List Event) :
    kindsOf id (events ++ events') = kindsOf id events ++ kindsOf id events' := by
  simp [kindsOf]

/-- An event about a worker is one of its events. -/
lemma kindsOf_self {e : Event} (h : e.worker = WorkerId.name id) : kindsOf id [e] = [e.kind] := by
  simp [kindsOf, h]

/-- An event about one worker is none about another. -/
lemma kindsOf_of_ne {e : Event} (h : e.worker = WorkerId.name id') (hne : id' ≠ id) :
    kindsOf id [e] = [] := by
  have hname : WorkerId.name id' ≠ WorkerId.name id := fun heq => hne (WorkerId.name_inj heq)
  simp [kindsOf, h, hname]

/-- An event about the whole job is about no worker. -/
lemma kindsOf_of_nil {e : Event} (h : e.worker = []) (id : WorkerId) : kindsOf id [e] = [] := by
  simp [kindsOf, h, WorkerId.name]

/-- An aside is no event. -/
lemma eventsOf_aside {e : Effect} (he : e.isAside) : eventsOf [e] = [] := by
  cases e with
  | emit => cases he
  | _ => rfl

/-- The events about a worker tell what became of it as long as none is added and nothing becomes of
it but that it is gone. -/
lemma Told.congr (h : Told es id w) (hkinds : kindsOf id (eventsOf extra) = [])
    (hmerged : entriesOf id (mergedIn extra) = []) (hc : w'.connected = w.connected)
    (hg : w.gone = true → w'.gone = true) : Told (es ++ extra) id w' := by
  obtain ⟨⟨lost, hlost, hkinds_eq⟩, hunconnected⟩ := h
  rw [← hc] at hkinds_eq hunconnected
  refine ⟨⟨lost, fun hl => hg (hlost hl), ?_⟩, ?_⟩
  · simpa [hkinds, hmerged] using hkinds_eq
  · simpa [hmerged] using hunconnected

/-- Nothing has been lost with a worker that still matters. -/
lemma Told.kinds_of_live (h : Told es id w) (hg : w.gone = false) :
    kindsOf id (eventsOf es) = List.replicate w.connected.toNat .workerConnected ++
      List.replicate (entriesOf id (mergedIn es)).length .batchCompleted := by
  obtain ⟨⟨lost, hlost, hkinds⟩, -⟩ := h
  cases lost with
  | false => simpa using hkinds
  | true =>
    rw [hlost rfl] at hg
    cases hg

/-- A worker connects. -/
lemma Told.connect (h : Told es id w) (hc : w.connected = false) (hg : w.gone = false)
    (hc' : w'.connected = true) :
    Told (es ++ [.emit { kind := .workerConnected, worker := WorkerId.name id }]) id w' := by
  have hnone := h.unconnected hc
  have hmerged : mergedIn [.emit { kind := .workerConnected, worker := WorkerId.name id }] = [] :=
    rfl
  have hkinds := h.kinds_of_live hg
  rw [hc, hnone] at hkinds
  refine ⟨⟨false, nofun, ?_⟩, fun hfalse => ?_⟩
  · rw [eventsOf_append, kindsOf_append, hkinds, mergedIn_append, hmerged, List.append_nil, hnone,
      hc']
    exact kindsOf_self rfl
  · rw [hc'] at hfalse
    cases hfalse

/-- A batch is merged with the result of a connected worker. -/
lemma Told.complete {b : Batch} {r : Result} {e : Event} (h : Told es id w)
    (hc : w.connected = true) (hg : w.gone = false) (hc' : w'.connected = true)
    (hworker : e.worker = WorkerId.name id) (hkind : e.kind = .batchCompleted) :
    Told (es ++ [.merged id b r, .emit e]) id w' := by
  have hmerged : entriesOf id (mergedIn [.merged id b r, .emit e]) = [(b, r)] :=
    entriesOf_self (b, r)
  have hevents : kindsOf id (eventsOf [.merged id b r, .emit e]) = [.batchCompleted] :=
    hkind ▸ kindsOf_self hworker
  refine ⟨⟨false, nofun, ?_⟩, fun hfalse => ?_⟩
  · rw [eventsOf_append, kindsOf_append, h.kinds_of_live hg, hevents, mergedIn_append,
      entriesOf_append, hmerged, List.length_append, List.length_singleton, List.replicate_succ',
      hc, hc', List.append_assoc]
    exact (List.append_nil _).symm
  · rw [hc'] at hfalse
    cases hfalse

/-- A worker that still matters is lost. -/
lemma Told.lose (h : Told es id w) (hg : w.gone = false)
    (hw' : w'.gone = true ∧ w'.connected = w.connected) (cause : Bytes) :
    Told (es ++ lossEntries id w cause) id w' := by
  obtain ⟨hg', hc'⟩ := hw'
  have hmerged := (uneventful_loss id w cause).merged
  have hevents : kindsOf id (eventsOf (lossEntries id w cause)) = [.workerLost] := kindsOf_self rfl
  refine ⟨⟨true, fun _ => hg', ?_⟩, fun hfalse => ?_⟩
  · rw [eventsOf_append, kindsOf_append, h.kinds_of_live hg, hevents, mergedIn_append, hmerged,
      List.append_nil, hc']
    rfl
  · rw [mergedIn_append, hmerged, List.append_nil]
    exact h.unconnected (hc' ▸ hfalse)

/-- What the events tell of a worker is in order. -/
lemma Told.inOrder (h : Told es id w) : InOrder (kindsOf id (eventsOf es)) := by
  obtain ⟨⟨lost, -, hkinds⟩, hunconnected⟩ := h
  refine ⟨w.connected, lost, _, fun hpos => ?_, hkinds⟩
  by_contra hc
  rw [hunconnected (Bool.eq_false_iff.mpr hc)] at hpos
  exact absurd hpos (Nat.lt_irrefl 0)

end Kinds

/-- The events of a job tell of every worker what became of it. -/
def Turn.Told (t : Turn) : Prop := ∀ id, Pool.Told t.effects id (t.state.worker id)

section Steps

variable {t t' : Turn} {before after : List Worker} {w w' : Worker} {extra : List Effect}

/-- Where only one worker changes, and all events are about it, it is enough to look at this one. -/
lemma Turn.Told.between (h : t.Told) (hw : t.state.workers = before ++ w :: after)
    (hw' : t'.state.workers = before ++ w' :: after) (hes : t'.effects = t.effects ++ extra)
    (hforeign : ∀ id, before.length ≠ id →
      kindsOf id (eventsOf extra) = [] ∧ entriesOf id (mergedIn extra) = [])
    (hself : Pool.Told t.effects before.length w → Pool.Told t'.effects before.length w') :
    t'.Told := by
  refine forall_worker_between hw hw' (fun id v hne hv => ?_) hself h
  rw [hes]
  exact hv.congr (hforeign id hne).1 (hforeign id hne).2 rfl fun hg => hg

/-- Where one worker changes in silence, its connection stays and it does not come back. -/
lemma Turn.Told.silent (h : t.Told) (hw : t.state.workers = before ++ w :: after)
    (hw' : t'.state.workers = before ++ w' :: after) (hes : t'.effects = t.effects)
    (hc : w'.connected = w.connected) (hg : w.gone = true → w'.gone = true) : t'.Told := by
  refine h.between hw hw' (hes.trans (List.append_nil _).symm) (fun _ _ => ⟨rfl, rfl⟩) ?_
  intro hself
  have hcongr : Pool.Told (t.effects ++ []) before.length w' := hself.congr rfl rfl hc hg
  rwa [List.append_nil, ← hes] at hcongr

/-- Of a launched worker there is nothing to tell yet. -/
lemma Launched.told {reserved : Option Batch} {s s' : State} {effects : List Effect}
    (h : Launched reserved s s') (hs : Turn.Told ⟨s, effects⟩) : Turn.Told ⟨s', effects⟩ := by
  refine h.forall_worker (fun id v _ hc htold => ?_) hs
  have hcongr : Told (effects ++ []) id v := htold.congr rfl rfl hc nofun
  rwa [List.append_nil] at hcongr

/-- The loss of one worker is told of no other. -/
lemma told_loss_of_ne {id id' : WorkerId} (hne : id' ≠ id) (w : Worker) (cause : Bytes) :
    kindsOf id (eventsOf (lossEntries id' w cause)) = [] ∧
      entriesOf id (mergedIn (lossEntries id' w cause)) = [] := by
  refine ⟨kindsOf_of_ne rfl hne, ?_⟩
  rw [(uneventful_loss id' w cause).merged, entriesOf_nil]

/-- **Small steps tell what becomes of each worker.**

**Proof sketch.** By the kind of step. Three kinds tell of a worker. It connects when it has not
done so before; a batch is done that was in flight, so that the worker has connected; and it is lost
when it still matters, after which it is gone. -/
theorem Step.told {o : Options} {m m' : Moment} (h : Step o m m') (hset : m.Settled)
    (hm : m.turn.Told) : m'.turn.Told := by
  cases h with
  | aside he =>
    intro id
    refine (hm id).congr ?_ ?_ rfl fun hg => hg
    · rw [eventsOf_aside he]
      rfl
    · rw [(uneventful_aside he).merged, entriesOf_nil]
  | timer x hw => exact hm.silent hw rfl rfl rfl fun hg => hg
  | begin hs => exact hs.told hm
  | refill hs hlive => exact hs.told hm
  | rest hd => exact hm
  | connect hw hc hg =>
    refine hm.between hw rfl rfl (fun id hne => ⟨kindsOf_of_ne rfl hne, rfl⟩) fun hself => ?_
    exact hself.connect hc hg rfl
  | dispatch hw hb =>
    refine hm.between hw rfl rfl (fun id hne => ⟨rfl, rfl⟩) fun hself => ?_
    exact hself.congr rfl rfl rfl fun hg => hg
  | dismiss hw hr hp => exact hm.silent hw rfl rfl rfl fun _ => rfl
  | @complete t before after w b r hw hg hb hr =>
    simp only [Moment.Settled, hw, forall_between] at hset
    have hc := hset.1.connected_of_batch hg hb
    refine hm.between hw rfl rfl (fun id hne => ?_) fun hself => ?_
    · exact ⟨kindsOf_of_ne rfl hne, entriesOf_of_ne hne [_]⟩
    · exact hself.complete hc hg hc rfl rfl
  | keep hw hg hr =>
    intro id
    exact (hm id).congr rfl rfl rfl fun hg => hg
  | ignore hg => exact hm
  | exit hw => exact hm.silent hw rfl rfl rfl fun hg => hg
  | exitOther => exact hm
  | abandon cause hw hg hd hb =>
    refine hm.between hw rfl rfl (fun id hne => told_loss_of_ne hne _ cause) fun hself => ?_
    exact hself.lose hg (by exact ⟨rfl, rfl⟩) cause
  | retry cause hw hg hd hb ha hs =>
    refine hs.told (hm.between hw rfl rfl (fun id hne => told_loss_of_ne hne _ cause) ?_)
    exact fun hself => hself.lose hg (by exact ⟨rfl, rfl⟩) cause
  | @escalate t d before after w b cause hw hg hd hb ha =>
    have hmute : ∀ id, kindsOf id (eventsOf [.escalated b cause]) = [] := fun _ => rfl
    have hmerged : mergedIn [.escalated b cause] = [] := rfl
    refine hm.between hw rfl (List.append_assoc _ _ _) (fun id hne => ?_) fun hself => ?_
    · obtain ⟨hkinds, hentries⟩ := told_loss_of_ne hne w cause
      simp [hkinds, hentries, hmute, hmerged]
    · have hlost : Told (t.effects ++ lossEntries before.length w cause) before.length
          { w with gone := true } :=
        hself.lose hg (by exact ⟨rfl, rfl⟩) cause
      exact hlost.congr rfl rfl rfl fun hg => hg

end Steps

/-! ## The balance -/

/-- How many batches are told to be done. -/
def completions (events : List Event) : Nat := events.countP (·.kind == .batchCompleted)

/-- How many workers are told to be lost with files in flight. -/
def losses (events : List Event) : Nat :=
  events.countP fun e => e.kind == .workerLost && decide (0 < e.files)

/-- Each time a batch was handed out, it is told that it is done or was lost, or it is in flight. -/
def Turn.Balanced (t : Turn) : Prop :=
  (dispatchedIn t.effects).length =
    completions (eventsOf t.effects) + losses (eventsOf t.effects) + t.state.inFlight.length

section Balance

variable {t t' : Turn} {before after : List Worker} {w w' : Worker} {extra : List Effect}

/-- Completed batches add up over stretches of events. -/
@[simp] lemma completions_append (events events' : List Event) :
    completions (events ++ events') = completions events + completions events' :=
  List.countP_append

/-- Lost workers add up over stretches of events. -/
@[simp] lemma losses_append (events events' : List Event) :
    losses (events ++ events') = losses events + losses events' :=
  List.countP_append

/-- Where only one worker changes, it is enough to look at its batch and at what is entered. -/
lemma Turn.Balanced.between (h : t.Balanced) (hw : t.state.workers = before ++ w :: after)
    (hw' : t'.state.workers = before ++ w' :: after) (hes : t'.effects = t.effects ++ extra)
    (hself : (dispatchedIn extra).length + w.batch.toList.length =
      completions (eventsOf extra) + losses (eventsOf extra) + w'.batch.toList.length) :
    t'.Balanced := by
  simp only [Turn.Balanced, State.inFlight, hw, hw', hes, dispatchedIn_append, eventsOf_append,
    completions_append, losses_append, List.flatMap_append, List.flatMap_cons,
    List.length_append] at h ⊢
  omega

/-- A launch puts no batch in flight. -/
lemma Launched.balanced {reserved : Option Batch} {s s' : State} {effects : List Effect}
    (h : Launched reserved s s') (hs : Turn.Balanced ⟨s, effects⟩) :
    Turn.Balanced ⟨s', effects⟩ := by
  have hflight : s'.inFlight = s.inFlight := by
    cases h <;> simp [State.inFlight]
  rw [Turn.Balanced, hflight]
  exact hs

/-- The loss of a worker is told with files if and only if it has a batch in flight. -/
lemma losses_loss {o : Options} {files : List Bytes} {d : Duty}
    (hm : Moment.Conserved (planFor o files) ⟨t, d⟩) (hw : t.state.workers = before ++ w :: after)
    (cause : Bytes) :
    losses (eventsOf (lossEntries before.length w cause)) = w.batch.toList.length := by
  have hmem : w ∈ t.state.workers := by simp [hw]
  have hone : losses (eventsOf (lossEntries before.length w cause)) =
      if 0 < Int64.ofNat (filesInFlight w) then 1 else 0 := by
    simp [losses, lossEntries, eventsOf, List.countP_cons]
  rw [hone]
  cases hb : w.batch with
  | none => simp [filesInFlight, hb]
  | some b => simp [filesInFlight, hb, hm.size_pos hmem hb]

/-- The entries of a loss pay for the batch that was in flight. -/
lemma loss_pays {o : Options} {files : List Bytes} {d : Duty}
    (hm : Moment.Conserved (planFor o files) ⟨t, d⟩) (hw : t.state.workers = before ++ w :: after)
    (cause : Bytes) :
    (dispatchedIn (lossEntries before.length w cause)).length + w.batch.toList.length =
      completions (eventsOf (lossEntries before.length w cause)) +
        losses (eventsOf (lossEntries before.length w cause)) := by
  have hnone : completions (eventsOf (lossEntries before.length w cause)) = 0 := rfl
  rw [losses_loss hm hw, hnone, (uneventful_loss before.length w cause).dispatched]
  rfl

/-- **Small steps keep the balance.** A batch that is handed out is in flight afterwards, and when
it is not in flight any more it is told that it is done or that its worker was lost with it. -/
theorem Step.balanced {o : Options} {files : List Bytes} {m m' : Moment} (h : Step o m m')
    (hconserved : m.Conserved (planFor o files)) (hm : m.turn.Balanced) : m'.turn.Balanced := by
  cases h with
  | aside he =>
    simpa [Turn.Balanced, Turn.effect, eventsOf_aside he, (uneventful_aside he).dispatched]
      using hm
  | timer x hw => exact hm.between hw rfl (List.append_nil _).symm rfl
  | begin hs => exact hs.balanced hm
  | refill hs hlive => exact hs.balanced hm
  | rest hd => exact hm
  | connect hw hc hg => exact hm.between hw rfl rfl rfl
  | @dispatch t before after w b pending hw hb =>
    have hset := hconserved.settled
    simp only [Moment.Settled, hw, settledBut_between] at hset
    obtain ⟨⟨-, -, hnone⟩, -⟩ := hset
    refine hm.between hw rfl rfl ?_
    rw [hnone]
    rfl
  | dismiss hw hr hp => exact hm.between hw rfl (List.append_nil _).symm rfl
  | complete hw hg hb hr =>
    refine hm.between hw rfl rfl ?_
    rw [hb]
    rfl
  | keep hw hg hr => exact hm.between hw hw rfl rfl
  | ignore hg => exact hm
  | exit hw => exact hm.between hw rfl (List.append_nil _).symm rfl
  | exitOther => exact hm
  | abandon cause hw hg hd hb =>
    refine hm.between hw rfl rfl ?_
    rw [loss_pays hconserved hw cause, hb]
    rfl
  | retry cause hw hg hd hb ha hs =>
    exact hs.balanced (hm.between hw rfl rfl (loss_pays hconserved hw cause))
  | @escalate t d before after w b cause hw hg hd hb ha =>
    refine hm.between hw rfl (List.append_assoc _ _ _) ?_
    have hpays := loss_pays hconserved hw cause
    have hdispatched : dispatchedIn [.escalated b cause] = [] := rfl
    have hevents : eventsOf [.escalated b cause] = [] := rfl
    simpa [hdispatched, hevents] using hpays

end Balance

/-- Each batch counts how often it was handed out. -/
lemma Step.attempts_eq {o : Options} {m m' : Moment} (h : Step o m m') (hset : m.Settled)
    (hm : (m.turn.batches.map (·.attempts)).sum = (dispatchedIn m.turn.effects).length) :
    (m'.turn.batches.map (·.attempts)).sum = (dispatchedIn m'.turn.effects).length := by
  rcases h.batches_cases hset with ⟨hperm, hsame⟩ | ⟨id, b, rest, hold, hnew, hmore⟩
  · rw [(hperm.map _).sum_nat, hsame]
    exact hm
  · have hone : b.handedOut.attempts = b.attempts + 1 := rfl
    rw [(hnew.map _).sum_nat, hmore, List.length_append, ← hm, (hold.map (·.attempts)).sum_nat,
      List.map_cons, List.map_cons, List.sum_cons, List.sum_cons, List.length_singleton, hone]
    omega

/-! ## The course of a job -/

/-- All that is kept of the events of a job on some files. -/
structure Moment.Chronicled (o : Options) (files : List Bytes) (m : Moment) : Prop where
  conserved : m.Conserved (planFor o files)
  told : m.turn.Told
  balanced : m.turn.Balanced
  attempts_eq : (m.turn.batches.map (·.attempts)).sum = (dispatchedIn m.turn.effects).length

/-- Small steps keep the chronicle. -/
lemma Step.chronicled {o : Options} {files : List Bytes} {m m' : Moment} (h : Step o m m')
    (hm : m.Chronicled o files) : m'.Chronicled o files where
  conserved := h.conserved hm.conserved
  told := h.told hm.conserved.settled hm.told
  balanced := h.balanced hm.conserved hm.balanced
  attempts_eq := h.attempts_eq hm.conserved.settled hm.attempts_eq

/-- At the beginning there is nothing to tell. -/
lemma chronicled_ofSchedule (o : Options) (files : List Bytes) (n : Nat) :
    Moment.Chronicled o files ⟨{ state := State.ofSchedule (planFor o files) }, .starting n⟩ where
  conserved := conserved_ofSchedule _ n
  told _ := ⟨⟨false, nofun, rfl⟩, fun _ => rfl⟩
  balanced := rfl
  attempts_eq := by
    rw [batches_ofSchedule, ← map_origin_ofSchedule, List.map_map]
    exact List.sum_eq_zero fun n hn => by
      obtain ⟨b, -, rfl⟩ := List.mem_map.mp hn
      rfl

/-- Whether a connection that introduces itself is turned away: it is no worker, or one that has
connected before or is gone. -/
def State.Refuses (s : State) : Identity → Prop
  | .stranger _ => True
  | .worker id => ∀ w, s.workers[id]? = some w → w.connected = true ∨ w.gone = true

/-- A connection that is turned away changes nothing and is not told of. -/
lemma handle_refused (o : Options) (world : World) {s : State} {identity : Identity} (peer : Bytes)
    (h : s.Refuses identity) :
    (handle o world s (.hello identity peer)).state = s ∧
      eventsOf (handle o world s (.hello identity peer)).effects = [] := by
  simp only [handle, react, bind]
  cases identity with
  | stranger identifier => exact ⟨rfl, rfl⟩
  | worker id =>
    simp only
    split
    · exact ⟨rfl, rfl⟩
    · rename_i w hw
      rw [if_pos (by simpa using h w hw)]
      exact ⟨rfl, rfl⟩

section Course

variable (o : Options) (world : World) (cancelOn : Option Event.Kind) (cancelled : Bool)
  (files : List Bytes) (occasions : List Occasion)

/-- The chronicle is kept in the whole course of a job. -/
theorem course_chronicled :
    Moment.Chronicled o files ⟨course o world cancelOn cancelled files occasions, .free⟩ := by
  refine course_induction (P := Moment.Chronicled o files) ?_ (fun _ _ hm h => h.chronicled hm)
    world cancelOn cancelled files occasions (chronicled_ofSchedule o files _)
  intro t id r hm
  have hconserved := hm.conserved
  exact ⟨⟨hconserved.settled, hconserved.perm_plan, hconserved.total_eq, hconserved.tallied⟩,
    hm.told, hm.balanced, hm.attempts_eq⟩

/-- The events at the beginning and at the end of a job are about no worker. -/
lemma kindsOf_coordinate (id : WorkerId) :
    kindsOf id (coordinate o world cancelOn cancelled files occasions).events = [] ∨
      ∃ c, kindsOf id (coordinate o world cancelOn cancelled files occasions).events =
        kindsOf id (eventsOf (course o world cancelOn c files occasions).effects) := by
  unfold coordinate
  split
  · exact .inl rfl
  · refine .inr ⟨cancelled || cancels cancelOn
      [startEvent (planFor o files).processes (planFor o files).jobs files], ?_⟩
    dsimp only
    rw [← List.singleton_append, kindsOf_append, kindsOf_append, kindsOf_of_nil rfl,
      List.nil_append, course]
    split
    · exact List.append_nil _
    · rw [kindsOf_of_nil rfl, List.append_nil]

/-- What the events of a job on some files tell, and how they agree with its state. -/
structure Turn.Chronicled (o : Options) (t : Turn) : Prop where
  /-- The events about each worker come in order. -/
  in_order : ∀ id, InOrder (kindsOf id (eventsOf t.effects))
  /-- They tell whether the worker has connected and how many of its results were merged. -/
  told : t.Told
  /-- A connection that is turned away changes nothing and is not told of. -/
  refused : ∀ world identity peer, t.state.Refuses identity →
    (handle o world t.state (.hello identity peer)).state = t.state ∧
      eventsOf (handle o world t.state (.hello identity peer)).effects = []
  /-- Each attempt at a batch is told to be done or lost, or it is in flight. -/
  balance : (t.batches.map (·.attempts)).sum =
    completions (eventsOf t.effects) + losses (eventsOf t.effects) + t.state.inFlight.length

/-- **Events come in order and account for all attempts.** Whatever happens to a job, the events
about each worker are that it connects, once at most, then the batches done with its results, and at
last that it was lost. A connection that introduces itself as no worker, as one that has connected
or as one that is gone changes nothing. The attempts at all batches are those told to be done, those
told to be lost with a worker, and those in flight. -/
theorem coordinate_events_in_order :
    (∀ id, InOrder (kindsOf id (coordinate o world cancelOn cancelled files occasions).events)) ∧
      (course o world cancelOn cancelled files occasions).Chronicled o := by
  refine ⟨fun id => ?_, ?_⟩
  · rcases kindsOf_coordinate o world cancelOn cancelled files occasions id with hnil | ⟨c, hkinds⟩
    · rw [hnil]
      exact ⟨false, false, 0, nofun, rfl⟩
    · rw [hkinds]
      exact ((course_chronicled o world cancelOn c files occasions).told id).inOrder
  · have hcourse := course_chronicled o world cancelOn cancelled files occasions
    refine ⟨fun id => (hcourse.told id).inOrder, hcourse.told, ?_, ?_⟩
    · exact fun later identity peer h => handle_refused o later peer h
    · exact hcourse.attempts_eq.trans hcourse.balanced

end Course

end LintPool.Pool
