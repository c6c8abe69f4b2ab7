import LintPool.Pool.Job
import Mathlib.Logic.Relation
import Mathlib.Tactic.Lemma
import Mathlib.Tactic.Set

/-!
# The small steps of a pool

The reaction of a pool to a happening is cut into small steps, each of which moves at most one batch
from one place to another. Between the steps of one reaction the coordinator has a *duty*: a worker
waits for its next batch, a result has come in, a lost worker may be replaced. A duty and a turn
make up a moment, and every reaction leads from a moment without a duty to another one by small
steps. What holds of all moments of a job is therefore proved once for each kind of step.

In a step the worker that it is about stands between those launched before and after it: the workers
are `before ++ w :: after`, and the number of `w` is `before.length`.

## Main definitions

* `LintPool.Pool.Duty`, `LintPool.Pool.Moment` : a duty, and a turn with the duty that it leaves.
* `LintPool.Pool.Launched` : the two outcomes of a launch.
* `LintPool.Pool.Step` : the small steps.
* `LintPool.Pool.course` : the turn that a job has come to after some occasions.

## Main results

* `LintPool.Pool.react_steps` : a reaction is a sequence of small steps.
* `LintPool.Pool.course_induction` : what holds at the beginning and is kept by every small step
  holds in the whole course of a job.
-/

namespace LintPool.Pool

/-! ## Moments -/

/-- What the coordinator has still to do before it waits for the next happening. -/
inductive Duty where
  /-- Some workers have still to be launched at the start of the job. -/
  | starting (left : Nat)
  /-- There is nothing left to do. -/
  | free
  /-- The result `r` of a worker has come in. -/
  | hearing (id : WorkerId) (r : Result)
  /-- A worker waits for its next batch. -/
  | serving (id : WorkerId)
  /-- The process of a worker has exited that never connected. -/
  | losing (id : WorkerId)
  /-- A connected worker was lost, and another may be launched. -/
  | refilling

/-- A turn in the middle of a reaction, with the duty that it leaves. -/
structure Moment where
  turn : Turn
  duty : Duty

/-- Whether an effect is of no account for batches and progress: log lines, frames, and what is done
to connections and processes. -/
def Effect.isAside : Effect → Bool
  | .log _ | .sent _ _ | .closed _ | .rejected | .killed _ => true
  | _ => false

/-- The outcome of launching a worker with a batch reserved for it: the worker is up, or it is gone
at once and the batch is back at the head of the queue. -/
inductive Launched (reserved : Option Batch) (s : State) : State → Prop
  | up (timer : Bool) :
    Launched reserved s
      { s with workers := s.workers ++ [{ started := true, reserved, timer }]
               running := s.running + 1 }
  | down :
    Launched reserved s
      { s with workers := s.workers ++ [{ gone := true, exited := true }]
               pending := reserved.toList ++ s.pending }

/-- What is entered when a worker is lost. -/
def lossEntries (id : WorkerId) (w : Worker) (cause : Bytes) : List Effect :=
  [.lost id w.batch,
    .emit { kind := .workerLost, worker := WorkerId.name id, files := Int64.ofNat (filesInFlight w)
            error := cause }]

/-- The duty after the loss of a worker. -/
def Duty.afterLoss (w : Worker) : Duty := if w.connected then .refilling else .free

/-- The diagnostics of files that were given up after some attempts: one for each of them. -/
def abandonment (attempts : Nat) (cause : Bytes) (files : List Bytes) : List Diagnostic :=
  files.map fun file => .internalError file
    (utf8 "analysis abandoned after " ++ Bytes.natural attempts ++ utf8 " attempts: " ++ cause)

/-- The report after a batch was given up. -/
def reportEscalated (b : Batch) (cause : Bytes) (report : Report) : Report :=
  { report with
    errors := report.errors ++ abandonment b.attempts cause b.files
    files := report.files + Int64.ofNat b.files.length
    internal := report.internal + Int64.ofNat b.files.length }

/-- The small steps of a pool. -/
inductive Step (o : Options) : Moment → Moment → Prop
  /-- Something of no account happens. -/
  | aside {t : Turn} {d : Duty} {e : Effect} (he : e.isAside) : Step o ⟨t, d⟩ ⟨t.effect e, d⟩
  /-- A deadline is set or lifted. -/
  | timer {t : Turn} {before after : List Worker} {w : Worker} (timer : Bool)
      (hw : t.state.workers = before ++ w :: after) :
    Step o ⟨t, .free⟩
      ⟨{ t with state := { t.state with workers := before ++ { w with timer } :: after } }, .free⟩
  /-- A worker is launched at the start of the job. -/
  | begin {t : Turn} {n : Nat} {s : State} (hs : Launched none t.state s) :
    Step o ⟨t, .starting (n + 1)⟩ ⟨{ t with state := s }, .starting n⟩
  /-- A lost worker is replaced, as there are batches in the queue and fewer workers than wanted. -/
  | refill {t : Turn} {s : State} (hs : Launched none t.state s)
      (hlive : t.state.live < t.state.target) :
    Step o ⟨t, .refilling⟩ ⟨{ t with state := s }, .free⟩
  /-- There is nothing to be launched. -/
  | rest {t : Turn} {d : Duty} (hd : d = .refilling ∨ d = .starting 0) : Step o ⟨t, d⟩ ⟨t, .free⟩
  /-- A worker connects. -/
  | connect {t : Turn} {before after : List Worker} {w : Worker}
      (hw : t.state.workers = before ++ w :: after) (hc : w.connected = false)
      (hg : w.gone = false) :
    Step o ⟨t, .free⟩
      ⟨{ state := { t.state with
          workers := before ++ { w with timer := false, connected := true } :: after }
         effects := t.effects ++
          [.emit { kind := .workerConnected, worker := WorkerId.name before.length }] },
        .serving before.length⟩
  /-- A worker gets the batch reserved for it, or else the first of the queue. -/
  | dispatch {t : Turn} {before after : List Worker} {w : Worker} {b : Batch} {pending : List Batch}
      (hw : t.state.workers = before ++ w :: after)
      (hb : w.reserved = some b ∧ t.state.pending = pending ∨
        w.reserved = none ∧ t.state.pending = b :: pending) :
    Step o ⟨t, .serving before.length⟩
      ⟨{ state := { t.state with
          workers := before ++ { w with
            reserved := none, batch := some { b with attempts := b.attempts + 1 } } :: after
          pending }
         effects := t.effects ++
          [.dispatched before.length { b with attempts := b.attempts + 1 }] }, .free⟩
  /-- A worker for which there is no batch is dismissed. -/
  | dismiss {t : Turn} {before after : List Worker} {w : Worker}
      (hw : t.state.workers = before ++ w :: after) (hr : w.reserved = none)
      (hp : t.state.pending = []) :
    Step o ⟨t, .serving before.length⟩
      ⟨{ t with state := { t.state with workers := before ++ { w with gone := true } :: after } },
        .free⟩
  /-- A result answers the batch in flight. -/
  | complete {t : Turn} {before after : List Worker} {w : Worker} {b : Batch} {r : Result}
      (hw : t.state.workers = before ++ w :: after) (hg : w.gone = false) (hb : w.batch = some b)
      (hr : r.files = Int64.ofNat b.files.length) :
    Step o ⟨t, .hearing before.length r⟩
      ⟨{ state := { t.state with
          workers := before ++ { w with timer := false, batch := none } :: after
          report := t.state.report.merge r
          resolved := t.state.resolved + 1 }
         effects := t.effects ++
          [.merged before.length b r,
            .emit { kind := .batchCompleted, worker := WorkerId.name before.length, files := r.files
                    diagnostics := Int64.ofNat r.errors.length, internalErrors := r.internal }] },
        .serving before.length⟩
  /-- A result does not answer the batch in flight. -/
  | keep {t : Turn} {before after : List Worker} {w : Worker} {r : Result}
      (hw : t.state.workers = before ++ w :: after) (hg : w.gone = false)
      (hr : ∀ b, w.batch = some b → r.files ≠ Int64.ofNat b.files.length) :
    Step o ⟨t, .hearing before.length r⟩
      ⟨{ state := { t.state with report := { t.state.report with
          errors := t.state.report.errors ++ r.errors
          internal := t.state.report.internal + r.internal } }
         effects := t.effects ++ [.kept before.length r] }, .free⟩
  /-- A result comes from no worker that matters. -/
  | ignore {t : Turn} {id : WorkerId} {r : Result}
      (hg : ∀ w, t.state.workers[id]? = some w → w.gone = true) :
    Step o ⟨t, .hearing id r⟩ ⟨t, .free⟩
  /-- The process of a worker exits. -/
  | exit {t : Turn} {before after : List Worker} {w : Worker}
      (hw : t.state.workers = before ++ w :: after) :
    Step o ⟨t, .free⟩
      ⟨{ t with state := { t.state with
          workers := before ++ { w with exited := true } :: after
          running := t.state.running - 1 } },
        if w.connected || w.gone then .free else .losing before.length⟩
  /-- A process exits that belongs to no worker. -/
  | exitOther {t : Turn} :
    Step o ⟨t, .free⟩
      ⟨{ t with state := { t.state with running := t.state.running - 1 } }, .free⟩
  /-- A worker is lost without a batch in flight; the one reserved for it goes back to the queue. -/
  | abandon {t : Turn} {d : Duty} {before after : List Worker} {w : Worker} (cause : Bytes)
      (hw : t.state.workers = before ++ w :: after) (hg : w.gone = false)
      (hd : d = .free ∨ d = .losing before.length) (hb : w.batch = none) :
    Step o ⟨t, d⟩
      ⟨{ state := { t.state with
          workers := before ++ { w with gone := true, timer := false, reserved := none } :: after
          pending := w.reserved.toList ++ t.state.pending }
         effects := t.effects ++ lossEntries before.length w cause }, .afterLoss w⟩
  /-- A worker is lost, and its batch is handed to a fresh one. -/
  | retry {t : Turn} {d : Duty} {before after : List Worker} {w : Worker} {b : Batch} {s : State}
      (cause : Bytes) (hw : t.state.workers = before ++ w :: after) (hg : w.gone = false)
      (hd : d = .free ∨ d = .losing before.length) (hb : w.batch = some b)
      (ha : (b.attempts : Int) ≤ o.retries.toInt)
      (hs : Launched (some b) { t.state with
        workers := before ++ { w with gone := true, timer := false, batch := none } :: after } s) :
    Step o ⟨t, d⟩
      ⟨{ state := s, effects := t.effects ++ lossEntries before.length w cause }, .afterLoss w⟩
  /-- A worker is lost, and its batch is given up. -/
  | escalate {t : Turn} {d : Duty} {before after : List Worker} {w : Worker} {b : Batch}
      (cause : Bytes) (hw : t.state.workers = before ++ w :: after) (hg : w.gone = false)
      (hd : d = .free ∨ d = .losing before.length) (hb : w.batch = some b)
      (ha : ¬ (b.attempts : Int) ≤ o.retries.toInt) :
    Step o ⟨t, d⟩
      ⟨{ state := { t.state with
          workers := before ++ { w with gone := true, timer := false, batch := none } :: after
          report := reportEscalated b cause t.state.report
          resolved := t.state.resolved + 1 }
         effects := t.effects ++ lossEntries before.length w cause ++ [.escalated b cause] },
        .afterLoss w⟩

/-- Any number of small steps. -/
abbrev Steps (o : Options) : Moment → Moment → Prop := Relation.ReflTransGen (Step o)

/-! ## One worker among the others -/

section Between

variable {before after workers : List Worker} {w : Worker} {t : Turn}

/-- The worker between two lists of workers is found by the length of the first. -/
lemma getElem?_between : (before ++ w :: after)[before.length]? = some w := by simp

/-- A worker that is found by its number stands between those launched before and after it. -/
lemma exists_between {id : WorkerId} (h : workers[id]? = some w) :
    ∃ before after, workers = before ++ w :: after ∧ id = before.length := by
  obtain ⟨hid, rfl⟩ := List.getElem?_eq_some_iff.mp h
  refine ⟨workers.take id, workers.drop (id + 1), ?_, ?_⟩
  · rw [List.getElem_cons_drop, List.take_append_drop]
  · exact (List.length_take_of_le (Nat.le_of_lt hid)).symm

/-- What holds of one worker and of the others holds of all. -/
lemma forall_between {P : Worker → Prop} :
    (∀ v ∈ before ++ w :: after, P v) ↔ P w ∧ ∀ v ∈ before ++ after, P v := by
  simp only [List.mem_append, List.mem_cons]
  constructor
  · intro h
    exact ⟨h w (.inr (.inl rfl)), fun v hv => h v (hv.imp_right .inr)⟩
  · rintro ⟨hw, hrest⟩ v (hv | rfl | hv)
    · exact hrest v (.inl hv)
    · exact hw
    · exact hrest v (.inr hv)

/-- Changing the worker between two lists leaves both lists as they are. -/
lemma modify_between (f : Worker → Worker) :
    (before ++ w :: after).modify before.length f = before ++ f w :: after := by
  rw [List.modify_eq_take_cons_drop (by simp)]
  simp

/-- Changing one worker of a turn, as a change of its list of workers. -/
lemma update_between (hw : t.state.workers = before ++ w :: after) (f : Worker → Worker) :
    t.update before.length f =
      { t with state := { t.state with workers := before ++ f w :: after } } := by
  simp only [Turn.update, Turn.modify, State.update, hw, modify_between]

end Between

/-! ## Asides -/

/-- Nothing but asides lies between two turns. -/
def Quiet (t t' : Turn) : Prop :=
  ∃ es : List Effect, (∀ e ∈ es, e.isAside) ∧ t' = { t with effects := t.effects ++ es }

namespace Quiet

variable {t t' t'' : Turn}

/-- A turn is a quiet successor of itself. -/
lemma refl (t : Turn) : Quiet t t := ⟨[], by simp, by simp⟩

/-- Quiet stretches join. -/
lemma trans (h : Quiet t t') (h' : Quiet t' t'') : Quiet t t'' := by
  obtain ⟨es, hes, rfl⟩ := h
  obtain ⟨es', hes', rfl⟩ := h'
  refine ⟨es ++ es', ?_, by simp⟩
  intro e he
  rcases List.mem_append.mp he with he | he
  · exact hes e he
  · exact hes' e he

/-- A single aside is quiet. -/
lemma effect (t : Turn) {e : Effect} (he : e.isAside) : Quiet t (t.effect e) :=
  ⟨[e], by simpa using he, rfl⟩

/-- Logging is quiet. -/
lemma log (t : Turn) (line : Bytes) : Quiet t (t.log line) := effect t rfl

/-- Logging on condition is quiet. -/
lemma logIf (t : Turn) (verbose : Bool) (line : Bytes) : Quiet t (t.logIf verbose line) := by
  unfold Turn.logIf
  split
  · exact log t line
  · exact refl t

/-- Killing a process is quiet. -/
lemma kill (o : Options) (world : World) (id : WorkerId) (t : Turn) :
    Quiet t (Pool.kill o world id t) := by
  unfold Pool.kill
  have hk : Quiet t (t.effect (.killed id)) := effect t rfl
  dsimp only
  split
  · exact hk.trans (logIf _ _ _)
  · exact hk

/-- In a quiet stretch the workers stay as they are. -/
lemma workers_eq (h : Quiet t t') : t'.state.workers = t.state.workers := by
  obtain ⟨es, -, rfl⟩ := h
  rfl

/-- What is quiet in one case and nothing in the other is quiet. -/
lemma ite {c : Prop} [Decidable c] (h : Quiet t t') : Quiet t (if c then t' else t) := by
  split
  · exact h
  · exact refl t

/-- A quiet stretch is made of steps that leave the duty as it is. -/
lemma steps {o : Options} {d : Duty} (h : Quiet t t') : Steps o ⟨t, d⟩ ⟨t', d⟩ := by
  obtain ⟨es, hes, rfl⟩ := h
  induction es generalizing t with
  | nil => simpa using Relation.ReflTransGen.refl
  | cons e es ih =>
    have hstep : Step o ⟨t, d⟩ ⟨t.effect e, d⟩ := .aside (hes e (by simp))
    have hrest := ih (t := t.effect e) fun e' he' => hes e' (by simp [he'])
    refine .head hstep ?_
    simpa [Turn.effect] using hrest

end Quiet

/-! ## The moves as small steps -/

section Moves

variable {o : Options} {t : Turn} {before after : List Worker} {w : Worker}

/-- Taking back the batch reserved for a worker. -/
lemma requeue_between (hw : t.state.workers = before ++ w :: after) :
    requeue before.length t =
      { t with state := { t.state with
          workers := before ++ { w with reserved := none } :: after
          pending := w.reserved.toList ++ t.state.pending } } := by
  unfold requeue
  rw [hw, getElem?_between]
  obtain ⟨started, connected, exited, gone, reserved, batch, timer⟩ := w
  cases reserved with
  | none => simp [← hw]
  | some b =>
    have hb : (t.modify fun s => { s with pending := b :: s.pending }).state.workers =
        before ++ ⟨started, connected, exited, gone, some b, batch, timer⟩ :: after := hw
    dsimp only
    rw [update_between hb]
    simp [Turn.modify]

/-- A launch has one of its two outcomes. -/
lemma launch_spec (o : Options) (world : World) (reserved : Option Batch) (t : Turn) :
    ∃ s, Launched reserved t.state s ∧ Quiet { t with state := s } (launch o world reserved t) := by
  unfold launch
  dsimp only
  split
  · rename_i cause _
    set line := utf8 "launch worker " ++ WorkerId.name t.state.workers.length ++ utf8 ": " ++ cause
    have hw : ((t.log line).modify fun s => { s with workers := s.workers ++
        [{ gone := true, exited := true, reserved }] }).state.workers =
        t.state.workers ++ { gone := true, exited := true, reserved } :: [] := rfl
    refine ⟨_, .down, ?_⟩
    rw [requeue_between hw]
    exact Quiet.log _ line
  · exact ⟨_, .up _, by simpa [Turn.modify] using Quiet.refl _⟩

/-- Refilling the pool fulfils the duty to do so. -/
lemma refill_steps (o : Options) (world : World) (t : Turn) :
    Steps o ⟨t, .refilling⟩ ⟨refill o world t, .free⟩ := by
  unfold refill
  split
  · rename_i h
    obtain ⟨s, hs, hq⟩ := launch_spec o world none t
    have hlive : t.state.live < t.state.target := by simp_all
    exact .head (.refill hs hlive) hq.steps
  · exact .single (.rest (.inl rfl))

/-- What becomes of the batch of a lost worker. -/
lemma recover_steps (world : World) (cause : Bytes) {d : Duty}
    (hw : t.state.workers = before ++ w :: after) (hg : w.gone = false)
    (hd : d = .free ∨ d = .losing before.length) :
    Steps o ⟨t, d⟩
      ⟨recover o world before.length w cause
        { state := { t.state with
            workers := before ++ { w with gone := true, timer := false } :: after }
          effects := t.effects ++ lossEntries before.length w cause }, .afterLoss w⟩ := by
  unfold recover
  split
  · rename_i hb
    rw [requeue_between rfl]
    exact .single (Step.abandon (w := w) cause hw hg hd hb)
  · rename_i b hb
    dsimp only
    rw [update_between rfl]
    split
    · rename_i ha
      -- the log line of the retry comes before the launch, but nothing depends on that
      obtain ⟨s, hs, hq⟩ := launch_spec o world (some b) (Turn.log
        { state := { t.state with
            workers := before ++ { w with gone := true, timer := false, batch := none } :: after }
          effects := t.effects ++ lossEntries before.length w cause }
        (utf8 "retrying " ++ Bytes.natural b.files.length ++ utf8 " files on a fresh worker"))
      have hstep : Step o ⟨t, d⟩
          ⟨⟨s, t.effects ++ lossEntries before.length w cause⟩, .afterLoss w⟩ :=
        .retry cause hw hg hd hb ha hs
      exact .head hstep ((Quiet.log ⟨s, _⟩ _).trans hq).steps
    · rename_i ha
      exact .single (Step.escalate (w := w) cause hw hg hd hb ha)

/-- What the loss of a worker that still matters comes to: asides and the entry of the loss, then
what becomes of its batch, then perhaps a further worker. -/
lemma lose_of_live (o : Options) (world : World) (cause : Bytes)
    (hw : t.state.workers = before ++ w :: after) (hg : w.gone = false) :
    ∃ es : List Effect, (∀ e ∈ es, e.isAside) ∧
      lose o world before.length cause t =
        (if w.connected then refill o world else id)
          (recover o world before.length w cause
            { state := { t.state with
                workers := before ++ { w with gone := true, timer := false } :: after }
              effects := t.effects ++ es ++ lossEntries before.length w cause }) := by
  unfold lose
  rw [hw, getElem?_between]
  simp only [hg, Bool.false_eq_true, ↓reduceIte]
  rw [update_between hw]
  generalize ht₁ : ({ t with state := { t.state with workers := before ++
    { w with gone := true, timer := false } :: after } } : Turn) = t₁
  have hclose : Quiet t₁ (if w.connected then t₁.effect (.closed before.length) else t₁) :=
    (Quiet.effect t₁ rfl).ite
  generalize (if w.connected then t₁.effect (.closed before.length) else t₁) = t₂ at hclose ⊢
  have hkill : Quiet t₂ (if w.started && !w.exited then kill o world before.length t₂ else t₂) :=
    (Quiet.kill o world _ t₂).ite
  generalize (if w.started && !w.exited then kill o world before.length t₂ else t₂) = t₃
    at hkill ⊢
  obtain ⟨es, hes, ht₄⟩ := (hclose.trans hkill).trans (Quiet.log t₃ (utf8 "worker " ++
    WorkerId.name before.length ++ utf8 " lost: " ++ cause))
  refine ⟨es, hes, ?_⟩
  rw [ht₄, ← ht₁]
  simp only [Turn.effect, Turn.emit, List.append_assoc]
  cases w.connected <;> rfl

/-- Losing a worker that still matters. -/
lemma lose_live_steps (world : World) (cause : Bytes) {d : Duty}
    (hw : t.state.workers = before ++ w :: after) (hg : w.gone = false)
    (hd : d = .free ∨ d = .losing before.length) :
    Steps o ⟨t, d⟩ ⟨lose o world before.length cause t, .free⟩ := by
  obtain ⟨es, hes, hlose⟩ := lose_of_live o world cause hw hg
  have hquiet : Quiet t { t with effects := t.effects ++ es } := ⟨es, hes, rfl⟩
  have hrecover := recover_steps (o := o) (t := { t with effects := t.effects ++ es }) world cause
    hw hg hd
  rw [hlose]
  refine hquiet.steps.trans ?_
  cases hc : w.connected with
  | false =>
    rw [Duty.afterLoss, hc] at hrecover
    exact hrecover
  | true =>
    rw [Duty.afterLoss, hc] at hrecover
    exact hrecover.trans (refill_steps o world _)

/-- Losing a worker, whether or not it matters. -/
lemma lose_steps (o : Options) (world : World) (id : WorkerId) (cause : Bytes) (t : Turn) :
    Steps o ⟨t, .free⟩ ⟨lose o world id cause t, .free⟩ := by
  cases hid : t.state.workers[id]? with
  | none =>
    have hnone : lose o world id cause t = t := by simp [lose, hid]
    rw [hnone]
  | some w =>
    obtain ⟨before, after, hw, rfl⟩ := exists_between hid
    cases hg : w.gone with
    | true =>
      have hgone : lose o world before.length cause t = t := by simp [lose, hid, hg]
      rw [hgone]
    | false => exact lose_live_steps world cause hw hg (.inl rfl)

/-- Setting a deadline on condition. -/
lemma deadline_steps {c : Prop} [Decidable c] (hw : t.state.workers = before ++ w :: after) :
    Steps o ⟨t, .free⟩
      ⟨if c then t.update before.length fun w => { w with timer := true } else t, .free⟩ := by
  split
  · rw [update_between hw]
    exact .single (.timer true hw)
  · exact .refl

/-- Handing a batch to a worker that waits for it. -/
lemma dispatch_steps (world : World) {b : Batch} {pending : List Batch}
    (hw : t.state.workers = before ++ w :: after)
    (hb : w.reserved = some b ∧ t.state.pending = pending ∨
      w.reserved = none ∧ t.state.pending = b :: pending) :
    Steps o ⟨t, .serving before.length⟩
      ⟨dispatch o world before.length b
        { t with state := { t.state with
            workers := before ++ { w with reserved := none } :: after, pending } }, .free⟩ := by
  refine .head (.dispatch hw hb) ?_
  unfold dispatch
  dsimp only
  rw [update_between rfl]
  split
  · exact lose_steps o world _ _ _
  · rename_i frame _
    have hquiet : ∀ (t₁ : Turn) (line : Bytes),
        Quiet t₁ ((t₁.effect (.sent before.length frame)).logIf o.verbose line) :=
      fun t₁ line => (Quiet.effect t₁ rfl).trans (Quiet.logIf _ _ line)
    exact .trans (hquiet _ _).steps (deadline_steps (hquiet _ _).workers_eq)

/-- Giving a worker its next batch, or dismissing it. -/
lemma assign_steps (world : World) (hw : t.state.workers = before ++ w :: after) :
    Steps o ⟨t, .serving before.length⟩ ⟨assign o world before.length t, .free⟩ := by
  have htake : take before.length t = match w.reserved, t.state.pending with
      | some b, _ => (some b, t.update before.length fun w => { w with reserved := none })
      | none, b :: pending => (some b, t.modify fun s => { s with pending })
      | none, [] => (none, t) := by
    unfold take
    rw [hw, getElem?_between]
    obtain ⟨started, connected, exited, gone, reserved, batch, timer⟩ := w
    cases reserved with
    | some b => rfl
    | none => cases t.state.pending <;> rfl
  unfold assign
  rw [htake]
  cases hr : w.reserved with
  | some b =>
    dsimp only
    rw [update_between hw]
    exact dispatch_steps world hw (.inl ⟨hr, rfl⟩)
  | none =>
    cases hp : t.state.pending with
    | cons b pending =>
      have hsame : { w with reserved := none } = w := by rw [← hr]
      have := dispatch_steps (o := o) world hw (.inr ⟨hr, hp⟩)
      rw [hsame, ← hw] at this
      exact this
    | nil =>
      dsimp only
      rw [update_between hw]
      exact .head (.dismiss hw hr hp) (Quiet.effect _ rfl).steps

/-! ## Reactions as small steps -/

/-- The reaction to a connection that introduces itself. -/
lemma bind_steps (o : Options) (world : World) (identity : Identity) (peer : Bytes) (t : Turn) :
    Steps o ⟨t, .free⟩ ⟨bind o world identity peer t, .free⟩ := by
  have hreject : ∀ reason, Quiet t (reject peer reason t) := fun reason =>
    (Quiet.log t _).trans (Quiet.effect _ rfl)
  unfold bind
  split
  · exact (hreject _).steps
  · rename_i id
    split
    · exact (hreject _).steps
    · rename_i w hid
      obtain ⟨before, after, hw, rfl⟩ := exists_between hid
      split
      · exact (hreject _).steps
      · rename_i hfree
        have hfree : w.connected = false ∧ w.gone = false := by simpa using hfree
        refine .head (.connect hw hfree.1 hfree.2) ?_
        dsimp only
        rw [update_between hw]
        exact .trans (Quiet.logIf _ _ _).steps (assign_steps world (Quiet.logIf _ _ _).workers_eq)

/-- A result that answers the batch in flight. -/
lemma complete_steps (world : World) {b : Batch} {r : Result}
    (hw : t.state.workers = before ++ w :: after) (hg : w.gone = false) (hb : w.batch = some b)
    (hr : r.files = Int64.ofNat b.files.length) :
    Steps o ⟨t, .hearing before.length r⟩ ⟨complete o world before.length b r t, .free⟩ := by
  refine .head (.complete hw hg hb hr) ?_
  unfold complete
  dsimp only
  rw [update_between hw]
  simp only [Turn.modify, Turn.emit, Turn.effect, List.append_assoc, List.cons_append,
    List.nil_append]
  exact .trans (Quiet.logIf _ _ _).steps (assign_steps world (Quiet.logIf _ _ _).workers_eq)

/-- A result that does not answer the batch in flight. -/
lemma keep_steps {r : Result} (hw : t.state.workers = before ++ w :: after) (hg : w.gone = false)
    (hr : ∀ b, w.batch = some b → r.files ≠ Int64.ofNat b.files.length) :
    Steps o ⟨t, .hearing before.length r⟩ ⟨keep before.length r t, .free⟩ := by
  unfold keep
  exact .trans (Quiet.log t _).steps (.single (.keep hw hg hr))

/-- The reaction to a result. -/
lemma receive_steps (o : Options) (world : World) (id : WorkerId) (r : Result) (t : Turn) :
    Steps o ⟨t, .hearing id r⟩ ⟨receive o world id r t, .free⟩ := by
  unfold receive
  split
  · rename_i hid
    exact .single (.ignore (by simp [hid]))
  · rename_i w hid
    split
    · rename_i hg
      exact .single (.ignore (by simpa [hid] using hg))
    · rename_i hg
      have hg : w.gone = false := by simpa using hg
      obtain ⟨before, after, hw, rfl⟩ := exists_between hid
      split
      · rename_i b hb
        split
        · rename_i hr
          exact complete_steps world hw hg hb hr
        · rename_i hr
          exact keep_steps hw hg (by simpa [hb] using hr)
      · rename_i hb
        exact keep_steps hw hg (by simp [hb])

/-- The reaction to the exit of a process. -/
lemma reap_steps (o : Options) (world : World) (id : WorkerId) (error : Option Bytes) (t : Turn) :
    Steps o ⟨t, .free⟩ ⟨reap o world id error t, .free⟩ := by
  unfold reap
  dsimp only
  cases hid : t.state.workers[id]? with
  | none =>
    have hsame : t.update id (fun w => { w with exited := true }) = t := by
      simp only [Turn.update, Turn.modify, State.update]
      rw [List.modify_eq_self (List.getElem?_eq_none_iff.mp hid)]
    rw [hsame]
    simp only [Turn.modify, hid]
    exact .single .exitOther
  | some w =>
    obtain ⟨before, after, hw, rfl⟩ := exists_between hid
    rw [update_between hw]
    simp only [Turn.modify, getElem?_between]
    cases hc : w.connected with
    | true =>
      have hexit := Step.exit (o := o) hw
      simp only [hc, Bool.true_or, ↓reduceIte] at hexit ⊢
      exact .single hexit
    | false =>
      have hexit := Step.exit (o := o) hw
      refine .head hexit ?_
      cases hg : w.gone with
      | true =>
        simp only [hc, Bool.false_or, ↓reduceIte]
        exact lose_steps o world _ _ _
      | false =>
        simp only [hc, Bool.false_or, Bool.false_eq_true, ↓reduceIte]
        exact lose_live_steps world _ rfl rfl (.inr rfl)

end Moves

/-- The duty that a happening brings. -/
def Duty.upon : Happening → Duty
  | .result id r => .hearing id r
  | _ => .free

/-- **Reactions are made of small steps.** The reaction to a happening leads by small steps from the
duty that the happening brings to no duty at all. -/
theorem react_steps (o : Options) (world : World) (t : Turn) (h : Happening) :
    Steps o ⟨t, .upon h⟩ ⟨react o world t h, .free⟩ := by
  cases h with
  | hello identity peer => exact bind_steps o world identity peer t
  | result id r => exact receive_steps o world id r t
  | lost id cause => exact lose_steps o world id cause t
  | exited id error => exact reap_steps o world id error t
  | handshakeTimeout id =>
    simp only [react, Duty.upon]
    split
    · split
      · exact .refl
      · exact lose_steps o world _ _ t
    · exact .refl
  | batchTimeout id index =>
    simp only [react, Duty.upon]
    split
    · split
      · exact lose_steps o world _ _ t
      · exact .refl
    · exact .refl

/-! ## The course of a job -/

/-- A moment with earlier effects put before its own. -/
def Moment.prepend (es : List Effect) (m : Moment) : Moment :=
  { m with turn := { m.turn with effects := es ++ m.turn.effects } }

/-- What a small step does does not depend on earlier effects. -/
lemma Step.prepend {o : Options} {m m' : Moment} (es : List Effect) (h : Step o m m') :
    Step o (m.prepend es) (m'.prepend es) := by
  cases h with
  | aside he => simpa [Moment.prepend, Turn.effect] using Step.aside (t := ⟨_, es ++ _⟩) he
  | timer x hw => exact .timer x hw
  | begin hs => exact .begin hs
  | refill hs hlive => exact .refill hs hlive
  | rest hd => exact .rest hd
  | connect hw hc hg => simpa [Moment.prepend] using Step.connect (t := ⟨_, es ++ _⟩) hw hc hg
  | dispatch hw hb => simpa [Moment.prepend] using Step.dispatch (t := ⟨_, es ++ _⟩) hw hb
  | dismiss hw hr hp => exact .dismiss hw hr hp
  | complete hw hg hb hr =>
    simpa [Moment.prepend] using Step.complete (t := ⟨_, es ++ _⟩) hw hg hb hr
  | keep hw hg hr => simpa [Moment.prepend] using Step.keep (t := ⟨_, es ++ _⟩) hw hg hr
  | ignore hg => exact .ignore hg
  | exit hw => exact .exit hw
  | exitOther => exact .exitOther
  | abandon cause hw hg hd hb =>
    simpa [Moment.prepend] using Step.abandon (t := ⟨_, es ++ _⟩) cause hw hg hd hb
  | retry cause hw hg hd hb ha hs =>
    simpa [Moment.prepend] using Step.retry (t := ⟨_, es ++ _⟩) cause hw hg hd hb ha hs
  | escalate cause hw hg hd hb ha =>
    simpa [Moment.prepend] using Step.escalate (t := ⟨_, es ++ _⟩) cause hw hg hd hb ha

/-- A turn with the next one after it, the effects of both kept. -/
def Turn.followedBy (t next : Turn) : Turn := { next with effects := t.effects ++ next.effects }

/-- The turn after the next happening is reached by small steps. -/
lemma handle_steps (o : Options) (world : World) (t : Turn) (h : Happening) :
    Steps o ⟨t, .upon h⟩ ⟨t.followedBy (handle o world t.state h), .free⟩ := by
  have hlift := Relation.ReflTransGen.lift (Moment.prepend t.effects)
    (fun _ _ hstep => Step.prepend t.effects hstep) _ _
    (react_steps o world { state := t.state } h)
  simpa [Function.onFun, Moment.prepend, Turn.followedBy, handle] using hlift

/-- Launching the workers of a job one after another. -/
lemma launches_steps (o : Options) (world : World) (l : List Nat) (t : Turn) :
    Steps o ⟨t, .starting l.length⟩
      ⟨l.foldl (fun t _ => launch o world none t) t, .starting 0⟩ := by
  induction l generalizing t with
  | nil => exact .refl
  | cons _ l ih =>
    obtain ⟨s, hs, hq⟩ := launch_spec o world none t
    exact .head (.begin hs) (hq.steps.trans (ih _))

/-- The start of a job is made of small steps. -/
lemma start_steps (o : Options) (world : World) (plan : Schedule) :
    Steps o ⟨{ state := State.ofSchedule plan }, .starting plan.processes.toNatClampNeg⟩
      ⟨start o world plan, .free⟩ := by
  have hlaunches := launches_steps o world (List.range plan.processes.toNatClampNeg)
    { state := State.ofSchedule plan }
  rw [List.length_range] at hlaunches
  exact hlaunches.tail (.rest (.inr rfl))

/-- The turn that a job has come to after some occasions. -/
def course (o : Options) (world : World) (cancelOn : Option Event.Kind) (cancelled : Bool)
    (files : List Bytes) (occasions : List Occasion) : Turn :=
  (follow o cancelOn (start o world (planFor o files)) cancelled occasions).1

section Induction

variable {o : Options} {P : Moment → Prop}
  (hhear : ∀ t id r, P ⟨t, .free⟩ → P ⟨t, .hearing id r⟩)
  (hstep : ∀ m m', P m → Step o m m' → P m')

include hstep in
/-- What every small step keeps is kept by any number of them. -/
lemma Steps.keep {m m' : Moment} (h : Steps o m m') (hm : P m) : P m' := by
  induction h with
  | refl => exact hm
  | tail _ hlast ih => exact hstep _ _ ih hlast

include hhear hstep in
/-- What every small step keeps is kept by the reaction to a happening. -/
lemma handle_induction (world : World) (t : Turn) (h : Happening) (ht : P ⟨t, .free⟩) :
    P ⟨t.followedBy (handle o world t.state h), .free⟩ := by
  refine Steps.keep hstep (handle_steps o world t h) ?_
  cases h with
  | result id r => exact hhear t id r ht
  | _ => exact ht

include hhear hstep in
/-- What every small step keeps is kept as long as a job goes on. -/
lemma follow_induction (cancelOn : Option Event.Kind) (t : Turn) (cancelled : Bool)
    (occasions : List Occasion) (ht : P ⟨t, .free⟩) :
    P ⟨(follow o cancelOn t cancelled occasions).1, .free⟩ := by
  induction occasions generalizing t cancelled with
  | nil => exact ht
  | cons occasion rest ih =>
    unfold follow
    split
    · exact ih _ _ (handle_induction hhear hstep occasion.world t occasion.happening ht)
    · exact ht

include hhear hstep in
/-- **Induction over the course of a job.** What holds before the first launch, survives the arrival
of a result and is kept by every small step holds in the whole course of a job.

**Proof sketch.** The start of the job and the reaction to each happening are sequences of small
steps (`start_steps`, `handle_steps`), and the course of a job is made of these. -/
theorem course_induction (world : World) (cancelOn : Option Event.Kind) (cancelled : Bool)
    (files : List Bytes) (occasions : List Occasion)
    (hstart : P ⟨{ state := State.ofSchedule (planFor o files) },
      .starting (planFor o files).processes.toNatClampNeg⟩) :
    P ⟨course o world cancelOn cancelled files occasions, .free⟩ :=
  follow_induction hhear hstep cancelOn _ cancelled occasions
    (Steps.keep hstep (start_steps o world _) hstart)

end Induction

end LintPool.Pool
