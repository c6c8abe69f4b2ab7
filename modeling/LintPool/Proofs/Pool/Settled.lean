import LintPool.Proofs.Pool.Transition

/-!
# No stuck worker

A coordinator waits for its workers as long as any of them matters. So each of them has to owe it
something: its hello, or the result of the batch in flight. Such workers are *settled*. A reaction
unsettles at most one worker at a time, the one that its duty is about.

## Main definitions

* `LintPool.Pool.Worker.Settled` : a settled worker.
* `LintPool.Pool.Moment.Settled` : all workers are settled but the one that the duty is about.
* `LintPool.Pool.Moment.Bounded` : there are no more workers than wanted.

## Main results

* `LintPool.Pool.Step.settled`, `LintPool.Pool.Step.bounded` : small steps keep both.
* `LintPool.Pool.course_settled` : between happenings all workers are settled.
* `LintPool.Pool.course_no_stuck_worker` : every worker that matters owes its hello or a result, and
  there are never more of them than wanted.
-/

namespace LintPool.Pool

/-! ## Settled workers -/

/-- A worker that is gone holds no batch. One that has not connected has not exited either and has
no batch in flight. A connected one has a batch in flight, and none is reserved for it. -/
def Worker.Settled (w : Worker) : Prop :=
  if w.gone then w.reserved = none ∧ w.batch = none
  else if w.connected then w.reserved = none ∧ w.batch.isSome
  else w.exited = false ∧ w.batch = none

/-- A connected worker that waits for a batch. -/
def Worker.Idle (w : Worker) : Prop := w.gone = false ∧ w.connected = true ∧ w.batch = none

/-- A worker that never connected and is about to be lost. -/
def Worker.Leaving (w : Worker) : Prop := w.gone = false ∧ w.connected = false ∧ w.batch = none

/-- All workers are settled but the one with the number `id`, of which `P` holds. -/
def SettledBut (id : WorkerId) (P : Worker → Prop) (workers : List Worker) : Prop :=
  ∃ before w after, workers = before ++ w :: after ∧ before.length = id ∧ P w ∧
    ∀ v ∈ before ++ after, v.Settled

/-- All workers are settled but the one that the duty is about, if it is about one. -/
def Moment.Settled (m : Moment) : Prop :=
  match m.duty with
  | .serving id => SettledBut id Worker.Idle m.turn.state.workers
  | .losing id => SettledBut id Worker.Leaving m.turn.state.workers
  | _ => ∀ w ∈ m.turn.state.workers, w.Settled

section Workers

variable {before after : List Worker} {w : Worker} {P : Worker → Prop}

/-- The exception in `SettledBut` is the worker with the given number. -/
lemma settledBut_between :
    SettledBut before.length P (before ++ w :: after) ↔ P w ∧ ∀ v ∈ before ++ after, v.Settled := by
  constructor
  · rintro ⟨before', w', after', hw, hlen, hP, hrest⟩
    obtain ⟨rfl, heq⟩ := List.append_inj hw hlen.symm
    obtain ⟨rfl, rfl⟩ := List.cons.inj heq
    exact ⟨hP, hrest⟩
  · rintro ⟨hP, hrest⟩
    exact ⟨before, w, after, rfl, rfl, hP, hrest⟩

/-- A settled worker with a batch in flight has none reserved for it. -/
lemma Worker.Settled.reserved_eq_none {b : Batch} (h : w.Settled) (hb : w.batch = some b) :
    w.reserved = none := by
  unfold Worker.Settled at h
  split at h
  · exact h.1
  · split at h
    · exact h.1
    · rw [hb] at h
      simp at h

/-- A settled worker with a batch in flight is connected. -/
lemma Worker.Settled.connected_of_batch {b : Batch} (h : w.Settled) (hg : w.gone = false)
    (hb : w.batch = some b) : w.connected = true := by
  cases hc : w.connected with
  | true => rfl
  | false => simp [Worker.Settled, hg, hc, hb] at h

/-- A worker that is lost with a batch in flight was settled before. -/
lemma Worker.Settled.of_batch {b : Batch} (h : w.Settled ∨ w.Leaving) (hb : w.batch = some b) :
    w.Settled := by
  rcases h with h | ⟨-, -, hnone⟩
  · exact h
  · rw [hb] at hnone
    cases hnone

/-- A worker that is gone and holds no batch is settled. -/
lemma Worker.settled_of_gone (hg : w.gone = true) (hr : w.reserved = none) (hb : w.batch = none) :
    w.Settled := by
  rw [Worker.Settled, if_pos hg]
  exact ⟨hr, hb⟩

/-- A launch adds a settled worker. -/
lemma Launched.settled {reserved : Option Batch} {s s' : State} (h : Launched reserved s s')
    (hs : ∀ w ∈ s.workers, w.Settled) : ∀ w ∈ s'.workers, w.Settled := by
  have hother : ∀ v ∈ s.workers ++ [], v.Settled := by simpa using hs
  cases h with
  | up timer => exact forall_between.mpr ⟨by simp [Worker.Settled], hother⟩
  | down => exact forall_between.mpr ⟨by simp [Worker.Settled], hother⟩

/-- After the loss of a worker there is none that the duty is about. -/
lemma settled_afterLoss {t : Turn} {w : Worker} :
    Moment.Settled ⟨t, .afterLoss w⟩ ↔ ∀ v ∈ t.state.workers, v.Settled := by
  unfold Duty.afterLoss
  split <;> rfl

/-- When a worker is lost, it is settled or has just exited, and the others are settled. -/
lemma Moment.Settled.of_losing {t : Turn} {d : Duty} (h : Moment.Settled ⟨t, d⟩)
    (hw : t.state.workers = before ++ w :: after)
    (hd : d = .free ∨ d = .losing before.length) :
    (w.Settled ∨ w.Leaving) ∧ ∀ v ∈ before ++ after, v.Settled := by
  rcases hd with rfl | rfl
  · simp only [Moment.Settled, hw, forall_between] at h
    exact ⟨.inl h.1, h.2⟩
  · simp only [Moment.Settled, hw, settledBut_between] at h
    exact ⟨.inr h.1, h.2⟩

end Workers

/-- **Small steps keep workers settled.**

**Proof sketch.** By the kind of step. Connecting and completing unsettle the worker that they leave
to be served; dispatching and dismissing settle it again. The exit of a process unsettles its worker
if it never connected, and then it is the worker that is lost next. A lost worker is left without a
batch: if one was in flight, none was reserved. -/
theorem Step.settled {o : Options} {m m' : Moment} (h : Step o m m') (hm : m.Settled) :
    m'.Settled := by
  cases h with
  | aside he => exact hm
  | timer x hw =>
    simp only [Moment.Settled, hw, forall_between] at hm ⊢
    exact ⟨hm.1, hm.2⟩
  | begin hs => exact hs.settled hm
  | refill hs hlive => exact hs.settled hm
  | rest hd =>
    rcases hd with rfl | rfl
    · exact hm
    · exact hm
  | connect hw hc hg =>
    simp only [Moment.Settled, hw, forall_between, settledBut_between] at hm ⊢
    obtain ⟨hwait, hrest⟩ := hm
    simp only [Worker.Settled, hg, hc, Bool.false_eq_true, ↓reduceIte] at hwait
    exact ⟨⟨hg, rfl, hwait.2⟩, hrest⟩
  | dispatch hw hb =>
    simp only [Moment.Settled, hw, forall_between, settledBut_between] at hm ⊢
    obtain ⟨⟨hg, hc, -⟩, hrest⟩ := hm
    exact ⟨by simp [Worker.Settled, hg, hc], hrest⟩
  | dismiss hw hr hp =>
    simp only [Moment.Settled, hw, forall_between, settledBut_between] at hm ⊢
    exact ⟨Worker.settled_of_gone rfl hr hm.1.2.2, hm.2⟩
  | complete hw hg hb hr =>
    simp only [Moment.Settled, hw, forall_between, settledBut_between] at hm ⊢
    exact ⟨⟨hg, hm.1.connected_of_batch hg hb, rfl⟩, hm.2⟩
  | keep hw hg hr => exact hm
  | ignore hg => exact hm
  | @exit t before after w hw =>
    simp only [Moment.Settled, hw, forall_between] at hm
    obtain ⟨hset, hrest⟩ := hm
    cases hg : w.gone with
    | true =>
      simp only [Worker.Settled, hg, ↓reduceIte] at hset
      simp only [Bool.or_true, ↓reduceIte, Moment.Settled, forall_between]
      exact ⟨Worker.settled_of_gone rfl hset.1 hset.2, hrest⟩
    | false =>
      cases hc : w.connected with
      | true =>
        simp only [Worker.Settled, hg, hc, Bool.false_eq_true, ↓reduceIte] at hset
        simp only [Bool.true_or, ↓reduceIte, Moment.Settled, forall_between]
        exact ⟨by simpa [Worker.Settled, hg, hc] using hset, hrest⟩
      | false =>
        simp only [Worker.Settled, hg, hc, Bool.false_eq_true, ↓reduceIte] at hset
        simp only [Bool.or_false, Bool.false_eq_true, ↓reduceIte, Moment.Settled,
          settledBut_between]
        exact ⟨⟨rfl, rfl, hset.2⟩, hrest⟩
  | exitOther => exact hm
  | abandon cause hw hg hd hb =>
    rw [settled_afterLoss, forall_between]
    exact ⟨Worker.settled_of_gone rfl rfl hb, (hm.of_losing hw hd).2⟩
  | retry cause hw hg hd hb ha hs =>
    obtain ⟨hlost, hrest⟩ := hm.of_losing hw hd
    have hr := (Worker.Settled.of_batch hlost hb).reserved_eq_none hb
    rw [settled_afterLoss]
    exact hs.settled (forall_between.mpr ⟨Worker.settled_of_gone rfl hr rfl, hrest⟩)
  | escalate cause hw hg hd hb ha =>
    obtain ⟨hlost, hrest⟩ := hm.of_losing hw hd
    have hr := (Worker.Settled.of_batch hlost hb).reserved_eq_none hb
    rw [settled_afterLoss, forall_between]
    exact ⟨Worker.settled_of_gone rfl hr rfl, hrest⟩

/-! ## The size of the pool -/

/-- The number of workers that the coordinator has still to launch. -/
def Duty.owed : Duty → Nat
  | .starting left => left
  | _ => 0

/-- The pool is to have `target` workers, and with those still to be launched it has no more. -/
structure Moment.Bounded (target : Nat) (m : Moment) : Prop where
  target_eq : m.turn.state.target = target
  live_le : m.turn.state.live + m.duty.owed ≤ target

/-- The number of workers that matter, with one of them apart. -/
lemma countP_between {before after : List Worker} {w : Worker} :
    (before ++ w :: after).countP (!·.gone) =
      (before ++ after).countP (!·.gone) + if w.gone then 0 else 1 := by
  simp only [List.countP_append, List.countP_cons]
  cases w.gone with
  | true => simp
  | false =>
    simp only [Bool.not_false, Bool.false_eq_true, ↓reduceIte]
    omega

/-- A launch adds at most one worker that matters. -/
lemma Launched.live_le {reserved : Option Batch} {s s' : State} (h : Launched reserved s s') :
    s'.live ≤ s.live + 1 := by
  cases h with
  | up timer => simp [State.live]
  | down => simp [State.live]

/-- A launch changes neither the number of workers wanted nor that of batches. -/
lemma Launched.target_eq {reserved : Option Batch} {s s' : State} (h : Launched reserved s s') :
    s'.target = s.target := by
  cases h with
  | up timer => rfl
  | down => rfl

/-- No worker is owed after a loss. -/
lemma owed_afterLoss (w : Worker) : (Duty.afterLoss w).owed = 0 := by
  unfold Duty.afterLoss
  split <;> rfl

/-- Where only one worker changes and does not come back, the pool stays within its bound. -/
lemma Moment.Bounded.between {target : Nat} {t t' : Turn} {d d' : Duty} {before after : List Worker}
    {w w' : Worker} (h : Moment.Bounded target ⟨t, d⟩) (hw : t.state.workers = before ++ w :: after)
    (hw' : t'.state.workers = before ++ w' :: after) (htarget : t'.state.target = t.state.target)
    (howed : d'.owed ≤ d.owed) (hgone : w'.gone = false → w.gone = false) :
    Moment.Bounded target ⟨t', d'⟩ := by
  refine ⟨htarget.trans h.target_eq, ?_⟩
  have hlive := h.live_le
  simp only [State.live, hw, hw', countP_between] at hlive ⊢
  cases hg' : w'.gone with
  | true =>
    simp only [↓reduceIte]
    omega
  | false =>
    simp only [hgone hg', Bool.false_eq_true, ↓reduceIte] at hlive ⊢
    omega

/-- **Small steps keep the pool within its bound.**

**Proof sketch.** Only launches add workers. At the start each of them is owed, a refill asks first
whether the pool is below its size, and a retry replaces the worker that was lost. -/
theorem Step.bounded {o : Options} {target : Nat} {m m' : Moment} (h : Step o m m')
    (hm : m.Bounded target) : m'.Bounded target := by
  cases h with
  | aside he => exact ⟨hm.target_eq, hm.live_le⟩
  | timer x hw => exact hm.between hw rfl rfl (Nat.le_refl _) fun hg => hg
  | begin hs =>
    refine ⟨hs.target_eq.trans hm.target_eq, ?_⟩
    have hadd := hs.live_le
    have hlive := hm.live_le
    simp only [Duty.owed] at hlive ⊢
    omega
  | refill hs hbelow =>
    refine ⟨hs.target_eq.trans hm.target_eq, ?_⟩
    have hadd := hs.live_le
    have htarget := hm.target_eq
    simp only [Duty.owed] at htarget ⊢
    omega
  | rest hd =>
    refine ⟨hm.target_eq, ?_⟩
    have hlive := hm.live_le
    dsimp only [Duty.owed] at hlive ⊢
    omega
  | connect hw hc hg => exact hm.between hw rfl rfl (Nat.le_refl _) fun hg => hg
  | dispatch hw hb => exact hm.between hw rfl rfl (Nat.le_refl _) fun hg => hg
  | dismiss hw hr hp => exact hm.between hw rfl rfl (Nat.le_refl _) nofun
  | complete hw hg hb hr => exact hm.between hw rfl rfl (Nat.le_refl _) fun hg => hg
  | keep hw hg hr => exact ⟨hm.target_eq, hm.live_le⟩
  | ignore hg => exact ⟨hm.target_eq, hm.live_le⟩
  | @exit t before after w hw =>
    refine hm.between hw rfl rfl ?_ fun hg => hg
    split <;> exact Nat.le_refl _
  | exitOther => exact ⟨hm.target_eq, hm.live_le⟩
  | abandon cause hw hg hd hb =>
    exact hm.between hw rfl rfl (owed_afterLoss _ ▸ Nat.zero_le _) nofun
  | retry cause hw hg hd hb ha hs =>
    refine ⟨hs.target_eq.trans hm.target_eq, ?_⟩
    have hadd := hs.live_le
    have hlive := hm.live_le
    simp only [State.live, hw, hg, countP_between, owed_afterLoss, Bool.false_eq_true,
      ↓reduceIte] at hlive hadd ⊢
    omega
  | escalate cause hw hg hd hb ha =>
    exact hm.between hw rfl rfl (owed_afterLoss _ ▸ Nat.zero_le _) nofun

/-! ## The course of a job -/

section Course

variable (o : Options) (world : World) (cancelOn : Option Event.Kind) (cancelled : Bool)
  (files : List Bytes) (occasions : List Occasion)

/-- Between happenings all workers are settled. -/
theorem course_settled :
    Moment.Settled ⟨course o world cancelOn cancelled files occasions, .free⟩ := by
  refine course_induction (P := Moment.Settled) (fun _ _ _ h => h) (fun _ _ hm h => h.settled hm)
    world cancelOn cancelled files occasions ?_
  simp [Moment.Settled, State.ofSchedule]

/-- Between happenings there are no more workers than wanted. -/
theorem course_bounded :
    Moment.Bounded (planFor o files).processes.toNatClampNeg
      ⟨course o world cancelOn cancelled files occasions, .free⟩ := by
  refine course_induction (P := Moment.Bounded _) (fun _ _ _ h => ⟨h.target_eq, h.live_le⟩)
    (fun _ _ hm h => h.bounded hm) world cancelOn cancelled files occasions ?_
  exact ⟨rfl, by simp [State.live, State.ofSchedule, Duty.owed]⟩

/-- **No worker is stuck, and the pool is bounded.** Whatever happens to a job, every worker that
still matters either has not connected, and its process is not known to have exited, or it is
connected and has a batch in flight; and no more workers matter than the schedule asks for. -/
theorem course_no_stuck_worker :
    (∀ w ∈ (course o world cancelOn cancelled files occasions).state.workers, w.gone = false →
      (w.connected = false ∧ w.exited = false) ∨ (w.connected = true ∧ ∃ b, w.batch = some b)) ∧
    (course o world cancelOn cancelled files occasions).state.target =
      (planFor o files).processes.toNatClampNeg ∧
    (course o world cancelOn cancelled files occasions).state.live ≤
      (course o world cancelOn cancelled files occasions).state.target := by
  have hbounded := course_bounded o world cancelOn cancelled files occasions
  refine ⟨?_, hbounded.target_eq, hbounded.target_eq ▸ hbounded.live_le⟩
  intro w hw hg
  have hset : w.Settled := course_settled o world cancelOn cancelled files occasions w hw
  cases hc : w.connected with
  | false =>
    simp only [Worker.Settled, hg, hc, Bool.false_eq_true, ↓reduceIte] at hset
    exact .inl ⟨rfl, hset.1⟩
  | true =>
    simp only [Worker.Settled, hg, hc, Bool.false_eq_true, ↓reduceIte] at hset
    exact .inr ⟨rfl, Option.isSome_iff_exists.mp hset.2⟩

end Course

end LintPool.Pool
