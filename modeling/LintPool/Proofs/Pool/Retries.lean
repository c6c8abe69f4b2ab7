import LintPool.Proofs.Pool.Account
import LintPool.Proofs.Pool.Reception

/-!
# Retries are bounded

A batch that is lost with its worker is handed out again, but only so often. So the number of
workers that are ever launched is bounded as well, whatever the world does to them.

The bound on launches is an amortised one. A worker that is lost with a batch in flight has used up
an attempt of that batch, and brings at most two launches: one for the batch, one to refill the
pool. Only the last attempt of a batch brings no launch for the batch. A worker that is lost before
it connects brings no launch at all.

## Main definitions

* `LintPool.Pool.Options.limit` : how often a batch is handed out at most.
* `LintPool.Pool.State.Tried`, `LintPool.Pool.Booked` : batches were handed out no more often than
  that, and those lost at their last attempt are the ones given up.
* `LintPool.Pool.Turn.Counted` : a batch counts how often it was handed out.
* `LintPool.Pool.State.spent` : the launches that the attempts so far may have brought.
* `LintPool.Pool.Turn.Restrained` : how often batches were handed out and given up, what the report
  says of those given up, and how many workers were launched.

## Main results

* `LintPool.Pool.Step.tried`, `LintPool.Pool.Step.booked`, `LintPool.Pool.Step.counted`,
  `LintPool.Pool.Step.amortised` : what small steps keep.
* `LintPool.Pool.lostIn_lose` : a worker takes the batch in flight with it.
* `LintPool.Pool.course_retries_bounded` : what follows for the course of a job.
-/

namespace LintPool.Pool

/-- How often a batch is handed out at most. -/
def Options.limit (o : Options) : Nat := o.retries.toNatClampNeg + 1

/-- A batch that was handed out may be handed out again as long as it is below the limit. -/
lemma attempts_le_retries_iff {o : Options} {n : Nat} (hn : 0 < n) :
    (n : Int) ≤ o.retries.toInt ↔ n < o.limit := by
  unfold Options.limit Int64.toNatClampNeg
  omega

/-! ## Attempts -/

/-- A batch reserved for a worker may still be handed out, and the one in flight on it was. -/
structure Worker.Tried (limit : Nat) (w : Worker) : Prop where
  reserved : ∀ b, w.reserved = some b → b.attempts < limit
  batch : ∀ b, w.batch = some b → 0 < b.attempts ∧ b.attempts ≤ limit

/-- The batches that wait may still be handed out, and those in flight were. -/
structure State.Tried (limit : Nat) (s : State) : Prop where
  pending : ∀ b ∈ s.pending, b.attempts < limit
  workers : ∀ w ∈ s.workers, w.Tried limit

/-- No batch was resolved after more attempts than the limit, and those given up are the ones that
were lost at the limit. -/
structure Booked (limit : Nat) (es : List Effect) : Prop where
  resolved : ∀ b ∈ resolvedIn es, b.attempts ≤ limit
  escalated : escalatedIn es = ((lostIn es).map (·.2)).filter (·.attempts == limit)

section Attempts

variable {limit : Nat} {s s' : State} {before after : List Worker} {w w' : Worker}
  {es extra : List Effect}

/-- Where only one worker changes, it is enough to look at the queue and at that worker. -/
lemma State.Tried.between (h : s.Tried limit) (hw : s.workers = before ++ w :: after)
    (hw' : s'.workers = before ++ w' :: after) (hp : ∀ b ∈ s'.pending, b.attempts < limit)
    (hself : w.Tried limit → w'.Tried limit) : s'.Tried limit := by
  have hworkers := h.workers
  rw [hw, forall_between] at hworkers
  refine ⟨hp, ?_⟩
  rw [hw', forall_between]
  exact ⟨hself hworkers.1, hworkers.2⟩

/-- The worker between the others has been tried as often as all. -/
lemma State.Tried.worker (h : s.Tried limit) (hw : s.workers = before ++ w :: after) :
    w.Tried limit :=
  h.workers w (hw ▸ List.mem_append_right _ (List.mem_cons_self ..))

/-- A launch keeps the batch that it reserves ready to be handed out. -/
lemma Launched.tried {reserved : Option Batch} (h : Launched reserved s s') (hs : s.Tried limit)
    (hr : ∀ b, reserved = some b → b.attempts < limit) : s'.Tried limit := by
  have hothers : ∀ v ∈ s.workers ++ [], v.Tried limit := by simpa using hs.workers
  cases h with
  | up timer => exact ⟨hs.pending, forall_between.mpr ⟨⟨hr, nofun⟩, hothers⟩⟩
  | down =>
    refine ⟨fun b hb => ?_, forall_between.mpr ⟨⟨nofun, nofun⟩, hothers⟩⟩
    rcases List.mem_append.mp hb with hb | hb
    · exact hr b (Option.mem_toList.mp hb)
    · exact hs.pending b hb

/-- Small steps hand out no batch more often than the limit. -/
lemma Step.tried {o : Options} {m m' : Moment} (h : Step o m m')
    (hm : m.turn.state.Tried o.limit) : m'.turn.state.Tried o.limit := by
  cases h with
  | aside he => exact hm
  | timer x hw => exact hm.between hw rfl hm.pending fun hself => ⟨hself.reserved, hself.batch⟩
  | begin hs => exact hs.tried hm nofun
  | refill hs hlive => exact hs.tried hm nofun
  | rest hd => exact hm
  | connect hw hc hg =>
    exact hm.between hw rfl hm.pending fun hself => ⟨hself.reserved, hself.batch⟩
  | @dispatch t before after w b pending hw hb =>
    -- wherever the batch comes from, it was below the limit
    have hready : b.attempts < o.limit ∧ ∀ x ∈ pending, x.attempts < o.limit := by
      have hpending := hm.pending
      rcases hb with ⟨hr, hp⟩ | ⟨-, hp⟩
      · exact ⟨(hm.worker hw).reserved b hr, hp ▸ hpending⟩
      · dsimp only at hpending
        rw [hp] at hpending
        exact ⟨hpending b (List.mem_cons_self ..),
          fun x hx => hpending x (List.mem_cons_of_mem _ hx)⟩
    refine hm.between hw rfl hready.2 fun _ => ⟨nofun, ?_⟩
    rintro _ ⟨⟩
    exact ⟨Nat.succ_pos _, hready.1⟩
  | dismiss hw hr hp =>
    exact hm.between hw rfl hm.pending fun hself => ⟨hself.reserved, hself.batch⟩
  | complete hw hg hb hr =>
    exact hm.between hw rfl hm.pending fun hself => ⟨hself.reserved, nofun⟩
  | keep hw hg hr => exact ⟨hm.pending, hm.workers⟩
  | ignore hg => exact hm
  | exit hw => exact hm.between hw rfl hm.pending fun hself => ⟨hself.reserved, hself.batch⟩
  | exitOther => exact ⟨hm.pending, hm.workers⟩
  | abandon cause hw hg hd hb =>
    refine hm.between hw rfl (fun b hb => ?_) fun hself => ⟨nofun, hself.batch⟩
    rcases List.mem_append.mp hb with hb | hb
    · exact (hm.worker hw).reserved b (Option.mem_toList.mp hb)
    · exact hm.pending b hb
  | retry cause hw hg hd hb ha hs =>
    have hpos := ((hm.worker hw).batch _ hb).1
    refine hs.tried (hm.between hw rfl hm.pending fun hself => ⟨hself.reserved, nofun⟩) ?_
    rintro _ ⟨⟩
    exact (attempts_le_retries_iff hpos).mp ha
  | escalate cause hw hg hd hb ha =>
    exact hm.between hw rfl hm.pending fun hself => ⟨hself.reserved, nofun⟩

/-- Uneventful effects without a loss leave the books as they are. -/
lemma Booked.append (h : Booked limit es) (hextra : Uneventful extra) (hlost : lostIn extra = []) :
    Booked limit (es ++ extra) where
  resolved := by simpa [hextra.resolved] using h.resolved
  escalated := by simpa [hextra.escalated, hlost] using h.escalated

/-- A loss below the limit gives nothing up. -/
lemma Booked.lose (h : Booked limit es) {id : WorkerId} (cause : Bytes)
    (hw : ∀ b, w.batch = some b → b.attempts < limit) :
    Booked limit (es ++ lossEntries id w cause) where
  resolved := by simpa [(uneventful_loss id w cause).resolved] using h.resolved
  escalated := by
    have hnone : (((w.batch.toList.map (id, ·)).map (·.2)).filter (·.attempts == limit)) = [] := by
      cases hb : w.batch with
      | none => rfl
      | some b => simpa using Nat.ne_of_lt (hw b hb)
    rw [escalatedIn_append, lostIn_append, (uneventful_loss id w cause).escalated, lostIn_loss,
      List.map_append, List.filter_append, hnone, h.escalated]

/-- **Small steps keep the books.** A batch is given up when it is lost at the limit, and only
then. -/
theorem Step.booked {o : Options} {m m' : Moment} (h : Step o m m')
    (htried : m.turn.state.Tried o.limit) (hm : Booked o.limit m.turn.effects) :
    Booked o.limit m'.turn.effects := by
  cases h with
  | aside he => exact hm.append (uneventful_aside he) (lostIn_aside he)
  | timer x hw => exact hm
  | begin hs => exact hm
  | refill hs hlive => exact hm
  | rest hd => exact hm
  | connect hw hc hg => exact hm.append ⟨rfl, rfl, rfl, rfl, rfl⟩ rfl
  | dispatch hw hb =>
    exact ⟨by simpa [resolvedIn, Effect.resolution] using hm.resolved,
      by simpa [escalatedIn, Effect.escalation, lostIn, Effect.loss] using hm.escalated⟩
  | dismiss hw hr hp => exact hm
  | @complete t before after w b r hw hg hb hr =>
    refine ⟨fun x hx => ?_, ?_⟩
    · rw [resolvedIn_append, List.mem_append] at hx
      rcases hx with hx | hx
      · exact hm.resolved x hx
      · obtain rfl : x = b := by simpa [resolvedIn, Effect.resolution] using hx
        exact ((htried.worker hw).batch x hb).2
    · rw [escalatedIn_append, lostIn_append, List.map_append, List.filter_append, ← hm.escalated]
      rfl
  | keep hw hg hr =>
    exact ⟨by simpa [resolvedIn, Effect.resolution] using hm.resolved,
      by simpa [escalatedIn, Effect.escalation, lostIn, Effect.loss] using hm.escalated⟩
  | ignore hg => exact hm
  | exit hw => exact hm
  | exitOther => exact hm
  | abandon cause hw hg hd hb => exact hm.lose cause fun b hb' => by simp [hb] at hb'
  | retry cause hw hg hd hb ha hs =>
    refine hm.lose cause fun x hx => ?_
    obtain rfl := Option.some.inj (hb.symm.trans hx)
    exact (attempts_le_retries_iff ((htried.worker hw).batch _ hb).1).mp ha
  | @escalate t d before after w b cause hw hg hd hb ha =>
    have htimes := (htried.worker hw).batch b hb
    have hlimit : b.attempts = o.limit :=
      Nat.le_antisymm htimes.2 (Nat.not_lt.mp (mt (attempts_le_retries_iff htimes.1).mpr ha))
    have hloss := uneventful_loss before.length w cause
    have hentry : resolvedIn [.escalated b cause] = [b] := rfl
    have hgiven : escalatedIn [.escalated b cause] = [b] := rfl
    have hlost : lostIn [.escalated b cause] = [] := rfl
    refine ⟨fun x hx => ?_, ?_⟩
    · simp only [resolvedIn_append, hloss.resolved, hentry, List.append_nil, List.mem_append,
        List.mem_singleton] at hx
      rcases hx with hx | rfl
      · exact hm.resolved x hx
      · exact Nat.le_of_eq hlimit
    · simp [hloss.escalated, lostIn_loss, hlost, hgiven, hb, hlimit, hm.escalated]

end Attempts

/-! ## Counting -/

/-- The batches of a place in the schedule that were handed out, in order. -/
def handedOut (es : List Effect) (i : Nat) : List Batch :=
  ((dispatchedIn es).map (·.2)).filter (·.index == i)

/-- A batch counts how often it was handed out: the first time as its first attempt, and so on. -/
def Turn.Counted (t : Turn) : Prop :=
  ∀ b ∈ t.batches, (handedOut t.effects b.index).map (·.attempts) = List.range' 1 b.attempts

/-- Batches are told apart by their places in the schedule. -/
lemma Moment.Conserved.nodup_index {plan : Schedule} {m : Moment} (hm : m.Conserved plan) :
    (m.turn.batches.map (·.index)).Nodup := by
  have hperm := hm.perm_plan.map (·.index)
  rw [map_index_ofSchedule, List.map_map] at hperm
  exact hperm.nodup_iff.mpr List.nodup_range

/-- Small steps count how often a batch is handed out. -/
lemma Step.counted {o : Options} {plan : Schedule} {m m' : Moment} (h : Step o m m')
    (hconserved : m.Conserved plan) (hm : m.turn.Counted) : m'.turn.Counted := by
  intro x hx
  rcases h.batches_cases hconserved.settled with ⟨hperm, hsame⟩ | ⟨id, b, rest, hold, hnew, hmore⟩
  · rw [handedOut, hsame]
    exact hm x (hperm.mem_iff.mp hx)
  · have hnodup := hconserved.nodup_index
    rw [(hold.map (·.index)).nodup_iff, List.map_cons, List.nodup_cons] at hnodup
    rw [handedOut, hmore, List.map_append, List.filter_append, List.map_append]
    rcases List.mem_cons.mp (hnew.mem_iff.mp hx) with rfl | hrest
    · -- the batch that was handed out has one more entry
      have hcount := hm b (hold.mem_iff.mpr (List.mem_cons_self ..))
      rw [handedOut] at hcount
      rw [Batch.handedOut, hcount, List.range'_concat]
      simp [Nat.add_comm]
    · have hne : b.index ≠ x.index := fun heq => hnodup.1 (heq ▸ List.mem_map_of_mem hrest)
      have hcount := hm x (hold.mem_iff.mpr (List.mem_cons_of_mem _ hrest))
      rw [handedOut] at hcount
      rw [hcount]
      simp [Batch.handedOut, hne]

/-! ## Launches -/

/-- The launches that the attempts at some waiting batches have brought: two for each of them. -/
def spentOn (batches : List Batch) : Nat := (batches.map fun b => 2 * b.attempts).sum

/-- The launches that the attempts at the batches of a worker have brought. The attempt that is in
flight has brought none yet. -/
def Worker.spent (w : Worker) : Nat :=
  spentOn w.reserved.toList + (w.batch.toList.map fun b => 2 * (b.attempts - 1)).sum

/-- The launches that the attempts so far may have brought, with as many for each resolved batch as
it may bring at all. -/
def State.spent (limit : Nat) (s : State) : Nat :=
  spentOn s.pending + (s.workers.map Worker.spent).sum + s.resolved * (2 * limit - 1)

/-- The number of launches that a duty may bring. -/
def Duty.launches : Duty → Nat
  | .starting left => left
  | .refilling => 1
  | _ => 0

/-- Besides the first workers, no more were launched than the attempts may have brought. -/
def Moment.Amortised (target limit : Nat) (m : Moment) : Prop :=
  m.turn.state.workers.length + m.duty.launches ≤ target + m.turn.state.spent limit

section Launches

variable {limit : Nat} {s s' : State} {before after : List Worker} {w : Worker}

/-- What is spent, with one worker apart. -/
lemma State.spent_between (hw : s.workers = before ++ w :: after) :
    s.spent limit = spentOn s.pending + w.spent + s.resolved * (2 * limit - 1) +
      ((before ++ after).map Worker.spent).sum := by
  simp only [State.spent, hw, List.map_append, List.map_cons, List.sum_append, List.sum_cons]
  omega

/-- Where only one worker changes, what it spends more pays for what the duty may bring more. -/
lemma Moment.Amortised.between {target : Nat} {t t' : Turn} {d d' : Duty} {w' : Worker}
    (h : Moment.Amortised target limit ⟨t, d⟩) (hw : t.state.workers = before ++ w :: after)
    (hw' : t'.state.workers = before ++ w' :: after)
    (hpaid : spentOn t.state.pending + w.spent + t.state.resolved * (2 * limit - 1) + d'.launches ≤
      spentOn t'.state.pending + w'.spent + t'.state.resolved * (2 * limit - 1) + d.launches) :
    Moment.Amortised target limit ⟨t', d'⟩ := by
  simp only [Moment.Amortised, State.spent_between hw, State.spent_between hw', hw, hw',
    List.length_append, List.length_cons] at h ⊢
  omega

/-- A launch adds one worker, and spends what was spent on the batch that it reserves. -/
lemma Launched.spent {reserved : Option Batch} (h : Launched reserved s s') (limit : Nat) :
    s'.workers.length = s.workers.length + 1 ∧
      s'.spent limit = s.spent limit + spentOn reserved.toList := by
  cases h with
  | up timer =>
    refine ⟨List.length_append, ?_⟩
    simp only [State.spent, Worker.spent, List.map_append, List.sum_append, List.map_cons,
      List.map_nil, List.sum_cons, List.sum_nil, Option.toList_none]
    omega
  | down =>
    refine ⟨List.length_append, ?_⟩
    simp only [State.spent, Worker.spent, spentOn, List.map_append, List.sum_append, List.map_cons,
      List.map_nil, List.sum_cons, List.sum_nil, Option.toList_none]
    omega

/-- A loss brings at most one launch to refill the pool. -/
lemma launches_afterLoss_le (w : Worker) : (Duty.afterLoss w).launches ≤ 1 := by
  unfold Duty.afterLoss
  split
  · exact Nat.le_refl 1
  · exact Nat.zero_le 1

/-- A worker that is lost without a batch in flight brings no launch, for it never connected. -/
lemma launches_abandon {t : Turn} {d : Duty} (h : Moment.Settled ⟨t, d⟩)
    (hw : t.state.workers = before ++ w :: after) (hg : w.gone = false)
    (hd : d = .free ∨ d = .losing before.length) (hb : w.batch = none) :
    (Duty.afterLoss w).launches = 0 := by
  have hc : w.connected = false := by
    rcases (h.of_losing hw hd).1 with hset | hleaving
    · cases hc : w.connected with
      | false => rfl
      | true => simp [Worker.Settled, hg, hc, hb] at hset
    · exact hleaving.2.1
  rw [Duty.afterLoss, hc]
  rfl

/-- **Launches are paid for by attempts.**

**Proof sketch.** By the kind of step. Handing out a batch spends nothing: the attempt in flight is
not counted yet. When its worker is lost, that attempt is counted, which pays for the launch for the
batch and for the one that refills the pool. At the last attempt there is only the latter, and the
batch is resolved. -/
theorem Step.amortised {o : Options} {target : Nat} {m m' : Moment} (h : Step o m m')
    (hset : m.Settled) (htried : m.turn.state.Tried o.limit) (hm : m.Amortised target o.limit) :
    m'.Amortised target o.limit := by
  cases h with
  | aside he => exact hm
  | timer x hw => exact hm.between hw rfl (Nat.le_refl _)
  | begin hs =>
    obtain ⟨hlength, hspent⟩ := hs.spent o.limit
    simp only [Moment.Amortised, Duty.launches] at hm ⊢
    omega
  | refill hs hlive =>
    obtain ⟨hlength, hspent⟩ := hs.spent o.limit
    simp only [Moment.Amortised, Duty.launches] at hm ⊢
    omega
  | rest hd => exact Nat.le_trans (Nat.add_le_add_left (Nat.zero_le _) _) hm
  | connect hw hc hg => exact hm.between hw rfl (Nat.le_refl _)
  | @dispatch t before after w b pending hw hb =>
    simp only [Moment.Settled, hw, settledBut_between] at hset
    obtain ⟨⟨-, -, hnone⟩, -⟩ := hset
    refine hm.between hw rfl ?_
    rcases hb with ⟨hr, hp⟩ | ⟨hr, hp⟩
    · simp [Worker.spent, spentOn, Duty.launches, hr, hp, hnone]
    · simp only [Worker.spent, spentOn, Duty.launches, hr, hp, hnone, Option.toList_some,
        Option.toList_none, List.map_cons, List.map_nil, List.sum_cons, List.sum_nil]
      omega
  | dismiss hw hr hp => exact hm.between hw rfl (Nat.le_refl _)
  | @complete t before after w b r hw hg hb hr =>
    have hlimit := ((htried.worker hw).batch b hb).2
    refine hm.between hw rfl ?_
    simp only [Worker.spent, Duty.launches, hb, Nat.succ_mul, Option.toList_some,
      Option.toList_none, List.map_cons, List.map_nil, List.sum_cons, List.sum_nil]
    omega
  | keep hw hg hr => exact hm
  | ignore hg => exact hm
  | exit hw =>
    refine hm.between hw rfl (Nat.add_le_add_left ?_ _)
    split <;> exact Nat.le_refl _
  | exitOther => exact hm
  | @abandon t d before after w cause hw hg hd hb =>
    refine hm.between hw rfl ?_
    rw [launches_abandon hset hw hg hd hb]
    simp only [Worker.spent, spentOn, hb, List.map_append, List.sum_append, Option.toList_none,
      List.map_nil, List.sum_nil]
    omega
  | @retry t d before after w b s cause hw hg hd hb ha hs =>
    have hpos := ((htried.worker hw).batch b hb).1
    have hduty := launches_afterLoss_le w
    obtain ⟨hlength, hspent⟩ := hs.spent o.limit
    -- the lost attempt pays for the launch and for what the duty may bring
    rw [State.spent_between (s := { t.state with workers := _ ++ _ :: _ }) rfl] at hspent
    rw [Moment.Amortised, State.spent_between hw, hw] at hm
    simp only [Moment.Amortised, Worker.spent, spentOn, hb, Option.toList_some, Option.toList_none,
      List.map_cons, List.map_nil, List.sum_cons, List.sum_nil, List.length_append,
      List.length_cons] at hm hspent hlength ⊢
    omega
  | @escalate t d before after w b cause hw hg hd hb ha =>
    have htimes := (htried.worker hw).batch b hb
    have hlimit := mt (attempts_le_retries_iff htimes.1).mpr ha
    have hduty := launches_afterLoss_le w
    refine hm.between hw rfl ?_
    simp only [Worker.spent, hb, Nat.succ_mul, Option.toList_some, Option.toList_none,
      List.map_cons, List.map_nil, List.sum_cons, List.sum_nil]
    omega

end Launches

/-! ## The course of a job -/

/-- All that is kept of attempts and launches. -/
structure Moment.Moderate (o : Options) (plan : Schedule) (m : Moment) : Prop where
  conserved : m.Conserved plan
  accounted : m.turn.Accounted
  tried : m.turn.state.Tried o.limit
  booked : Booked o.limit m.turn.effects
  counted : m.turn.Counted
  amortised : m.Amortised plan.processes.toNatClampNeg o.limit

/-- Small steps are moderate. -/
lemma Step.moderate {o : Options} {plan : Schedule} {m m' : Moment} (h : Step o m m')
    (hm : m.Moderate o plan) : m'.Moderate o plan where
  conserved := h.conserved hm.conserved
  accounted := h.accounted hm.conserved.settled hm.accounted
  tried := h.tried hm.tried
  booked := h.booked hm.tried hm.booked
  counted := h.counted hm.conserved hm.counted
  amortised := h.amortised hm.conserved.settled hm.tried hm.amortised

/-- The arrival of a result changes nothing. -/
lemma Moment.Moderate.hear {o : Options} {plan : Schedule} (t : Turn) (id : WorkerId) (r : Result)
    (hm : Moment.Moderate o plan ⟨t, .free⟩) : Moment.Moderate o plan ⟨t, .hearing id r⟩ :=
  { hm with conserved := { hm.conserved with } }

/-- At the beginning no batch has been handed out. -/
lemma moderate_ofSchedule (o : Options) (plan : Schedule) :
    Moment.Moderate o plan
      ⟨{ state := State.ofSchedule plan }, .starting plan.processes.toNatClampNeg⟩ where
  conserved := conserved_ofSchedule plan _
  accounted := fun id => ⟨rfl, fun _ => rfl⟩
  tried := by
    refine ⟨fun b hb => ?_, nofun⟩
    obtain ⟨i, hi, rfl⟩ := List.mem_mapIdx.mp hb
    exact Nat.succ_pos _
  booked := ⟨nofun, rfl⟩
  counted := by
    intro b hb
    rw [batches_ofSchedule] at hb
    obtain ⟨i, hi, rfl⟩ := List.mem_mapIdx.mp hb
    rfl
  amortised := by
    simp [Moment.Amortised, Duty.launches, State.ofSchedule]

section Consequences

variable {o : Options} {plan : Schedule} {t : Turn}

/-- No more is spent on waiting batches than they may bring. -/
lemma spentOn_le {limit : Nat} {batches : List Batch} (h : ∀ b ∈ batches, b.attempts < limit) :
    spentOn batches ≤ batches.length * (2 * limit - 1) := by
  induction batches with
  | nil => exact Nat.zero_le _
  | cons b batches ih =>
    have hb : 2 * b.attempts ≤ 2 * limit - 1 := by
      have := h b (List.mem_cons_self ..)
      omega
    have hrest : spentOn batches ≤ batches.length * (2 * limit - 1) :=
      ih fun x hx => h x (List.mem_cons_of_mem _ hx)
    rw [List.length_cons, Nat.succ_mul, Nat.add_comm]
    exact Nat.add_le_add hb hrest

/-- No more is spent on the batches of a worker than they may bring. -/
lemma Worker.Tried.spent_le {limit : Nat} {w : Worker} (h : w.Tried limit) :
    w.spent ≤ w.load.length * (2 * limit - 1) := by
  have hreserved : spentOn w.reserved.toList ≤ w.reserved.toList.length * (2 * limit - 1) :=
    spentOn_le fun b hb => h.reserved b (Option.mem_toList.mp hb)
  rw [Worker.spent, Worker.load, List.length_append, Nat.add_mul]
  refine Nat.add_le_add hreserved ?_
  cases hb : w.batch with
  | none => exact Nat.zero_le _
  | some b =>
    have := (h.batch b hb).2
    simp only [Option.toList_some, List.map_cons, List.map_nil, List.sum_cons, List.sum_nil,
      List.length_singleton]
    omega

/-- No more is spent on the batches of some workers than they may bring. -/
lemma sum_spent_le {limit : Nat} {workers : List Worker} (h : ∀ w ∈ workers, w.Tried limit) :
    (workers.map Worker.spent).sum ≤ (workers.flatMap Worker.load).length * (2 * limit - 1) := by
  induction workers with
  | nil => exact Nat.zero_le _
  | cons w workers ih =>
    rw [List.map_cons, List.sum_cons, List.flatMap_cons, List.length_append, Nat.add_mul]
    exact Nat.add_le_add (h w (List.mem_cons_self ..)).spent_le
      (ih fun v hv => h v (List.mem_cons_of_mem _ hv))

/-- No more is spent than all batches may bring. -/
lemma Moment.Moderate.spent_le (hm : Moment.Moderate o plan ⟨t, .free⟩) :
    t.state.spent o.limit ≤ plan.jobs.length * (2 * o.limit - 1) := by
  have hplan : t.state.pending.length + (t.state.workers.flatMap Worker.load).length +
      t.state.resolved = plan.jobs.length := by
    have hlength := hm.conserved.perm_plan.length_eq
    have hload : (t.state.workers.flatMap Worker.load).length =
        t.state.reserved.length + t.state.inFlight.length := by
      rw [← List.length_append]
      exact (List.flatMap_append_perm _ _ _).length_eq.symm
    have hresolved := hm.conserved.tallied.resolved_eq
    simp only [Turn.batches, State.held, State.ofSchedule, List.length_map, List.length_append,
      List.length_mapIdx] at hlength hresolved
    omega
  have hpending := spentOn_le hm.tried.pending
  have hworkers := sum_spent_le hm.tried.workers
  rw [← hplan, State.spent, Nat.add_mul, Nat.add_mul]
  exact Nat.add_le_add_right (Nat.add_le_add hpending hworkers) _

/-- No batch has been handed out more often than the limit. -/
lemma Moment.Moderate.attempts_le (hm : Moment.Moderate o plan ⟨t, .free⟩) {b : Batch}
    (hb : b ∈ t.batches) : b.attempts ≤ o.limit := by
  simp only [Turn.batches, State.held, List.mem_append, State.reserved, State.inFlight,
    List.mem_flatMap, Option.mem_toList] at hb
  rcases hb with ((hb | ⟨w, hw, hb⟩) | ⟨w, hw, hb⟩) | hb
  · exact Nat.le_of_lt (hm.tried.pending b hb)
  · exact Nat.le_of_lt ((hm.tried.workers w hw).reserved b hb)
  · exact ((hm.tried.workers w hw).batch b hb).2
  · exact hm.booked.resolved b hb

/-- A batch of the schedule is handed out as its first, second and further attempt, up to the
limit. -/
lemma Moment.Moderate.handedOut_eq (hm : Moment.Moderate o plan ⟨t, .free⟩) {i : Nat}
    (hi : i < plan.jobs.length) :
    ∃ n ≤ o.limit, (handedOut t.effects i).map (·.attempts) = List.range' 1 n := by
  have hperm := hm.conserved.perm_plan.map (·.index)
  rw [map_index_ofSchedule, List.map_map] at hperm
  obtain ⟨b, hb, rfl⟩ := List.mem_map.mp (hperm.mem_iff.mpr (List.mem_range.mpr hi))
  exact ⟨b.attempts, hm.attempts_le hb, hm.counted b hb⟩

/-- A batch that was lost with a worker had been handed to it. -/
lemma Turn.Accounted.dispatched_of_lost (h : t.Accounted) {id : WorkerId} {b : Batch}
    (hb : (id, b) ∈ lostIn t.effects) : (id, b) ∈ dispatchedIn t.effects := by
  rw [← mem_entriesOf] at hb ⊢
  rw [(h id).balance]
  exact List.mem_append_left _ (List.mem_append_right _ hb)

/-- No batch is given up twice. -/
lemma Moment.Conserved.nodup_escalated {m : Moment} (hm : m.Conserved plan) :
    ((escalatedIn m.turn.effects).map (·.index)).Nodup := by
  have hnodup := hm.nodup_index
  rw [Turn.batches, List.map_append] at hnodup
  exact (List.nodup_append.mp hnodup).2.1.sublist ((escalatedIn_sublist _).map _)

end Consequences

/-! ## The end of an attempt -/

section Losses

variable {o : Options} {plan : Schedule} {t t' : Turn} {w : Worker} {b : Batch} {id : WorkerId}

/-- No batch is lost while only asides happen. -/
lemma Quiet.lostIn_eq (h : Quiet t t') : lostIn t'.effects = lostIn t.effects := by
  obtain ⟨es, hes, rfl⟩ := h
  have hnone : lostIn es = [] := by
    refine List.flatMap_eq_nil_iff.mpr fun e he => ?_
    simpa [lostIn] using lostIn_aside (hes e he)
  rw [lostIn_append, hnone, List.append_nil]

/-- No batch is lost by launching a worker. -/
lemma lostIn_launch (world : World) (reserved : Option Batch) (t : Turn) :
    lostIn (launch o world reserved t).effects = lostIn t.effects := by
  obtain ⟨s, -, hquiet⟩ := launch_spec o world reserved t
  exact hquiet.lostIn_eq

/-- No batch is lost by putting one back into the queue. -/
lemma lostIn_requeue (t : Turn) : lostIn (requeue id t).effects = lostIn t.effects := by
  unfold requeue
  split <;> rfl

/-- No batch is lost once the loss of its worker is entered: it is handed on or given up. -/
lemma lostIn_recover (world : World) (cause : Bytes) (t : Turn) :
    lostIn (recover o world id w cause t).effects = lostIn t.effects := by
  unfold recover
  split
  · exact lostIn_requeue t
  · dsimp only
    split
    · rw [lostIn_launch]
      exact (Quiet.log _ _).lostIn_eq
    · exact (lostIn_append _ _).trans (List.append_nil _)

/-- A worker that still matters takes the batch in flight with it, and no other. -/
lemma lostIn_lose (world : World) (cause : Bytes) (hw : t.state.workers[id]? = some w)
    (hg : w.gone = false) :
    lostIn (lose o world id cause t).effects =
      lostIn t.effects ++ w.batch.toList.map (id, ·) := by
  have hrefill (t : Turn) : lostIn (refill o world t).effects = lostIn t.effects := by
    unfold refill
    split
    · exact lostIn_launch world none t
    · rfl
  obtain ⟨before, after, hbetween, rfl⟩ := exists_between hw
  obtain ⟨es, hes, hlose⟩ := lose_of_live o world cause hbetween hg
  have hquiet : Quiet t { t with effects := t.effects ++ es } := ⟨es, hes, rfl⟩
  rw [hlose]
  calc _ = lostIn (t.effects ++ es ++ lossEntries before.length w cause) := by
        cases w.connected
        · exact lostIn_recover world cause _
        · exact (hrefill _).trans (lostIn_recover world cause _)
    _ = lostIn t.effects ++ w.batch.toList.map (before.length, ·) := by
        rw [lostIn_append, lostIn_loss]
        exact congrArg (· ++ _) hquiet.lostIn_eq

/-- Whether a happening ends the attempt at the batch `b` on the worker `id`: its connection ends,
or its time for the batch is over. -/
def Happening.EndsAttempt (id : WorkerId) (b : Batch) (h : Happening) : Prop :=
  (∃ cause, h = .lost id cause) ∨ h = .batchTimeout id b.index

/-- When an attempt ends, the batch is lost. -/
lemma lostIn_handle {h : Happening} (hend : h.EndsAttempt id b) (world : World)
    (hw : t.state.workers[id]? = some w) (hg : w.gone = false) (hb : w.batch = some b) :
    lostIn (handle o world t.state h).effects = [(id, b)] := by
  have hlost (cause : Bytes) :
      lostIn (lose o world id cause { state := t.state }).effects = [(id, b)] := by
    rw [lostIn_lose (t := { state := t.state }) world cause hw hg, hb]
    rfl
  rcases hend with ⟨cause, rfl⟩ | rfl
  · exact hlost cause
  · obtain ⟨started, connected, exited, gone, reserved, batch, timer⟩ := w
    cases hb
    simp only [handle, react, hw, ↓reduceIte]
    exact hlost _

/-- When an attempt ends, the batch is given up if and only if it was the last attempt. -/
lemma Moment.Moderate.escalatedIn_handle {h : Happening} (hm : Moment.Moderate o plan ⟨t, .free⟩)
    (hend : h.EndsAttempt id b) (world : World) (hw : t.state.workers[id]? = some w)
    (hg : w.gone = false) (hb : w.batch = some b) :
    escalatedIn (handle o world t.state h).effects =
      if b.attempts = o.limit then [b] else [] := by
  have hnext := handle_induction (P := Moment.Moderate o plan) Moment.Moderate.hear
    (fun _ _ hm h => h.moderate hm) world t h hm
  have hbooked := hnext.booked.escalated
  dsimp only [Turn.followedBy] at hbooked
  rw [escalatedIn_append, lostIn_append, List.map_append, List.filter_append,
    ← hm.booked.escalated] at hbooked
  rw [List.append_cancel_left hbooked, lostIn_handle hend world hw hg hb]
  simp [List.filter_cons]

/-- The batch given up by an effect, and why. -/
def Effect.surrender : Effect → List (Batch × Bytes)
  | .escalated b cause => [(b, cause)]
  | _ => []

/-- The report lists each file of each batch that was given up, and what the results say. -/
lemma Turn.Reported.perm_surrender (h : t.Reported) :
    t.state.report.errors.Perm
      ((t.effects.flatMap Effect.surrender).flatMap (fun x =>
          abandonment x.1.attempts x.2 x.1.files) ++
        ((mergedIn t.effects).flatMap (·.2.2.errors) ++
          (keptIn t.effects).flatMap (·.errors))) := by
  have hsplit : Effect.diagnostics = fun e =>
      e.surrender.flatMap (fun x => abandonment x.1.attempts x.2 x.1.files) ++
        (e.merge.flatMap (·.2.2.errors) ++ e.keep.flatMap (·.errors)) := by
    funext e
    cases e <;> simp [Effect.diagnostics, Effect.surrender, Effect.merge, Effect.keep]
  rw [h, hsplit, mergedIn, keptIn, List.flatMap_assoc, List.flatMap_assoc, List.flatMap_assoc]
  refine (List.flatMap_append_perm _ _ _).symm.trans ?_
  exact ((List.flatMap_append_perm _ _ _).symm.append_left _)

/-- Each batch given up is given up for one cause. -/
lemma map_fst_surrender (es : List Effect) :
    (es.flatMap Effect.surrender).map (·.1) = escalatedIn es := by
  rw [escalatedIn, List.map_flatMap]
  congr 1
  funext e
  cases e <;> rfl

end Losses

section Course

variable (o : Options) (world : World) (cancelOn : Option Event.Kind) (cancelled : Bool)
  (files : List Bytes) (occasions : List Occasion)

/-- The whole course of a job is moderate. -/
theorem course_moderate :
    Moment.Moderate o (planFor o files)
      ⟨course o world cancelOn cancelled files occasions, .free⟩ :=
  course_induction (P := Moment.Moderate o (planFor o files))
    Moment.Moderate.hear (fun _ _ hm h => h.moderate hm) world cancelOn cancelled files occasions
    (moderate_ofSchedule o _)

/-- The report of a course lists what is in its books. -/
theorem course_reported : (course o world cancelOn cancelled files occasions).Reported :=
  course_induction (P := fun m => m.turn.Reported) (fun _ _ _ hm => hm)
    (fun _ _ hm h => h.reported hm) world cancelOn cancelled files occasions rfl

/-- How often the batches of a schedule were handed out and given up, what the report says of those
given up, and how many workers were launched. Every launch, whether or not it succeeds, adds a
worker. -/
structure Turn.Restrained (o : Options) (plan : Schedule) (t : Turn) : Prop where
  /-- The batch of each place in the schedule is handed out as its first, second and further
  attempt, and no more often than once and as many times again as the options allow. -/
  handedOut_eq : ∀ i < plan.jobs.length, ∃ n ≤ o.retries.toNatClampNeg + 1,
    (handedOut t.effects i).map (·.attempts) = List.range' 1 n
  /-- A batch that is lost with a worker was handed to that worker. -/
  dispatched_of_lost : ∀ id b, (id, b) ∈ lostIn t.effects → (id, b) ∈ dispatchedIn t.effects
  /-- The batches given up are, in order, those that were lost at their last attempt. -/
  escalatedIn_eq : escalatedIn t.effects =
    ((lostIn t.effects).map (·.2)).filter (·.attempts == o.retries.toNatClampNeg + 1)
  /-- Whenever an attempt at a batch ends on a worker that still matters, the batch is given up at
  once if that was its last attempt, and otherwise not. -/
  escalatedIn_handle : ∀ (later : World) (id : WorkerId) (w : Worker) (b : Batch) (h : Happening),
    t.state.workers[id]? = some w → w.gone = false → w.batch = some b → h.EndsAttempt id b →
    escalatedIn (handle o later t.state h).effects =
      if b.attempts = o.retries.toNatClampNeg + 1 then [b] else []
  /-- No batch is given up twice. -/
  nodup_escalated : ((escalatedIn t.effects).map (·.index)).Nodup
  /-- The report lists each file of each batch given up, with the number of attempts and the cause
  of the last loss, and besides only what the results say. -/
  reported : ∃ given : List (Batch × Bytes), given.map (·.1) = escalatedIn t.effects ∧
    t.state.report.errors.Perm
      (given.flatMap (fun x => abandonment x.1.attempts x.2 x.1.files) ++
        ((mergedIn t.effects).flatMap (·.2.2.errors) ++ (keptIn t.effects).flatMap (·.errors)))
  /-- The number of launches is bounded. -/
  launches_le : t.state.workers.length ≤
    plan.processes.toNatClampNeg + plan.jobs.length * (2 * o.retries.toNatClampNeg + 1)

/-- **Retries are bounded, and so are launches**, whatever happens to a job. -/
theorem course_retries_bounded :
    (course o world cancelOn cancelled files occasions).Restrained o (planFor o files) := by
  have hmoderate := course_moderate o world cancelOn cancelled files occasions
  have hreported := course_reported o world cancelOn cancelled files occasions
  refine ⟨fun i hi => hmoderate.handedOut_eq hi, fun id b => hmoderate.accounted.dispatched_of_lost,
    hmoderate.booked.escalated, fun later id w b h hw hg hb hend =>
      hmoderate.escalatedIn_handle hend later hw hg hb, hmoderate.conserved.nodup_escalated,
    ⟨_, map_fst_surrender _, hreported.perm_surrender⟩, ?_⟩
  calc (course o world cancelOn cancelled files occasions).state.workers.length
      ≤ (planFor o files).processes.toNatClampNeg +
          (course o world cancelOn cancelled files occasions).state.spent o.limit :=
        hmoderate.amortised
    _ ≤ (planFor o files).processes.toNatClampNeg +
          (planFor o files).jobs.length * (2 * o.limit - 1) :=
        Nat.add_le_add_left hmoderate.spent_le _

end Course

end LintPool.Pool
