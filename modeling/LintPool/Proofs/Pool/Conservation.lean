import LintPool.Proofs.Pool.Journal
import LintPool.Proofs.Pool.Settled
import LintPool.Proofs.Schedule

/-!
# Batches are conserved

Every batch of a schedule is at any time in exactly one of four places: it is queued, reserved for a
worker, in flight on a worker, or resolved. No place is entered twice and none is left for nowhere.
The report counts the files of the resolved batches.

## Main definitions

* `LintPool.Pool.State.held` : the batches that are queued, reserved or in flight.
* `LintPool.Pool.resolvedIn` : the batches that were merged or given up.
* `LintPool.Pool.Moment.Conserved` : the batches of the schedule are those held and those resolved.

## Main results

* `LintPool.Pool.Step.perm_batches` : small steps move batches about and do nothing else with them.
* `LintPool.Pool.course_conserved` : batches are conserved in the whole course of a job.
* `LintPool.Pool.course_each_batch_in_one_place` : what follows for each batch and for the report.
-/

namespace LintPool.Pool

/-! ## Places -/

/-- A batch as it was before it was ever handed out. -/
def Batch.origin (b : Batch) : Batch := { b with attempts := 0 }

/-- The batches that are reserved for workers. -/
def State.reserved (s : State) : List Batch := s.workers.flatMap (·.reserved.toList)

/-- The batches that are in flight on workers. -/
def State.inFlight (s : State) : List Batch := s.workers.flatMap (·.batch.toList)

/-- The batches that are not resolved yet. -/
def State.held (s : State) : List Batch := s.pending ++ s.reserved ++ s.inFlight

/-- All batches of a turn, wherever they are. -/
def Turn.batches (t : Turn) : List Batch := t.state.held ++ resolvedIn t.effects

/-- The batches that a worker holds. -/
def Worker.load (w : Worker) : List Batch := w.reserved.toList ++ w.batch.toList

/-- Where only one worker changes, it is enough to look at its batches, the queue and what is
resolved. -/
lemma perm_batches_between {t t' : Turn} {before after : List Worker} {w w' : Worker}
    (extra : List Batch) (hw : t.state.workers = before ++ w :: after)
    (hw' : t'.state.workers = before ++ w' :: after)
    (h : (t'.state.pending ++ w'.load ++ resolvedIn t'.effects).Perm
      (extra ++ (t.state.pending ++ w.load ++ resolvedIn t.effects))) :
    t'.batches.Perm (extra ++ t.batches) := by
  rw [List.perm_iff_count] at h ⊢
  intro b
  have hb := h b
  simp only [Turn.batches, State.held, State.reserved, State.inFlight, Worker.load, hw, hw',
    List.flatMap_append, List.flatMap_cons, List.count_append] at hb ⊢
  omega

/-- A launch finds a place for the batch that it reserves. -/
lemma Launched.perm_held {reserved : Option Batch} {s s' : State} (h : Launched reserved s s') :
    s'.held.Perm (reserved.toList ++ s.held) := by
  rw [List.perm_iff_count]
  intro b
  cases h with
  | up timer =>
    simp only [State.held, State.reserved, State.inFlight, List.flatMap_append, List.count_append,
      List.flatMap_cons, List.flatMap_nil, Option.toList_none, List.append_nil]
    omega
  | down => simp [State.held, State.reserved, State.inFlight]

/-- A launch finds a place for the batch that it reserves, and leaves the others where they are. -/
lemma Launched.perm_batches {reserved : Option Batch} {s s' : State} (h : Launched reserved s s')
    (effects : List Effect) :
    (Turn.batches ⟨s', effects⟩).Perm (reserved.toList ++ Turn.batches ⟨s, effects⟩) := by
  rw [Turn.batches, Turn.batches, ← List.append_assoc]
  exact h.perm_held.append_right _

/-- A batch that has been handed out once more. -/
def Batch.handedOut (b : Batch) : Batch := { b with attempts := b.attempts + 1 }

/-- **What a small step does with batches.** It leaves all of them as they are, though it may move
them from one place to another; or it hands one of them out.

**Proof sketch.** By the kind of step. What a step takes from one place it puts in another. That a
worker which gets a batch has none in flight, and that one lost with a batch in flight has none
reserved, is known because workers are settled. -/
theorem Step.batches_cases {o : Options} {m m' : Moment} (h : Step o m m') (hm : m.Settled) :
    (m'.turn.batches.Perm m.turn.batches ∧
      dispatchedIn m'.turn.effects = dispatchedIn m.turn.effects) ∨
    ∃ id b rest, m.turn.batches.Perm (b :: rest) ∧ m'.turn.batches.Perm (b.handedOut :: rest) ∧
      dispatchedIn m'.turn.effects = dispatchedIn m.turn.effects ++ [(id, b.handedOut)] := by
  cases h with
  | aside he =>
    refine .inl ⟨?_, ?_⟩
    · simp [Turn.batches, Turn.effect, (uneventful_aside he).resolved]
    · simp [Turn.effect, (uneventful_aside he).dispatched]
  | timer x hw => exact .inl ⟨perm_batches_between [] hw rfl (.refl _), rfl⟩
  | begin hs => exact .inl ⟨hs.perm_batches _, rfl⟩
  | refill hs hlive => exact .inl ⟨hs.perm_batches _, rfl⟩
  | rest hd => exact .inl ⟨.refl _, rfl⟩
  | connect hw hc hg =>
    refine .inl ⟨perm_batches_between [] hw rfl ?_, ?_⟩
    · simp [Worker.load, resolvedIn, Effect.resolution]
    · simp [dispatchedIn, Effect.dispatch]
  | @dispatch t before after w b pending hw hb =>
    simp only [Moment.Settled, hw, settledBut_between] at hm
    obtain ⟨⟨-, -, hnone⟩, -⟩ := hm
    -- the turn in which the batch is nowhere
    let without : Turn := { t with state := { t.state with
      workers := before ++ { w with reserved := none } :: after, pending } }
    refine .inr ⟨before.length, b, without.batches, ?_, ?_, ?_⟩
    · refine perm_batches_between (t := without) [b] rfl hw (List.perm_iff_count.mpr fun x => ?_)
      rcases hb with ⟨hr, hp⟩ | ⟨hr, hp⟩
      · simp only [Worker.load, without, hr, hp, hnone, Option.toList_some, Option.toList_none,
          List.count_append, List.count_cons, List.count_nil]
        omega
      · simp [Worker.load, without, hr, hp, hnone, List.count_cons]
    · refine perm_batches_between (t := without) [b.handedOut] rfl rfl
        (List.perm_iff_count.mpr fun x => ?_)
      simp [Worker.load, without, hnone, Batch.handedOut, resolvedIn, Effect.resolution,
        List.count_cons]
      omega
    · simp [dispatchedIn, Effect.dispatch, Batch.handedOut]
  | dismiss hw hr hp => exact .inl ⟨perm_batches_between [] hw rfl (.refl _), rfl⟩
  | complete hw hg hb hr =>
    refine .inl ⟨perm_batches_between [] hw rfl (List.perm_iff_count.mpr fun x => ?_), ?_⟩
    · simp [Worker.load, hb, resolvedIn, Effect.resolution, List.count_cons]
    · simp [dispatchedIn, Effect.dispatch]
  | keep hw hg hr =>
    refine .inl ⟨perm_batches_between [] hw hw ?_, ?_⟩
    · simp [resolvedIn, Effect.resolution]
    · simp [dispatchedIn, Effect.dispatch]
  | ignore hg => exact .inl ⟨.refl _, rfl⟩
  | exit hw => exact .inl ⟨perm_batches_between [] hw rfl (.refl _), rfl⟩
  | exitOther => exact .inl ⟨.refl _, rfl⟩
  | @abandon t d before after w cause hw hg hd hb =>
    have hloss := uneventful_loss before.length w cause
    refine .inl ⟨perm_batches_between [] hw rfl (List.perm_iff_count.mpr fun x => ?_), ?_⟩
    · simp only [Worker.load, hb, hloss.resolved, resolvedIn_append, Option.toList_none,
        List.count_append, List.count_nil]
      omega
    · simp [hloss.dispatched]
  | @retry t d before after w b s cause hw hg hd hb ha hs =>
    have hloss := uneventful_loss before.length w cause
    have hr := (Worker.Settled.of_batch (hm.of_losing hw hd).1 hb).reserved_eq_none hb
    refine .inl ⟨(hs.perm_batches _).trans ?_, by simp [hloss.dispatched]⟩
    have hback : t.batches.Perm ([b] ++ Turn.batches
        { state := { t.state with
            workers := before ++ { w with gone := true, timer := false, batch := none } :: after }
          effects := t.effects ++ lossEntries before.length w cause }) := by
      refine perm_batches_between [b] rfl hw (List.perm_iff_count.mpr fun x => ?_)
      simp only [Worker.load, hb, hr, hloss.resolved, resolvedIn_append, Option.toList_some,
        Option.toList_none, List.count_append, List.count_cons, List.count_nil]
      omega
    exact hback.symm
  | @escalate t d before after w b cause hw hg hd hb ha =>
    have hloss := uneventful_loss before.length w cause
    have hr := (Worker.Settled.of_batch (hm.of_losing hw hd).1 hb).reserved_eq_none hb
    refine .inl ⟨perm_batches_between [] hw rfl (List.perm_iff_count.mpr fun x => ?_), ?_⟩
    · have hentry : resolvedIn [.escalated b cause] = [b] := rfl
      simp [Worker.load, hb, hr, hloss.resolved, hentry, List.count_cons]
    · have hentry : dispatchedIn [.escalated b cause] = [] := rfl
      simp [hloss.dispatched, hentry]

/-- **Small steps conserve batches**, as these were scheduled. -/
theorem Step.perm_batches {o : Options} {m m' : Moment} (h : Step o m m') (hm : m.Settled) :
    (m'.turn.batches.map Batch.origin).Perm (m.turn.batches.map Batch.origin) := by
  rcases h.batches_cases hm with ⟨hperm, -⟩ | ⟨id, b, rest, hbefore, hafter, -⟩
  · exact hperm.map _
  · exact (hafter.map Batch.origin).trans (hbefore.map Batch.origin).symm

/-! ## The tally -/

/-- The numbers of a state agree with what was resolved: it counts the batches, and its report their
files. -/
structure Turn.Tallied (t : Turn) : Prop where
  resolved_eq : t.state.resolved = (resolvedIn t.effects).length
  files_eq : t.state.report.files =
    Int64.ofNat ((resolvedIn t.effects).map (·.files.length)).sum

/-- A tally depends on the numbers and on what was resolved, and on nothing else. -/
lemma Turn.Tallied.congr {t t' : Turn} (h : t.Tallied) (hn : t'.state.resolved = t.state.resolved)
    (hf : t'.state.report.files = t.state.report.files)
    (he : resolvedIn t'.effects = resolvedIn t.effects) : t'.Tallied := by
  constructor
  · rw [hn, he]
    exact h.resolved_eq
  · rw [hf, he]
    exact h.files_eq

/-- A tally goes on when a batch is resolved and counted with its files. -/
lemma Turn.Tallied.add {t t' : Turn} {b : Batch} (h : t.Tallied)
    (hn : t'.state.resolved = t.state.resolved + 1)
    (hf : t'.state.report.files = t.state.report.files + Int64.ofNat b.files.length)
    (he : resolvedIn t'.effects = resolvedIn t.effects ++ [b]) : t'.Tallied := by
  constructor
  · rw [hn, he, h.resolved_eq, List.length_append, List.length_singleton]
  · rw [hf, he, h.files_eq, List.map_append, List.sum_append, Int64.ofNat_add]
    rfl

/-- A launch leaves all numbers as they are. -/
lemma Launched.numbers {reserved : Option Batch} {s s' : State} (h : Launched reserved s s') :
    s'.total = s.total ∧ s'.resolved = s.resolved ∧ s'.report = s.report := by
  cases h with
  | up timer => exact ⟨rfl, rfl, rfl⟩
  | down => exact ⟨rfl, rfl, rfl⟩

/-- **Small steps keep the tally.** A batch is counted when it is merged or given up, and its files
are counted with it: a result counts as many files as the batch that it answers. -/
theorem Step.tallied {o : Options} {m m' : Moment} (h : Step o m m') (hm : m.turn.Tallied) :
    m'.turn.Tallied := by
  cases h with
  | aside he => exact hm.congr rfl rfl (by simp [Turn.effect, (uneventful_aside he).resolved])
  | timer x hw => exact hm.congr rfl rfl rfl
  | begin hs => exact hm.congr hs.numbers.2.1 (by rw [hs.numbers.2.2]) rfl
  | refill hs hlive => exact hm.congr hs.numbers.2.1 (by rw [hs.numbers.2.2]) rfl
  | rest hd => exact hm
  | connect hw hc hg => exact hm.congr rfl rfl (by simp [resolvedIn, Effect.resolution])
  | dispatch hw hb => exact hm.congr rfl rfl (by simp [resolvedIn, Effect.resolution])
  | dismiss hw hr hp => exact hm.congr rfl rfl rfl
  | complete hw hg hb hr =>
    refine hm.add rfl ?_ (resolvedIn_append _ _)
    rw [← hr]
    rfl
  | keep hw hg hr => exact hm.congr rfl rfl (by simp [resolvedIn, Effect.resolution])
  | ignore hg => exact hm
  | exit hw => exact hm.congr rfl rfl rfl
  | exitOther => exact hm.congr rfl rfl rfl
  | abandon cause hw hg hd hb =>
    exact hm.congr rfl rfl (by simp [(uneventful_loss _ _ cause).resolved])
  | retry cause hw hg hd hb ha hs =>
    exact hm.congr hs.numbers.2.1 (by rw [hs.numbers.2.2])
      (by simp [(uneventful_loss _ _ cause).resolved])
  | escalate cause hw hg hd hb ha =>
    refine hm.add rfl rfl ?_
    rw [resolvedIn_append, resolvedIn_append, (uneventful_loss _ _ cause).resolved, List.append_nil]
    rfl

/-! ## The course of a job -/

/-- The batches held and those resolved are, as they were scheduled, those of the plan; and the
tally of the resolved ones is right. -/
structure Moment.Conserved (plan : Schedule) (m : Moment) : Prop where
  settled : m.Settled
  perm_plan : (m.turn.batches.map Batch.origin).Perm (State.ofSchedule plan).pending
  total_eq : m.turn.state.total = plan.jobs.length
  tallied : m.turn.Tallied

/-- No small step changes the number of batches of the job. -/
lemma Step.total_eq {o : Options} {m m' : Moment} (h : Step o m m') :
    m'.turn.state.total = m.turn.state.total := by
  cases h with
  | begin hs => exact hs.numbers.1
  | refill hs hlive => exact hs.numbers.1
  | retry cause hw hg hd hb ha hs => exact hs.numbers.1
  | _ => rfl

/-- Small steps conserve batches and keep the tally. -/
lemma Step.conserved {o : Options} {plan : Schedule} {m m' : Moment} (h : Step o m m')
    (hm : m.Conserved plan) : m'.Conserved plan where
  settled := h.settled hm.settled
  perm_plan := (h.perm_batches hm.settled).trans hm.perm_plan
  total_eq := h.total_eq.trans hm.total_eq
  tallied := h.tallied hm.tallied

/-! ### The batches of a schedule -/

/-- A batch of a schedule has not been handed out yet. -/
lemma map_origin_ofSchedule (plan : Schedule) :
    (State.ofSchedule plan).pending.map Batch.origin = (State.ofSchedule plan).pending :=
  List.ext_getElem (by simp) (by simp [State.ofSchedule, Batch.origin])

/-- The batches of a schedule are numbered in order. -/
lemma map_index_ofSchedule (plan : Schedule) :
    (State.ofSchedule plan).pending.map (·.index) = List.range plan.jobs.length :=
  List.ext_getElem (by simp [State.ofSchedule]) (by simp [State.ofSchedule])

/-- The batches of a schedule hold the files that it shares out. -/
lemma map_files_ofSchedule (plan : Schedule) :
    (State.ofSchedule plan).pending.map (·.files) = plan.jobs :=
  List.ext_getElem (by simp [State.ofSchedule]) (by simp [State.ofSchedule])

/-- A batch of a schedule holds the files of its place. -/
lemma files_of_mem_ofSchedule {plan : Schedule} {b : Batch}
    (h : b ∈ (State.ofSchedule plan).pending) : plan.jobs[b.index]? = some b.files := by
  obtain ⟨i, hi, rfl⟩ := List.mem_mapIdx.mp h
  simp

/-- At the beginning all batches are queued. -/
lemma batches_ofSchedule (plan : Schedule) :
    Turn.batches { state := State.ofSchedule plan } = (State.ofSchedule plan).pending := by
  simp [Turn.batches, State.held, State.reserved, State.inFlight, resolvedIn, State.ofSchedule]

/-- At the beginning batches are conserved. -/
lemma conserved_ofSchedule (plan : Schedule) (n : Nat) :
    Moment.Conserved plan ⟨{ state := State.ofSchedule plan }, .starting n⟩ where
  settled := by simp [Moment.Settled, State.ofSchedule]
  perm_plan := by rw [batches_ofSchedule, map_origin_ofSchedule]
  total_eq := rfl
  tallied := ⟨rfl, rfl⟩

/-- Batches are conserved in the whole course of a job. -/
theorem course_conserved (o : Options) (world : World) (cancelOn : Option Event.Kind)
    (cancelled : Bool) (files : List Bytes) (occasions : List Occasion) :
    Moment.Conserved (planFor o files)
      ⟨course o world cancelOn cancelled files occasions, .free⟩ :=
  course_induction (P := Moment.Conserved (planFor o files))
    (fun _ _ _ h => ⟨h.settled, h.perm_plan, h.total_eq, h.tallied⟩)
    (fun _ _ hm h => h.conserved hm) world cancelOn cancelled files occasions
    (conserved_ofSchedule _ _)

/-! ### What follows for each batch -/

/-- How often a batch of a place in the schedule is queued. -/
def State.queuedCount (s : State) (i : Nat) : Nat := s.pending.countP (·.index == i)

/-- For how many workers that matter a batch of a place in the schedule is reserved. -/
def State.reservedCount (s : State) (i : Nat) : Nat :=
  s.workers.countP fun w => !w.gone && w.reserved.any (·.index == i)

/-- On how many workers that matter a batch of a place in the schedule is in flight. -/
def State.inFlightCount (s : State) (i : Nat) : Nat :=
  s.workers.countP fun w => !w.gone && w.batch.any (·.index == i)

/-- How often a batch of a place in the schedule was resolved. -/
def resolvedCount (effects : List Effect) (i : Nat) : Nat :=
  (resolvedIn effects).countP (·.index == i)

/-- If workers that are gone hold nothing, it is enough to count those that matter. -/
lemma countP_live {workers : List Worker} {hold : Worker → Option Batch} {p : Batch → Bool}
    (h : ∀ w ∈ workers, w.gone = true → hold w = none) :
    workers.countP (fun w => !w.gone && (hold w).any p) =
      (workers.flatMap fun w => (hold w).toList).countP p := by
  induction workers with
  | nil => rfl
  | cons w workers ih =>
    have hrest := ih fun v hv => h v (by simp [hv])
    rw [List.countP_cons, List.flatMap_cons, List.countP_append, hrest]
    cases hg : w.gone with
    | true => simp [h w (by simp) hg]
    | false =>
      cases hold w with
      | none => simp
      | some b => simp [List.countP_cons]; omega

section Consequences

variable {plan : Schedule} {t : Turn} {b : Batch}

/-- A worker that is gone holds no batch. -/
lemma Moment.Conserved.gone_holds_none (hm : Moment.Conserved plan ⟨t, .free⟩) {w : Worker}
    (hw : w ∈ t.state.workers) (hg : w.gone = true) : w.reserved = none ∧ w.batch = none := by
  have hset : w.Settled := hm.settled w hw
  rwa [Worker.Settled, if_pos hg] at hset

/-- Every batch has the files that the schedule gives to its place. -/
lemma Moment.Conserved.files_eq {d : Duty} (hm : Moment.Conserved plan ⟨t, d⟩)
    (hb : b ∈ t.batches) : plan.jobs[b.index]? = some b.files :=
  files_of_mem_ofSchedule (b := b.origin) (hm.perm_plan.mem_iff.mp (List.mem_map_of_mem hb))

/-- Every batch of the schedule is in exactly one place. -/
lemma Moment.Conserved.one_place (hm : Moment.Conserved plan ⟨t, .free⟩) {i : Nat}
    (hi : i < plan.jobs.length) :
    t.state.queuedCount i + t.state.reservedCount i + t.state.inFlightCount i +
      resolvedCount t.effects i = 1 := by
  have hreserved : t.state.reservedCount i = t.state.reserved.countP (·.index == i) :=
    countP_live fun w hw hg => (hm.gone_holds_none hw hg).1
  have hinFlight : t.state.inFlightCount i = t.state.inFlight.countP (·.index == i) :=
    countP_live fun w hw hg => (hm.gone_holds_none hw hg).2
  rw [State.queuedCount, hreserved, hinFlight, resolvedCount, ← List.countP_append,
    ← List.countP_append, ← List.countP_append]
  calc t.batches.countP (·.index == i)
      = (t.batches.map Batch.origin).countP (·.index == i) := by rw [List.countP_map]; rfl
    _ = (State.ofSchedule plan).pending.countP (·.index == i) := hm.perm_plan.countP_eq _
    _ = ((State.ofSchedule plan).pending.map (·.index)).count i := by
      rw [List.count, List.countP_map]; rfl
    _ = 1 := by rw [map_index_ofSchedule, List.count_range, if_pos hi]

/-- A job is done only when all of its batches are resolved. -/
lemma resolved_of_done {s : State} (h : s.status = .done) : s.resolved = s.total := by
  by_contra hne
  rw [State.status, if_neg hne] at h
  split at h <;> cases h

/-- A job that is done has resolved all batches. -/
lemma Moment.Conserved.perm_of_done (hm : Moment.Conserved plan ⟨t, .free⟩)
    (hdone : t.state.status = .done) :
    ((resolvedIn t.effects).map Batch.origin).Perm (State.ofSchedule plan).pending := by
  have hperm := hm.perm_plan
  have hresolved : (resolvedIn t.effects).length = plan.jobs.length := by
    rw [← hm.tallied.resolved_eq, resolved_of_done hdone, hm.total_eq]
  have hheld : t.state.held = [] := by
    have hlength := hperm.length_eq
    have hplan : (State.ofSchedule plan).pending.length = plan.jobs.length := by
      simp [State.ofSchedule]
    simp only [Turn.batches, List.length_map, List.length_append] at hlength
    exact List.eq_nil_of_length_eq_zero (by omega)
  rwa [Turn.batches, hheld, List.nil_append] at hperm

/-- The report of a job that is done counts all files. -/
lemma Moment.Conserved.files_of_done (hm : Moment.Conserved plan ⟨t, .free⟩)
    (hdone : t.state.status = .done) :
    t.state.report.files = Int64.ofNat plan.jobs.flatten.length := by
  have hperm : ((resolvedIn t.effects).map (·.files)).Perm plan.jobs := by
    have hfiles := (hm.perm_of_done hdone).map (·.files)
    rwa [List.map_map, map_files_ofSchedule] at hfiles
  have hsum := (hperm.map List.length).sum_nat
  rw [List.map_map] at hsum
  rw [hm.tallied.files_eq, List.length_flatten]
  exact congrArg Int64.ofNat hsum

/-- The batch in flight on a worker is among the batches of the turn. -/
lemma mem_batches_of_inFlight {w : Worker} (hw : w ∈ t.state.workers) (hb : w.batch = some b) :
    b ∈ t.batches := by
  have hmem : b ∈ t.state.inFlight := List.mem_flatMap.mpr ⟨w, hw, by simp [hb]⟩
  simp [Turn.batches, State.held, hmem]

/-- The number of files of a batch in flight is positive as a 64-bit count. -/
lemma Moment.Conserved.size_pos {o : Options} {files : List Bytes} {d : Duty} {w : Worker}
    (hm : Moment.Conserved (planFor o files) ⟨t, d⟩) (hw : w ∈ t.state.workers)
    (hb : w.batch = some b) : 0 < Int64.ofNat b.files.length := by
  have hjob : b.files ∈ (planFor o files).jobs :=
    List.mem_of_getElem? (hm.files_eq (mem_batches_of_inFlight hw hb))
  have hpos := Schedule.length_pos_of_mem_jobs hjob
  have hlt := Schedule.length_lt_of_mem_jobs hjob
  rw [Int64.lt_iff_toInt_lt, Int64.toInt_ofNat_of_lt hlt, Int64.toInt_zero]
  exact Int.natCast_pos.mpr hpos

/-- The number of files of a batch in flight is told from zero by a 64-bit count. -/
lemma Moment.Conserved.size_ne_zero {o : Options} {files : List Bytes} {d : Duty} {w : Worker}
    (hm : Moment.Conserved (planFor o files) ⟨t, d⟩) (hw : w ∈ t.state.workers)
    (hb : w.batch = some b) : Int64.ofNat b.files.length ≠ 0 := by
  intro hzero
  have hpos := hm.size_pos hw hb
  rw [hzero] at hpos
  exact absurd hpos (by decide)

end Consequences

section Course

variable (o : Options) (world : World) (cancelOn : Option Event.Kind) (cancelled : Bool)
  (files : List Bytes) (occasions : List Occasion)

/-- A result that counts no files resolves no batch. -/
lemma course_failure_resolves_none (later : World) (id : WorkerId) {r : Result}
    (hr : r.files = 0) :
    let t := course o world cancelOn cancelled files occasions
    (handle o later t.state (.result id r)).state.resolved = t.state.resolved ∧
      resolvedIn (handle o later t.state (.result id r)).effects = [] := by
  intro t
  have hkeep : ∀ t : Turn, (keep id r t).state.resolved = t.state.resolved ∧
      resolvedIn (keep id r t).effects = resolvedIn t.effects := by
    intro t
    simp [keep, Turn.log, Turn.modify, Turn.effect, resolvedIn, Effect.resolution]
  simp only [handle, react, receive]
  split
  · exact ⟨rfl, rfl⟩
  · rename_i w hid
    split
    · exact ⟨rfl, rfl⟩
    · split
      · rename_i b hb
        have hne := (course_conserved o world cancelOn cancelled files occasions).size_ne_zero
          (List.mem_of_getElem? hid) hb
        rw [if_neg (by rw [hr]; exact hne.symm)]
        exact hkeep _
      · exact hkeep _

/-- Where the batches of a job on some files are, and what its report counts. -/
structure Turn.Placed (o : Options) (files : List Bytes) (t : Turn) : Prop where
  /-- Each batch of the schedule is queued, reserved for a worker that matters, in flight on a
  worker that matters, or resolved, and it is so once. -/
  one_place : ∀ i < (planFor o files).jobs.length,
    t.state.queuedCount i + t.state.reservedCount i + t.state.inFlightCount i +
      resolvedCount t.effects i = 1
  /-- Wherever a batch is, it holds the files that the schedule gave it. -/
  files_eq : ∀ b ∈ t.batches, (planFor o files).jobs[b.index]? = some b.files
  /-- Workers that are gone hold no batch. -/
  gone_holds_none : ∀ w ∈ t.state.workers, w.gone = true → w.reserved = none ∧ w.batch = none
  /-- Each resolved batch is counted once. -/
  resolved_eq : t.state.resolved = (resolvedIn t.effects).length
  /-- The report counts the files of the resolved batches. -/
  report_files_eq : t.state.report.files =
    Int64.ofNat ((resolvedIn t.effects).map (·.files.length)).sum
  /-- A job that is done has counted all of its files. -/
  files_of_done : t.state.status = .done → t.state.report.files = Int64.ofNat files.length
  /-- A result that counts no files never resolves a batch. -/
  failure_resolves_none : ∀ world id r, r.files = 0 →
    (handle o world t.state (.result id r)).state.resolved = t.state.resolved ∧
      resolvedIn (handle o world t.state (.result id r)).effects = []

/-- **Batches are conserved, and the report counts the resolved ones.** Whatever happens to a job,
each batch of the schedule is in exactly one place, and the report counts the files of those that
are resolved. -/
theorem course_each_batch_in_one_place :
    (course o world cancelOn cancelled files occasions).Placed o files := by
  have hconserved := course_conserved o world cancelOn cancelled files occasions
  refine ⟨fun i hi => hconserved.one_place hi, fun b hb => hconserved.files_eq hb,
    fun w hw hg => hconserved.gone_holds_none hw hg, hconserved.tallied.resolved_eq,
    hconserved.tallied.files_eq, fun hdone => ?_, fun later id r hr => ?_⟩
  · have hfiles := hconserved.files_of_done hdone
    rwa [planFor, Schedule.flatten_jobs_plan] at hfiles
  · exact course_failure_resolves_none o world cancelOn cancelled files occasions later id hr

end Course

end LintPool.Pool
