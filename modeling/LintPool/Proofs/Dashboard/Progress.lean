import LintPool.Dashboard.Progress
import Mathlib

/-!
# Counters that follow a job

Each event of a job adds to some counters, except for the last one, which brings the totals of the
report. In exact arithmetic a counter is the sum of what the events added to it. If these sums stay
within their bounds and the totals at the end are not below them, then no counter ever decreases,
and the batches and files done are never more than there are.

What the counters show does not depend on the stamps of events: the name of the job, points in time
and durations.

## Main definitions

* `LintPool.Progress.following` : the counters after some events.
* `LintPool.Progress.Counter`, `LintPool.Progress.count` : the counters that grow.
* `LintPool.Event.amount`, `LintPool.Event.total?` : what an event adds to a counter, and the total
  that it brings.
* `LintPool.Event.tally` : what events add to a counter in exact arithmetic.
* `LintPool.Event.Trail` : the events of a job with sums that are in bounds.
* `LintPool.Progress.Steady` : the counters are bounded, never decrease and end as the job does.

## Main results

* `LintPool.Event.Trail.toInt_count` : counters are exact along the way.
* `LintPool.Event.Trail.steady` : counters are steady if all sums are in bounds.
* `LintPool.Progress.Steady.of_plain` : stamps do not matter.
-/

namespace LintPool

/-! ## What events add -/

/-- The counters of a job that grow. -/
inductive Progress.Counter where
  | batches
  | files
  | diagnostics
  | internalErrors
  | connected
  | lost
  deriving DecidableEq

namespace Progress

/-- The value of a counter. -/
def count (p : Progress) : Counter → Int64
  | .batches => p.batchesDone
  | .files => p.filesDone
  | .diagnostics => p.diagnostics
  | .internalErrors => p.internalErrors
  | .connected => p.workersConnected
  | .lost => p.workersLost

/-- The same job with other counters. -/
def withCounts (p : Progress) (counts : Counter → Int64) : Progress :=
  { p with
    batchesDone := counts .batches
    filesDone := counts .files
    diagnostics := counts .diagnostics
    internalErrors := counts .internalErrors
    workersConnected := counts .connected
    workersLost := counts .lost }

/-- The counters after some events. -/
def following (p : Progress) (events : List Event) : Progress := events.foldl after p

/-- The counters after further events. -/
lemma following_append (p : Progress) (events later : List Event) :
    p.following (events ++ later) = (p.following events).following later := List.foldl_append ..

end Progress

namespace Event

/-- What an event adds to a counter. -/
def amount (e : Event) (c : Progress.Counter) : Int64 :=
  match e.kind, c with
  | .batchCompleted, .batches => 1
  | .batchCompleted, .files => e.files
  | .batchCompleted, .diagnostics => e.diagnostics
  | .batchCompleted, .internalErrors => e.internalErrors
  | .workerConnected, .connected => 1
  | .workerLost, .lost => 1
  | _, _ => 0

/-- The total that the end of a job brings for a counter, if it does. -/
def total? (e : Event) : Progress.Counter → Option Int64
  | .files => some e.files
  | .diagnostics => some e.diagnostics
  | .internalErrors => some e.internalErrors
  | _ => none

/-- What some events add to a counter, in exact arithmetic. -/
def tally (c : Progress.Counter) (events : List Event) : Int :=
  (events.map fun e => (e.amount c).toInt).sum

/-- How far a counter of a job that starts with an event may go. -/
def bound (started : Event) : Progress.Counter → Int
  | .batches => started.batches.toInt
  | .files => started.files.toInt
  | _ => Int64.maxValue.toInt

/-- Whether an event is neither the start of a job nor its end. -/
def IsAlong (e : Event) : Prop := e.kind ≠ .jobStarted ∧ e.kind ≠ .jobFinished

section Amounts

variable {p : Progress} {e : Event} {events later : List Event} {c : Progress.Counter}

/-- On the way, an event adds its amount to each counter and leaves the rest as it is. -/
lemma count_after (he : e.IsAlong) (p : Progress) (c : Progress.Counter) :
    (p.after e).count c = p.count c + e.amount c := by
  obtain ⟨hstart, hfinish⟩ := he
  cases hkind : e.kind with
  | jobStarted => exact absurd hkind hstart
  | jobFinished => exact absurd hkind hfinish
  | workerConnected | batchCompleted | workerLost | other =>
    cases c <;> simp [Progress.after, Progress.count, amount, hkind]

/-- On the way, no event changes the numbers of batches and files. -/
lemma goals_after (he : e.IsAlong) (p : Progress) :
    (p.after e).batches = p.batches ∧ (p.after e).files = p.files := by
  obtain ⟨hstart, hfinish⟩ := he
  cases hkind : e.kind with
  | jobStarted => exact absurd hkind hstart
  | jobFinished => exact absurd hkind hfinish
  | workerConnected | batchCompleted | workerLost | other => simp [Progress.after, hkind]

/-- The start of a job resets all counters. -/
lemma count_after_started (he : e.kind = .jobStarted) (p : Progress) (c : Progress.Counter) :
    (p.after e).count c = 0 := by
  cases c <;> simp [Progress.after, Progress.count, he]

/-- The end of a job brings totals. -/
lemma count_after_finished (he : e.kind = .jobFinished) (p : Progress) (c : Progress.Counter) :
    (p.after e).count c = (e.total? c).getD (p.count c) := by
  cases c <;> simp [Progress.after, Progress.count, total?, he]

/-- **Counters add up**, but for overflow. -/
lemma count_following (hevents : ∀ e ∈ events, e.IsAlong) (p : Progress) (c : Progress.Counter) :
    (p.following events).count c = p.count c + Int64.ofInt (tally c events) := by
  induction events generalizing p with
  | nil => exact (Int64.add_zero _).symm
  | cons e events ih =>
    obtain ⟨he, hevents⟩ := List.forall_mem_cons.mp hevents
    have htally : tally c (e :: events) = (e.amount c).toInt + tally c events := List.sum_cons
    rw [Progress.following, List.foldl_cons, ← Progress.following, ih hevents, count_after he,
      htally, Int64.ofInt_add, Int64.ofInt_toInt, Int64.add_assoc]

/-- On the way, an event changes nothing but the counters. -/
lemma after_eq_withCounts (he : e.IsAlong) (p : Progress) :
    p.after e = p.withCounts (p.after e).count := by
  obtain ⟨hstart, hfinish⟩ := he
  cases hkind : e.kind with
  | jobStarted => exact absurd hkind hstart
  | jobFinished => exact absurd hkind hfinish
  | workerConnected | batchCompleted | workerLost | other =>
    simp [Progress.after, Progress.withCounts, Progress.count, hkind]

/-- On the way, events change nothing but the counters. -/
lemma following_eq_withCounts (hevents : ∀ e ∈ events, e.IsAlong) (p : Progress) :
    p.following events = p.withCounts (p.following events).count := by
  induction events generalizing p with
  | nil => rfl
  | cons e events ih =>
    obtain ⟨he, hevents⟩ := List.forall_mem_cons.mp hevents
    calc (p.after e).following events
        = (p.after e).withCounts ((p.after e).following events).count := ih hevents _
      _ = p.withCounts ((p.after e).following events).count := by
          rw [after_eq_withCounts he p]
          rfl

/-- On the way, what counters show is the same if they count the same. -/
lemma following_eq_iff (hevents : ∀ e ∈ events, e.IsAlong) (hlater : ∀ e ∈ later, e.IsAlong)
    (p : Progress) :
    p.following events = p.following later ↔
      ∀ c, (p.following events).count c = (p.following later).count c := by
  refine ⟨fun h c => by rw [h], fun h => ?_⟩
  rw [following_eq_withCounts hevents, following_eq_withCounts hlater, funext h]

/-- On the way, the numbers of batches and files stay. -/
lemma goals_following (hevents : ∀ e ∈ events, e.IsAlong) (p : Progress) :
    (p.following events).batches = p.batches ∧ (p.following events).files = p.files := by
  induction events generalizing p with
  | nil => exact ⟨rfl, rfl⟩
  | cons e events ih =>
    obtain ⟨he, hevents⟩ := List.forall_mem_cons.mp hevents
    obtain ⟨hbatches, hfiles⟩ := ih hevents (p.after e)
    exact ⟨hbatches.trans (goals_after he p).1, hfiles.trans (goals_after he p).2⟩

/-- The tally of some of the events is not greater if none of them takes anything away. -/
lemma tally_le_of_sublist (h : events.Sublist later)
    (hlater : ∀ e ∈ later, 0 ≤ (e.amount c).toInt) : tally c events ≤ tally c later := by
  refine (h.map _).sum_le_sum ?_
  rintro _ ha
  obtain ⟨e, he, rfl⟩ := List.mem_map.mp ha
  exact hlater e he

/-- What more events add. -/
lemma tally_append (c : Progress.Counter) (events later : List Event) :
    tally c (events ++ later) = tally c events + tally c later := by
  rw [tally, List.map_append, List.sum_append, tally, tally]

/-- What events add does not depend on their order. -/
lemma tally_perm (h : events.Perm later) (c : Progress.Counter) :
    tally c events = tally c later := (h.map _).sum_eq

/-- What is left of events and of others, when those they have in common are taken out of both,
differs as all of them do. -/
lemma tally_diff (c : Progress.Counter) (events later : List Event) :
    tally c (events.diff later) + tally c later = tally c (later.diff events) + tally c events := by
  have hperm : (events.diff later ++ later).Perm (later.diff events ++ events) := by
    rw [← Multiset.coe_eq_coe, ← Multiset.coe_add, ← Multiset.coe_add, ← Multiset.coe_sub,
      ← Multiset.coe_sub]
    exact Multiset.union_comm _ _
  rw [← tally_append, ← tally_append, tally_perm hperm]

end Amounts

end Event

/-! ## Trails -/

/-- What the counters show to those who watch a job: after any of its events the batches and files
done are not more than there are, no counter decreases from one event to a later one, and in the end
the job is shown to have failed, or finished with all files done. -/
structure Progress.Steady (p : Progress) (events : List Event) (failed : Prop) : Prop where
  bounded : ∀ seen, seen ≠ [] → seen <+: events →
    (p.following seen).batchesDone ≤ (p.following seen).batches ∧
      (p.following seen).filesDone ≤ (p.following seen).files
  grows : ∀ seen later, seen ≠ [] → seen <+: later → later <+: events → ∀ c,
    (p.following seen).count c ≤ (p.following later).count c
  ends : ∀ seen, seen <+: events → (∃ e ∈ seen, e.kind = .jobFinished) →
    (¬ failed → (p.following seen).status = .finished ∧
      (p.following seen).filesDone = (p.following seen).files) ∧
    (failed → (p.following seen).status = .failed)

namespace Event

/-- The events of a job, which start and may finish. What the others add is in bounds, and the
totals at the end are not below that. -/
structure Trail (started : Event) (along : List Event) (finished : Option Event) (failed : Prop) :
    Prop where
  kind_started : started.kind = .jobStarted
  isAlong : ∀ e ∈ along, e.IsAlong
  nonneg : ∀ e ∈ along, ∀ c, 0 ≤ (e.amount c).toInt
  tally_le : ∀ c, tally c along ≤ started.bound c
  kind_finished : ∀ e ∈ finished, e.kind = .jobFinished
  le_total : ∀ e ∈ finished, ∀ c, ∀ n ∈ e.total? c, tally c along ≤ n.toInt
  total_le : ∀ e ∈ finished, e.files.toInt ≤ started.files.toInt
  error_iff : ∀ e ∈ finished, e.error ≠ [] ↔ failed
  files_eq : ∀ e ∈ finished, ¬ failed → e.files = started.files

namespace Trail

variable {started : Event} {along seen : List Event} {finished : Option Event} {failed : Prop}

/-- **Counters are exact along the way.** -/
theorem toInt_count (h : Trail started along finished failed) (p : Progress)
    (hseen : seen <+: along) (c : Progress.Counter) :
    ((p.following (started :: seen)).count c).toInt = tally c seen := by
  have hsub := hseen.sublist
  have hle : tally c seen ≤ started.bound c :=
    (tally_le_of_sublist hsub fun e he => h.nonneg e he c).trans (h.tally_le c)
  have hzero : 0 ≤ tally c seen := by
    refine List.sum_nonneg ?_
    rintro _ ha
    obtain ⟨e, he, rfl⟩ := List.mem_map.mp ha
    exact h.nonneg e (hsub.subset he) c
  have hbound : started.bound c < 2 ^ 63 := by
    cases c with
    | batches => exact Int64.toInt_lt _
    | files => exact Int64.toInt_lt _
    | diagnostics | internalErrors | connected | lost =>
      exact (by decide : Int64.maxValue.toInt < 2 ^ 63)
  rw [Progress.following, List.foldl_cons, ← Progress.following,
    count_following fun e he => h.isAlong e (hsub.subset he), count_after_started h.kind_started,
    Int64.zero_add, Int64.toInt_ofInt_of_le (by omega) (by omega)]

/-- Along the way, the numbers of batches and files are those at the start. -/
lemma goals_eq (h : Trail started along finished failed) (p : Progress) (hseen : seen <+: along) :
    (p.following (started :: seen)).batches = started.batches ∧
      (p.following (started :: seen)).files = started.files := by
  have hgoals := goals_following (fun e he => h.isAlong e (hseen.subset he)) (p.after started)
  have hstart : (p.after started).batches = started.batches ∧
      (p.after started).files = started.files := by
    simp [Progress.after, h.kind_started]
  exact ⟨hgoals.1.trans hstart.1, hgoals.2.trans hstart.2⟩

/-- Along the way, no counter is beyond its bound. -/
lemma count_le (h : Trail started along finished failed) (p : Progress) (hseen : seen <+: along)
    (c : Progress.Counter) : ((p.following (started :: seen)).count c).toInt ≤ started.bound c := by
  rw [h.toInt_count p hseen]
  exact (tally_le_of_sublist hseen.sublist fun e he => h.nonneg e he c).trans (h.tally_le c)

/-- What has been seen of a job is its start with what came along, or all of it. -/
lemma prefix_cases (hne : seen ≠ []) (hseen : seen <+: started :: (along ++ finished.toList)) :
    (∃ rest, seen = started :: rest ∧ rest <+: along) ∨
      ∃ e, finished = some e ∧ seen = started :: along ++ [e] := by
  rcases List.prefix_cons_iff.mp hseen with rfl | ⟨rest, rfl, hrest⟩
  · exact absurd rfl hne
  · cases finished with
    | none => exact .inl ⟨rest, rfl, (List.append_nil along) ▸ hrest⟩
    | some e =>
      rcases List.prefix_concat_iff.mp hrest with rfl | hrest
      · exact .inr ⟨e, rfl, rfl⟩
      · exact .inl ⟨rest, rfl, hrest⟩

/-- The end of a job comes after everything else. -/
lemma following_finished (p : Progress) (e : Event) :
    p.following (started :: along ++ [e]) = (p.following (started :: along)).after e :=
  Progress.following_append ..

/-- At the end no counter is below what it was along the way. -/
lemma count_le_finished {e : Event} (h : Trail started along (some e) failed) (p : Progress)
    (hseen : seen <+: along) (c : Progress.Counter) :
    (p.following (started :: seen)).count c ≤ (p.following (started :: along ++ [e])).count c := by
  have hkind := h.kind_finished e rfl
  have hle : tally c seen ≤ tally c along :=
    tally_le_of_sublist hseen.sublist fun e he => h.nonneg e he c
  rw [Int64.le_iff_toInt_le, h.toInt_count p hseen, following_finished, count_after_finished hkind]
  cases htotal : e.total? c with
  | none =>
    rw [Option.getD_none, h.toInt_count p (List.prefix_refl along)]
    exact hle
  | some n => exact hle.trans (h.le_total e rfl c n htotal)

/-- **Counters are steady** if what is added to them is in bounds, and not above the totals.

**Proof sketch.** Along the way every counter is its tally, which grows from event to event and is
bounded by what all events add. The end replaces some of the counters by totals that are not below;
the number of files done is then at most the number of files, and equal to it without an error. -/
theorem steady (h : Trail started along finished failed) (p : Progress) :
    p.Steady (started :: (along ++ finished.toList)) failed where
  bounded seen hne hseen := by
    rw [Int64.le_iff_toInt_le, Int64.le_iff_toInt_le]
    rcases prefix_cases hne hseen with ⟨rest, rfl, hrest⟩ | ⟨e, rfl, rfl⟩
    · rw [(h.goals_eq p hrest).1, (h.goals_eq p hrest).2]
      exact ⟨h.count_le p hrest .batches, h.count_le p hrest .files⟩
    · obtain ⟨hbatches, hfiles⟩ := h.goals_eq p (List.prefix_refl along)
      rw [following_finished]
      simp only [Progress.after, h.kind_finished e rfl]
      rw [hbatches, hfiles]
      exact ⟨h.count_le p (List.prefix_refl along) .batches, h.total_le e rfl⟩
  grows seen later hne hseen hlater c := by
    have hlater' : later ≠ [] := fun hnil => hne (List.prefix_nil.mp (hnil ▸ hseen))
    rcases prefix_cases hlater' hlater with ⟨rest, rfl, hrest⟩ | ⟨e, rfl, rfl⟩
    · rcases List.prefix_cons_iff.mp hseen with rfl | ⟨early, rfl, hearly⟩
      · exact absurd rfl hne
      · rw [Int64.le_iff_toInt_le, h.toInt_count p (hearly.trans hrest), h.toInt_count p hrest]
        exact tally_le_of_sublist hearly.sublist fun e he => h.nonneg e (hrest.subset he) c
    · have hseen : seen <+: started :: (along ++ (some e).toList) := hseen
      rcases prefix_cases hne hseen with ⟨rest, rfl, hrest⟩ | ⟨e', he', rfl⟩
      · exact h.count_le_finished p hrest c
      · rw [Option.some.inj he']
        exact Int64.le_refl _
  ends seen hseen hfinished := by
    obtain ⟨e', he', hkind⟩ := hfinished
    rcases prefix_cases (List.ne_nil_of_mem he') hseen with ⟨rest, rfl, hrest⟩ | ⟨e, rfl, rfl⟩
    · rcases List.mem_cons.mp he' with rfl | hmem
      · exact absurd (hkind.symm.trans h.kind_started) (by simp)
      · exact absurd hkind (h.isAlong e' (hrest.subset hmem)).2
    · have herror := h.error_iff e rfl
      rw [following_finished]
      simp only [Progress.after, h.kind_finished e rfl]
      rw [(h.goals_eq p (List.prefix_refl along)).2]
      refine ⟨fun hok => ⟨?_, h.files_eq e rfl hok⟩, fun hfailed => ?_⟩
      · have hnone : e.error = [] := by
          by_contra hne
          exact hok (herror.mp hne)
        rw [hnone]
        rfl
      · have hsome : e.error ≠ [] := herror.mpr hfailed
        simp [hsome]

end Trail

end Event

/-! ## Stamps -/

/-- An event without its stamps. -/
def Event.plain (e : Event) : Event := { e with jobId := [], durationMs := 0, time := .origin }

namespace Progress

/-- The counters without stamps. -/
def plain (p : Progress) : Progress :=
  { p with jobId := [], startedAt := none, finishedAt := none }

/-- Stamps do not matter to what an event does. -/
lemma plain_after {p q : Progress} (h : p.plain = q.plain) (e : Event) :
    (p.after e).plain = (q.after e.plain).plain := by
  have hplain : ∀ (p : Progress) (e : Event),
      (p.after e).plain = (p.plain.after e.plain).plain := by
    intro p e
    cases hkind : e.kind <;> simp [after, plain, Event.plain, hkind]
  calc (p.after e).plain
      = (p.plain.after e.plain).plain := hplain p e
    _ = (q.plain.after e.plain.plain).plain := by rw [h]; rfl
    _ = (q.after e.plain).plain := (hplain q e.plain).symm

/-- Stamps do not matter to what some events do. -/
lemma plain_following {p q : Progress} (h : p.plain = q.plain) (events : List Event) :
    (p.following events).plain = (q.following (events.map Event.plain)).plain := by
  induction events generalizing p q with
  | nil => exact h
  | cons e events ih => exact ih (plain_after h e)

/-- What does not show stamps is the same with and without them. -/
lemma view_following {α : Type} (view : Progress → α) (hview : ∀ p, view p.plain = view p)
    (p : Progress) (events : List Event) :
    view (p.following events) = view (p.following (events.map Event.plain)) := by
  rw [← hview, plain_following rfl, hview]

/-- **Stamps do not matter** to whether counters are steady. -/
theorem Steady.of_plain {p : Progress} {events : List Event} {failed : Prop}
    (h : p.Steady (events.map Event.plain) failed) : p.Steady events failed := by
  have hne : ∀ {seen : List Event}, seen ≠ [] → seen.map Event.plain ≠ [] :=
    fun hseen hnil => hseen (List.map_eq_nil_iff.mp hnil)
  have hbatches := view_following batches (fun _ => rfl) p
  have hfiles := view_following files (fun _ => rfl) p
  have hbatchesDone := view_following batchesDone (fun _ => rfl) p
  have hfilesDone := view_following filesDone (fun _ => rfl) p
  have hstatus := view_following status (fun _ => rfl) p
  have hcount : ∀ seen c,
      (p.following seen).count c = (p.following (seen.map Event.plain)).count c := fun seen c =>
    view_following (count · c) (fun _ => by cases c <;> rfl) p seen
  refine ⟨fun seen hseen hpre => ?_, fun seen later hseen hpre hlater c => ?_,
    fun seen hpre hfinished => ?_⟩
  · rw [hbatchesDone, hbatches, hfilesDone, hfiles]
    exact h.bounded _ (hne hseen) (hpre.map Event.plain)
  · rw [hcount seen, hcount later]
    exact h.grows _ _ (hne hseen) (hpre.map Event.plain) (hlater.map Event.plain) c
  · obtain ⟨e, he, hkind⟩ := hfinished
    rw [hstatus, hfilesDone, hfiles]
    exact h.ends _ (hpre.map Event.plain) ⟨e.plain, List.mem_map_of_mem he, hkind⟩

end Progress

end LintPool
