import LintPool.Proofs.Dashboard.Hub
import LintPool.Proofs.Pool.Tally

/-!
# Reports that cover what was told

The dashboard adds up what the events of a job tell of results, and in the end shows what the report
says. If the report covers the results, that is, counts all that they count and possibly more, then
nothing that the dashboard shows decreases in the end.

## Main definitions

* `LintPool.Result.IsCount` : the counts of a result are not negative.
* `LintPool.Result.Covers` : a report counts all that some results count.

## Main results

* `LintPool.Result.toInt_total` : the counts of a total are sums.
* `LintPool.Pool.trail_of_covers` : the events of a job whose report covers the results.
-/

namespace LintPool

/-! ## Counts -/

namespace Result

/-- The counts of a result are not negative. -/
def IsCount (r : Result) : Prop := 0 ≤ r.files.toInt ∧ 0 ≤ r.internal.toInt

/-- A report counts all that some results count. -/
structure Covers (report : Report) (rs : List Result) : Prop where
  isCount : ∀ r ∈ rs, r.IsCount
  files_le : (rs.map (·.files.toInt)).sum ≤ report.files.toInt
  errors_le : (rs.map fun r => (r.errors.length : Int)).sum ≤ report.errors.length
  internal_le : (rs.map (·.internal.toInt)).sum ≤ report.internal.toInt

/-- A count of a total is the sum of the counts, if it is in range. -/
lemma toInt_total (count : Result → Int64) (hempty : count {} = 0)
    (hmerge : ∀ r s, count (r.merge s) = count r + count s) {rs : List Result}
    (hrs : ∀ r ∈ rs, 0 ≤ (count r).toInt) (hlt : (rs.map fun r => (count r).toInt).sum < 2 ^ 63) :
    (count (total rs)).toInt = (rs.map fun r => (count r).toInt).sum := by
  have hsum : count (total rs) = Int64.ofInt (rs.map fun r => (count r).toInt).sum := by
    clear hrs hlt
    induction rs with
    | nil => exact hempty
    | cons r rs ih =>
      rw [total_cons, hmerge, ih, List.map_cons, List.sum_cons, Int64.ofInt_add, Int64.ofInt_toInt]
  have hzero : 0 ≤ (rs.map fun r => (count r).toInt).sum := by
    refine List.sum_nonneg ?_
    rintro _ hn
    obtain ⟨r, hr, rfl⟩ := List.mem_map.mp hn
    exact hrs r hr
  rw [hsum, Int64.toInt_ofInt_of_le (by omega) hlt]

/-- The number of diagnostics of a total. -/
lemma length_errors_total (rs : List Result) :
    ((total rs).errors.length : Int) = (rs.map fun r => (r.errors.length : Int)).sum := by
  induction rs with
  | nil => rfl
  | cons r rs ih =>
    rw [total_cons, merge, List.length_append, Nat.cast_add, ih, List.map_cons, List.sum_cons]

end Result

namespace Event

/-- An event without the name of its worker. -/
def anonymous (e : Event) : Event := { e with worker := [] }

section Amounts

variable {e : Event} {events : List Event} {c : Progress.Counter}

/-- Only events of finished batches add to counters that are not about workers. -/
lemma amount_eq_zero (he : e.kind ≠ .batchCompleted) (hconnected : c ≠ .connected)
    (hlost : c ≠ .lost) : e.amount c = 0 := by
  cases c with
  | connected => exact absurd rfl hconnected
  | lost => exact absurd rfl hlost
  | batches | files | diagnostics | internalErrors =>
    cases hkind : e.kind with
    | batchCompleted => exact absurd hkind he
    | jobStarted | workerConnected | workerLost | jobFinished | other => simp [amount, hkind]

/-- An event adds one at most to a counter that is about workers. -/
lemma amount_of_workers (hc : c = .connected ∨ c = .lost) (e : Event) :
    0 ≤ (e.amount c).toInt ∧ (e.amount c).toInt ≤ 1 := by
  rcases hc with rfl | rfl <;> cases hkind : e.kind <;> simp [amount, hkind]

/-- Counters that are not about workers follow the events of finished batches. -/
lemma tally_completed (hconnected : c ≠ .connected) (hlost : c ≠ .lost) (events : List Event) :
    tally c events = tally c (Pool.completed events) := by
  induction events with
  | nil => rfl
  | cons e events ih =>
    have hcons : ∀ events : List Event,
        tally c (e :: events) = (e.amount c).toInt + tally c events := fun _ => List.sum_cons
    by_cases he : e.kind = .batchCompleted
    · rw [Pool.completed, List.filter_cons_of_pos (by simp [he]), hcons, hcons, ih]
      rfl
    · rw [Pool.completed, List.filter_cons_of_neg (by simp [he]), hcons,
        amount_eq_zero he hconnected hlost, ih]
      exact Int.zero_add _

/-- Counters that are about workers do not exceed the number of events. -/
lemma tally_le_length (hc : c = .connected ∨ c = .lost) (events : List Event) :
    tally c events ≤ events.length := by
  have hle := List.sum_le_card_nsmul (events.map fun e => (e.amount c).toInt) 1 (by
    rintro _ hn
    obtain ⟨e, -, rfl⟩ := List.mem_map.mp hn
    exact (amount_of_workers hc e).2)
  simpa [tally] using hle

end Amounts

end Event

namespace Pool

/-! ## The events of a job -/

section Trail

variable {started : Event} {along : List Event} {rs : List Result} {report : Report}
  {error : Option JobError} {c : Progress.Counter}

/-- What the event of a finished batch adds, it takes from the result. -/
lemma tally_of_results (hrs : (completed along).map Event.anonymous = rs.map batchEvent)
    (hconnected : c ≠ .connected) (hlost : c ≠ .lost) :
    Event.tally c along = (rs.map fun r => ((batchEvent r).amount c).toInt).sum := by
  have hanonymous : (completed along).map (fun e => (e.amount c).toInt) =
      ((completed along).map Event.anonymous).map fun e => (e.amount c).toInt := by
    rw [List.map_map]
    rfl
  rw [Event.tally_completed hconnected hlost, Event.tally, hanonymous, hrs, List.map_map]
  rfl

/-- The message of an error is not empty. -/
lemma JobError.message_ne_nil (e : JobError) : e.message ≠ [] := by
  have hworkers : utf8 "no workers left: " ≠ [] := by decide
  cases e with
  | noWorkers unfinished total => simp [JobError.message, hworkers]
  | cancelled => decide

/-- A job tells of an error if and only if it has one. -/
lemma error_finishEvent (report : Report) (error : Option JobError) :
    (finishEvent report error).error ≠ [] ↔ error ≠ none := by
  cases error with
  | none => exact ⟨fun h => absurd rfl h, fun h => absurd rfl h⟩
  | some e => exact ⟨fun _ => Option.some_ne_none e, fun _ => e.message_ne_nil⟩

/-- A result that is covered has no more diagnostics than the report. -/
lemma toInt_length_errors (hcovers : report.Covers rs) (herrors : report.errors.length < 2 ^ 63)
    {r : Result} (hr : r ∈ rs) :
    (Int64.ofNat r.errors.length).toInt = r.errors.length := by
  have hle : (r.errors.length : Int) ≤ (rs.map fun r => (r.errors.length : Int)).sum := by
    refine List.single_le_sum ?_ _ (List.mem_map.mpr ⟨r, hr, rfl⟩)
    rintro _ hn
    obtain ⟨s, -, rfl⟩ := List.mem_map.mp hn
    exact Int.natCast_nonneg _
  have hreport := hcovers.errors_le
  exact Int64.toInt_ofNat_of_lt (by omega)

/-- The event of a finished batch takes nothing away from a counter. -/
lemma amount_batchEvent_nonneg (hcovers : report.Covers rs)
    (herrors : report.errors.length < 2 ^ 63) {r : Result} (hr : r ∈ rs) (c : Progress.Counter) :
    0 ≤ ((batchEvent r).amount c).toInt := by
  cases c with
  | batches => exact Int.zero_le_ofNat 1
  | connected | lost => exact Int.le_refl 0
  | files => exact (hcovers.isCount r hr).1
  | diagnostics =>
    change 0 ≤ (Int64.ofNat r.errors.length).toInt
    rw [toInt_length_errors hcovers herrors hr]
    exact Int.natCast_nonneg _
  | internalErrors => exact (hcovers.isCount r hr).2

/-- No event along the way takes anything away from a counter. -/
lemma amount_along_nonneg (hrs : (completed along).map Event.anonymous = rs.map batchEvent)
    (hcovers : report.Covers rs) (herrors : report.errors.length < 2 ^ 63) {e : Event}
    (he : e ∈ along) (c : Progress.Counter) : 0 ≤ (e.amount c).toInt := by
  by_cases hkind : e.kind = .batchCompleted
  · have hmem : e.anonymous ∈ rs.map batchEvent :=
      hrs ▸ List.mem_map_of_mem (List.mem_filter.mpr ⟨he, by simp [hkind]⟩)
    obtain ⟨r, hr, heq⟩ := List.mem_map.mp hmem
    have hamount : e.amount c = (batchEvent r).amount c := by
      rw [heq]
      rfl
    rw [hamount]
    exact amount_batchEvent_nonneg hcovers herrors hr c
  · by_cases hc : c = .connected ∨ c = .lost
    · exact (Event.amount_of_workers hc e).1
    · obtain ⟨hconnected, hlost⟩ := not_or.mp hc
      rw [Event.amount_eq_zero hkind hconnected hlost]
      decide

/-- The dashboard counts a batch for each result. -/
lemma tally_batches (hrs : (completed along).map Event.anonymous = rs.map batchEvent) :
    Event.tally .batches along = rs.length := by
  rw [tally_of_results hrs (by decide) (by decide)]
  simp [Event.amount, batchEvent]

/-- The dashboard counts no more files than the report. -/
lemma tally_files_le (hrs : (completed along).map Event.anonymous = rs.map batchEvent)
    (hcovers : report.Covers rs) : Event.tally .files along ≤ report.files.toInt := by
  rw [tally_of_results hrs (by decide) (by decide)]
  exact hcovers.files_le

/-- The dashboard counts no more diagnostics than the report has. -/
lemma tally_diagnostics_le (hrs : (completed along).map Event.anonymous = rs.map batchEvent)
    (hcovers : report.Covers rs) (herrors : report.errors.length < 2 ^ 63) :
    Event.tally .diagnostics along ≤ report.errors.length := by
  rw [tally_of_results hrs (by decide) (by decide)]
  refine le_of_eq_of_le (congrArg List.sum (List.map_congr_left fun r hr => ?_)) hcovers.errors_le
  exact toInt_length_errors hcovers herrors hr

/-- The dashboard counts no more failures than the report. -/
lemma tally_internalErrors_le (hrs : (completed along).map Event.anonymous = rs.map batchEvent)
    (hcovers : report.Covers rs) : Event.tally .internalErrors along ≤ report.internal.toInt := by
  rw [tally_of_results hrs (by decide) (by decide)]
  exact hcovers.internal_le

/-- **The events of a job whose report covers its results.** Along the way they tell of all results
that are covered, and in the end of the report.

**Proof sketch.** A counter that is not about workers adds up a count of the results, and the report
covers this; the counters of workers are bounded by the number of events. -/
theorem trail_of_covers (hstarted : started.kind = .jobStarted)
    (halong : ∀ e ∈ along, e.IsAlong) (hlength : (along.length : Int) < 2 ^ 63)
    (hrs : (completed along).map Event.anonymous = rs.map batchEvent) (hcovers : report.Covers rs)
    (hbatches : rs.length ≤ started.batches.toInt)
    (hfiles : report.files.toInt ≤ started.files.toInt) (herrors : report.errors.length < 2 ^ 63)
    {finished : Option Event}
    (hfinished : ∀ e ∈ finished, e = finishEvent report error)
    (hdone : finished ≠ none → error = none → report.files = started.files) :
    Event.Trail started along finished (error ≠ none) := by
  have hdiagnostics := tally_diagnostics_le hrs hcovers herrors
  have hinternal := tally_internalErrors_le hrs hcovers
  have hmax : Int64.maxValue.toInt = 2 ^ 63 - 1 := by decide
  refine ⟨hstarted, halong, fun e he => amount_along_nonneg hrs hcovers herrors he, fun c => ?_,
    fun e he => ?_, fun e he c n hn => ?_, fun e he => ?_, fun e he => ?_, fun e he hok => ?_⟩
  · cases c with
    | batches => exact (tally_batches hrs).trans_le hbatches
    | files => exact (tally_files_le hrs hcovers).trans hfiles
    | diagnostics =>
      change _ ≤ Int64.maxValue.toInt
      omega
    | internalErrors => exact hinternal.trans (Int64.le_iff_toInt_le.mp (Int64.le_maxValue _))
    | connected =>
      have hle := Event.tally_le_length (c := .connected) (.inl rfl) along
      change _ ≤ Int64.maxValue.toInt
      omega
    | lost =>
      have hle := Event.tally_le_length (c := .lost) (.inr rfl) along
      change _ ≤ Int64.maxValue.toInt
      omega
  · rw [hfinished e he]
    rfl
  · rw [hfinished e he] at hn
    cases c with
    | batches | connected | lost => cases hn
    | files =>
      obtain rfl := Option.some.inj hn
      exact tally_files_le hrs hcovers
    | diagnostics =>
      obtain rfl := Option.some.inj hn
      change _ ≤ (Int64.ofNat report.errors.length).toInt
      rw [Int64.toInt_ofNat_of_lt herrors]
      exact hdiagnostics
    | internalErrors =>
      obtain rfl := Option.some.inj hn
      exact hinternal
  · rw [hfinished e he]
    exact hfiles
  · rw [hfinished e he]
    exact error_finishEvent report error
  · rw [hfinished e he]
    exact hdone (Option.ne_none_iff_exists'.mpr ⟨e, he⟩) (not_not.mp hok)

end Trail

end Pool

end LintPool
