import LintPool.Proofs.Report
import LintPool.Report.Text
import Mathlib.Data.List.Basic

/-!
# The announcement and the verdict

The text of a run announces that there are no errors, and the exit code says so as well. Each of the
two is decided on its own: the announcement from the findings and the number of internal errors, the
verdict from the failure of the job first. So the two agree, but for jobs that failed while their
report has neither findings nor internal errors, and for a negative number of internal errors.

## Main definitions

* `LintPool.Summary.AnnouncesOk` : the text of a run announces that there are no errors.

## Main results

* `LintPool.Summary.announcesOk_iff` : when it does.
* `LintPool.Summary.code_verdict_eq_zero_iff` : when the exit code is zero.
* `LintPool.Summary.announcement_agrees_iff` : when both say the same.
-/

namespace LintPool.Summary

open Report (findingLines failureLines outcomeLines)

/-- The line that announces that there are no errors. -/
def okLine : Bytes := utf8 " [OK] No errors"

/-- The text of a run announces that there are no errors, in front of the line on the amount of
work. -/
def AnnouncesOk (s : Summary) : Prop := s.lines.dropLast.getLast? = some okLine

/-! ## The announcement -/

/-- The announcement is the last line on the report. -/
lemma announcesOk_iff_getLast? (s : Summary) :
    s.AnnouncesOk ↔
      (findingLines s.report ++ failureLines s.report ++ outcomeLines s.report).getLast? =
        some okLine := by
  rw [AnnouncesOk, lines, List.dropLast_concat]

/-- A number of findings is no announcement. -/
lemma error_append_ne_okLine (count : Bytes) : utf8 " [ERROR] Found " ++ count ≠ okLine := by
  intro heq
  have hthird := congrArg (·[2]?) heq
  rw [List.getElem?_append_left (by decide)] at hthird
  exact absurd hthird (by decide)

/-- Failures end with a blank line. -/
lemma getLast?_failureLines_ne (r : Report) : (failureLines r).getLast? ≠ some okLine := by
  rw [failureLines]
  split_ifs
  · decide
  · rw [List.getLast?_concat]
    decide

/-- **When the text announces that there are no errors**: there are no findings, and the number of
internal errors is zero. -/
theorem announcesOk_iff (s : Summary) :
    s.AnnouncesOk ↔ s.report.hasFindings = false ∧ s.report.internal = 0 := by
  have hfindings : s.report.hasFindings = false ↔ s.report.fileErrors.isEmpty = true := by
    rw [Result.hasFindings_eq, Bool.not_eq_false']
  rw [announcesOk_iff_getLast?, hfindings, outcomeLines]
  split_ifs with hok hempty
  · rw [Report.isOk, Bool.and_eq_true, decide_eq_true_eq] at hok
    rw [List.getLast?_concat]
    exact iff_of_true rfl hok
  · -- nothing is printed but failures
    have hinternal : s.report.internal ≠ 0 := by
      intro hzero
      exact hok (by rw [Report.isOk, hempty, hzero]; rfl)
    have hnil : findingLines s.report = [] := by
      rw [findingLines, List.isEmpty_iff.mp hempty]
      rfl
    rw [hnil, List.nil_append, List.append_nil]
    exact iff_of_false (getLast?_failureLines_ne s.report) fun h => hinternal h.2
  · rw [List.getLast?_concat, Option.some_inj]
    exact iff_of_false (error_append_ne_okLine _) fun h => hempty h.1

/-! ## The verdict -/

/-- Only the clean verdict has exit code zero. -/
lemma code_eq_zero_iff (v : Verdict) : v.code = 0 ↔ v = .clean := by
  cases v <;> simp [Verdict.code]

/-- **When the exit code is zero**: the job did not fail, the number of internal errors is not
positive, and there are no findings. -/
theorem code_verdict_eq_zero_iff (s : Summary) :
    s.verdict.code = 0 ↔
      s.jobError = none ∧ s.report.internal ≤ 0 ∧ s.report.hasFindings = false := by
  rw [code_eq_zero_iff, verdict]
  cases s.jobError with
  | some e => simp [Verdict.ofReport]
  | none =>
    simp only [Option.map_none, Verdict.ofReport, true_and]
    split_ifs with hinternal hfindings
    · simp [Int64.not_le.mpr hinternal]
    · simp [hfindings]
    · simpa [hfindings] using Int64.not_lt.mp hinternal

/-- The failure of a job has exit code 2. -/
lemma code_verdict_of_jobError {s : Summary} (h : s.jobError ≠ none) : s.verdict.code = 2 := by
  obtain ⟨e, he⟩ := Option.ne_none_iff_exists'.mp h
  rw [verdict, he]
  rfl

/-! ## Agreement -/

/-- The two ways to count internal errors agree on numbers that are not negative. -/
lemma eq_zero_iff_le_zero_iff (n : Int64) : (n = 0 ↔ n ≤ 0) ↔ 0 ≤ n := by
  constructor
  · intro hiff
    rcases Int64.le_total 0 n with hle | hle
    · exact hle
    · rw [hiff.mpr hle]
      exact Int64.le_refl 0
  · intro hle
    exact ⟨fun hzero => hzero ▸ Int64.le_refl 0, fun hle' => Int64.le_antisymm hle' hle⟩

/-- **The announcement agrees with the exit code**, that is, with the verdict that is clean, exactly
if there are findings, or the job failed and some internal errors are counted, or it did not and
their number is not negative. In all other cases there are no findings: a job that failed without
internal errors is announced as free of errors, while the exit code is 2, and a negative number of
internal errors is not, while the exit code is 0. -/
theorem announcement_agrees_iff (s : Summary) :
    (s.verdict.code = 0 ↔ s.verdict = .clean) ∧
    ((s.AnnouncesOk ↔ s.verdict.code = 0) ↔
      s.report.hasFindings = true ∨ (s.jobError ≠ none ∧ s.report.internal ≠ 0) ∨
        (s.jobError = none ∧ 0 ≤ s.report.internal)) ∧
    (s.AnnouncesOk → s.verdict.code ≠ 0 → s.jobError ≠ none ∧ s.verdict.code = 2) ∧
    (s.verdict.code = 0 → ¬ s.AnnouncesOk → s.report.internal < 0) := by
  refine ⟨code_eq_zero_iff _, ?_, ?_, ?_⟩
  · rw [announcesOk_iff, code_verdict_eq_zero_iff]
    cases s.report.hasFindings with
    | true => simp
    | false =>
      cases s.jobError with
      | some e => simp
      | none => simpa using eq_zero_iff_le_zero_iff s.report.internal
  · intro hok hcode
    obtain ⟨hfindings, hinternal⟩ := (announcesOk_iff s).mp hok
    have hjob : s.jobError ≠ none := by
      intro hnone
      exact hcode ((code_verdict_eq_zero_iff s).mpr
        ⟨hnone, hinternal ▸ Int64.le_refl _, hfindings⟩)
    exact ⟨hjob, code_verdict_of_jobError hjob⟩
  · intro hcode hok
    obtain ⟨-, hinternal, hfindings⟩ := (code_verdict_eq_zero_iff s).mp hcode
    refine Int64.lt_of_le_of_ne hinternal fun hzero => hok ?_
    exact (announcesOk_iff s).mpr ⟨hfindings, hzero⟩

/-- The run of a job that lost its workers before anything was done. -/
def workerlessRun : Summary where
  files := 1
  jobError := some (.noWorkers 1 1)

/-- A run whose number of internal errors is negative. -/
def negativeRun : Summary where
  report := { files := 1, internal := -1 }

/-- Both ways in which the announcement and the exit code differ. -/
theorem announcement_of_workerlessRun :
    (workerlessRun.AnnouncesOk ∧ workerlessRun.verdict.code = 2) ∧
      (¬ negativeRun.AnnouncesOk ∧ negativeRun.verdict.code = 0) := by
  rw [announcesOk_iff, announcesOk_iff]
  decide

end LintPool.Summary
