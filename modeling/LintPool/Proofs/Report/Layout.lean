import LintPool.Proofs.Report
import LintPool.Report.Text
import Mathlib

/-!
# Findings are printed file by file

The findings of a report are printed while going through the sorted list once, with a heading where
the file changes. As the list is sorted by file first, the findings in a file are next to each
other, and so each file has one heading. Within a file the findings are in order of their lines, and
those of one line in order of their arrival.

## Main definitions

* `LintPool.Report.Arrival` : a finding with its place among the diagnostics of a report.
* `LintPool.Report.IsGroup` : the findings in a file, in order of line and arrival.
* `LintPool.Report.block` : the lines for a file.

## Main results

* `LintPool.Report.exists_groupLines_eq` : sorted findings are printed file by file.
* `LintPool.Report.text_groups_findings` : the findings in the text of a run.
-/

namespace LintPool.Report

/-! ## Order of arrival -/

/-- A finding with its place among the diagnostics of a report. -/
abbrev Arrival := Diagnostic × Nat

/-- The order within a file: by line, where a missing one counts as line 0, and then by arrival. -/
def Arrival.Before (a b : Arrival) : Prop :=
  a.1.lineKey < b.1.lineKey ∨ (a.1.lineKey = b.1.lineKey ∧ a.2 < b.2)

/-- The findings of a report as they arrived. -/
def arrivals (r : Report) : List Arrival := r.errors.zipIdx.filter (·.1.isFileSpecific)

/-- The findings of a report by file and line. -/
def sortedArrivals (r : Report) : List Arrival :=
  (arrivals r).mergeSort fun a b => Result.findingLe a.1 b.1

section Sorting

variable {r : Report} {d : Diagnostic} {i : Nat} {a b : Arrival}

/-- What has arrived. -/
lemma mem_arrivals : (d, i) ∈ arrivals r ↔ r.errors[i]? = some d ∧ d.isFileSpecific = true := by
  rw [arrivals, List.mem_filter, List.mem_zipIdx_iff_getElem?]

/-- Sorting loses nothing and doubles nothing. -/
lemma sortedArrivals_perm (r : Report) : (sortedArrivals r).Perm (arrivals r) :=
  List.mergeSort_perm _ _

/-- The sorted findings without their places of arrival. -/
lemma map_sortedArrivals (r : Report) : (sortedArrivals r).map (·.1) = r.fileErrors := by
  rw [sortedArrivals, List.map_mergeSort (s := Result.findingLe) fun _ _ _ _ => rfl, arrivals,
    Result.fileErrors]
  congr 1
  calc (r.errors.zipIdx.filter (·.1.isFileSpecific)).map (·.1)
      = (r.errors.zipIdx.map Prod.fst).filter (·.isFileSpecific) := List.filter_map.symm
    _ = r.errors.filter (·.isFileSpecific) := by rw [List.zipIdx_map_fst]

/-- Findings arrive one after the other. -/
lemma pairwise_arrivals (r : Report) : (arrivals r).Pairwise fun a b => a.2 < b.2 := by
  have hall : (r.errors.zipIdx.map Prod.snd).Pairwise (· < ·) := by
    rw [List.zipIdx_map_snd]
    exact List.pairwise_lt_range'
  exact (List.pairwise_map.mp hall).filter _

/-- Findings at the same place keep the order of their arrival. -/
lemma lt_of_ties (hsub : [a, b].Sublist (sortedArrivals r))
    (hties : ties (fun a b : Arrival => Result.findingLe a.1 b.1) a b = true) : a.2 < b.2 := by
  let le : Arrival → Arrival → Bool := fun a b => Result.findingLe a.1 b.1
  have htotal : ∀ a b, le a b || le b a := fun a b => Result.findingLe_total a.1 b.1
  have hrefl : ties le a a = true := by
    have hle : le a a = true := by simpa using htotal a a
    rw [ties, hle]
    rfl
  have hkept := hsub.filter (ties le a)
  rw [List.filter_cons_of_pos hrefl, List.filter_cons_of_pos hties, List.filter_nil, sortedArrivals,
    filter_ties_mergeSort (fun a b c => Result.findingLe_trans a.1 b.1 c.1) htotal] at hkept
  exact List.pairwise_iff_forall_sublist.mp (pairwise_arrivals r)
    (hkept.trans List.filter_sublist)

/-- **The order of the sorted findings**: by file, and then by line and arrival. -/
lemma pairwise_sortedArrivals (r : Report) :
    (sortedArrivals r).Pairwise fun a b =>
      a.1.file ≤ b.1.file ∧ (a.1.file = b.1.file → a.Before b) := by
  have hsorted : (sortedArrivals r).Pairwise fun a b => Result.findingLe a.1 b.1 = true :=
    List.pairwise_mergeSort (fun a b c => Result.findingLe_trans a.1 b.1 c.1)
      (fun a b => Result.findingLe_total a.1 b.1) _
  rw [List.pairwise_iff_forall_sublist] at hsorted ⊢
  intro a b hsub
  have hle := hsorted hsub
  by_cases hfile : a.1.file = b.1.file
  · refine ⟨hfile ▸ List.le_refl _, fun _ => ?_⟩
    rw [Result.findingLe_of_eq hfile, decide_eq_true_eq] at hle
    by_cases hline : a.1.lineKey = b.1.lineKey
    · refine .inr ⟨hline, lt_of_ties hsub ?_⟩
      rw [ties, Result.findingLe_of_eq hfile, Result.findingLe_of_eq hfile.symm, hline]
      simp
    · exact .inl (Int64.lt_of_le_of_ne hle hline)
  · rw [Result.findingLe_of_ne hfile] at hle
    exact ⟨of_decide_eq_true hle, fun heq => absurd heq hfile⟩

end Sorting

/-! ## Groups -/

/-- The findings of a report in a file: each of them once, in order of line and arrival. -/
structure IsGroup (r : Report) (file : Bytes) (group : List Arrival) : Prop where
  mem_iff : ∀ d i, (d, i) ∈ group ↔
    r.errors[i]? = some d ∧ d.isFileSpecific = true ∧ d.file = file
  ordered : group.Pairwise Arrival.Before

/-- The sorted findings in a file are a group. -/
lemma isGroup_filter (r : Report) (file : Bytes) :
    IsGroup r file ((sortedArrivals r).filter (·.1.file == file)) := by
  constructor
  · intro d i
    rw [List.mem_filter, (sortedArrivals_perm r).mem_iff, mem_arrivals, beq_iff_eq, and_assoc]
  · have hfile : ∀ a ∈ (sortedArrivals r).filter (·.1.file == file), a.1.file = file :=
      fun a ha => beq_iff_eq.mp (List.mem_filter.mp ha).2
    exact ((pairwise_sortedArrivals r).filter _).imp_of_mem fun ha hb hle =>
      hle.2 ((hfile _ ha).trans (hfile _ hb).symm)

/-- The line number of a finding as it is shown, a dash for none. -/
def shownLine (d : Diagnostic) : Bytes :=
  match d.line with
  | some n => Bytes.decimal n.toInt
  | none => [byte '-']

/-- A finding as it is shown: the line number, filled up to six characters, and the message. -/
def shown (d : Diagnostic) : Bytes :=
  utf8 "  " ++ List.replicate (6 - (shownLine d).length) (byte ' ') ++ shownLine d ++ utf8 "  " ++
    d.message

/-- The lines for a file: its name, as many dashes as the name has bytes, its findings, and a blank
line. -/
def block (file : Bytes) (findings : List Diagnostic) : List Bytes :=
  [byte ' ' :: file, byte ' ' :: List.replicate file.length (byte '-')] ++
    findings.map shown ++ [[]]

/-- The line for a finding. -/
lemma findingLine_eq (d : Diagnostic) : findingLine d = shown d := by
  cases h : d.line with
  | none => simp only [findingLine, shown, shownLine, h, padLeft, List.append_assoc]; rfl
  | some n => simp only [findingLine, shown, shownLine, h, padLeft, List.append_assoc]; rfl

section Grouping

variable {current file : Bytes} {files : List Bytes} {d : Diagnostic} {ds : List Diagnostic}

/-- A finding in another file does not count. -/
lemma filter_cons_of_file_ne (h : d.file ≠ file) :
    (d :: ds).filter (·.file == file) = ds.filter (·.file == file) :=
  List.filter_cons_of_neg (by simpa using h)

/-- A finding in the file counts. -/
lemma filter_cons_of_file_eq (h : d.file = file) :
    (d :: ds).filter (·.file == file) = d :: ds.filter (·.file == file) :=
  List.filter_cons_of_pos (by simpa using h)

/-- There are no findings in a file if all are in greater ones. -/
lemma filter_eq_nil_of_lt (h : ∀ d ∈ ds, current < d.file) :
    ds.filter (·.file == current) = [] := by
  refine List.filter_eq_nil_iff.mpr fun d hd heq => ?_
  have hlt := h d hd
  rw [beq_iff_eq.mp heq] at hlt
  exact List.lt_irrefl _ hlt

/-- A finding changes nothing in the lines for other files. -/
lemma flatMap_block_cons (h : d.file ∉ files) :
    files.flatMap (fun file => block file ((d :: ds).filter (·.file == file))) =
      files.flatMap fun file => block file (ds.filter (·.file == file)) := by
  refine List.flatMap_congr fun file hfile => ?_
  rw [filter_cons_of_file_ne]
  rintro rfl
  exact h hfile

/-- A file with a name has a blank line at its end. -/
lemma gap_of_ne_nil (h : file ≠ []) : gap file = [[]] := by
  rw [gap, if_neg]
  rwa [List.isEmpty_iff]

/-- **Sorted findings are printed file by file**: first the rest of those in the current file, and
then each other file with a heading, its findings and a blank line.

**Proof sketch.** By induction on the findings, with the current file open. A finding in another
file ends the current one for good, as all findings behind it are in its own file or a greater
one. -/
theorem exists_groupLines_eq (hcurrent : ∀ d ∈ ds, current ≤ d.file)
    (hsorted : ds.Pairwise fun a b => a.file ≤ b.file) (hnames : ∀ d ∈ ds, d.file ≠ []) :
    ∃ files : List Bytes, (current :: files).Pairwise (· < ·) ∧
      (∀ file, file ∈ files ↔ file ≠ current ∧ file ∈ ds.map (·.file)) ∧
      groupLines current ds = (ds.filter (·.file == current)).map shown ++ gap current ++
        files.flatMap fun file => block file (ds.filter (·.file == file)) := by
  induction ds generalizing current with
  | nil => exact ⟨[], List.pairwise_singleton _ _, by simp, by simp [groupLines]⟩
  | cons d ds ih =>
    obtain ⟨hfirst, hsorted⟩ := List.pairwise_cons.mp hsorted
    obtain ⟨hd, hcurrent⟩ := List.forall_mem_cons.mp hcurrent
    obtain ⟨hname, hnames⟩ := List.forall_mem_cons.mp hnames
    by_cases hfile : d.file = current
    · obtain ⟨files, hpairwise, hmem, hlines⟩ := ih hcurrent hsorted hnames
      have hnew : d.file ∉ files := fun hin => ((hmem _).mp hin).1 hfile
      refine ⟨files, hpairwise, ?_, ?_⟩
      · intro file
        rw [hmem, List.map_cons, List.mem_cons, hfile]
        exact and_congr_right fun hne => (or_iff_right hne).symm
      · rw [groupLines, if_pos hfile, hlines, filter_cons_of_file_eq hfile,
          flatMap_block_cons hnew, findingLine_eq]
        rfl
    · obtain ⟨files, hpairwise, hmem, hlines⟩ := ih hfirst hsorted hnames
      have hnew : d.file ∉ files := fun hin => ((hmem _).mp hin).1 rfl
      have hlt : current < d.file := by
        rw [← List.not_le]
        exact fun hle => hfile (List.le_antisymm hle hd)
      have hgreater : ∀ e ∈ d :: ds, current < e.file := by
        refine List.forall_mem_cons.mpr ⟨hlt, fun e he => ?_⟩
        rw [← List.not_le]
        exact fun hle => List.not_le.mpr hlt (List.le_trans (hfirst e he) hle)
      refine ⟨d.file :: files, ?_, ?_, ?_⟩
      · refine List.pairwise_cons.mpr ⟨List.forall_mem_cons.mpr ⟨hlt, ?_⟩, hpairwise⟩
        exact fun file hin => List.lt_trans hlt ((List.pairwise_cons.mp hpairwise).1 file hin)
      · intro file
        have hne : file ∈ (d :: ds).map (·.file) → file ≠ current := by
          intro hin heq
          obtain ⟨e, he, rfl⟩ := List.mem_map.mp hin
          exact List.lt_irrefl _ (heq ▸ hgreater e he)
        rw [and_iff_right_of_imp hne, List.mem_cons, hmem, List.map_cons, List.mem_cons]
        by_cases heq : file = d.file
        · simp [heq]
        · simp [heq]
      · rw [groupLines, if_neg hfile, hlines, filter_eq_nil_of_lt hgreater, List.flatMap_cons,
          flatMap_block_cons hnew, filter_cons_of_file_eq rfl, findingLine_eq, gap_of_ne_nil hname]
        simp [block, heading]

end Grouping

/-! ## The text of a run -/

/-- Lines as they are printed. -/
def unlines (lines : List Bytes) : Bytes := lines.flatMap (· ++ [byte '\n'])

section Text

variable {r : Report}

/-- The findings of a report are those of its diagnostics that are in a file. -/
lemma mem_fileErrors {d : Diagnostic} :
    d ∈ r.fileErrors ↔ d ∈ r.errors ∧ d.isFileSpecific = true := by
  rw [Result.fileErrors, List.mem_mergeSort, List.mem_filter]

/-- The sorted findings are in order of their files. -/
lemma pairwise_fileErrors (r : Report) : r.fileErrors.Pairwise fun a b => a.file ≤ b.file := by
  rw [← map_sortedArrivals, List.pairwise_map]
  exact (pairwise_sortedArrivals r).imp fun h => h.1

/-- No finding arrives twice. -/
lemma nodup_arrivals (r : Report) : (arrivals r).Nodup := by
  refine List.Pairwise.imp ?_ (pairwise_arrivals r)
  rintro a _ hlt rfl
  exact Nat.lt_irrefl _ hlt

/-- **The groups of all files hold each finding once.** -/
lemma flatMap_group_perm {files : List Bytes} (hnodup : files.Nodup)
    (hmem : ∀ a ∈ arrivals r, a.1.file ∈ files) :
    (files.flatMap fun file => (sortedArrivals r).filter (·.1.file == file)).Perm (arrivals r) := by
  have hsorted : (sortedArrivals r).Nodup :=
    (sortedArrivals_perm r).nodup_iff.mpr (nodup_arrivals r)
  refine (List.perm_ext_iff_of_nodup ?_ (nodup_arrivals r)).mpr fun a => ?_
  · refine List.nodup_flatMap.mpr ⟨fun file _ => hsorted.filter _, ?_⟩
    refine hnodup.imp fun {file other} hne a ha hb => ?_
    -- a finding is in one file
    exact hne ((beq_iff_eq.mp (List.mem_filter.mp ha).2).symm.trans
      (beq_iff_eq.mp (List.mem_filter.mp hb).2))
  · simp only [List.mem_flatMap, List.mem_filter, (sortedArrivals_perm r).mem_iff, beq_iff_eq]
    constructor
    · rintro ⟨file, -, ha, -⟩
      exact ha
    · intro ha
      exact ⟨_, hmem a ha, ha, rfl⟩

/-- **Findings are printed file by file.** If every finding is in a file with a name, the text of a
run starts with the files that have findings, in increasing order and so each of them once. For
each there is its name, a rule of the same length, its findings in order of line and arrival, and a
blank line. Together these are all findings of the report, each of them once. Then come the
failures, the outcome and the amount of work. -/
theorem text_groups_findings (s : Summary)
    (hnames : ∀ d ∈ s.report.errors, d.isFileSpecific = true → d.file ≠ []) :
    ∃ (files : List Bytes) (group : Bytes → List Arrival),
      files.Pairwise (· < ·) ∧
      (∀ file, file ∈ files ↔
        ∃ d ∈ s.report.errors, d.isFileSpecific = true ∧ d.file = file) ∧
      (∀ file, IsGroup s.report file (group file)) ∧
      (files.flatMap group).Perm (arrivals s.report) ∧
      s.text = unlines (files.flatMap fun file => block file ((group file).map (·.1))) ++
        unlines (failureLines s.report ++ outcomeLines s.report ++ [s.workLine]) := by
  have hnames : ∀ d ∈ s.report.fileErrors, d.file ≠ [] := fun d hd =>
    hnames d (mem_fileErrors.mp hd).1 (mem_fileErrors.mp hd).2
  obtain ⟨files, hpairwise, hmem, hlines⟩ := exists_groupLines_eq
    (fun d _ => List.nil_le d.file) (pairwise_fileErrors s.report) hnames
  have hfiles : ∀ file, file ∈ files ↔
      ∃ d ∈ s.report.errors, d.isFileSpecific = true ∧ d.file = file := by
    intro file
    simp only [hmem, List.mem_map, mem_fileErrors, and_assoc]
    refine and_iff_right_of_imp ?_
    rintro ⟨d, hd, hspecific, rfl⟩
    exact hnames d (mem_fileErrors.mpr ⟨hd, hspecific⟩)
  have hincreasing := (List.pairwise_cons.mp hpairwise).2
  refine ⟨files, fun file => (sortedArrivals s.report).filter (·.1.file == file), hincreasing,
    hfiles, isGroup_filter s.report, flatMap_group_perm ?_ ?_, ?_⟩
  · exact hincreasing.nodup
  · rintro ⟨d, i⟩ ha
    obtain ⟨hd, hspecific⟩ := mem_arrivals.mp ha
    exact (hfiles d.file).mpr ⟨d, List.mem_of_getElem? hd, hspecific, rfl⟩
  · have hgroups : ∀ file, ((sortedArrivals s.report).filter (·.1.file == file)).map (·.1) =
        s.report.fileErrors.filter (·.file == file) := by
      intro file
      rw [← map_sortedArrivals, List.filter_map]
      rfl
    have hsection : findingLines s.report =
        files.flatMap fun file => block file (s.report.fileErrors.filter (·.file == file)) := by
      rw [findingLines, hlines, List.filter_eq_nil_iff.mpr]
      · rfl
      · intro d hd
        simpa using hnames d hd
    simp only [hgroups, ← hsection, unlines, ← List.flatMap_append]
    rw [Summary.text, Summary.lines, List.append_assoc, List.append_assoc, List.append_assoc]

end Text

/-- A run with two findings on one line, one before them, one in another file without a line, and a
failure. -/
def mixedRun : Summary where
  report :=
    { errors := [⟨utf8 "x", utf8 "b", some 12, true⟩, .internalError (utf8 "c") (utf8 "no"),
        ⟨utf8 "y", utf8 "a", none, true⟩, ⟨utf8 "z", utf8 "b", some 3, true⟩,
        ⟨utf8 "w", utf8 "b", some 12, true⟩],
      files := 3, internal := 1 }

/-- The file that failed has no heading, and the others have one each. -/
theorem text_of_mixedRun :
    (∀ d ∈ mixedRun.report.errors, d.isFileSpecific = true → d.file ≠ []) ∧
      ∃ (files : List Bytes) (group : Bytes → List Arrival),
        files.Pairwise (· < ·) ∧ utf8 "a" ∈ files ∧ utf8 "b" ∈ files ∧ utf8 "c" ∉ files ∧
        IsGroup mixedRun.report (utf8 "b") (group (utf8 "b")) ∧
        mixedRun.text = unlines (files.flatMap fun file => block file ((group file).map (·.1))) ++
          unlines (failureLines mixedRun.report ++ outcomeLines mixedRun.report ++
            [mixedRun.workLine]) := by
  have hnames : ∀ d ∈ mixedRun.report.errors, d.isFileSpecific = true → d.file ≠ [] := by decide
  obtain ⟨files, group, hincreasing, hfiles, hgroups, -, htext⟩ :=
    text_groups_findings mixedRun hnames
  refine ⟨hnames, files, group, hincreasing, ?_, ?_, ?_, hgroups _, htext⟩
  · rw [hfiles]
    decide
  · rw [hfiles]
    decide
  · rw [hfiles]
    decide

end LintPool.Report
