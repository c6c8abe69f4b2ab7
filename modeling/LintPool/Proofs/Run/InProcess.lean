import LintPool.Proofs.Cache.Table
import LintPool.Proofs.Discovery.Finder
import LintPool.Proofs.Pool.InProcess
import LintPool.Run
import Mathlib.Data.Set.Function

/-!
# Runs in the running process

A run that is not cancelled asks the store about each file that it finds, analyses the files that
the store does not know about, merges what the store has behind that and keeps the new outcomes.

An inspection is what a deterministic analyzer does: its outcome depends on the level, the path and
what reading the file gives. An invocation is a run whose analyzer does what an inspection says.

## Main definitions

* `LintPool.Inspection` : what a deterministic analyzer makes of a file.
* `LintPool.Invocation` : a run in the running process, with all that it depends on but a store.
* `LintPool.Invocation.run` : what it comes to.
* `LintPool.Invocation.CollisionFree` : the hash function keeps apart all texts that some runs hash.

## Main results

* `LintPool.Invocation.CollisionFree.injOn_key` : then keys keep apart what outcomes depend on.
* `LintPool.Runner.mem_rows_keep` : the rows of a table after a run.
* `LintPool.Runner.find?_keep`, `LintPool.Runner.find?_keep_of_not` : the row of a key after a run.
* `LintPool.Invocation.run_of_found` : what a run comes to that finds its files.
-/

namespace LintPool

/-! ## Invocations -/

/-- What an analyzer makes of a file, given the level, the path and what reading the file gives. -/
abbrev Inspection :=
  (level : Int64) → (file : Bytes) → (content : Except Tree.ReadError Bytes) → Outcome

/-- A run in the running process. Its analyzer does not cancel it and does what `inspect` says. -/
structure Invocation (inspect : Inspection) where
  tree : Tree
  level : Int64
  now : Cache.Instant
  finder : Finder
  jobSize : Int64
  roots : List Bytes
  analyzer : Analyzer := fun _ file => { outcome := inspect level file (tree.read file) }
  neverCancels : analyzer.NeverCancels := by exact fun _ _ => rfl
  follows : ∀ file, (analyzer false file).outcome = inspect level file (tree.read file) := by
    exact fun _ => rfl

namespace Invocation

section Definitions

variable {inspect : Inspection} (hash : Bytes → Bytes) (version : Bytes) (inv : Invocation inspect)

/-- The runner of an invocation. -/
def runner : Runner where
  hash
  version
  level := inv.level
  finder := inv.finder
  job := Pool.analyseHere inv.jobSize inv.analyzer

/-- What an invocation comes to with a store. -/
def run (store : Cache.Store) : Except RunError Run :=
  (inv.runner hash version).run inv.tree store inv.now false inv.roots

/-- The files that an invocation finds. -/
def found : Except Finder.Error (List Bytes) := inv.finder.find inv.tree inv.roots

/-- The result of analysing a file. -/
def resultOf (file : Bytes) : Result := (inspect inv.level file (inv.tree.read file)).result file

/-- What the outcome for a file depends on, if it can be read. -/
def subject? (file : Bytes) : Option Cache.Subject :=
  (inv.tree.read file).toOption.map fun content => { version, level := inv.level, file, content }

/-- The outcome that a store has for a file. -/
def cached? (store : Cache.Store) (file : Bytes) : Option Cache.Entry :=
  (inv.subject? version file).bind fun s => Runner.served store inv.now (s.key hash)

/-- What is known about a file. -/
def lookup (store : Cache.Store) (file : Bytes) : Lookup where
  file
  size := ((inv.tree.read file).toOption.map List.length).getD 0
  key := (inv.subject? version file).map (·.key hash)
  entry := inv.cached? hash version store file

/-- The files that a store does not know about. -/
def missing (store : Cache.Store) (files : List Bytes) : List Bytes :=
  files.filter fun file => (inv.cached? hash version store file).isNone

end Definitions

/-! ## Keys -/

section Subjects

variable {inspect : Inspection} {hash : Bytes → Bytes} {version file : Bytes}
  {inv : Invocation inspect} {history : List (Invocation inspect)}

/-- The subject of a file is made of its path and content. -/
lemma of_subject? {s : Cache.Subject} (h : inv.subject? version file = some s) :
    ∃ content, inv.tree.read file = .ok content ∧
      s = { version, level := inv.level, file, content } := by
  rw [subject?] at h
  cases hread : inv.tree.read file with
  | error e =>
    rw [hread] at h
    cases h
  | ok content =>
    rw [hread] at h
    exact ⟨content, rfl, (Option.some.inj h).symm⟩

/-- What the outcomes depend on that a run may take from a store. -/
def subjects (version : Bytes) (inv : Invocation inspect) : Set Cache.Subject :=
  { s | ∃ files, inv.found = .ok files ∧ ∃ file ∈ files, inv.subject? version file = some s }

/-- Whether the hash function keeps apart all texts that some runs hash. -/
def CollisionFree (hash : Bytes → Bytes) (version : Bytes) (history : List (Invocation inspect)) :
    Prop :=
  Set.InjOn hash (Set.image Cache.Subject.text { s | ∃ inv ∈ history, s ∈ inv.subjects version })

/-- There is no zero byte in the path of a file that can be read. -/
lemma zero_notMem_of_read {tree : Tree} {file content : Bytes} (h : tree.read file = .ok content) :
    0 ∉ file := by
  intro hzero
  rw [Tree.read, Tree.find, if_pos (List.contains_iff_mem.mpr hzero)] at h
  cases h

/-- Keys keep subjects apart if the hash function keeps their texts apart. -/
lemma CollisionFree.injOn_key (hfree : CollisionFree hash version history) :
    Set.InjOn (Cache.Subject.key hash) { s | ∃ inv ∈ history, s ∈ inv.subjects version } := by
  intro s hs s' hs' hkey
  have htext := hfree (Set.mem_image_of_mem _ hs) (Set.mem_image_of_mem _ hs') hkey
  obtain ⟨inv, -, files, -, file, -, hsubject⟩ := hs
  obtain ⟨inv', -, files', -, file', -, hsubject'⟩ := hs'
  obtain ⟨content, hread, rfl⟩ := of_subject? hsubject
  obtain ⟨content', hread', rfl⟩ := of_subject? hsubject'
  exact Cache.Subject.text_inj rfl (zero_notMem_of_read hread) (zero_notMem_of_read hread') htext

end Subjects

end Invocation

/-! ## What a table keeps -/

/-- What comes of a list, one after another, comes of its members. -/
lemma exists_of_mem_mapM {ε α β : Type} {f : α → Except ε β} {xs : List α} {ys : List β} {y : β}
    (h : xs.mapM f = .ok ys) (hy : y ∈ ys) : ∃ x ∈ xs, f x = .ok y := by
  induction xs generalizing ys with
  | nil =>
    cases h
    cases hy
  | cons x xs ih =>
    rw [List.mapM_cons] at h
    cases hx : f x with
    | error e =>
      rw [hx] at h
      cases h
    | ok first =>
      cases hrest : xs.mapM f with
      | error e =>
        rw [hx, hrest] at h
        cases h
      | ok rest =>
        rw [hx, hrest] at h
        cases h
        rcases List.mem_cons.mp hy with rfl | hy
        · exact ⟨x, List.mem_cons_self, hx⟩
        · obtain ⟨x', hmem, hx'⟩ := ih hrest hy
          exact ⟨x', List.mem_cons_of_mem x hmem, hx'⟩

namespace Runner

section Keeping

variable {now : Cache.Instant} {report : Report} {l : Lookup} {lookups : List Lookup}
  {t : Cache.Table} {row : Cache.Row}

/-- What a store serves is in a row of the key that is not too old. -/
lemma of_served {key : Bytes} {e : Cache.Entry} (h : served (.table t) now key = some e) :
    ∃ row ∈ t.rows, row.key = key ∧ t.expired now row = false ∧
      Cache.Entry.decode row.data = .ok e := by
  refine Cache.Table.of_get_eq_some ?_
  rw [served] at h
  cases hget : t.get now key with
  | error _ =>
    rw [hget] at h
    cases h
  | ok found =>
    rw [hget] at h
    exact congrArg Except.ok h

/-- Whether the outcome for a file is new and good, and so is kept under a key. -/
structure Keeps (report : Report) (l : Lookup) (key : Bytes) : Prop where
  key_eq : l.key = some key
  entry_eq : l.entry = none
  failed_eq : failed report l.file = false

/-- The row of a new outcome. -/
def newRow (now : Cache.Instant) (report : Report) (file key : Bytes) : Cache.Row where
  key
  data := (entryFor report file).encode
  created := now.toSeconds

/-- Keeping an outcome stores a row, or changes nothing. -/
lemma keepOne_cases (now : Cache.Instant) (report : Report) (t : Cache.Table) (l : Lookup)
    (hopen : t.closed = false) :
    (∃ key, Keeps report l key ∧
      keepOne now report t l = t.insert now key (entryFor report l.file).encode) ∨
    (¬ ∃ key, Keeps report l key) ∧ keepOne now report t l = t := by
  unfold keepOne
  split
  · rename_i key hkey hentry
    split
    · rename_i hfailed
      exact .inr ⟨fun ⟨_, h⟩ => absurd h.failed_eq (by simp [hfailed]), rfl⟩
    · rename_i hfailed
      refine .inl ⟨key, ⟨hkey, hentry, Bool.eq_false_iff.mpr hfailed⟩, ?_⟩
      rw [Cache.Table.put, hopen]
      rfl
  · rename_i hnot
    exact .inr ⟨fun ⟨key, h⟩ => hnot key h.key_eq h.entry_eq, rfl⟩

/-- Keeping an outcome leaves the settings of the table. -/
lemma settings_keepOne (now : Cache.Instant) (report : Report) (l : Lookup)
    (hopen : t.closed = false) :
    (keepOne now report t l).closed = false ∧ (keepOne now report t l).ttl = t.ttl := by
  rcases keepOne_cases now report t l hopen with ⟨key, -, heq⟩ | ⟨-, heq⟩
  · rw [heq]
    exact ⟨hopen, rfl⟩
  · rw [heq]
    exact ⟨hopen, rfl⟩

/-- Keeping outcomes leaves the settings of the table. -/
lemma settings_keep (now : Cache.Instant) (report : Report) (lookups : List Lookup)
    (hopen : t.closed = false) :
    (lookups.foldl (keepOne now report) t).closed = false ∧
      (lookups.foldl (keepOne now report) t).ttl = t.ttl := by
  induction lookups generalizing t with
  | nil => exact ⟨hopen, rfl⟩
  | cons l lookups ih =>
    obtain ⟨hopen', httl⟩ := settings_keepOne now report l hopen
    rw [List.foldl_cons, ← httl]
    exact ih hopen'

/-- **The rows of a table after a run** are old ones, or those of new outcomes. -/
theorem mem_rows_keep (hopen : t.closed = false)
    (h : row ∈ (lookups.foldl (keepOne now report) t).rows) :
    row ∈ t.rows ∨
      ∃ l ∈ lookups, ∃ key, Keeps report l key ∧ row = newRow now report l.file key := by
  induction lookups generalizing t with
  | nil => exact .inl h
  | cons l lookups ih =>
    rcases ih (settings_keepOne now report l hopen).1 h with hrow | ⟨l', hl', hnew⟩
    · rcases keepOne_cases now report t l hopen with ⟨key, hkeeps, heq⟩ | ⟨-, heq⟩
      · rw [heq] at hrow
        exact (Cache.Table.mem_insert hrow).imp_right fun hrow =>
          ⟨l, List.mem_cons_self, key, hkeeps, hrow⟩
      · rw [heq] at hrow
        exact .inl hrow
    · exact .inr ⟨l', List.mem_cons_of_mem l hl', hnew⟩

/-- The key of a new outcome is found after a run. -/
theorem find?_isSome_keep (hopen : t.closed = false) {key : Bytes}
    (h : (∃ l ∈ lookups, Keeps report l key) ∨ (t.find? key).isSome = true) :
    ((lookups.foldl (keepOne now report) t).find? key).isSome = true := by
  induction lookups generalizing t with
  | nil => exact h.resolve_left fun ⟨_, hl, _⟩ => nomatch hl
  | cons l lookups ih =>
    refine ih (settings_keepOne now report l hopen).1 ?_
    rcases keepOne_cases now report t l hopen with ⟨key', hkeeps', heq⟩ | ⟨hnot, heq⟩
    · rw [heq]
      rcases h with ⟨l', hl', hkeeps⟩ | h
      · rcases List.mem_cons.mp hl' with rfl | hl'
        · have hkey := Option.some.inj (hkeeps.key_eq.symm.trans hkeeps'.key_eq)
          exact .inr (Cache.Table.find?_isSome_insert t now key' _ key (.inl hkey))
        · exact .inl ⟨l', hl', hkeeps⟩
      · exact .inr (Cache.Table.find?_isSome_insert t now key' _ key (.inr h))
    · rw [heq]
      rcases h with ⟨l', hl', hkeeps⟩ | h
      · rcases List.mem_cons.mp hl' with rfl | hl'
        · exact absurd ⟨key, hkeeps⟩ hnot
        · exact .inl ⟨l', hl', hkeeps⟩
      · exact .inr h

/-- Nothing is stored under a key for which there is no new outcome. -/
theorem find?_keep_of_not (hopen : t.closed = false) {key : Bytes}
    (h : ∀ l ∈ lookups, ¬ Keeps report l key) :
    (lookups.foldl (keepOne now report) t).find? key = t.find? key := by
  induction lookups generalizing t with
  | nil => rfl
  | cons l lookups ih =>
    obtain ⟨hl, hrest⟩ := List.forall_mem_cons.mp h
    rw [List.foldl_cons, ih (settings_keepOne now report l hopen).1 hrest]
    rcases keepOne_cases now report t l hopen with ⟨key', hkeeps, heq⟩ | ⟨-, heq⟩
    · rw [heq, Cache.Table.find?_insert, if_neg]
      rintro rfl
      exact hl hkeeps
    · rw [heq]

/-- The new outcome of a file is stored under its key, if no other file has this key. -/
theorem find?_keep (hopen : t.closed = false) {key file : Bytes}
    (h : ∃ l ∈ lookups, Keeps report l key)
    (hfile : ∀ l ∈ lookups, Keeps report l key → l.file = file) :
    (lookups.foldl (keepOne now report) t).find? key = some (newRow now report file key) := by
  induction lookups generalizing t with
  | nil => exact h.elim fun _ h => nomatch h.1
  | cons l lookups ih =>
    obtain ⟨hl, hfiles⟩ := List.forall_mem_cons.mp hfile
    have hopen' := (settings_keepOne now report l hopen).1
    rw [List.foldl_cons]
    by_cases hlater : ∃ l ∈ lookups, Keeps report l key
    · exact ih hopen' hlater hfiles
    · have hnot : ∀ l ∈ lookups, ¬ Keeps report l key := fun l hl hkeeps => hlater ⟨l, hl, hkeeps⟩
      obtain ⟨l', hl', hkeeps⟩ := h
      obtain rfl := (List.mem_cons.mp hl').resolve_right fun hmem => hnot l' hmem hkeeps
      rw [find?_keep_of_not hopen' hnot]
      rcases keepOne_cases now report t l' hopen with ⟨key', hkeeps', heq⟩ | ⟨hnone, -⟩
      · obtain rfl := Option.some.inj (hkeeps.key_eq.symm.trans hkeeps'.key_eq)
        rw [heq, Cache.Table.find?_insert, if_pos rfl, hl hkeeps]
        rfl
      · exact absurd ⟨key, hkeeps⟩ hnone

end Keeping

end Runner

/-! ## Whole runs -/

/-- The result of a file whose outcome is cached. -/
def Cache.Entry.result (e : Cache.Entry) : Result :=
  { errors := e.diagnostics, files := 1, infer := e.infer }

/-- The report of what a store knows merges the results of its entries. -/
lemma Runner.cachedReport_eq (lookups : List Lookup) :
    cachedReport lookups = .total ((lookups.filterMap (·.entry)).map Cache.Entry.result) := by
  rw [cachedReport, Result.total, List.foldl_map]
  rfl

namespace Invocation

section Run

variable {inspect : Inspection} (hash : Bytes → Bytes) (version : Bytes) (inv : Invocation inspect)
  {files : List Bytes}

/-- The analyzer of an invocation gives the results that its inspection says. -/
lemma resultOf_analyzer : inv.analyzer.resultOf = inv.resultOf := by
  funext file
  rw [Analyzer.resultOf, inv.follows, resultOf]

/-- Asking a store does not fail in a run that is not cancelled. -/
lemma lookUp_eq (store : Cache.Store) :
    (inv.runner hash version).lookUp inv.tree store inv.now false =
      fun file => .ok (inv.lookup hash version store file) := by
  funext file
  have hrefuses : Runner.refuses store false = false := by cases store <;> rfl
  rw [Runner.lookUp, lookup, cached?, subject?, hrefuses]
  cases inv.tree.read file <;> rfl

/-- The report of what a store knows about some files. -/
def servedReport (store : Cache.Store) (files : List Bytes) : Report :=
  .total ((files.filterMap (inv.cached? hash version store)).map Cache.Entry.result)

/-- The report of the files that a store does not know about. -/
def freshReport (store : Cache.Store) (files : List Bytes) : Report :=
  .total ((inv.missing hash version store files).map inv.resultOf)

/-- The table after a run that found some files. -/
def kept (t : Cache.Table) (files : List Bytes) : Cache.Table :=
  (files.map (inv.lookup hash version (.table t))).foldl
    (Runner.keepOne inv.now (inv.freshReport hash version (.table t) files)) t

variable {hash version} in
/-- The rows of a table after a run are old ones, or those of files that the table did not know
about and that did not fail. -/
lemma mem_rows_kept {t : Cache.Table} {row : Cache.Row} (hopen : t.closed = false)
    (h : row ∈ (inv.kept hash version t files).rows) :
    row ∈ t.rows ∨ ∃ file ∈ files, ∃ s, inv.subject? version file = some s ∧
      file ∈ inv.missing hash version (.table t) files ∧
      Runner.failed (inv.freshReport hash version (.table t) files) file = false ∧
      row = Runner.newRow inv.now (inv.freshReport hash version (.table t) files) file
        (s.key hash) := by
  refine (Runner.mem_rows_keep hopen h).imp_right ?_
  rintro ⟨l, hl, key, hkeeps, hrow⟩
  obtain ⟨file, hfile, rfl⟩ := List.mem_map.mp hl
  obtain ⟨s, hs, rfl⟩ := Option.map_eq_some_iff.mp hkeeps.key_eq
  have hmissing : file ∈ inv.missing hash version (.table t) files :=
    List.mem_filter.mpr ⟨hfile, Option.isNone_iff_eq_none.mpr hkeeps.entry_eq⟩
  exact ⟨file, hfile, s, hs, hmissing, hkeeps.failed_eq, hrow⟩

/-- What a run comes to that found some files. -/
structure Yields (store : Cache.Store) (files : List Bytes) (run : Run) : Prop where
  report : run.summary.report = (inv.freshReport hash version store files).merge
    (inv.servedReport hash version store files)
  jobError : run.summary.jobError = none
  store : ∀ t, store = .table t → run.store = .table (inv.kept hash version t files)

/-- The files that are left for the job are those that the store does not know about. -/
lemma pending_eq (store : Cache.Store) (files : List Bytes) :
    Runner.pending (files.map (inv.lookup hash version store)) =
      inv.missing hash version store files := by
  rw [Runner.pending, missing, List.filter_map, List.map_map]
  exact List.map_id _

/-- The job of a run visits the files that it is left, if there are any. -/
lemma visited_job (files : List Bytes) :
    (if files.isEmpty then { cancelled := false }
      else (inv.runner hash version).job false files : Pool.Job).Visited inv.analyzer files := by
  split
  · rename_i hempty
    rw [List.isEmpty_iff.mp hempty]
    exact ⟨rfl, rfl, rfl, rfl⟩
  · exact Pool.analyseHere_spec inv.neverCancels inv.jobSize files

/-- **A run that finds its files** analyses those that the store does not know about, and puts what
the store has behind them. -/
theorem run_of_found (hfound : inv.found = .ok files) (store : Cache.Store) :
    ∃ run, inv.run hash version store = .ok run ∧ inv.Yields hash version store files run := by
  have hfind : (inv.runner hash version).finder.find inv.tree inv.roots = .ok files := hfound
  have hlookups : files.mapM ((inv.runner hash version).lookUp inv.tree store inv.now false) =
      .ok (files.map (inv.lookup hash version store)) := by
    rw [inv.lookUp_eq hash version store]
    exact List.mapM_pure
  have hserved : Runner.cachedReport (files.map (inv.lookup hash version store)) =
      inv.servedReport hash version store files := by
    rw [Runner.cachedReport_eq, List.filterMap_map, servedReport]
    rfl
  have hjob := inv.visited_job hash version (inv.missing hash version store files)
  simp only [run, Runner.run, hfind, hlookups, inv.pending_eq hash version store files]
  generalize (if (inv.missing hash version store files).isEmpty then _ else _ : Pool.Job) = job
    at hjob ⊢
  have hreport : job.report = inv.freshReport hash version store files := by
    rw [hjob.report, inv.resultOf_analyzer, freshReport]
  refine ⟨_, rfl, ?_, hjob.error, ?_⟩
  · rw [hreport, hserved]
  · rintro t rfl
    rw [Runner.keep, hjob.error, hjob.cancelled, hreport]
    rfl

/-- A run whose store knows none of the files analyses all of them. -/
lemma report_of_cached?_eq_none {store : Cache.Store}
    (hentry : ∀ file, inv.cached? hash version store file = none) (files : List Bytes) :
    inv.freshReport hash version store files = .total (files.map inv.resultOf) ∧
      inv.servedReport hash version store files = {} := by
  have hmissing : inv.missing hash version store files = files :=
    List.filter_eq_self.mpr fun f _ => by rw [hentry]; rfl
  have hserved : files.filterMap (inv.cached? hash version store) = [] :=
    List.filterMap_eq_nil_iff.mpr fun f _ => hentry f
  rw [freshReport, hmissing, servedReport, hserved]
  exact ⟨rfl, rfl⟩

/-- A store that keeps nothing knows no file. -/
lemma cached?_none (file : Bytes) : inv.cached? hash version .none file = none :=
  Option.bind_fun_none _

/-- A run that does not find its files fails. -/
lemma run_of_not_found {e : Finder.Error} (hfound : inv.found = .error e) (store : Cache.Store) :
    inv.run hash version store = .error (.discovery e) := by
  have hfind : (inv.runner hash version).finder.find inv.tree inv.roots = .error e := hfound
  rw [run, Runner.run, hfind]

end Run

end Invocation

end LintPool
