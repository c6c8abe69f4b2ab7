import LintPool.Proofs.Cache.Table
import Mathlib

/-!
# A table is a map with times

Seen from outside, a table is a map from keys to entries, each with the time at which it was put
there: a ledger. A lookup gives the entry that was put last under the key, unless it is too old by
then. Its age counts from the start of the second in which it was put.

Pruning does not show in lookups, as long as the clock does not run backwards. It compares whole
seconds where a lookup compares nanoseconds, and so it spares some rows that are too old already;
but it takes none away that a lookup would still serve, and what is too old stays so.

## Main definitions

* `LintPool.Cache.Call`, `LintPool.Cache.Answer` : what is asked of a table, and what it answers.
* `LintPool.Cache.Table.serveAll` : the answers to some calls, and the table after them.
* `LintPool.Cache.Ledger` : a map with times, and what it answers.
* `LintPool.Cache.Table.Tracks` : a table after some calls agrees with the ledger of these.

## Main results

* `LintPool.Cache.Table.Tracks.get_eq` : such a table answers lookups as the ledger does.
* `LintPool.Cache.Table.Tracks.serve` : every call keeps them in agreement.
* `LintPool.Cache.Table.serveAll_refines_ledger` : what follows for all calls of a history.
-/

namespace LintPool.Cache

/-! ## Calls -/

/-- What is asked of a table, and when. -/
inductive Call where
  | put (now : Instant) (key : Bytes) (e : Entry)
  | get (now : Instant) (key : Bytes)
  | prune (now : Instant)

/-- What a table answers. -/
inductive Answer where
  | stored
  /-- The entry of the key, if there is one that is not too old. -/
  | found (e : Option Entry)
  /-- How many rows were taken away. -/
  | pruned (n : Nat)
  deriving DecidableEq

/-- When a call is made. -/
def Call.time : Call → Instant
  | .put now _ _ => now
  | .get now _ => now
  | .prune now => now

/-- The entries given in an answer. -/
def Answer.finds : Answer → List (Option Entry)
  | .found e => [e]
  | _ => []

/-- The answers to lookups among others. -/
def findsIn (answers : List Answer) : List (Option Entry) := answers.flatMap Answer.finds

namespace Table

/-- The answer of a table to a call, and the table after it. -/
def serve (t : Table) : Call → Except Error (Answer × Table)
  | .put now key e => (t.put now key e).map fun t => (.stored, t)
  | .get now key => (t.get now key).map fun e => (.found e, t)
  | .prune now => (t.prune now).map fun (t, n) => (.pruned n, t)

/-- The answers of a table to some calls, one after another, and the table after them. -/
def serveAll (t : Table) : List Call → Except Error (List Answer × Table)
  | [] => .ok ([], t)
  | c :: calls => do
    let (a, t) ← t.serve c
    let (answers, t) ← t.serveAll calls
    return (a :: answers, t)

end Table

/-! ## Ledgers -/

/-- The time from the start of a second up to `now`, however long it is. -/
def Instant.elapsed (now : Instant) (seconds : Int) : Int := now - seconds * second

/-- The time from the start of the second that `put` lies in up to `now`. -/
def Instant.age (now put : Instant) : Int := now.elapsed put.toSeconds

/-- For each key the entry that was put there last, and when. -/
abbrev Ledger := Bytes → Option (Instant × Entry)

namespace Ledger

/-- A ledger after a call. -/
def enter (l : Ledger) : Call → Ledger
  | .put now key e => Function.update l key (some (now, e))
  | _ => l

/-- The entry of a key, unless it is older than the time to live. -/
def get (ttl : Duration) (l : Ledger) (now : Instant) (key : Bytes) : Option Entry :=
  (l key).bind fun (put, e) => if ttl ≤ 0 ∨ now.age put ≤ ttl.toInt then some e else none

/-- What a ledger answers to a call that is a lookup. -/
def reply (ttl : Duration) (l : Ledger) : Call → List (Option Entry)
  | .get now key => [l.get ttl now key]
  | _ => []

/-- What a ledger answers to the lookups among some calls. -/
def replies (ttl : Duration) (l : Ledger) : List Call → List (Option Entry)
  | [] => []
  | c :: calls => l.reply ttl c ++ (l.enter c).replies ttl calls

/-- The ledger of some calls. -/
def ofCalls (calls : List Call) : Ledger := calls.foldl enter fun _ => none

section Ledgers

variable {ttl : Duration} {l : Ledger} {calls : List Call} {c : Call} {key : Bytes} {put : Instant}
  {e : Entry}

/-- The ledger after one more call. -/
lemma ofCalls_concat (calls : List Call) (c : Call) :
    ofCalls (calls ++ [c]) = (ofCalls calls).enter c := by
  rw [ofCalls, List.foldl_append]
  rfl

/-- What a ledger answers to one more call. -/
lemma replies_concat (ttl : Duration) (l : Ledger) (calls : List Call) (c : Call) :
    l.replies ttl (calls ++ [c]) = l.replies ttl calls ++ (calls.foldl enter l).reply ttl c := by
  induction calls generalizing l with
  | nil => exact (List.append_nil _).trans (List.nil_append _).symm
  | cons c' calls ih =>
    rw [List.cons_append, replies, ih, replies, List.append_assoc, List.foldl_cons]

/-- A ledger does not know about pruning. -/
lemma replies_prune (ttl : Duration) (l : Ledger) (before after : List Call) (now : Instant) :
    l.replies ttl (before ++ .prune now :: after) = l.replies ttl (before ++ after) := by
  induction before generalizing l with
  | nil => rfl
  | cons c before ih => rw [List.cons_append, replies, ih, List.cons_append, replies]

/-- What is in the ledger of some calls was put there by one of them. -/
lemma mem_of_ofCalls (h : ofCalls calls key = some (put, e)) : .put put key e ∈ calls := by
  induction calls using List.reverseRecOn with
  | nil => cases h
  | append_singleton calls c ih =>
    rw [ofCalls_concat] at h
    cases c with
    | put now key' e' =>
      by_cases hkey : key = key'
      · subst hkey
        rw [enter, Function.update_self] at h
        obtain ⟨rfl, rfl⟩ := Prod.mk.inj (Option.some.inj h)
        exact List.mem_append_right _ (List.mem_singleton_self _)
      · rw [enter, Function.update_of_ne hkey] at h
        exact List.mem_append_left _ (ih h)
    | get | prune => exact List.mem_append_left _ (ih h)

end Ledgers

end Ledger

/-! ## Times -/

/-- The clock does not run backwards from one call to a later one, and the age that an entry of the
first one has at the second is one that a duration can hold. -/
structure Call.Precedes (a b : Call) : Prop where
  time_le : a.time ≤ b.time
  age_le : ∀ put key e, a = .put put key e → b.time.age put ≤ Int64.maxValue.toInt

/-- Whether the texts of what a call puts are valid. -/
def Call.IsText : Call → Prop
  | .put _ _ e => ∀ d ∈ e.diagnostics, d.IsText
  | _ => True

namespace Table

section Times

variable {t : Table} {now : Instant} {row : Row}

/-- A row is too old for a lookup if its age exceeds the time to live. -/
lemma expired_iff (hage : now.elapsed row.created ≤ Int64.maxValue.toInt) :
    t.expired now row = true ↔ 0 < t.ttl ∧ t.ttl.toInt < now.elapsed row.created := by
  have hmin : Int64.minValue.toInt < 0 := by decide
  rw [Instant.elapsed] at hage ⊢
  rw [expired, Bool.and_eq_true, decide_eq_true_eq, decide_eq_true_eq, Instant.since]
  refine and_congr_right fun hpos => ?_
  have hzero : 0 < t.ttl.toInt := Int64.lt_iff_toInt_lt.mp hpos
  omega

/-- **Pruning takes away only what is too old**, by a second or more. -/
lemma lt_of_prunes (h : t.prunes now row = true) :
    t.ttl.toInt < now.elapsed row.created := by
  rw [prunes, decide_eq_true_eq, Instant.toSeconds, Instant.second,
    Int.fdiv_eq_ediv_of_nonneg _ (by decide)] at h
  rw [Instant.elapsed, Instant.second]
  omega

end Times

/-! ## Rows -/

section Rows

variable {t : Table} {now : Instant} {key : Bytes} {row : Row}

/-- In a table with different keys each row is found by its key. -/
lemma find?_of_mem (hnodup : (t.rows.map (·.key)).Nodup) (hrow : row ∈ t.rows) :
    t.find? row.key = some row := by
  have hsome : (t.find? row.key).isSome = true :=
    List.find?_isSome.mpr ⟨row, hrow, beq_self_eq_true _⟩
  obtain ⟨row', hfind⟩ := Option.isSome_iff_exists.mp hsome
  obtain ⟨hrow', hkey⟩ := of_find? hfind
  rw [hfind, List.inj_on_of_nodup_map hnodup hrow' hrow hkey]

/-- Storing a row keeps keys different. -/
lemma nodup_insert (hnodup : (t.rows.map (·.key)).Nodup) (now : Instant) (key data : Bytes) :
    ((t.insert now key data).rows.map (·.key)).Nodup := by
  rw [insert, List.map_append, List.map_singleton]
  refine List.nodup_append.mpr ⟨?_, List.nodup_singleton _, ?_⟩
  · exact hnodup.sublist (List.filter_sublist.map _)
  · intro k hk k' hk'
    obtain ⟨row, hrow, rfl⟩ := List.mem_map.mp hk
    rw [List.mem_singleton.mp hk']
    simpa using (List.mem_filter.mp hrow).2

/-- A table without the rows that pruning takes away. -/
def spared (t : Table) (now : Instant) : Table :=
  { t with rows := t.rows.filter fun row => !t.prunes now row }

/-- What pruning does to an open table. -/
lemma prune_eq (hopen : t.closed = false) (now : Instant) :
    t.prune now =
      if t.ttl ≤ 0 then .ok (t, 0)
      else .ok (t.spared now, (t.rows.filter (t.prunes now)).length) := by
  simp only [prune, hopen, List.partition_eq_filter_filter, Bool.false_eq_true, if_false, spared,
    Function.comp_def]

/-- What is found after pruning was found before. -/
lemma find?_of_spared (hnodup : (t.rows.map (·.key)).Nodup)
    (h : (t.spared now).find? key = some row) : t.find? key = some row := by
  obtain ⟨hrow, rfl⟩ := of_find? h
  exact find?_of_mem hnodup (List.mem_of_mem_filter hrow)

/-- What is not found after pruning was not found before, or was taken away. -/
lemma prunes_of_spared (h : (t.spared now).find? key = none) (hfind : t.find? key = some row) :
    t.prunes now row = true := by
  by_contra hkept
  obtain ⟨hrow, rfl⟩ := of_find? hfind
  have hmem : row ∈ (t.spared now).rows := List.mem_filter.mpr ⟨hrow, by simpa using hkept⟩
  exact absurd (beq_self_eq_true row.key) (List.find?_eq_none.mp h row hmem)

/-- **Pruning says how much smaller the table gets**, which is not at all without a time to live. -/
lemma size_of_prune (hopen : t.closed = false) (now : Instant) :
    ∃ t' n k, t.prune now = .ok (t', n) ∧ t.size = .ok (n + k) ∧ t'.size = .ok k ∧
      (t.ttl ≤ 0 → t' = t) := by
  rw [prune_eq hopen, size, hopen]
  by_cases httl : t.ttl ≤ 0
  · refine ⟨t, 0, t.rows.length, if_pos httl, ?_, ?_, fun _ => rfl⟩
    · rw [Nat.zero_add]
      rfl
    · rw [size, hopen]
      rfl
  · refine ⟨_, _, (t.spared now).rows.length, if_neg httl, ?_, ?_, fun h => absurd h httl⟩
    · rw [spared, ← List.length_eq_length_filter_add]
      rfl
    · rw [size, spared, hopen]
      rfl

end Rows

/-! ## Agreement -/

/-- A table after some calls agrees with the ledger of these: each row holds what is in the ledger
under its key, and what the ledger has besides was too old at one of the calls. -/
structure Tracks (ttl : Duration) (calls : List Call) (t : Table) : Prop where
  opened : t.closed = false
  ttl_eq : t.ttl = ttl
  nodup : (t.rows.map (·.key)).Nodup
  found : ∀ key row, t.find? key = some row → ∃ put e, Ledger.ofCalls calls key = some (put, e) ∧
    row.created = put.toSeconds ∧ Entry.decode row.data = .ok e
  missing : ∀ key put e, t.find? key = none → Ledger.ofCalls calls key = some (put, e) →
    0 < ttl ∧ ∃ c ∈ calls, ttl.toInt < c.time.age put

section Tracking

variable {ttl : Duration} {calls : List Call} {t : Table} {c : Call} {now : Instant} {key : Bytes}

/-- A new table agrees with an empty ledger. -/
lemma tracks_empty (ttl : Duration) : Tracks ttl [] { ttl } where
  opened := rfl
  ttl_eq := rfl
  nodup := List.nodup_nil
  found _ _ h := by cases h
  missing _ _ _ _ h := by cases h

/-- **A table answers lookups as the ledger does.**

**Proof sketch.** If there is a row, it is too old for the table if and only if its entry is so for
the ledger. If there is none, what the ledger has was too old at an earlier call, and it has not
become younger. -/
theorem Tracks.get_eq (ht : Tracks ttl calls t)
    (hcalls : ∀ a ∈ calls, a.Precedes (.get now key)) :
    t.get now key = .ok ((Ledger.ofCalls calls).get ttl now key) := by
  cases hfind : t.find? key with
  | some row =>
    obtain ⟨put, e, hentry, hcreated, hdecode⟩ := ht.found key row hfind
    have hage : now.age put ≤ Int64.maxValue.toInt :=
      (hcalls _ (Ledger.mem_of_ofCalls hentry)).age_le put key e rfl
    have hexpired : t.expired now row = true ↔ 0 < ttl ∧ ttl.toInt < now.age put := by
      rw [Instant.age, ← hcreated, ← ht.ttl_eq]
      refine expired_iff ?_
      rw [hcreated]
      exact hage
    simp only [get, ht.opened, hfind, Ledger.get, hentry, hdecode, Option.bind_some,
      Bool.false_eq_true, if_false]
    by_cases hold : 0 < ttl ∧ ttl.toInt < now.age put
    · rw [if_pos (hexpired.mpr hold), if_neg]
      rw [not_or, Int64.not_le, Int.not_le]
      exact hold
    · rw [if_neg (mt hexpired.mp hold), if_pos]
      rwa [not_and_or, Int64.not_lt, Int.not_lt] at hold
  | none =>
    have hmiss : t.get now key = .ok none := by
      simp only [get, ht.opened, hfind, Bool.false_eq_true, if_false]
    rw [hmiss, Ledger.get]
    cases hentry : Ledger.ofCalls calls key with
    | none => rfl
    | some p =>
      obtain ⟨put, e⟩ := p
      obtain ⟨hpos, a, ha, hage⟩ := ht.missing key put e hfind hentry
      have hlater : a.time.age put ≤ now.age put := Int.sub_le_sub_right (hcalls a ha).time_le _
      have hold : ¬ (ttl ≤ 0 ∨ now.age put ≤ ttl.toInt) := by
        rw [not_or, Int64.not_le, Int.not_le]
        exact ⟨hpos, Int.lt_of_lt_of_le hage hlater⟩
      exact congrArg Except.ok (if_neg hold).symm

/-- Storing an entry with valid texts keeps a table in agreement. -/
lemma Tracks.put (ht : Tracks ttl calls t) (now : Instant) (key : Bytes) {e : Entry}
    (he : ∀ d ∈ e.diagnostics, d.IsText) :
    Tracks ttl (calls ++ [.put now key e]) (t.insert now key e.encode) where
  opened := ht.opened
  ttl_eq := ht.ttl_eq
  nodup := nodup_insert ht.nodup now key e.encode
  found k row h := by
    rw [find?_insert] at h
    rw [Ledger.ofCalls_concat, Ledger.enter]
    split at h
    · rename_i hk
      obtain rfl := Option.some.inj h
      refine ⟨now, e, by rw [hk, Function.update_self], rfl, ?_⟩
      rw [Entry.decode_encode, Diagnostic.map_mended he]
    · rename_i hk
      rw [Function.update_of_ne hk]
      exact ht.found k row h
  missing k put e' h hentry := by
    rw [find?_insert] at h
    rw [Ledger.ofCalls_concat, Ledger.enter] at hentry
    split at h
    · cases h
    · rename_i hk
      rw [Function.update_of_ne hk] at hentry
      obtain ⟨hpos, a, ha, hage⟩ := ht.missing k put e' h hentry
      exact ⟨hpos, a, List.mem_append_left _ ha, hage⟩

/-- A table that stays as it is stays in agreement with a ledger that does so too. -/
lemma Tracks.concat (ht : Tracks ttl calls t)
    (hc : (Ledger.ofCalls calls).enter c = Ledger.ofCalls calls) : Tracks ttl (calls ++ [c]) t where
  opened := ht.opened
  ttl_eq := ht.ttl_eq
  nodup := ht.nodup
  found := by
    rw [Ledger.ofCalls_concat, hc]
    exact ht.found
  missing k put e h hentry := by
    rw [Ledger.ofCalls_concat, hc] at hentry
    obtain ⟨hpos, a, ha, hage⟩ := ht.missing k put e h hentry
    exact ⟨hpos, a, List.mem_append_left _ ha, hage⟩

/-- **Pruning keeps a table in agreement**: a row that is taken away is too old. -/
lemma Tracks.spared (ht : Tracks ttl calls t) (httl : 0 < ttl) (now : Instant) :
    Tracks ttl (calls ++ [.prune now]) (t.spared now) where
  opened := ht.opened
  ttl_eq := ht.ttl_eq
  nodup := ht.nodup.sublist (List.filter_sublist.map _)
  found k row h := by
    rw [Ledger.ofCalls_concat]
    exact ht.found k row (find?_of_spared ht.nodup h)
  missing k put e h hentry := by
    rw [Ledger.ofCalls_concat] at hentry
    change Ledger.ofCalls calls k = _ at hentry
    cases hfind : t.find? k with
    | none =>
      obtain ⟨hpos, a, ha, hage⟩ := ht.missing k put e hfind hentry
      exact ⟨hpos, a, List.mem_append_left _ ha, hage⟩
    | some row =>
      obtain ⟨put', e', hentry', hcreated, -⟩ := ht.found k row hfind
      obtain ⟨rfl, rfl⟩ := Prod.mk.inj (Option.some.inj (hentry.symm.trans hentry'))
      have hage := lt_of_prunes (prunes_of_spared h hfind)
      rw [ht.ttl_eq, hcreated] at hage
      exact ⟨httl, .prune now, List.mem_append_right _ (List.mem_singleton_self _), hage⟩

/-- **Every call keeps a table in agreement**, and a lookup is answered as by the ledger. -/
theorem Tracks.serve (ht : Tracks ttl calls t) (hcalls : ∀ a ∈ calls, a.Precedes c)
    (hc : c.IsText) :
    ∃ a t', t.serve c = .ok (a, t') ∧ Tracks ttl (calls ++ [c]) t' ∧
      a.finds = (Ledger.ofCalls calls).reply ttl c := by
  cases c with
  | put now key e =>
    refine ⟨.stored, _, ?_, ht.put now key hc, rfl⟩
    rw [Table.serve, Table.put, ht.opened]
    rfl
  | get now key =>
    refine ⟨.found ((Ledger.ofCalls calls).get ttl now key), t, ?_, ht.concat rfl, rfl⟩
    rw [Table.serve, ht.get_eq hcalls]
    rfl
  | prune now =>
    by_cases httl : ttl ≤ 0
    · refine ⟨.pruned 0, t, ?_, ht.concat rfl, rfl⟩
      rw [Table.serve, prune_eq ht.opened, ht.ttl_eq, if_pos httl]
      rfl
    · refine ⟨.pruned (t.rows.filter (t.prunes now)).length, t.spared now, ?_,
        ht.spared (Int64.not_le.mp httl) now, rfl⟩
      rw [Table.serve, prune_eq ht.opened, ht.ttl_eq, if_neg httl]
      rfl

/-! ## Histories -/

/-- The answers to some calls and then to others. -/
lemma serveAll_append (t : Table) (before after : List Call) :
    t.serveAll (before ++ after) = (do
      let (answers, t) ← t.serveAll before
      let (answers', t) ← t.serveAll after
      return (answers ++ answers', t)) := by
  induction before generalizing t with
  | nil =>
    change t.serveAll after = (t.serveAll after >>= _)
    cases t.serveAll after <;> rfl
  | cons c before ih =>
    rw [List.cons_append, serveAll, serveAll]
    cases t.serve c with
    | error e => rfl
    | ok p =>
      change (p.2.serveAll (before ++ after) >>= _) = _
      rw [ih]
      change _ = ((p.2.serveAll before >>= _) >>= _)
      cases p.2.serveAll before with
      | error e => rfl
      | ok q =>
        change ((q.2.serveAll after >>= _) >>= _) = (q.2.serveAll after >>= _)
        cases q.2.serveAll after <;> rfl

/-- What the answer to one more call adds. -/
lemma serveAll_concat {t t₁ t₂ : Table} {answers : List Answer} {a : Answer}
    (h : t.serveAll calls = .ok (answers, t₁)) (hc : t₁.serve c = .ok (a, t₂)) :
    t.serveAll (calls ++ [c]) = .ok (answers ++ [a], t₂) := by
  rw [serveAll_append, h]
  change (t₁.serveAll [c] >>= _) = _
  rw [serveAll, hc]
  rfl

/-- **A table that starts empty stays in agreement with the ledger**, and answers every lookup as
the ledger does. The induction is on the calls, the last one first. -/
theorem tracks_serveAll (ttl : Duration) (hclock : calls.Pairwise Call.Precedes)
    (htexts : ∀ c ∈ calls, c.IsText) :
    ∃ answers t, serveAll { ttl } calls = .ok (answers, t) ∧ Tracks ttl calls t ∧
      findsIn answers = Ledger.replies ttl (fun _ => none) calls := by
  induction calls using List.reverseRecOn with
  | nil => exact ⟨[], _, rfl, tracks_empty ttl, rfl⟩
  | append_singleton calls c ih =>
    obtain ⟨hcalls, -, hlast⟩ := List.pairwise_append.mp hclock
    obtain ⟨htexts, htext⟩ := List.forall_mem_append.mp htexts
    obtain ⟨answers, t, hserve, ht, hfinds⟩ := ih hcalls htexts
    obtain ⟨a, t', hc, ht', ha⟩ := ht.serve
      (fun b hb => hlast b hb c (List.mem_singleton_self c)) (htext c (List.mem_singleton_self c))
    refine ⟨answers ++ [a], t', serveAll_concat hserve hc, ht', ?_⟩
    rw [Ledger.replies_concat, ← hfinds, findsIn, List.flatMap_append, List.flatMap_singleton, ha]
    rfl

/-- The answers to calls with a pruning among them hold what that one answers. -/
lemma answers_prune {t t₁ t₂ t' : Table} {before after : List Call} {answers earlier : List Answer}
    {n : Nat} (hbefore : t.serveAll before = .ok (earlier, t₁))
    (hprune : t₁.prune now = .ok (t₂, n))
    (h : t.serveAll (before ++ .prune now :: after) = .ok (answers, t')) :
    ∃ later, answers = earlier ++ .pruned n :: later := by
  rw [serveAll_append, hbefore] at h
  change (t₁.serveAll (.prune now :: after) >>= _) = _ at h
  have hcall : t₁.serve (.prune now) = .ok (.pruned n, t₂) := by
    rw [Table.serve, hprune]
    rfl
  rw [serveAll, hcall] at h
  change ((t₂.serveAll after >>= _) >>= _) = _ at h
  cases hafter : t₂.serveAll after with
  | error e =>
    rw [hafter] at h
    cases h
  | ok p =>
    rw [hafter] at h
    exact ⟨p.1, (Prod.mk.inj (Except.ok.inj h)).1.symm⟩

/-- **A table is a map with times.** All calls of a history succeed, and lookups are answered as by
the ledger: each gives the entry that was put last under its key, if there is no time to live or the
age of the entry does not exceed it, and nothing otherwise. Each pruning in the history could as
well be left out: all lookups have the same answers then. It says by how much the size of the table
decreases, and leaves the table as it is if there is no time to live. -/
theorem serveAll_refines_ledger (ttl : Duration) (calls : List Call)
    (hclock : calls.Pairwise Call.Precedes) (htexts : ∀ c ∈ calls, c.IsText) :
    ∃ answers t, serveAll { ttl } calls = .ok (answers, t) ∧
      findsIn answers = Ledger.replies ttl (fun _ => none) calls ∧
      ∀ before now after, calls = before ++ .prune now :: after →
        (∃ answers' t', serveAll { ttl } (before ++ after) = .ok (answers', t') ∧
          findsIn answers' = findsIn answers) ∧
        ∃ earlier later t₁ t₂ n k, serveAll { ttl } before = .ok (earlier, t₁) ∧
          t₁.prune now = .ok (t₂, n) ∧ answers = earlier ++ .pruned n :: later ∧
          t₁.size = .ok (n + k) ∧ t₂.size = .ok k ∧ (ttl ≤ 0 → t₂ = t₁) := by
  obtain ⟨answers, t, hserve, -, hfinds⟩ := tracks_serveAll ttl hclock htexts
  refine ⟨answers, t, hserve, hfinds, ?_⟩
  rintro before now after rfl
  have hless : (before ++ after).Sublist (before ++ .prune now :: after) :=
    (List.sublist_cons_self _ _).append_left before
  constructor
  · obtain ⟨answers', t', hserve', -, hfinds'⟩ := tracks_serveAll ttl (hclock.sublist hless)
      fun c hc => htexts c (hless.subset hc)
    refine ⟨answers', t', hserve', ?_⟩
    rw [hfinds', hfinds, Ledger.replies_prune]
  · obtain ⟨earlier, t₁, hbefore, ht₁, -⟩ := tracks_serveAll ttl
      (hclock.sublist (List.sublist_append_left before _))
      fun c hc => htexts c (List.mem_append_left _ hc)
    obtain ⟨t₂, n, k, hprune, hsize, hsize', hsame⟩ := size_of_prune ht₁.opened now
    obtain ⟨later, hanswers⟩ := answers_prune hbefore hprune hserve
    rw [ht₁.ttl_eq] at hsame
    exact ⟨earlier, later, t₁, t₂, n, k, hbefore, hprune, hanswers, hsize, hsize', hsame⟩

end Tracking

/-- Calls around the end of the time to live: at 1.6 seconds an entry is too old for a lookup, but
not yet for pruning. -/
def history : List Call :=
  [.put (.ofMillis 900) (utf8 "a") { infer := true }, .get (.ofMillis 1400) (utf8 "a"),
    .prune (.ofMillis 1600), .get (.ofMillis 1600) (utf8 "a"),
    .put (.ofMillis 2200) (utf8 "b") {}, .prune (.ofMillis 2600), .get (.ofMillis 2600) (utf8 "b"),
    .get (.ofMillis 2600) (utf8 "a")]

/-- With a time to live of one and a half seconds, the first entry is found once. -/
theorem serveAll_history :
    history.Pairwise Call.Precedes ∧ (∀ c ∈ history, c.IsText) ∧
      ∃ answers t, serveAll { ttl := 1500000000 } history = .ok (answers, t) ∧
        findsIn answers = [some { infer := true }, none, some {}, none] := by
  have hclock : history.Pairwise Call.Precedes := by
    have hages : history.Pairwise fun a b =>
        a.time ≤ b.time ∧ b.time.age a.time ≤ Int64.maxValue.toInt := by decide
    refine hages.imp fun {a b} h => ⟨h.1, ?_⟩
    rintro put key e rfl
    exact h.2
  have htexts : ∀ c ∈ history, c.IsText := by simp [history, Call.IsText]
  obtain ⟨answers, t, hserve, hfinds, -⟩ := serveAll_refines_ledger 1500000000 history hclock htexts
  have hreplies : Ledger.replies 1500000000 (fun _ => none) history =
      [some { infer := true }, none, some {}, none] := by cbv
  exact ⟨hclock, htexts, answers, t, hserve, hfinds.trans hreplies⟩

end Table

end LintPool.Cache
