import LintPool.Proofs.Rule.Construct
import LintPool.Proofs.Source.Mask
import Mathlib

/-!
# Findings point at the source

Rules look at masked text, and so the offsets and lines of what they find are counted there. As
masking moves nothing and keeps every line break, they hold for the source as well. A finding gives
the line of the keyword or the left literal that it is about; what stands there in the masked text
is no space, so it stands in the source too.

## Main definitions

* `LintPool.Rule.Sighting` : a finding with the place of the construct that it is about.
* `LintPool.Rule.Sighting.PointsAt` : the finding gives the line of its construct in the source.

## Main results

* `LintPool.Rule.exists_sightings` : the findings about what a scan found, with their places.
* `LintPool.Rule.findings_point_at_source` : every finding of an analysis points at the source.
-/

namespace LintPool

/-! ## Line breaks -/

namespace Source

/-- Line breaks are kept. -/
lemma count_newline_of_forall₂ {s t : Bytes} (h : List.Forall₂ Blanked s t) :
    t.count (byte '\n') = s.count (byte '\n') := by
  induction h with
  | nil => rfl
  | cons hb _ ih =>
    rcases hb with rfl | ⟨rfl, hb⟩
    · rw [List.count_cons, List.count_cons, ih]
    · have hspace : byte ' ' ≠ byte '\n' := by decide
      rw [List.count_cons_of_ne hspace, List.count_cons_of_ne hb, ih]

/-- There are as many line breaks before an offset of the source as of the masked source. -/
lemma count_newline_take_mask (s : Bytes) (offset : Nat) :
    ((mask s).take offset).count (byte '\n') = (s.take offset).count (byte '\n') :=
  count_newline_of_forall₂ (List.forall₂_take offset (forall₂_blanked_mask s))

/-- What is no space in the masked source stands in the source. -/
lemma getElem?_of_mask {s : Bytes} {i : Nat} {b : UInt8} (h : (mask s)[i]? = some b)
    (hb : b ≠ byte ' ') : s[i]? = some b := by
  rcases getElem?_mask s i with ⟨-, hnone⟩ | ⟨c, masked, hsource, hmasked, hblanked⟩
  · rw [hnone] at h
    cases h
  · rw [hmasked] at h
    obtain rfl := Option.some.inj h
    rcases hblanked with rfl | ⟨hspace, -⟩
    · exact hsource
    · exact absurd hspace hb

/-- There are no more line breaks before an earlier offset. -/
lemma count_newline_take_le (s : Bytes) {m n : Nat} (h : m ≤ n) :
    (s.take m).count (byte '\n') ≤ (s.take n).count (byte '\n') :=
  (List.take_sublist_take_left h).count_le _

end Source

namespace Rule

open Source

/-! ## Sightings -/

/-- A finding with the place of the construct that it is about. -/
structure Sighting where
  diagnostic : Diagnostic
  /-- The number of bytes before the construct. -/
  offset : Nat
  /-- The construct in the masked source. -/
  text : Bytes
  /-- The keyword or the left literal at its head. -/
  lead : Bytes

namespace Sighting

/-- A finding points at its construct: this stands at the offset in the masked source, and all of
its head that is no space stands there in the source. The finding is about the file, and its line is
the one of the offset in the source. -/
structure PointsAt (p : Sighting) (rule : Rule) (file source : Bytes) : Prop where
  construct : Construct rule p.text p.lead p.diagnostic.message
  stands : p.text <+: (mask source).drop p.offset
  head : ∃ b, p.lead.head? = some b ∧ source[p.offset]? = some b
  kept : ∀ i b, p.lead[i]? = some b → b ≠ byte ' ' → source[p.offset + i]? = some b
  isFileSpecific : p.diagnostic.isFileSpecific = true
  file_eq : p.diagnostic.file = file
  line_eq : ∃ line : Int64, p.diagnostic.line = some line ∧
    line.toInt = (source.take p.offset).count (byte '\n') + 1

/-- A construct starts behind the end of another one. -/
def Behind (q p : Sighting) : Prop := p.offset < q.offset ∧ p.offset + p.text.length ≤ q.offset

variable {p q : Sighting} {rule : Rule} {file source : Bytes}

/-- The line of a finding, as a number. -/
lemma PointsAt.toInt_lineKey (h : p.PointsAt rule file source) :
    p.diagnostic.lineKey.toInt = (source.take p.offset).count (byte '\n') + 1 := by
  obtain ⟨line, hline, heq⟩ := h.line_eq
  rw [Diagnostic.lineKey, hline]
  exact heq

/-- Constructs that come one behind the other are on lines in order. -/
lemma PointsAt.lineKey_le (hp : p.PointsAt rule file source) (hq : q.PointsAt rule file source)
    (h : q.Behind p) : p.diagnostic.lineKey ≤ q.diagnostic.lineKey := by
  have hcount := count_newline_take_le source h.1.le
  rw [Int64.le_iff_toInt_le, hp.toInt_lineKey, hq.toInt_lineKey]
  omega

end Sighting

/-! ## Findings of a scan -/

section Scanning

variable {α : Type} {find? : Option UInt8 → Bytes → Option (α × Nat)} {message? : α → Option Bytes}
  {lead : α → Bytes} {rule : Rule} {source : Bytes}

/-- The line of a finding that has a positive line. -/
lemma line_finding {n : Nat} (hpos : 0 < n) (hlt : n < 2 ^ 63) (file message : Bytes) :
    (Diagnostic.finding file (Int64.ofNat n) message).line = some (Int64.ofNat n) ∧
      (Int64.ofNat n).toInt = n := by
  have hvalue : (Int64.ofNat n).toInt = n := Int64.toInt_ofNat_of_lt hlt
  refine ⟨?_, hvalue⟩
  rw [Diagnostic.finding, if_pos]
  rw [Int64.lt_iff_toInt_lt, hvalue]
  exact Int.natCast_pos.mpr hpos

/-- **A finding about what was found points at the source.** -/
lemma pointsAt_of_foundAt (file : Bytes) (hsize : source.length < 2 ^ 63) {hit : Hit α}
    {before rest text others message : Bytes} (hcut : mask source = before ++ rest)
    (hfound : FoundAt find? hit before rest) (hrest : rest = text ++ others)
    (hconstruct : Construct rule text (lead hit.value) message) :
    Sighting.PointsAt
      ⟨.finding file (Int64.ofNat hit.line) message, hit.offset, text, lead hit.value⟩
      rule file source := by
  have hdrop : (mask source).drop hit.offset = text ++ others := by
    rw [hfound.offset_eq, hcut, List.drop_left, hrest]
  obtain ⟨tail, htail⟩ := hconstruct.exists_eq_append
  have hkept : ∀ i b, (lead hit.value)[i]? = some b → b ≠ byte ' ' →
      source[hit.offset + i]? = some b := by
    intro i b hlead hb
    apply getElem?_of_mask _ hb
    rw [← List.getElem?_drop, hdrop, htail, List.append_assoc]
    exact List.getElem?_append_left (List.getElem?_eq_some_iff.mp hlead).1 ▸ hlead
  obtain ⟨b, hhead, hb⟩ := hconstruct.head_ne_space
  have hline : hit.line = (source.take hit.offset).count (byte '\n') + 1 := by
    rw [hfound.line_eq, ← count_newline_take_mask, hfound.offset_eq, hcut, List.take_left]
  -- the construct is not empty, so there are fewer line breaks before it than bytes
  have hlt : hit.line < 2 ^ 63 := by
    have hcount := (source.take hit.offset).count_le_length (a := byte '\n')
    have hbound : hit.offset < source.length := by
      rw [List.head?_eq_getElem?] at hhead
      exact (List.getElem?_eq_some_iff.mp (hkept 0 b hhead hb)).1
    rw [List.length_take] at hcount
    omega
  obtain ⟨hfinding, hvalue⟩ := line_finding (by omega) hlt file message
  refine ⟨hconstruct, ?_, ⟨b, hhead, ?_⟩, hkept, rfl, rfl, Int64.ofNat hit.line, hfinding, ?_⟩
  · rw [hdrop]
    exact List.prefix_append _ _
  · rw [List.head?_eq_getElem?] at hhead
    exact hkept 0 b hhead hb
  · rw [hvalue, hline]
    push_cast
    rfl

/-- **The findings about what a scan found**, with their places.

**Proof sketch.** By induction on what was found. A finding about the first hit points at the place
of this hit, and the other findings are about hits behind its end. -/
theorem exists_sightings (file : Bytes) (hsize : source.length < 2 ^ 63)
    (hfind : ∀ before s a length message, find? before s = some (a, length) →
      message? a = some message → ∃ text rest, s = text ++ rest ∧ text.length = length ∧
        Construct rule text (lead a) message)
    {hits : List (Hit α)}
    (hfound : ∀ hit ∈ hits, ∃ before rest, mask source = before ++ rest ∧
      FoundAt find? hit before rest)
    (horder : hits.Pairwise (Precedes find? (mask source))) :
    ∃ sightings : List Sighting,
      sightings.map (·.diagnostic) = hits.filterMap (finding? file message?) ∧
      (∀ p ∈ sightings, p.PointsAt rule file source ∧ ∃ hit ∈ hits, hit.offset = p.offset) ∧
      sightings.Pairwise fun p q => q.Behind p := by
  induction hits with
  | nil => exact ⟨[], rfl, List.forall_mem_nil _, .nil⟩
  | cons hit hits ih =>
    obtain ⟨hbehind, horder⟩ := List.pairwise_cons.mp horder
    obtain ⟨hhit, hothers⟩ := List.forall_mem_cons.mp hfound
    obtain ⟨sightings, hmap, hpoints, hpairwise⟩ := ih hothers horder
    have hpoints' : ∀ p ∈ sightings, p.PointsAt rule file source ∧
        ∃ other ∈ hit :: hits, other.offset = p.offset := by
      intro p hp
      obtain ⟨hp, other, hother, heq⟩ := hpoints p hp
      exact ⟨hp, other, List.mem_cons_of_mem _ hother, heq⟩
    cases hmessage : message? hit.value with
    | none =>
      refine ⟨sightings, ?_, hpoints', hpairwise⟩
      rw [hmap, List.filterMap_cons_none]
      rw [finding?, hmessage]
      rfl
    | some message =>
      obtain ⟨before, rest, hcut, hplace⟩ := hhit
      obtain ⟨length, hvalue⟩ := hplace.found
      obtain ⟨text, others, hrest, hlength, hconstruct⟩ :=
        hfind _ _ _ _ _ hvalue hmessage
      have hfirst := pointsAt_of_foundAt file hsize hcut hplace hrest hconstruct
      refine ⟨_ :: sightings, ?_, List.forall_mem_cons.mpr ⟨⟨hfirst, hit, List.mem_cons_self, rfl⟩,
        hpoints'⟩, List.pairwise_cons.mpr ⟨?_, hpairwise⟩⟩
      · rw [List.map_cons, hmap, List.filterMap_cons_some]
        rw [finding?, hmessage]
        rfl
      · intro p hp
        obtain ⟨-, other, hother, heq⟩ := hpoints p hp
        obtain ⟨hlt, hend⟩ := hbehind other hother
        have hle := hend before rest length hcut hplace.offset_eq.symm hvalue
        refine ⟨heq ▸ hlt, ?_⟩
        simp only [hlength, ← heq]
        exact hle

end Scanning

/-! ## Findings of an analysis -/

section Analysis

variable {source : Bytes}

/-- The findings of a rule, with their places. -/
lemma exists_sightings_findings (hsize : source.length < 2 ^ 63) (file : Bytes) (rule : Rule) :
    ∃ sightings : List Sighting,
      sightings.map (·.diagnostic) = findings file (mask source) rule ∧
      (∀ p ∈ sightings, p.PointsAt rule file source) ∧
      sightings.Pairwise fun p q => q.Behind p := by
  cases rule with
  | constantCondition =>
    obtain ⟨sightings, hmap, hpoints, hpairwise⟩ := exists_sightings file hsize
      (fun _ _ _ _ _ => Condition.exists_construct_of_find?)
      (fun _ hhit => exists_of_mem_scan hhit) (pairwise_scan (mask source))
    exact ⟨sightings, hmap, fun p hp => (hpoints p hp).1, hpairwise⟩
  | strictComparison =>
    obtain ⟨sightings, hmap, hpoints, hpairwise⟩ := exists_sightings file hsize
      (fun _ _ _ _ _ => Comparison.exists_construct_of_find?)
      (fun _ hhit => exists_of_mem_scan hhit) (pairwise_scan (mask source))
    exact ⟨sightings, hmap, fun p hp => (hpoints p hp).1, hpairwise⟩

/-- **Findings point at the source.** The analysis of a text, which has fewer than 2 ^ 63 bytes,
comes to the findings of each rule of the level in turn. Every finding is about a construct at some
offset and gives its line in the source, which is counted from one; and the findings of a rule come
in the order of their constructs, so in the order of their lines. -/
theorem findings_point_at_source (hsize : source.length < 2 ^ 63) (level : Int64) (file : Bytes) :
    ∃ found, analyse level false file (.ok source) = .ok found ∧
      found.diagnostics = (all.filter (·.level ≤ level)).flatMap (findings file (mask source)) ∧
      (∀ rule, ∃ sightings : List Sighting,
        sightings.map (·.diagnostic) = findings file (mask source) rule ∧
        (∀ p ∈ sightings, p.PointsAt rule file source) ∧
        sightings.Pairwise fun p q => q.Behind p) ∧
      (∀ rule, (findings file (mask source) rule).Pairwise fun a b => a.lineKey ≤ b.lineKey) ∧
      ∀ d ∈ found.diagnostics, d.isFileSpecific = true ∧ d.file = file ∧ d.line.isSome = true ∧
        1 ≤ d.lineKey.toInt ∧ d.lineKey.toInt ≤ source.count (byte '\n') + 1 := by
  refine ⟨analyseText level file source, rfl, rfl, exists_sightings_findings hsize file, ?_, ?_⟩
  · intro rule
    obtain ⟨sightings, hmap, hpoints, hpairwise⟩ := exists_sightings_findings hsize file rule
    rw [← hmap, List.pairwise_map]
    exact hpairwise.imp_of_mem fun hp hq hbehind =>
      (hpoints _ hp).lineKey_le (hpoints _ hq) hbehind
  · intro d hd
    obtain ⟨rule, -, hd⟩ := List.mem_flatMap.mp hd
    obtain ⟨sightings, hmap, hpoints, -⟩ := exists_sightings_findings hsize file rule
    rw [← hmap] at hd
    obtain ⟨p, hp, rfl⟩ := List.mem_map.mp hd
    have hp := hpoints p hp
    obtain ⟨line, hline, -⟩ := hp.line_eq
    have hcount := (List.take_sublist p.offset source).count_le (byte '\n')
    refine ⟨hp.isFileSpecific, hp.file_eq, by rw [hline]; rfl, ?_, ?_⟩
    · rw [hp.toInt_lineKey]
      omega
    · rw [hp.toInt_lineKey]
      omega

/-- A source with a comment over two lines, and with a condition and a comparison that go on behind
the end of a line. -/
def scatteredSource : Bytes := utf8 "/* a\n */ if\n (FALSE) {}\n\n-1.5\n=== 'x';"

/-- The finding about the condition gives the line of its keyword, and the one about the comparison
that of the left literal. -/
theorem findings_of_scatteredSource :
    scatteredSource.length < 2 ^ 63 ∧
      (∃ found, analyse 9 false (utf8 "a.php") (.ok scatteredSource) = .ok found ∧
        found.diagnostics.map (·.line) = [some 2, some 5]) ∧
      (∃ p : Sighting, p.diagnostic.line = some 2 ∧
        p.PointsAt .constantCondition (utf8 "a.php") scatteredSource) ∧
      ∃ p : Sighting, p.diagnostic.line = some 5 ∧
        p.PointsAt .strictComparison (utf8 "a.php") scatteredSource := by
  have hsize : scatteredSource.length < 2 ^ 63 := by decide
  obtain ⟨found, hfound, hdiagnostics, hsightings, -, -⟩ :=
    findings_point_at_source hsize 9 (utf8 "a.php")
  have hconditions : (findings (utf8 "a.php") (mask scatteredSource) .constantCondition).map
      (·.line) = [some 2] := by decide
  have hcomparisons : (findings (utf8 "a.php") (mask scatteredSource) .strictComparison).map
      (·.line) = [some 5] := by decide
  have hlines : ∀ rule line,
      (findings (utf8 "a.php") (mask scatteredSource) rule).map (·.line) = [some line] →
      ∃ p : Sighting, p.diagnostic.line = some line ∧
        p.PointsAt rule (utf8 "a.php") scatteredSource := by
    intro rule line hline
    obtain ⟨sightings, hmap, hpoints, -⟩ := hsightings rule
    rw [← hmap, List.map_map] at hline
    have hmem := List.mem_singleton_self (some line)
    rw [← hline] at hmem
    obtain ⟨p, hp, heq⟩ := List.mem_map.mp hmem
    exact ⟨p, heq, hpoints p hp⟩
  refine ⟨hsize, ⟨found, hfound, ?_⟩, hlines _ _ hconditions, hlines _ _ hcomparisons⟩
  have hrules : all.filter (·.level ≤ 9) = [.constantCondition, .strictComparison] := by decide
  rw [hdiagnostics, hrules, List.map_flatMap, List.flatMap_cons, List.flatMap_singleton,
    hconditions, hcomparisons]
  rfl

end Analysis

end Rule

end LintPool
