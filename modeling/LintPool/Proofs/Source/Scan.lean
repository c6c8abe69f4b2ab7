import LintPool.Source.Scan
import Mathlib.Data.List.Infix

/-!
# What scanning finds

Everything that a search finds in a text was found at the place that its offset and line tell, and
what is found later stands behind it. Words are found in spellings of their own: each letter in
either case, and the letter s also as the long s. Lower case gives the word back unless there is a
long s in the spelling.

## Main definitions

* `LintPool.Source.Position.after` : the position behind a text.
* `LintPool.Source.Precedes` : one thing that is found ends before another one starts.
* `LintPool.Source.Spells` : the spellings of a word.
* `LintPool.Source.HasLongS` : there is a long s in a text.

## Main results

* `LintPool.Source.exists_of_mem_scan` : where things are found.
* `LintPool.Source.pairwise_scan` : they are found in order.
* `LintPool.Source.spells_of_word?` : words are found in their spellings.
* `LintPool.Source.Spells.lower_eq_iff` : which spellings lower case gives the word back of.
-/

namespace LintPool.Source

/-! ## Places -/

section Places

variable {α : Type} {find? : Option UInt8 → Bytes → Option (α × Nat)} {hit : Hit α}

/-- The position behind a text. -/
def Position.after (s : Bytes) : Position := s.foldl Position.next {}

/-- The position behind one more byte. -/
lemma Position.after_concat (s : Bytes) (b : UInt8) :
    Position.after (s ++ [b]) = (Position.after s).next b := by
  rw [after, List.foldl_append]
  rfl

/-- What a position tells about the text before it. -/
lemma Position.after_eq (s : Bytes) :
    (Position.after s).offset = s.length ∧ (Position.after s).line = s.count (byte '\n') + 1 ∧
      (Position.after s).before = s.getLast? := by
  induction s using List.reverseRecOn with
  | nil => exact ⟨rfl, rfl, rfl⟩
  | append_singleton s b ih =>
    obtain ⟨hoffset, hline, -⟩ := ih
    rw [Position.after_concat]
    refine ⟨by simp [Position.next, hoffset], ?_, by simp [Position.next]⟩
    by_cases hb : b = byte '\n'
    · simp [Position.next, hline, hb]
    · simp [Position.next, hline, hb]

/-- Where something was found: behind some text, with the rest of the text from there on. -/
structure FoundAt (find? : Option UInt8 → Bytes → Option (α × Nat)) (hit : Hit α)
    (before rest : Bytes) : Prop where
  offset_eq : hit.offset = before.length
  line_eq : hit.line = before.count (byte '\n') + 1
  found : ∃ length, find? before.getLast? rest = some (hit.value, length)

section Steps

variable {p : Position} {skip : Nat} {acc : List (Hit α)} {b : UInt8} {s : Bytes}

/-- A byte that is skipped. -/
lemma scanAux_skip :
    scanAux find? p (skip + 1) acc (b :: s) = scanAux find? (p.next b) skip acc s := rfl

/-- A position where nothing is found. -/
lemma scanAux_of_none (h : find? p.before (b :: s) = none) :
    scanAux find? p 0 acc (b :: s) = scanAux find? (p.next b) 0 acc s := by
  simp only [scanAux, h]

/-- A position where something is found. -/
lemma scanAux_of_some {value : α} {length : Nat}
    (h : find? p.before (b :: s) = some (value, length)) :
    scanAux find? p 0 acc (b :: s) =
      scanAux find? (p.next b) (length - 1) (⟨p.offset, p.line, value⟩ :: acc) s := by
  simp only [scanAux, h]

end Steps

/-- What a scan finds from a position on was found before or behind it. -/
lemma exists_of_mem_scanAux {done s : Bytes} {skip : Nat} {acc : List (Hit α)}
    (h : hit ∈ scanAux find? (Position.after done) skip acc s) :
    hit ∈ acc ∨ ∃ before rest, done ++ s = before ++ rest ∧ FoundAt find? hit before rest := by
  induction s generalizing done skip acc with
  | nil =>
    rw [scanAux] at h
    exact .inl (List.mem_reverse.mp h)
  | cons b s ih =>
    have hrest : done ++ b :: s = (done ++ [b]) ++ s := by simp
    cases skip with
    | succ skip =>
      rw [scanAux_skip, ← Position.after_concat] at h
      rw [hrest]
      exact ih h
    | zero =>
      obtain ⟨hoffset, hline, hbefore⟩ := Position.after_eq done
      cases hfind : find? (Position.after done).before (b :: s) with
      | none =>
        rw [scanAux_of_none hfind, ← Position.after_concat] at h
        rw [hrest]
        exact ih h
      | some found =>
        obtain ⟨value, length⟩ := found
        rw [scanAux_of_some hfind, ← Position.after_concat] at h
        rcases ih h with hacc | hlater
        · rcases List.mem_cons.mp hacc with rfl | hacc
          · right
            refine ⟨done, b :: s, rfl, hoffset, hline, length, ?_⟩
            rw [← hbefore]
            exact hfind
          · exact .inl hacc
        · rw [hrest]
          exact .inr hlater

/-- **Where things are found**: each of them behind the text that its offset and line tell. -/
theorem exists_of_mem_scan {s : Bytes} (h : hit ∈ scan find? s) :
    ∃ before rest, s = before ++ rest ∧ FoundAt find? hit before rest := by
  have hstart : hit ∈ scanAux find? (Position.after []) 0 [] s := h
  rcases exists_of_mem_scanAux hstart with hnone | hfound
  · cases hnone
  · exact hfound

/-! ## Order -/

section Steps

variable {p : Position} {skip : Nat} {s : Bytes}

/-- What was found before stands in front. -/
lemma scanAux_eq_append (p : Position) (skip : Nat) (acc : List (Hit α)) (s : Bytes) :
    scanAux find? p skip acc s = acc.reverse ++ scanAux find? p skip [] s := by
  induction s generalizing p skip acc with
  | nil => simp [scanAux]
  | cons b s ih =>
    cases skip with
    | succ skip => rw [scanAux_skip, scanAux_skip, ih]
    | zero =>
      cases hfind : find? p.before (b :: s) with
      | none => rw [scanAux_of_none hfind, scanAux_of_none hfind, ih]
      | some found =>
        rw [scanAux_of_some hfind, scanAux_of_some hfind, ih, ih _ _ [_]]
        simp

/-- Nothing is found before the position, nor in the bytes that are skipped. -/
lemma le_offset_of_mem_scanAux (h : hit ∈ scanAux find? p skip [] s) :
    p.offset + skip ≤ hit.offset := by
  induction s generalizing p skip with
  | nil => cases h
  | cons b s ih =>
    have hnext : (p.next b).offset = p.offset + 1 := rfl
    cases skip with
    | succ skip =>
      rw [scanAux_skip] at h
      have hle := ih h
      omega
    | zero =>
      cases hfind : find? p.before (b :: s) with
      | none =>
        rw [scanAux_of_none hfind] at h
        have hle := ih h
        omega
      | some found =>
        rw [scanAux_of_some hfind, scanAux_eq_append] at h
        rcases List.mem_cons.mp h with rfl | h
        · exact Nat.le_refl _
        · have hle := ih h
          omega

end Steps

/-- A hit ends before another one starts: it is not longer than what lies between their offsets. -/
def Precedes (find? : Option UInt8 → Bytes → Option (α × Nat)) (s : Bytes) (a b : Hit α) : Prop :=
  a.offset < b.offset ∧ ∀ before rest length, s = before ++ rest → before.length = a.offset →
    find? before.getLast? rest = some (a.value, length) → a.offset + length ≤ b.offset

/-- What a scan finds from a position on comes in order. -/
lemma pairwise_scanAux (done s : Bytes) (skip : Nat) :
    (scanAux find? (Position.after done) skip [] s).Pairwise (Precedes find? (done ++ s)) := by
  induction s generalizing done skip with
  | nil => exact .nil
  | cons b s ih =>
    have hrest : done ++ b :: s = (done ++ [b]) ++ s := by simp
    cases skip with
    | succ skip =>
      rw [scanAux_skip, ← Position.after_concat, hrest]
      exact ih _ _
    | zero =>
      obtain ⟨hoffset, -, hbefore⟩ := Position.after_eq done
      cases hfind : find? (Position.after done).before (b :: s) with
      | none =>
        rw [scanAux_of_none hfind, ← Position.after_concat, hrest]
        exact ih _ _
      | some found =>
        obtain ⟨value, length⟩ := found
        rw [scanAux_of_some hfind, scanAux_eq_append, ← Position.after_concat]
        refine .cons ?_ (hrest ▸ ih _ _)
        intro later hlater
        have hle := le_offset_of_mem_scanAux hlater
        obtain ⟨hnext, -, -⟩ := Position.after_eq (done ++ [b])
        rw [hnext, List.length_append, List.length_singleton] at hle
        refine ⟨by simp only [hoffset]; omega, ?_⟩
        -- there is one place with this offset, so the length is the one that was skipped
        intro before rest length' hcut hlength hfind'
        obtain ⟨rfl, rfl⟩ := List.append_inj hcut (by simp only [hlength, hoffset])
        rw [← hbefore, hfind, Option.some.injEq, Prod.mk.injEq] at hfind'
        obtain ⟨-, rfl⟩ := hfind'
        simp only [hoffset]
        omega

/-- **What a scan finds comes in order**: each hit starts behind the end of those before it. -/
theorem pairwise_scan (s : Bytes) : (scan find? s).Pairwise (Precedes find? s) :=
  pairwise_scanAux [] s 0

end Places

/-! ## Words -/

section Words

variable {letter b : UInt8} {word s text rest : Bytes}

/-- The long s. -/
def longS : Bytes := [0xC5, 0xBF]

/-- There is a long s in a text. -/
def HasLongS (s : Bytes) : Prop := longS <:+: s

instance (s : Bytes) : Decidable (HasLongS s) := inferInstanceAs (Decidable (longS <:+: s))

/-- The spellings of a word that is given in lower case: each letter in either case, and the letter
s also as the long s. -/
inductive Spells : (word text : Bytes) → Prop
  | nil : Spells [] []
  | letter {letter b : UInt8} {word text : Bytes} : Bytes.lowerByte b = letter →
      Spells word text → Spells (letter :: word) (b :: text)
  | long {word text : Bytes} : Spells word text → Spells (byte 's' :: word) (longS ++ text)

/-- A letter is found in one of its spellings. -/
lemma Spells.of_letter? {others : Bytes} (h : letter? letter s = some (text, rest))
    (hword : Spells word others) : Spells (letter :: word) (text ++ others) := by
  cases s with
  | nil => cases h
  | cons b s =>
    rw [letter?.eq_def] at h
    by_cases hb : Bytes.lowerByte b = letter
    · simp only [if_pos hb, Option.some.injEq, Prod.mk.injEq] at h
      rw [← h.1]
      exact .letter hb hword
    · simp only [if_neg hb] at h
      split at h
      · rename_i hlong
        obtain ⟨rfl, rfl⟩ := hlong
        cases s with
        | nil => cases h
        | cons c s =>
          by_cases hc : c = 0xBF
          · simp only [if_pos hc, Option.some.injEq, Prod.mk.injEq] at h
            rw [← h.1, hc]
            exact .long hword
          · simp only [if_neg hc] at h
            cases h
      · cases h

/-- **Words are found in their spellings.** -/
theorem spells_of_word? (h : word? word s = some (text, rest)) : Spells word text := by
  induction word generalizing s text rest with
  | nil =>
    obtain ⟨rfl, -⟩ := Prod.mk.inj (Option.some.inj h)
    exact .nil
  | cons letter word ih =>
    simp only [word?, Option.bind_eq_bind, Option.bind_eq_some_iff, Prod.exists] at h
    obtain ⟨first, s', hfirst, others, s'', hothers, htext⟩ := h
    obtain ⟨rfl, -⟩ := Prod.mk.inj (Option.some.inj htext)
    exact .of_letter? hfirst (ih hothers)

/-- One of some words is found in one of its spellings. -/
lemma exists_spells_of_anyWord? {words : List String}
    (h : anyWord? words s = some (text, rest)) : ∃ word ∈ words, Spells (utf8 word) text := by
  obtain ⟨word, hword, hfound⟩ := List.exists_of_findSome?_eq_some h
  exact ⟨word, hword, spells_of_word? hfound⟩

/-- What a spelling consists of in lower case: letters of the word, and long s. -/
lemma Spells.mem_lower (h : Spells word text) (hb : b ∈ text.map Bytes.lowerByte) :
    b ∈ word ∨ b ∈ longS := by
  induction h with
  | nil => cases hb
  | letter hletter _ ih =>
    rw [List.map_cons, hletter] at hb
    rcases List.mem_cons.mp hb with rfl | hb
    · exact .inl List.mem_cons_self
    · exact (ih hb).imp_left (List.mem_cons_of_mem _)
  | long _ ih =>
    have hstays : longS.map Bytes.lowerByte = longS := by decide
    rw [List.map_append, hstays] at hb
    rcases List.mem_append.mp hb with hb | hb
    · exact .inr hb
    · exact (ih hb).imp_left (List.mem_cons_of_mem _)

/-- A long s stays in lower case. -/
lemma mem_lower_of_hasLongS (h : HasLongS s) : 0xC5 ∈ s.map Bytes.lowerByte := by
  have hmem : (0xC5 : UInt8) ∈ s := h.subset (List.mem_cons_self)
  have hlower : Bytes.lowerByte 0xC5 = 0xC5 := by decide
  rw [← hlower]
  exact List.mem_map_of_mem hmem

/-- **Lower case gives a word back** of its spellings without a long s, and only of these. -/
theorem Spells.lower_eq_iff (h : Spells word text) (hword : 0xC5 ∉ word) :
    text.map Bytes.lowerByte = word ↔ ¬ HasLongS text := by
  constructor
  · intro hlower hlong
    apply hword
    rw [← hlower]
    exact mem_lower_of_hasLongS hlong
  · intro hlong
    induction h with
    | nil => rfl
    | letter hletter _ ih =>
      have hrest := ih (List.not_mem_of_not_mem_cons hword)
        (fun hmore => hlong (hmore.trans (List.suffix_cons _ _).isInfix))
      rw [List.map_cons, hletter, hrest]
    | long => exact absurd (List.prefix_append longS _).isInfix hlong

/-- A word without the letter s is not spelled with a long s. -/
lemma Spells.not_hasLongS (h : Spells word text) (hs : byte 's' ∉ word) (hword : 0xC5 ∉ word) :
    ¬ HasLongS text := by
  rw [← h.lower_eq_iff hword]
  induction h with
  | nil => rfl
  | letter hletter _ ih =>
    rw [List.map_cons, hletter,
      ih (List.not_mem_of_not_mem_cons hs) (List.not_mem_of_not_mem_cons hword)]
  | long => exact absurd List.mem_cons_self hs

end Words

end LintPool.Source
