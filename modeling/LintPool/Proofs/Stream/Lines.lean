import LintPool.Stream.LineBuffer
import Mathlib.Data.List.TakeWhile

/-!
# A buffer hands out the lines of a stream

Whatever the reads that a stream comes in by, a buffer hands out the lines before the first one that
does not fit in together with its newline, and reports whether there is such a line. The bytes that
are held and those still to be read are the rest of the stream; no operation on the buffer changes
them, and taking a line takes the first line of this rest.

## Main results

* `LintPool.Bytes.lines_append` : the lines of a text that starts with a whole line.
* `LintPool.Stream.LineBuffer.scan_eq` : the lines that a buffer hands out.
* `LintPool.Stream.flatten_pieces` : cutting a text loses nothing.
-/

namespace LintPool

/-! ## Lines of a text -/

namespace Bytes

section Lines

variable {sep : UInt8} {a b s : Bytes}

/-- The finished parts stand before the others. -/
lemma splitOnAux_append (part : Bytes) (parts parts' : List Bytes) (s : Bytes) :
    splitOnAux sep part (parts ++ parts') s = parts'.reverse ++ splitOnAux sep part parts s := by
  induction s generalizing part parts with
  | nil => rw [splitOnAux, splitOnAux, ← List.cons_append, List.reverse_append]
  | cons b s ih =>
    rw [splitOnAux, splitOnAux]
    split
    · exact ih [] (part.reverse :: parts)
    · exact ih (b :: part) parts

/-- Bytes other than the separator go into the current part. -/
lemma splitOnAux_of_notMem (ha : sep ∉ a) (part : Bytes) (parts : List Bytes) (s : Bytes) :
    splitOnAux sep part parts (a ++ s) = splitOnAux sep (a.reverse ++ part) parts s := by
  induction a generalizing part with
  | nil => rfl
  | cons b a ih =>
    obtain ⟨hb, ha⟩ := not_or.mp (mt List.mem_cons.mpr ha)
    rw [List.cons_append, splitOnAux, if_neg fun h => hb h.symm, ih ha, List.reverse_cons,
      List.append_assoc, List.singleton_append]

/-- A text without the separator is one part. -/
lemma splitOn_of_notMem (ha : sep ∉ a) : splitOn sep a = [a] := by
  have hparts := splitOnAux_of_notMem ha [] [] []
  rw [List.append_nil, List.append_nil] at hparts
  rw [splitOn, hparts, splitOnAux, List.reverse_reverse]
  rfl

/-- The first part of a text ends at the first separator. -/
lemma splitOn_append (ha : sep ∉ a) (b : Bytes) :
    splitOn sep (a ++ sep :: b) = a :: splitOn sep b := by
  rw [splitOn, splitOnAux_of_notMem ha, splitOnAux, if_pos rfl, List.append_nil,
    List.reverse_reverse]
  exact splitOnAux_append [] [] [a] b

/-- A text has a first part, whose end is either that of the text or followed by a separator. -/
lemma cases_splitOn (sep : UInt8) (s : Bytes) :
    sep ∉ s ∨ ∃ a b, sep ∉ a ∧ s = a ++ sep :: b := by
  induction s with
  | nil => exact .inl List.not_mem_nil
  | cons c s ih =>
    by_cases hc : c = sep
    · exact .inr ⟨[], s, List.not_mem_nil, hc ▸ rfl⟩
    · have hcons : ∀ {a : Bytes}, sep ∉ a → sep ∉ c :: a :=
        fun ha hmem => (List.mem_cons.mp hmem).elim (fun h => hc h.symm) ha
      rcases ih with hs | ⟨a, b, ha, rfl⟩
      · exact .inl (hcons hs)
      · exact .inr ⟨c :: a, b, hcons ha, rfl⟩

/-- There is always a part. -/
lemma splitOn_ne_nil (sep : UInt8) (s : Bytes) : splitOn sep s ≠ [] := by
  rcases cases_splitOn sep s with hs | ⟨a, b, ha, rfl⟩
  · rw [splitOn_of_notMem hs]
    exact List.cons_ne_nil _ _
  · rw [splitOn_append ha]
    exact List.cons_ne_nil _ _

/-- A text without newline is its only line, if it is not empty. -/
lemma lines_of_notMem (hs : byte '\n' ∉ s) : lines s = if s.isEmpty then [] else [s] := by
  rw [lines, splitOn_of_notMem hs]
  cases s with
  | nil => rfl
  | cons a s => rfl

/-- **The lines of a text that starts with a whole line.** -/
theorem lines_append (ha : byte '\n' ∉ a) (b : Bytes) :
    lines (a ++ byte '\n' :: b) = a :: lines b := by
  have hlast : (a :: splitOn (byte '\n') b).getLast? = (splitOn (byte '\n') b).getLast? :=
    List.getLast?_cons_of_ne_nil (splitOn_ne_nil _ b)
  rw [lines, splitOn_append ha, hlast, lines]
  split
  · exact List.dropLast_cons_of_ne_nil (splitOn_ne_nil _ b)
  · rfl

/-- What stands before all newlines of a text stands at the start of its first line. -/
lemma lines_of_prefix (ha : byte '\n' ∉ a) (hne : a ≠ []) (s : Bytes) :
    ∃ t ls, lines (a ++ s) = (a ++ t) :: ls := by
  have hcons : ∀ {b : Bytes}, byte '\n' ∉ b → byte '\n' ∉ a ++ b :=
    fun hb hmem => (List.mem_append.mp hmem).elim ha hb
  rcases cases_splitOn (byte '\n') s with hs | ⟨b, c, hb, rfl⟩
  · have hempty : (a ++ s).isEmpty = false := by
      rw [Bool.eq_false_iff, ne_eq, List.isEmpty_iff, List.append_eq_nil_iff]
      exact fun h => hne h.1
    refine ⟨s, [], ?_⟩
    rw [lines_of_notMem (hcons hs), hempty]
    rfl
  · refine ⟨b, lines c, ?_⟩
    rw [← List.append_assoc, lines_append (hcons hb)]

end Lines

end Bytes

/-! ## The buffer -/

namespace Stream

/-- **Cutting a text into pieces loses nothing.** -/
theorem flatten_pieces (cuts : List Nat) (s : Bytes) : (pieces cuts s).flatten = s := by
  induction cuts generalizing s with
  | nil => exact List.flatten_singleton
  | cons n cuts ih => rw [pieces, List.flatten_cons, ih, List.take_append_drop]

/-- What a buffer of a greatest size hands out of a text: the lines before the first one that does
not fit in with its newline. -/
def scanned (limit : Nat) (acc : List Bytes) (s : Bytes) : Scanned where
  lines := acc.reverse ++ (Bytes.lines s).takeWhile (·.length < limit)
  overflow := (Bytes.lines s).any (limit ≤ ·.length)

section Scanned

variable {limit : Nat} {a : Bytes}

/-- A whole line that fits in is handed out first. -/
lemma scanned_append (ha : byte '\n' ∉ a) (hlength : a.length < limit) (acc : List Bytes)
    (s : Bytes) : scanned limit acc (a ++ byte '\n' :: s) = scanned limit (a :: acc) s := by
  simp only [scanned, Bytes.lines_append ha, List.takeWhile_cons, List.any_cons, hlength,
    Nat.not_le.mpr hlength, decide_true, decide_false, if_true, Bool.false_or, List.reverse_cons,
    List.append_assoc, List.singleton_append]

/-- The start of a line that does not fit in ends the reading. -/
lemma scanned_of_full (ha : byte '\n' ∉ a) (hpos : 0 < limit) (hlength : a.length = limit)
    (acc : List Bytes) (s : Bytes) :
    scanned limit acc (a ++ s) = { lines := acc.reverse, overflow := true } := by
  have hne : a ≠ [] := List.ne_nil_of_length_pos (by omega)
  obtain ⟨t, ls, hlines⟩ := Bytes.lines_of_prefix ha hne s
  have hle : limit ≤ (a ++ t).length := by
    rw [List.length_append]
    omega
  simp only [scanned, hlines, List.takeWhile_cons, List.any_cons, hle, Nat.not_lt.mpr hle,
    decide_true, decide_false, Bool.true_or, Bool.false_eq_true, if_false, List.append_nil]

/-- A last line without newline is handed out if it fits in and is not empty. -/
lemma scanned_last (ha : byte '\n' ∉ a) (hlength : a.length < limit) (acc : List Bytes) :
    scanned limit acc a =
      { lines := (if a.isEmpty then acc else a :: acc).reverse, overflow := false } := by
  rw [scanned, Bytes.lines_of_notMem ha]
  split
  · rw [List.takeWhile_nil, List.append_nil]
    rfl
  · simp only [List.takeWhile_cons, List.any_cons, hlength, Nat.not_le.mpr hlength, decide_true,
      decide_false, if_true, Bool.false_or, List.reverse_cons, List.takeWhile_nil, List.any_nil]

end Scanned

namespace LineBuffer

section Buffer

variable {limit : Nat} {b b' : LineBuffer limit} {line : Bytes}

/-- What is held fits in the greatest buffer. -/
lemma length_held_le (b : LineBuffer limit) : b.held.length ≤ limit := by
  have hfits := b.fits
  have hsize := b.size_le
  omega

/-- What is held does not fill the greatest buffer as long as there is room. -/
lemma length_held_lt (hfree : 0 < b.free) : b.held.length < limit := by
  have hsize := b.size_le
  rw [free] at hfree
  omega

/-- The greatest buffer is not empty. -/
lemma limit_pos (b : LineBuffer limit) : 0 < limit := Nat.lt_of_lt_of_le b.size_pos b.size_le

/-- What is handed out is taken from the front of what is held. -/
@[simp] lemma held_handOut (b : LineBuffer limit) (n : Nat) : (b.handOut n).held = b.held.drop n :=
  rfl

/-- The next line is what is held before the first newline. -/
lemma held_of_line? (h : b.line? = some (line, b')) :
    byte '\n' ∉ line ∧ b.held = line ++ byte '\n' :: b'.held := by
  unfold line? at h
  dsimp only at h
  split at h
  · rename_i hlt
    cases h
    refine ⟨fun hmem => ?_, ?_⟩
    · have hall := List.mem_takeWhile_imp hmem
      simp at hall
    · have hsplit := List.takeWhile_append_dropWhile (p := (· != byte '\n')) (l := b.held)
      have hhead := List.head?_dropWhile_not (· != byte '\n') b.held
      generalize b.held.takeWhile (· != byte '\n') = line at hlt hsplit
      cases hrest : b.held.dropWhile (· != byte '\n') with
      | nil =>
        rw [hrest, List.append_nil] at hsplit
        exact absurd hlt (by rw [hsplit]; omega)
      | cons c rest =>
        rw [hrest] at hsplit hhead
        obtain rfl : c = byte '\n' := by simpa using hhead
        rw [held_handOut, ← hsplit, List.drop_length_add_append]
        rfl
  · cases h

/-- There is no next line as long as no newline is held. -/
lemma notMem_of_line? (h : b.line? = none) : byte '\n' ∉ b.held := by
  unfold line? at h
  dsimp only at h
  split at h
  · cases h
  · rename_i hle
    have hall := (List.takeWhile_prefix (· != byte '\n')).eq_of_length_le (Nat.not_lt.mp hle)
    intro hmem
    rw [← hall] at hmem
    have hne := List.mem_takeWhile_imp hmem
    simp at hne

/-- A read is held behind what was held before, as far as there is room. -/
@[simp] lemma held_fill (b : LineBuffer limit) (read : Bytes) :
    (b.fill read).held = b.held ++ read.take b.free := rfl

/-- No room can be made only if the greatest buffer is full. -/
lemma length_of_makeRoom? (h : b.makeRoom? = none) : b.held.length = limit := by
  unfold makeRoom? at h
  split at h
  · cases h
  split at h
  · cases h
  · rename_i hgrow
    have hsize := b.shift.size_le
    have hpos := b.shift.size_pos
    have hfits := b.shift.fits
    rw [held_shift] at hfits
    simp only [free, grow, held_shift] at hgrow
    omega

/-- **A buffer hands out the lines of a stream**, whatever the reads that it comes in by.

**Proof sketch.** Along the reading, what is held and what is still to be read make up the rest of
the stream. A line is taken off this rest; making room and filling leave it as it is; and if no room
can be made, what is held is the start of a line that is too long. -/
theorem scan_eq (b : LineBuffer limit) (acc reads : List Bytes) :
    b.scan acc reads = scanned limit acc (b.held ++ reads.flatten) := by
  fun_induction b.scan acc reads with
  | case1 b acc reads line b' hline ih =>
    obtain ⟨hnewline, hheld⟩ := held_of_line? hline
    have hlength : line.length < limit := by
      have hle := b.length_held_le
      rw [hheld, List.length_append, List.length_cons] at hle
      omega
    rw [ih, hheld, List.append_assoc, List.cons_append, scanned_append hnewline hlength]
  | case2 b acc reads hline hroom =>
    exact (scanned_of_full (notMem_of_line? hline) b.limit_pos
      (length_of_makeRoom? hroom) acc reads.flatten).symm
  | case3 b acc hline b' hfree hroom =>
    have hheld : b'.held = b.held := held_of_makeRoom? hroom
    have hnewline := notMem_of_line? hline
    rw [← hheld] at hnewline ⊢
    rw [List.flatten_nil, List.append_nil, scanned_last hnewline (length_held_lt hfree)]
  | case4 b acc hline b' hfree reads hroom ih =>
    have hheld : b'.held = b.held := held_of_makeRoom? hroom
    rw [ih, hheld, List.flatten_cons, List.nil_append]
  | case5 b acc hline b' hfree x read reads hroom ih =>
    have hheld : b'.held = b.held := held_of_makeRoom? hroom
    rw [ih, held_fill, hheld, List.flatten_cons, List.flatten_cons, List.append_assoc,
      ← List.append_assoc (List.take _ _), List.take_append_drop]

end Buffer

end LineBuffer

end Stream

end LintPool
