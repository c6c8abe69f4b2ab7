import LintPool.Proofs.Source.Mask

/-!
# Where block comments end

A block comment ends behind the first closing pair that starts behind its first byte. So the star of
the opening pair may belong to the closing pair as well, and `/*/` is a whole comment. Apart from
that, a comment ends behind the first closing pair that starts behind its opening pair.

## Main definitions

* `LintPool.Source.OpensAt`, `LintPool.Source.ClosesAt` : the pairs around a block comment.
* `LintPool.Source.EndsAt` : the end of a comment whose closing pair is looked for from an offset
  on.

## Main results

* `LintPool.Source.maskFrom_blockComment` : what masking does to the rest of a block comment.
* `LintPool.Source.mask_block_comment` : what masking does to a block comment.
* `LintPool.Source.block_comment_cut_short` : a comment that ends too early.
-/

namespace LintPool.Source

/-- The pair that opens a block comment stands at an offset. -/
def OpensAt (s : Bytes) (i : Nat) : Prop := s[i]? = some (byte '/') ∧ s[i + 1]? = some (byte '*')

/-- The pair that closes a block comment stands at an offset. -/
def ClosesAt (s : Bytes) (i : Nat) : Prop := s[i]? = some (byte '*') ∧ s[i + 1]? = some (byte '/')

instance (s : Bytes) (i : Nat) : Decidable (OpensAt s i) := inferInstanceAs (Decidable (_ ∧ _))

instance (s : Bytes) (i : Nat) : Decidable (ClosesAt s i) := inferInstanceAs (Decidable (_ ∧ _))

/-- The end of a block comment whose closing pair is looked for from an offset on: it is right
behind the first such pair, or at the end of the source if there is none. -/
def EndsAt (s : Bytes) (start stop : Nat) : Prop :=
  (∃ i, start ≤ i ∧ ClosesAt s i ∧ (∀ j, start ≤ j → j < i → ¬ ClosesAt s j) ∧ stop = i + 2) ∨
    ((∀ j, start ≤ j → ¬ ClosesAt s j) ∧ stop = s.length)

section Ends

variable {b : UInt8} {s : Bytes} {i start stop : Nat}

/-- A closing pair in the rest of a text. -/
lemma closesAt_drop : ClosesAt (s.drop start) i ↔ ClosesAt s (start + i) := by
  simp [ClosesAt, Nat.add_assoc]

/-- The end of a comment, seen from an offset of the source. -/
lemma EndsAt.of_drop (h : EndsAt (s.drop start) 0 stop) (hstart : start ≤ s.length) :
    EndsAt s start (start + stop) := by
  rcases h with ⟨i, -, hclose, hfirst, rfl⟩ | ⟨hnone, rfl⟩
  · left
    refine ⟨start + i, by omega, closesAt_drop.mp hclose, ?_, by omega⟩
    intro j hj hlt
    obtain ⟨k, rfl⟩ := Nat.exists_eq_add_of_le hj
    intro hj'
    exact hfirst k (by omega) (by omega) (closesAt_drop.mpr hj')
  · right
    refine ⟨?_, by simp; omega⟩
    intro j hj
    obtain ⟨k, rfl⟩ := Nat.exists_eq_add_of_le hj
    intro hj'
    exact hnone k (by omega) (closesAt_drop.mpr hj')

/-- Where there is no closing pair, it makes no difference whether one is looked for there. -/
lemma endsAt_succ_iff (hstart : ¬ ClosesAt s start) :
    EndsAt s (start + 1) stop ↔ EndsAt s start stop := by
  have hskip : ∀ j, start ≤ j → ClosesAt s j → start + 1 ≤ j := by
    intro j hj hclose
    have hne : j ≠ start := by
      rintro rfl
      exact hstart hclose
    omega
  constructor
  · rintro (⟨i, hi, hclose, hfirst, hstop⟩ | ⟨hnone, hstop⟩)
    · refine .inl ⟨i, by omega, hclose, ?_, hstop⟩
      intro j hj hlt hjclose
      exact hfirst j (hskip j hj hjclose) hlt hjclose
    · refine .inr ⟨?_, hstop⟩
      intro j hj hjclose
      exact hnone j (hskip j hj hjclose) hjclose
  · rintro (⟨i, hi, hclose, hfirst, hstop⟩ | ⟨hnone, hstop⟩)
    · exact .inl ⟨i, hskip i hi hclose, hclose, fun j hj => hfirst j (by omega), hstop⟩
    · exact .inr ⟨fun j hj => hnone j (by omega), hstop⟩

/-- Where there is a closing pair, the comment ends behind it. -/
lemma EndsAt.eq_of_closesAt (h : EndsAt s start stop) (hstart : ClosesAt s start) :
    stop = start + 2 := by
  rcases h with ⟨i, hi, hclose, hfirst, rfl⟩ | ⟨hnone, -⟩
  · have hle : i ≤ start := by
      by_contra hlt
      exact hfirst start (by omega) (by omega) hstart
    omega
  · exact absurd hstart (hnone start (by omega))

/-- Two closing pairs do not overlap. -/
lemma not_closesAt_succ (h : ClosesAt s i) : ¬ ClosesAt s (i + 1) := by
  intro hnext
  have hsame := h.2.symm.trans hnext.1
  exact absurd (Option.some.inj hsame) (by decide)

/-- Behind a closing pair at its end, a source has no other one. -/
lemma not_closesAt_of_length_le (hlength : s.length ≤ i + 1) : ¬ ClosesAt s i := by
  intro h
  have hlt := (List.getElem?_eq_some_iff.mp h.2).1
  omega

/-- **A comment ends at its real end** unless its opening pair overlaps with a closing pair that the
source goes on behind. -/
lemma endsAt_add_two_iff (hopen : OpensAt s i) (h : EndsAt s (i + 1) stop) :
    EndsAt s (i + 2) stop ↔ ¬ (s[i + 2]? = some (byte '/') ∧ i + 3 < s.length) := by
  by_cases hslash : s[i + 2]? = some (byte '/')
  · have hclose : ClosesAt s (i + 1) := ⟨hopen.2, hslash⟩
    obtain rfl := h.eq_of_closesAt hclose
    have hlength := (List.getElem?_eq_some_iff.mp hslash).1
    constructor
    · rintro (⟨j, hj, -, -, hstop⟩ | ⟨-, hstop⟩)
      · omega
      · omega
    · intro hend
      right
      have hlength : s.length = i + 3 := by
        by_contra hne
        exact hend ⟨hslash, by omega⟩
      refine ⟨?_, by omega⟩
      intro j hj
      by_cases hj' : j = i + 2
      · subst hj'
        exact not_closesAt_succ hclose
      · exact not_closesAt_of_length_le (by omega)
  · have hclose : ¬ ClosesAt s (i + 1) := fun hclose => hslash hclose.2
    simp [hslash, (endsAt_succ_iff hclose).mpr h]

end Ends

/-! ## Masking -/

section Masking

variable {b : UInt8} {s : Bytes} {i : Nat}

/-- The closing pair is blanked out, and behind it is code. -/
lemma maskFrom_blockComment_close (s : Bytes) :
    maskFrom .blockComment (byte '*' :: byte '/' :: s) =
      byte ' ' :: byte ' ' :: maskFrom .code s := by
  rw [maskFrom_cons, maskFrom_cons]
  simp [Mode.step]

/-- A byte that does not start the closing pair is blanked out. -/
lemma maskFrom_blockComment_cons (h : ¬ ClosesAt (b :: s) 0) :
    maskFrom .blockComment (b :: s) = blank b :: maskFrom .blockComment s := by
  have hclose : ¬ (b = byte '*' ∧ s.head? = some (byte '/')) := by
    rintro ⟨rfl, hhead⟩
    exact h ⟨rfl, by simpa [List.head?_eq_getElem?] using hhead⟩
  rw [maskFrom_cons, Mode.step, if_neg hclose]

/-- **The rest of a block comment** is blanked out up to its end, and masking goes on behind it.

**Proof sketch.** By induction on the text. If the closing pair stands at its head, the comment ends
behind it. Otherwise the first byte is blanked out, and the end is that of what follows it. -/
theorem maskFrom_blockComment (s : Bytes) :
    ∃ stop, EndsAt s 0 stop ∧
      maskFrom .blockComment s = (s.take stop).map blank ++ mask (s.drop stop) := by
  induction s with
  | nil => exact ⟨0, .inr ⟨fun _ _ => not_closesAt_of_length_le (by simp), rfl⟩, rfl⟩
  | cons b s ih =>
    by_cases hclose : ClosesAt (b :: s) 0
    · obtain ⟨hb, hs⟩ := hclose
      obtain rfl : b = byte '*' := by simpa using hb
      obtain ⟨tail, rfl⟩ : ∃ tail, s = byte '/' :: tail := by
        cases s with
        | nil => simp at hs
        | cons c tail => exact ⟨tail, by simpa using hs⟩
      refine ⟨2, .inl ⟨0, by omega, ⟨hb, hs⟩, fun j _ hj => by omega, rfl⟩, ?_⟩
      rw [maskFrom_blockComment_close]
      rfl
    · obtain ⟨stop, hend, hmask⟩ := ih
      have hend' : EndsAt (b :: s) 1 (1 + stop) := EndsAt.of_drop hend (by simp)
      refine ⟨1 + stop, (endsAt_succ_iff hclose).mp hend', ?_⟩
      rw [maskFrom_blockComment_cons hclose, hmask, Nat.add_comm]
      rfl

/-- The opening pair starts a block comment. -/
lemma step_code_of_opensAt (h : OpensAt s i) :
    s.drop i = byte '/' :: s.drop (i + 1) ∧
      Mode.code.step (byte '/') (s.drop (i + 1)).head? = (.blockComment, byte ' ') := by
  obtain ⟨hi, hslash⟩ := List.getElem?_eq_some_iff.mp h.1
  constructor
  · rw [List.drop_eq_getElem_cons hi, hslash]
  · have hquote : ¬ (byte '/' = byte '\'' ∨ byte '/' = byte '"') := by decide
    have hhash : (byte '/' == byte '#') = false := by decide
    have hstar : (byte '*' == byte '/') = false := by decide
    rw [List.head?_drop, h.2]
    simp [Mode.step, hquote, startsLine, startsBlock, hhash, hstar]

/-- **What masking does to a block comment** that it meets in code: all of it is blanked out, up to
the first closing pair that starts behind the first byte of the comment, and masking starts anew
behind it. That is the first closing pair behind the opening one unless the two overlap and the
source goes on behind them. -/
theorem mask_block_comment (hcode : modeAt s i = .code) (hopen : OpensAt s i) :
    ∃ stop, EndsAt s (i + 1) stop ∧
      mask s = (mask s).take i ++ ((s.drop i).take (stop - i)).map blank ++ mask (s.drop stop) ∧
      (EndsAt s (i + 2) stop ↔ ¬ (s[i + 2]? = some (byte '/') ∧ i + 3 < s.length)) := by
  obtain ⟨count, hend, hmask⟩ := maskFrom_blockComment (s.drop (i + 1))
  obtain ⟨hdrop, hstep⟩ := step_code_of_opensAt hopen
  have hi := (List.getElem?_eq_some_iff.mp hopen.1).1
  have hstop := hend.of_drop (by omega)
  refine ⟨i + 1 + count, hstop, ?_, endsAt_add_two_iff hopen hstop⟩
  have hcount : i + 1 + count - i = count + 1 := by omega
  have hblank : blank (byte '/') = byte ' ' := by decide
  calc mask s = (mask s).take i ++ maskFrom (modeAt s i) (s.drop i) := maskFrom_eq_append .code s i
    _ = (mask s).take i ++ byte ' ' :: maskFrom .blockComment (s.drop (i + 1)) := by
      rw [hcode, hdrop, maskFrom_cons, hstep]
    _ = (mask s).take i ++ ((s.drop i).take (i + 1 + count - i)).map blank ++
        mask (s.drop (i + 1 + count)) := by
      rw [hmask, hdrop, hcount, List.take_succ_cons, List.map_cons, List.drop_drop, hblank]
      simp

/-- A source with a block comment that has a star and a slash of its own. -/
def commentSample : Bytes := utf8 "a /* * / \n */ b"

/-- The comment of the sample. -/
theorem mask_block_comment_sample :
    modeAt commentSample 2 = .code ∧ OpensAt commentSample 2 ∧
      ∃ stop, EndsAt commentSample 3 stop ∧
        mask commentSample = (mask commentSample).take 2 ++
          ((commentSample.drop 2).take (stop - 2)).map blank ++ mask (commentSample.drop stop) ∧
        (EndsAt commentSample 4 stop ↔
          ¬ (commentSample[4]? = some (byte '/') ∧ 5 < commentSample.length)) := by
  have hcode : modeAt commentSample 2 = .code := by decide
  have hopen : OpensAt commentSample 2 := by decide
  exact ⟨hcode, hopen, mask_block_comment hcode hopen⟩

/-- A source in which the opening pair of a block comment overlaps with a closing pair. -/
def overlapSample : Bytes := utf8 "/*/ x */"

/-- **A comment that ends too early**: the first closing pair behind the opening one ends at offset
8, but masking takes the two overlapping pairs for a whole comment and keeps what follows. -/
theorem block_comment_cut_short :
    modeAt overlapSample 0 = .code ∧ OpensAt overlapSample 0 ∧ EndsAt overlapSample 2 8 ∧
      mask overlapSample = utf8 "    x */" ∧
      mask overlapSample ≠ (overlapSample.take 8).map blank ++ mask (overlapSample.drop 8) := by
  refine ⟨by decide, by decide, .inl ⟨6, by decide, by decide, ?_, rfl⟩, by decide, by decide⟩
  intro j hj hlt
  have hbetween : ∀ j < 6, ¬ ClosesAt overlapSample j ∨ j = 1 := by decide
  exact (hbetween j hlt).resolve_right (by omega)

end Masking

end LintPool.Source
