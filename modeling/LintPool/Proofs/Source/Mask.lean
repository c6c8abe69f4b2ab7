import LintPool.Source.Mask
import Mathlib.Data.List.Forall2

/-!
# Masking keeps the layout

Masking goes through a text byte by byte, with one mode before each byte. A byte is kept, or it is
part of a comment, and then it becomes a space unless it is a line break. So nothing moves. Masked
text has no comments left: where the source is inside a comment, the masked text is code, and
everywhere else both are in the same mode.

## Main definitions

* `LintPool.Source.maskFrom` : the masked form of a text that starts in a given mode.
* `LintPool.Source.Mode.after`, `LintPool.Source.modeAt` : the mode behind the first bytes of a
  text.
* `LintPool.Source.Move` : all that one step can do.
* `LintPool.Source.Blanked` : a byte and what may stand for it.
* `LintPool.Source.Mode.masked` : the mode of the masked text.

## Main results

* `LintPool.Source.maskFrom_eq_append` : masking can be cut at any offset.
* `LintPool.Source.forall₂_blanked` : what stands for each byte.
* `LintPool.Source.maskFrom_maskFrom` : masked text stays as it is.
-/

namespace LintPool.Source

/-- The masked form of a text that starts in a given mode. -/
def maskFrom (mode : Mode) (s : Bytes) : Bytes := maskAux mode [] s

/-- A step of masking. -/
lemma maskAux_cons (mode : Mode) (acc : Bytes) (b : UInt8) (s : Bytes) :
    maskAux mode acc (b :: s) =
      maskAux (mode.step b s.head?).1 ((mode.step b s.head?).2 :: acc) s := rfl

/-- What was masked before stands in front. -/
lemma maskAux_eq (mode : Mode) (acc s : Bytes) :
    maskAux mode acc s = acc.reverse ++ maskFrom mode s := by
  induction s generalizing mode acc with
  | nil => simp [maskFrom, maskAux]
  | cons b s ih =>
    rw [maskFrom, maskAux_cons, maskAux_cons, ih, ih _ [_]]
    simp

/-- Nothing is left of an empty text. -/
@[simp] lemma maskFrom_nil (mode : Mode) : maskFrom mode [] = [] := rfl

/-- The first byte is masked by one step, and the others go on from there. -/
lemma maskFrom_cons (mode : Mode) (b : UInt8) (s : Bytes) :
    maskFrom mode (b :: s) =
      (mode.step b s.head?).2 :: maskFrom (mode.step b s.head?).1 s := by
  rw [maskFrom, maskAux_cons, maskAux_eq]
  rfl

/-! ## Cutting a text -/

/-- The mode behind the first bytes of a text. -/
def Mode.after (mode : Mode) : (s : Bytes) → (count : Nat) → Mode
  | _, 0 => mode
  | [], _ + 1 => mode
  | b :: s, count + 1 => (mode.step b s.head?).1.after s count

/-- The mode in which masking meets the byte at an offset. -/
def modeAt (s : Bytes) (offset : Nat) : Mode := Mode.code.after s offset

/-- **Masking can be cut at any offset**: the masked text goes on in the mode that was reached.

**Proof sketch.** By induction on the text, with the mode open. The byte that a step looks ahead to
is the first one of the rest, whether or not the cut lies before it. -/
theorem maskFrom_eq_append (mode : Mode) (s : Bytes) (count : Nat) :
    maskFrom mode s =
      (maskFrom mode s).take count ++ maskFrom (mode.after s count) (s.drop count) := by
  induction s generalizing mode count with
  | nil => cases count <;> simp
  | cons b s ih =>
    cases count with
    | zero => simp [Mode.after]
    | succ count =>
      have hrest := ih (mode.step b s.head?).1 count
      rw [maskFrom_cons, List.take_succ_cons, List.drop_succ_cons, List.cons_append, Mode.after,
        ← hrest]

/-! ## Steps -/

/-- All that one step can do: the mode before it, the byte and the one behind it, the mode after it
and the byte that stands for the first one. -/
inductive Move : Mode → UInt8 → Option UInt8 → Mode → UInt8 → Prop
  | openQuote {b next} : b = byte '\'' ∨ b = byte '"' → Move .code b next (.quoted b) b
  | openLine {b next} : startsLine b next = true → Move .code b next .lineComment (byte ' ')
  | openBlock {b next} : startsBlock b next = true → Move .code b next .blockComment (byte ' ')
  | code {b next} : ¬ (b = byte '\'' ∨ b = byte '"') → startsLine b next = false →
      startsBlock b next = false → Move .code b next .code b
  | closeQuote {quote b next} : b = quote ∨ b = byte '\n' → Move (.quoted quote) b next .code b
  | escape {quote b next} : ¬ (b = quote ∨ b = byte '\n') → b = byte '\\' →
      Move (.quoted quote) b next (.escaped quote) b
  | quoted {quote b next} : ¬ (b = quote ∨ b = byte '\n') → b ≠ byte '\\' →
      Move (.quoted quote) b next (.quoted quote) b
  | escaped {quote b next} : Move (.escaped quote) b next (.quoted quote) b
  | closeLine {next} : Move .lineComment (byte '\n') next .code (byte '\n')
  | line {b next} : b ≠ byte '\n' → Move .lineComment b next .lineComment (byte ' ')
  | closeBlock : Move .blockComment (byte '*') (some (byte '/')) .blockEnd (byte ' ')
  | block {b next} : ¬ (b = byte '*' ∧ next = some (byte '/')) →
      Move .blockComment b next .blockComment (blank b)
  | endBlock {b next} : Move .blockEnd b next .code (byte ' ')

variable {mode mode' : Mode} {b c : UInt8} {next : Option UInt8} {s : Bytes}

/-- A step is one of these. -/
lemma move_step (mode : Mode) (b : UInt8) (next : Option UInt8) :
    Move mode b next (mode.step b next).1 (mode.step b next).2 := by
  cases mode with
  | code =>
    by_cases hquote : b = byte '\'' ∨ b = byte '"'
    · simpa [Mode.step, hquote] using Move.openQuote hquote
    · cases hline : startsLine b next with
      | true => simpa [Mode.step, hquote, hline] using Move.openLine hline
      | false =>
        cases hblock : startsBlock b next with
        | true => simpa [Mode.step, hquote, hline, hblock] using Move.openBlock hblock
        | false => simpa [Mode.step, hquote, hline, hblock] using Move.code hquote hline hblock
  | quoted quote =>
    by_cases hclose : b = quote ∨ b = byte '\n'
    · simpa [Mode.step, hclose] using Move.closeQuote hclose
    · by_cases hescape : b = byte '\\'
      · simpa only [Mode.step, if_neg hclose, if_pos hescape] using Move.escape hclose hescape
      · simpa only [Mode.step, if_neg hclose, if_neg hescape] using Move.quoted hclose hescape
  | escaped quote => exact .escaped
  | lineComment =>
    by_cases hb : b = byte '\n'
    · subst hb
      exact .closeLine
    · simpa [Mode.step, blank, hb] using Move.line hb
  | blockComment =>
    by_cases hclose : b = byte '*' ∧ next = some (byte '/')
    · obtain ⟨rfl, rfl⟩ := hclose
      exact .closeBlock
    · simpa only [Mode.step, if_neg hclose] using Move.block hclose
  | blockEnd => exact .endBlock

/-! ## Layout -/

/-- What may stand for a byte in the masked text: the byte itself, or a space if it is no line
break. -/
def Blanked (b masked : UInt8) : Prop := masked = b ∨ (masked = byte ' ' ∧ b ≠ byte '\n')

/-- A byte of a comment is blanked out. -/
lemma blanked_blank (b : UInt8) : Blanked b (blank b) := by
  by_cases hb : b = byte '\n'
  · left
    rw [blank, if_pos hb]
  · right
    rw [blank, if_neg hb]
    exact ⟨rfl, hb⟩

/-- A line break starts no comment. -/
lemma ne_newline_of_starts (h : startsLine b next = true ∨ startsBlock b next = true) :
    b ≠ byte '\n' := by
  rintro rfl
  have hhash : (byte '\n' == byte '#') = false := by decide
  have hslash : (byte '\n' == byte '/') = false := by decide
  simp [startsLine, startsBlock, hhash, hslash] at h

/-- **What one step does to a byte.** The slash that ends a block comment is taken for granted. -/
lemma Move.blanked (h : Move mode b next mode' c) (hend : mode = .blockEnd → b = byte '/') :
    Blanked b c := by
  cases h with
  | openQuote | code | closeQuote | escape | quoted | escaped | closeLine => exact .inl rfl
  | openLine hline => exact .inr ⟨rfl, ne_newline_of_starts (.inl hline)⟩
  | openBlock hblock => exact .inr ⟨rfl, ne_newline_of_starts (.inr hblock)⟩
  | line hb => exact .inr ⟨rfl, hb⟩
  | closeBlock => exact .inr ⟨rfl, by decide⟩
  | block => exact blanked_blank b
  | endBlock =>
    rw [hend rfl]
    exact .inr ⟨rfl, by decide⟩

/-- The mode before the slash that ends a block comment is reached before a slash. -/
lemma Move.next_of_blockEnd (h : Move mode b next .blockEnd c) : next = some (byte '/') := by
  cases h
  rfl

/-- **Layout**: every byte is kept or blanked out where it stands. -/
theorem forall₂_blanked (hend : mode = .blockEnd → ∀ b ∈ s.head?, b = byte '/') :
    List.Forall₂ Blanked s (maskFrom mode s) := by
  induction s generalizing mode with
  | nil => exact .nil
  | cons b s ih =>
    have hmove := move_step mode b s.head?
    rw [maskFrom_cons]
    refine .cons (hmove.blanked fun hmode => hend hmode b rfl) (ih ?_)
    intro hmode d hd
    rw [hmode] at hmove
    rw [hmove.next_of_blockEnd] at hd
    exact (Option.mem_some_iff.mp hd).symm

/-- Every byte of a source is kept or blanked out where it stands. -/
lemma forall₂_blanked_mask (s : Bytes) : List.Forall₂ Blanked s (mask s) :=
  forall₂_blanked (by simp)

/-- Masking keeps the length. -/
lemma length_mask (s : Bytes) : (mask s).length = s.length :=
  (forall₂_blanked_mask s).length_eq.symm

/-- What stands at an offset of a source and of the masked source. -/
lemma getElem?_mask (s : Bytes) (i : Nat) :
    (s[i]? = none ∧ (mask s)[i]? = none) ∨
      ∃ b masked, s[i]? = some b ∧ (mask s)[i]? = some masked ∧ Blanked b masked := by
  by_cases hi : i < s.length
  · right
    have hi' : i < (mask s).length := by rwa [length_mask]
    refine ⟨s[i], (mask s)[i], List.getElem?_eq_getElem hi, List.getElem?_eq_getElem hi', ?_⟩
    exact (List.forall₂_iff_get.mp (forall₂_blanked_mask s)).2 i hi hi'
  · left
    have hi : s.length ≤ i := by omega
    refine ⟨List.getElem?_eq_none hi, List.getElem?_eq_none ?_⟩
    rwa [length_mask]

/-! ## Masking twice -/

/-- The mode of the masked text where the text is in a given mode: a comment is code there. -/
def Mode.masked : Mode → Mode
  | .quoted quote => .quoted quote
  | .escaped quote => .escaped quote
  | _ => .code

/-- A space or a line break in code is kept. -/
lemma step_code_blank (next : Option UInt8) (hb : b = byte ' ' ∨ b = byte '\n') :
    Mode.code.step b next = (.code, b) := by
  have hbytes : ¬ (b = byte '\'' ∨ b = byte '"') ∧ (b == byte '#') = false ∧
      (b == byte '/') = false := by
    rcases hb with rfl | rfl
    · decide
    · decide
  obtain ⟨hquote, hhash, hslash⟩ := hbytes
  simp [Mode.step, hquote, startsLine, startsBlock, hhash, hslash]

/-- A bracket in code is kept. -/
lemma step_code_bracket (next : Option UInt8) :
    (Mode.code.step (byte '[') next).2 = byte '[' := by
  have hquote : ¬ (byte '[' = byte '\'' ∨ byte '[' = byte '"') := by decide
  have hhash : (byte '[' == byte '#') = false := by decide
  have hslash : (byte '[' == byte '/') = false := by decide
  simp [Mode.step, hquote, startsLine, startsBlock, hhash, hslash]

/-- A byte that starts no comment starts none in the masked text either: the byte behind it is kept
or blanked out, and a bracket is kept. -/
lemma starts_eq_false_of_masked (hline : startsLine b s.head? = false)
    (hblock : startsBlock b s.head? = false) :
    startsLine b (maskFrom .code s).head? = false ∧
      startsBlock b (maskFrom .code s).head? = false := by
  cases s with
  | nil => exact ⟨hline, hblock⟩
  | cons d s =>
    have hmove := move_step .code d s.head?
    rw [maskFrom_cons, List.head?_cons]
    rcases hmove.blanked (by simp) with hkept | ⟨hblank, -⟩
    · rw [hkept]
      exact ⟨hline, hblock⟩
    · have hbracket : d ≠ byte '[' := by
        rintro rfl
        rw [step_code_bracket] at hblank
        exact absurd hblank (by decide)
      have hspace : byte ' ' ≠ byte '[' ∧ byte ' ' ≠ byte '/' ∧ byte ' ' ≠ byte '*' := by decide
      have hhash : b ≠ byte '#' ∧ (b = byte '/' → d ≠ byte '/') := by
        simpa [startsLine, hbracket] using hline
      simp [hblank, startsLine, startsBlock, hspace, hhash.1]

/-- Where the text goes on from a mode to another one, so does the masked text, and keeps the byte.
-/
lemma Move.step_masked (h : Move mode b next mode' c) (hnext : s.head? = next) :
    mode.masked.step c (maskFrom mode' s).head? = (mode'.masked, c) := by
  cases h with
  | openQuote hquote => simp [Mode.masked, Mode.step, hquote]
  | openLine | openBlock | line | closeBlock | endBlock => exact step_code_blank _ (.inl rfl)
  | closeLine => exact step_code_blank _ (.inr rfl)
  | block =>
    apply step_code_blank
    by_cases hb : b = byte '\n'
    · simp [blank, hb]
    · simp [blank, hb]
  | code hquote hline hblock =>
    rw [← hnext] at hline hblock
    obtain ⟨hline, hblock⟩ := starts_eq_false_of_masked hline hblock
    simp [Mode.masked, Mode.step, hquote, hline, hblock]
  | closeQuote hclose => simp [Mode.masked, Mode.step, hclose]
  | escape hclose hescape => simp only [Mode.masked, Mode.step, if_neg hclose, if_pos hescape]
  | quoted hclose hescape => simp only [Mode.masked, Mode.step, if_neg hclose, if_neg hescape]
  | escaped => rfl

/-- **Masked text stays as it is** if it is masked again, from the mode that it is in.

**Proof sketch.** By induction on the text, with the mode open. One step on the text and one on the
masked text lead to modes that belong together again (`Move.step_masked`). -/
theorem maskFrom_maskFrom (mode : Mode) (s : Bytes) :
    maskFrom mode.masked (maskFrom mode s) = maskFrom mode s := by
  induction s generalizing mode with
  | nil => rfl
  | cons b s ih =>
    rw [maskFrom_cons, maskFrom_cons, (move_step mode b s.head?).step_masked rfl, ih]

end LintPool.Source
